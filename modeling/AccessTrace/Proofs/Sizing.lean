import Mathlib
import AccessTrace.Proofs.Placement
import AccessTrace.Proofs.TracedThreads

/-!
# How large a buffer has to be

A check for a delivery leaves fewer than half of the slots of a buffer occupied, or just the header
slot (`afterCheck`). What the plans write up to the next check, that of the plan with the check
included, therefore fits if it fits behind that many slots. On a channel that takes every message no
plan fails then, however long the run (`executeEach_fits`), and the thread ends well
(`sized_thread_succeeds`).
-/

namespace AccessTrace

/-- The segments of a run of plans: each ends with the plan of a check, the last one where the run
ends. -/
def segments : List InstructionPlan → List BlockPlan
  | [] => []
  | p :: rest =>
    if p.hasFlushCheck then [p] :: segments rest
    else match segments rest with
      | [] => [[p]]
      | segment :: more => (p :: segment) :: more

/-- The slots that may be occupied after a check. -/
def afterCheck (capacity : Nat) : Nat := max 1 (capacity / 2 - 1)

theorem afterCheck_le {capacity : Nat} (two : 2 ≤ capacity) : afterCheck capacity ≤ capacity := by
  unfold afterCheck
  omega

/-- All segments fit behind the slots that are occupied when they begin: `occupied` for the first,
what a check leaves for the others. -/
def Fit (capacity occupied : Nat) : List BlockPlan → Prop
  | [] => True
  | first :: others => occupied + first.entries ≤ capacity ∧
      ∀ segment ∈ others, afterCheck capacity + segment.entries ≤ capacity

namespace Channel

variable {σ : Type} [Channel σ]

/-- Every message is taken, whatever was sent before. -/
def Accepting (c : σ) : Prop :=
  ∀ (sent : List (List UInt8)) (bytes : List UInt8),
    (send (sent.foldl (fun c message => (send c message).2) c) bytes).1 = .ok ()

theorem Accepting.send {c : σ} (accepting : Accepting c) (bytes : List UInt8) :
    ∃ c', send c bytes = (.ok (), c') ∧ Accepting c' := by
  refine ⟨(Channel.send c bytes).2, ?_, fun sent => accepting (bytes :: sent)⟩
  exact Prod.ext (accepting [] bytes) rfl

end Channel

/-- A recorder without limit that is open takes every message. -/
theorem Recorder.accepting {c : Recorder} (unlimited : c.limit = none) (isOpen : c.closed = false) :
    Channel.Accepting c := by
  intro sent bytes
  induction sent generalizing c with
  | nil =>
    have accepts : c.Accepts bytes.length := ⟨isOpen, by rw [Takes, unlimited]; simp⟩
    exact congrArg Prod.fst (send_accepted accepts)
  | cons message sent ih =>
    have accepts : c.Accepts message.length := ⟨isOpen, by rw [Takes, unlimited]; simp⟩
    have through : Channel.send c message =
      (.ok (), { c with messages := c.messages.push message }) := send_accepted accepts
    rw [List.foldl_cons, through]
    exact ih unlimited isOpen

namespace Buffer

variable {σ : Type} [Channel σ]

/-- A delivery that is not put off empties the buffer if every message is taken. -/
theorem flush_accepting (b : Buffer) (pid : UInt32) {policy : FlushPolicy} {channel : σ}
    (accepting : Channel.Accepting channel)
    (now : ¬(policy = .deferrable && b.mayDefer) = true) :
    ∃ n r b' channel', b.flush channel pid policy = (.ok (.flushed n r), b', channel') ∧
      b'.ptr = headerBytes ∧ Channel.Accepting channel' := by
  obtain ⟨r, b₁, channel₁, registered, accepting₁⟩ : ∃ r b₁ channel₁,
      b.writeHeader.register channel pid = (.ok r, b₁, channel₁) ∧ Channel.Accepting channel₁ := by
    cases known : b.writeHeader.registered with
    | true => exact ⟨_, _, _, register_registered known, accepting⟩
    | false =>
      obtain ⟨channel₁, through, accepting₁⟩ :=
        accepting.send (registration b.writeHeader.tid pid)
      exact ⟨_, _, _, register_through known through, accepting₁⟩
  obtain ⟨channel₂, through, accepting₂⟩ := accepting₁.send b₁.occupiedBytes
  exact ⟨_, r, _, channel₂, flush_delivered now registered (deliver_through through), rfl,
    accepting₂⟩

end Buffer

namespace Host

variable {σ : Type} [Channel σ]

/-- Executes plans one after the other, each with registers and spill slots of its own, and says
what became of each. -/
def executeEach (b : Buffer) (t : Tracer σ) :
    List (Machine × InstructionPlan) → List (Except TraceError Unit) × Buffer × Tracer σ
  | [] => ([], b, t)
  | (machine, plan) :: rest =>
    match execute { machine, buffer := b, tracer := t } plan with
    | (answer, h) =>
      match executeEach h.buffer h.tracer rest with
      | (answers, b, t) => (answer :: answers, b, t)

/-- The buffer of a running thread with `occupied` of its slots in use, under a tracer whose channel
takes every message. -/
structure Stocked (capacity occupied : Nat) (b : Buffer) (t : Tracer σ) : Prop where
  accepting : Channel.Accepting t.channel
  active : b.phase = .active
  capacity : b.capacity = capacity
  ptr : b.ptr = occupied * Entry.byteSize

variable {capacity occupied : Nat} {b : Buffer} {t : Tracer σ} {p : InstructionPlan}

theorem Stocked.occupied_eq (stocked : Stocked capacity occupied b t) : b.occupied = occupied := by
  rw [Buffer.occupied, stocked.ptr]
  simp only [Entry.byteSize]
  omega

/-- A check puts the delivery off below half of the slots, and leaves the header slot otherwise. -/
theorem Stocked.flush (stocked : Stocked capacity occupied b t) :
    ∃ outcome b' t', t.flush b .deferrable = (.ok outcome, b', t') ∧
      ∃ left ≤ afterCheck capacity, Stocked capacity left b' t' := by
  by_cases deferred : b.mayDefer = true
  · have low : b.occupied < b.capacity / 2 := of_decide_eq_true deferred
    rw [stocked.occupied_eq, stocked.capacity] at low
    have kept : b.flush t.channel t.pid .deferrable = (.ok .deferred, b, t.channel) :=
      Buffer.flush_deferred (by rw [deferred]; rfl)
    exact ⟨_, _, _, Tracer.flush_eq kept, occupied, by unfold afterCheck; omega, stocked⟩
  · have now : ¬((FlushPolicy.deferrable = .deferrable) && b.mayDefer) = true := by
      simpa using deferred
    obtain ⟨n, r, b', channel', flushed, empty, accepting⟩ :=
      b.flush_accepting t.pid stocked.accepting now
    have life := Buffer.flush_life flushed
    refine ⟨_, _, _, Tracer.flush_eq flushed, 1, by unfold afterCheck; omega, accepting,
      life.phase.trans stocked.active, life.capacity.trans stocked.capacity, ?_⟩
    rw [empty, Nat.one_mul]
    rfl

/-- A plan whose entries fit is executed. Without a check it leaves so many more slots occupied,
with one no more than a check leaves. -/
theorem Stocked.execute (stocked : Stocked capacity occupied b t) {s : Instrumentation}
    {i : Instruction} (made : s.Makes i p) (fits : occupied + p.entries ≤ capacity)
    (machine : Machine) :
    ∃ h', execute { machine, buffer := b, tracer := t } p = (.ok (), h') ∧
      (p.hasFlushCheck = false → Stocked capacity (occupied + p.entries) h'.buffer h'.tracer) ∧
      (p.hasFlushCheck = true →
        ∃ left ≤ afterCheck capacity, Stocked capacity left h'.buffer h'.tracer) := by
  obtain ⟨check, rfl⟩ := made.eq_plan
  have count : (s.plan i check).entries = s.entryCount i := rfl
  have room : b.ptr + s.entryCount i * Entry.byteSize ≤ b.byteCapacity := by
    rw [stocked.ptr, Buffer.byteCapacity, stocked.capacity, ← Nat.add_mul]
    exact Nat.mul_le_mul_right _ fits
  obtain ⟨h₁, run, wrote⟩ := exec_operations s i { machine, buffer := b, tracer := t } room
  have written : Stocked capacity (occupied + s.entryCount i) h₁.buffer h₁.tracer := by
    have appended := wrote.appended
    refine ⟨by rw [wrote.tracer]; exact stocked.accepting, appended.phase.trans stocked.active,
      appended.capacity.trans stocked.capacity, ?_⟩
    rw [appended.ptr, Instruction.length_entries, Nat.add_mul]
    exact congrArg (· + s.entryCount i * Entry.byteSize) stocked.ptr
  rw [Instrumentation.hasFlushCheck_plan, count, execute_plan, run]
  cases check with
  | false => exact ⟨h₁, rfl, fun _ => written, fun checked => by cases checked⟩
  | true =>
    obtain ⟨outcome, b', t', flushed, left⟩ := written.flush
    obtain ⟨machine₁, b₁, t₁⟩ := h₁
    refine ⟨{ machine := machine₁, buffer := b', tracer := t' }, ?_, ?_, fun _ => left⟩
    · simp only [if_true, step, flushed]
    · intro unchecked
      cases unchecked

/-- Plans whose segments fit are all executed, whatever their number. -/
theorem executeEach_fits {steps : List (Machine × InstructionPlan)}
    (stocked : Stocked capacity occupied b t)
    (made : ∀ step ∈ steps, ∃ s i, Instrumentation.Makes s i step.2)
    (fit : Fit capacity occupied (segments (steps.map Prod.snd))) :
    ∃ left b' t', executeEach b t steps = (steps.map fun _ => .ok (), b', t') ∧
      Stocked capacity left b' t' := by
  induction steps generalizing occupied b t with
  | nil => exact ⟨occupied, b, t, rfl, stocked⟩
  | cons step rest ih =>
    obtain ⟨machine, p⟩ := step
    obtain ⟨s, i, here⟩ : ∃ s i, Instrumentation.Makes s i p :=
      made (machine, p) List.mem_cons_self
    have later : ∀ step ∈ rest, ∃ s i, Instrumentation.Makes s i step.2 :=
      fun step mem => made step (List.mem_cons_of_mem _ mem)
    rw [List.map_cons, segments] at fit
    -- The run goes on from what this plan leaves, be it within a segment or behind a check.
    obtain ⟨h', run, next, stocked', fit'⟩ : ∃ h',
        execute { machine, buffer := b, tracer := t } p = (.ok (), h') ∧
        ∃ next, Stocked capacity next h'.buffer h'.tracer ∧
          Fit capacity next (segments (rest.map Prod.snd)) := by
      cases checked : p.hasFlushCheck with
      | true =>
        rw [if_pos checked] at fit
        have alone : BlockPlan.entries [p] = p.entries := Nat.add_zero _
        obtain ⟨h', run, -, emptied⟩ := stocked.execute here (alone ▸ fit.1) machine
        obtain ⟨left, low, stocked'⟩ := emptied checked
        refine ⟨h', run, left, stocked', ?_⟩
        have others := fit.2
        cases ahead : segments (rest.map Prod.snd) with
        | nil => trivial
        | cons first more =>
          rw [ahead] at others
          have room := others first List.mem_cons_self
          exact ⟨by omega, fun segment mem => others segment (List.mem_cons_of_mem _ mem)⟩
      | false =>
        rw [if_neg (by rw [checked]; decide)] at fit
        cases ahead : segments (rest.map Prod.snd) with
        | nil =>
          rw [ahead] at fit
          have alone : BlockPlan.entries [p] = p.entries := Nat.add_zero _
          obtain ⟨h', run, grown, -⟩ := stocked.execute here (alone ▸ fit.1) machine
          exact ⟨h', run, _, grown checked, trivial⟩
        | cons first more =>
          rw [ahead] at fit
          have sum : BlockPlan.entries (p :: first) = p.entries + BlockPlan.entries first := rfl
          have room := fit.1
          rw [sum] at room
          have enough : occupied + p.entries ≤ capacity := by omega
          obtain ⟨h', run, grown, -⟩ := stocked.execute here enough machine
          exact ⟨h', run, _, grown checked, by omega, fit.2⟩
    obtain ⟨left, b', t', runs, final⟩ := ih stocked' later fit'
    refine ⟨left, b', t', ?_, final⟩
    simp only [executeEach, run, runs, List.map_cons]

/-- A running thread ends well on a channel that takes every message. -/
theorem Stocked.finish (stocked : Stocked capacity occupied b t) :
    ∃ refs, (t.finish b).1 = .ok refs := by
  obtain ⟨n, r, b', channel', flushed, -, -⟩ :=
    Buffer.flush_accepting { b with phase := .draining } t.pid stocked.accepting
      (show ¬((FlushPolicy.forced = .deferrable) && _) = true by simp)
  exact ⟨b'.refs, congrArg Prod.fst (Tracer.finish_eq stocked.active flushed)⟩

/-- A buffer is large enough if what is written up to each check, the plan of the check included,
fits behind what a check can leave: no plan of a run fails then, whatever the registers hold, and
the thread ends well. -/
theorem sized_thread_succeeds {t t' : Tracer σ} {tid : UInt64} {b : Buffer}
    (started : t.start tid = (.ok b, t')) (accepting : Channel.Accepting t.channel)
    {steps : List (Machine × InstructionPlan)}
    (made : ∀ step ∈ steps, ∃ s i, Instrumentation.Makes s i step.2)
    (sized : ∀ segment ∈ segments (steps.map Prod.snd),
      segment.entries ≤ t.capacity - max 1 (t.capacity / 2 - 1)) :
    ∃ b' t'' refs, executeEach b t' steps = (steps.map fun _ => .ok (), b', t'') ∧
      (t''.finish b').1 = .ok refs := by
  rcases t.start_eq tid with ⟨b₀, start, -, capacity, -, -, fresh⟩ | ⟨e, -, start⟩
  · rw [start] at started
    cases started
    have stocked : Stocked t.capacity 1 b { t with roster := t.roster.enter b.tid } :=
      ⟨accepting, fresh.active, capacity, by rw [fresh.empty]; rfl⟩
    have two := b.two_le_capacity
    rw [capacity] at two
    have room := afterCheck_le two
    have one : 1 ≤ afterCheck t.capacity := Nat.le_max_left _ _
    have fit : Fit t.capacity 1 (segments (steps.map Prod.snd)) := by
      cases all : segments (steps.map Prod.snd) with
      | nil => trivial
      | cons first more =>
        rw [all] at sized
        have behind : ∀ segment ∈ first :: more,
            afterCheck t.capacity + segment.entries ≤ t.capacity := by
          intro segment mem
          have small := sized segment mem
          rw [← afterCheck] at small
          omega
        have first := behind first List.mem_cons_self
        exact ⟨by omega, fun segment mem => behind segment (List.mem_cons_of_mem _ mem)⟩
    obtain ⟨left, b', t'', run, final⟩ := executeEach_fits stocked made fit
    obtain ⟨refs, finished⟩ := final.finish
    exact ⟨b', t'', refs, run, finished⟩
  · rw [start] at started
    cases started

/-- The plan of a load that writes two entries and checks. -/
def checkedLoad : InstructionPlan :=
  ({ architecture := .x86, fetches := true } : Instrumentation).plan aliasedLoad true

/-- A tracer whose buffers have just the slots for such plans. -/
def narrowTracer : Tracer Recorder := { pid := 1, capacity := 3, channel := {} }

theorem sized_thread_succeeds_narrow : ∃ b t' b' t'' refs,
    narrowTracer.start 7 = (.ok b, t') ∧
    executeEach b t' [({}, checkedLoad), (Machine.setAll {} [(1, 64)], checkedLoad)] =
      ([.ok (), .ok ()], b', t'') ∧ (t''.finish b').1 = .ok refs := by
  have made : ∀ step ∈ [(({} : Machine), checkedLoad), (Machine.setAll {} [(1, 64)], checkedLoad)],
      ∃ s i, Instrumentation.Makes s i step.2 := by
    intro step mem
    refine ⟨{ architecture := .x86, fetches := true }, aliasedLoad, [aliasedLoad], [checkedLoad], 0,
      rfl, rfl, ?_⟩
    fin_cases mem <;> rfl
  obtain ⟨b', t'', refs, run, finished⟩ :=
    sized_thread_succeeds (show narrowTracer.start 7 = (.ok _, _) from rfl)
      (Recorder.accepting rfl rfl) made (by decide +kernel)
  exact ⟨_, _, b', t'', refs, rfl, run, finished⟩

end Host

end AccessTrace
