import Mathlib
import AccessTrace.Proofs.Attempts
import AccessTrace.Proofs.Sizing

/-!
# Executions that fail

The pointer of a running thread's buffer is always between two slots (`Filled.aligned`). Executing a
plan therefore ends in one of three ways (`Ending`): it is executed to the last operation, it stops
at the very end of the buffer, or all of it is executed but the check. Of the two that fail the
first leaves everything that counts as it was (`Untouched`), and in the second all entries are there
and the program has its registers back (`Undelivered`).
-/

namespace AccessTrace

/-- The buffers that a thread comes to have between its start and its end: it appends entries,
executes plans and delivers, whatever comes of it. -/
inductive Filled (σ : Type) [Channel σ] : Buffer → Prop
  | start {t t' : Tracer σ} {tid : UInt64} {b : Buffer} (started : t.start tid = (.ok b, t')) :
    Filled σ b
  | push {b : Buffer} (e : Entry) : Filled σ b → Filled σ (b.push e).2
  | execute {s : Instrumentation} {i : Instruction} {p : InstructionPlan} (made : s.Makes i p)
    (h : Host σ) : Filled σ h.buffer → Filled σ (h.execute p).2.buffer
  | flush {b : Buffer} (t : Tracer σ) (policy : FlushPolicy) :
    Filled σ b → Filled σ (t.flush b policy).2.1

namespace Host

variable {σ : Type} [Channel σ] {s : Instrumentation} {i : Instruction} {check : Bool}
  {h h' : Host σ} {answer : Except TraceError Unit}

/-! ## The check of a plan -/

theorem aligned_step_flushCheck (aligned : h.buffer.ptr % Entry.byteSize = 0)
    (checked : h.step .flushCheck = (answer, h')) : h'.buffer.ptr % Entry.byteSize = 0 := by
  rcases flush : h.buffer.flush h.tracer.channel h.tracer.pid .deferrable with ⟨outcome, b', c'⟩
  rw [step_flushCheck flush] at checked
  cases checked
  exact Buffer.aligned_flush aligned flush

/-- A check fails by the channel alone, and what was to be sent is still there. -/
theorem unsent_of_refused {e : TraceError} (refused : h.step .flushCheck = (.error e, h')) :
    ∃ cause, e = .channel cause ∧ h'.machine = h.machine ∧ h.buffer.Unsent h'.buffer := by
  rcases flush : h.buffer.flush h.tracer.channel h.tracer.pid .deferrable with ⟨outcome, b', c'⟩
  rw [step_flushCheck flush] at refused
  cases outcome with
  | ok _ => cases refused
  | error cause =>
    cases refused
    exact ⟨cause, rfl, rfl, Buffer.unsent_of_flush_error flush⟩

/-! ## How executing a plan ends -/

/-- The ways in which executing the plan of an instruction ends. -/
inductive Ending (s : Instrumentation) (i : Instruction) (check : Bool) (h : Host σ) :
    Except TraceError Unit → Host σ → Prop
  /-- All of it was executed. -/
  | done {h₁ h' : Host σ}
    (room : h.buffer.ptr + s.entryCount i * Entry.byteSize ≤ h.buffer.byteCapacity)
    (wrote : Wrote h h₁ (i.entries s.fetches h.machine.get))
    (checked : h' = h₁ ∨ h₁.step .flushCheck = (.ok (), h')) : Ending s i check h (.ok ()) h'
  /-- The entries did not fit. -/
  | full {h' : Host σ}
    (full : h.buffer.byteCapacity < h.buffer.ptr + s.entryCount i * Entry.byteSize)
    (stopped : Stopped h h') : Ending s i check h (.error (fullError h.buffer)) h'
  /-- The entries are there, but the check behind them failed. -/
  | refused {h₁ h' : Host σ} {cause : ChannelError}
    (room : h.buffer.ptr + s.entryCount i * Entry.byteSize ≤ h.buffer.byteCapacity)
    (checks : check = true) (body : h.exec (s.operations i) = (.ok (), h₁))
    (wrote : Wrote h h₁ (i.entries s.fetches h.machine.get))
    (refused : h₁.step .flushCheck = (.error (.channel cause), h')) :
    Ending s i check h (.error (.channel cause)) h'

theorem ending_execute (aligned : h.buffer.ptr % Entry.byteSize = 0)
    (run : h.execute (s.plan i check) = (answer, h')) : Ending s i check h answer h' := by
  rw [execute_plan] at run
  by_cases room : h.buffer.ptr + s.entryCount i * Entry.byteSize ≤ h.buffer.byteCapacity
  · obtain ⟨h₁, all, wrote⟩ := exec_operations s i h room
    rw [all] at run
    cases check with
    | false =>
      cases run
      exact .done room wrote (.inl rfl)
    | true =>
      have checked : h₁.step .flushCheck = (answer, h') := run
      cases answer with
      | ok _ => exact .done room wrote (.inr checked)
      | error e =>
        obtain ⟨cause, rfl, -⟩ := unsent_of_refused checked
        exact .refused room rfl all wrote checked
  · have full := Nat.lt_of_not_le room
    obtain ⟨h₁, stop, stopped⟩ := exec_operations_full s i h aligned full
    rw [stop] at run
    cases run
    exact .full full stopped

omit [Channel σ] in
theorem Wrote.aligned {es : List Entry} (wrote : Wrote h h' es)
    (aligned : h.buffer.ptr % Entry.byteSize = 0) : h'.buffer.ptr % Entry.byteSize = 0 := by
  rw [wrote.appended.ptr, Nat.add_mul_mod_self_right]
  exact aligned

theorem Ending.aligned (ending : Ending s i check h answer h')
    (aligned : h.buffer.ptr % Entry.byteSize = 0) : h'.buffer.ptr % Entry.byteSize = 0 := by
  cases ending with
  | done _ wrote checked =>
    rcases checked with rfl | checked
    · exact wrote.aligned aligned
    · exact aligned_step_flushCheck (wrote.aligned aligned) checked
  | full _ stopped =>
    rw [stopped.same.ptr]
    exact aligned
  | refused _ _ _ wrote refused => exact aligned_step_flushCheck (wrote.aligned aligned) refused

end Host

/-- Whatever a thread has done, the pointer of its buffer is between two slots. -/
theorem Filled.aligned {σ : Type} [Channel σ] {b : Buffer} (filled : Filled σ b) :
    b.ptr % Entry.byteSize = 0 := by
  induction filled with
  | @start t t' tid b started =>
    rcases t.start_eq tid with ⟨_, start, -, -, -, -, fresh⟩ | ⟨_, -, start⟩
    · rw [start] at started
      cases started
      rw [fresh.empty]
      rfl
    · rw [start] at started
      cases started
  | push e _ aligned => exact Buffer.aligned_push aligned e
  | execute made h _ aligned =>
    obtain ⟨check, rfl⟩ := made.eq_plan
    exact (Host.ending_execute aligned rfl).aligned aligned
  | @flush b t policy _ aligned =>
    rcases flush : b.flush t.channel t.pid policy with ⟨outcome, b', c'⟩
    rw [Tracer.flush_eq flush]
    exact Buffer.aligned_flush aligned flush

namespace Host

variable {σ : Type} [Channel σ] {s : Instrumentation} {i : Instruction} {h h' : Host σ}

/-! ## What failures leave -/

/-- Nothing was changed that anyone will ever read: what is in the buffer, its standing and the
tracer with its channel are as they were. -/
structure Untouched (h h' : Host σ) : Prop where
  ptr : h'.buffer.ptr = h.buffer.ptr
  pending : h'.buffer.pending = h.buffer.pending
  header : ∀ k < headerBytes, h'.buffer.bytes[k]? = h.buffer.bytes[k]?
  refs : h'.buffer.refs = h.buffer.refs
  registered : h'.buffer.registered = h.buffer.registered
  tracer : h'.tracer = h.tracer

omit [Channel σ] in
theorem Stopped.untouched (stopped : Stopped h h') : h.Untouched h' where
  ptr := stopped.same.ptr
  pending := Buffer.pending_congr stopped.same.ptr fun k _ inside => stopped.below k inside
  header := fun k inside => stopped.below k (Nat.lt_of_lt_of_le inside h.buffer.header_le_ptr)
  refs := stopped.same.refs
  registered := stopped.same.registered
  tracer := stopped.tracer

/-- All of a plan was executed but the check at its end, which the channel has refused: the entries
are pending behind those from before and none of them is counted, and the program's registers are
what they were. -/
structure Undelivered (p : InstructionPlan) (es : List Entry) (cause : ChannelError)
    (h h' : Host σ) : Prop where
  checks : p.hasFlushCheck = true
  refused : ∃ h₁, h.exec p.body = (.ok (), h₁) ∧
    h₁.step .flushCheck = (.error (.channel cause), h')
  registers : h'.machine.registers = h.machine.registers
  pending : h'.buffer.pending = h.buffer.pending ++ es.map .ok
  refs : h'.buffer.refs = h.buffer.refs

/-- Executing a plan runs out of slots if and only if its entries do not fit behind what the buffer
of the thread holds. It fails in no other way but by its check, and however it fails, nothing is
lost and nothing made up. -/
theorem execute_failures {p : InstructionPlan} (made : s.Makes i p) (h : Host σ)
    (filled : Filled σ h.buffer) :
    ((∃ offset capacity, (h.execute p).1 = .error (.resource (.overflow offset capacity))) ↔
      h.buffer.byteCapacity < h.buffer.ptr + Entry.byteSize * p.entries) ∧
    ∀ e, (h.execute p).1 = .error e →
      (e = .resource (.overflow h.buffer.byteCapacity h.buffer.byteCapacity) ∧
        h.Untouched (h.execute p).2) ∨
      ∃ cause, e = .channel cause ∧
        Undelivered p (i.entries s.fetches h.machine.get) cause h (h.execute p).2 := by
  have aligned := filled.aligned
  obtain ⟨check, rfl⟩ := made.eq_plan
  have bytes : Entry.byteSize * (s.plan i check).entries = s.entryCount i * Entry.byteSize :=
    Nat.mul_comm _ _
  rw [bytes]
  rcases run : h.execute (s.plan i check) with ⟨answer, h'⟩
  cases ending_execute aligned run with
  | done room _ _ => exact ⟨iff_of_false nofun (Nat.not_lt.2 room), nofun⟩
  | full full stopped =>
    refine ⟨iff_of_true ⟨_, _, rfl⟩ full, ?_⟩
    rintro _ ⟨⟩
    exact .inl ⟨rfl, stopped.untouched⟩
  | @refused h₁ _ cause room checks body wrote refused =>
    refine ⟨iff_of_false nofun (Nat.not_lt.2 room), ?_⟩
    rintro _ ⟨⟩
    obtain ⟨_, -, machine, unsent⟩ := unsent_of_refused refused
    refine .inr ⟨cause, rfl, ?_, ⟨h₁, by rw [body_plan, body], refused⟩, ?_, ?_, ?_⟩
    · rw [Instrumentation.hasFlushCheck_plan, checks]
    · rw [machine, wrote.registers]
    · rw [unsent.pending, wrote.appended.pending aligned]
    · rw [unsent.refs, wrote.appended.refs]

/-- A thread that has started, appended an entry and put 256 and 2 into the scratch registers, on a
channel that takes no registration. -/
def crampedHost (capacity : Nat) (room : 2 ≤ capacity)
    (fits : capacity * Entry.byteSize ≤ allocationLimit) : Host Recorder where
  machine := Machine.setAll {} [(1, 256), (3, 2)]
  buffer := (Buffer.push
    { tid := 9, capacity, bytes := Buffer.emptyBytes capacity, phase := .active, attached := true
      two_le_capacity := room, size_bytes := Buffer.size_emptyBytes capacity, fits
      header_le_ptr := Nat.le_refl _, ptr_le := Buffer.headerBytes_le room } (.read 8 64)).2
  tracer := { pid := 1, capacity, channel := { limit := some 16 }, roster := { live := [9] } }

/-- Where there are three slots the second entry of the plan does not fit; where there are four the
check fails. -/
theorem execute_failures_cramped :
    ((crampedHost 3 (by decide) (by decide)).execute checkedLoad).1 =
      .error (.resource (.overflow 48 48)) ∧
    ((crampedHost 4 (by decide) (by decide)).execute checkedLoad).1 =
      .error (.channel (.partialWrite 16 32)) ∧
    ((crampedHost 4 (by decide) (by decide)).execute checkedLoad).2.buffer.pending =
      [.ok (.read 8 64), .ok (.fetch 7 4 4096), .ok (.read 8 256)] := by
  have made : Instrumentation.Makes { architecture := .x86, fetches := true } aliasedLoad
      checkedLoad := ⟨[aliasedLoad], [checkedLoad], 0, rfl, rfl, rfl⟩
  have three : Filled Recorder (crampedHost 3 (by decide) (by decide)).buffer :=
    .push _ (.start (show Tracer.start { pid := 1, capacity := 3, channel := {} } 9 = (.ok _, _)
      from rfl))
  have four : Filled Recorder (crampedHost 4 (by decide) (by decide)).buffer :=
    .push _ (.start (show Tracer.start { pid := 1, capacity := 4, channel := {} } 9 = (.ok _, _)
      from rfl))
  have refused : ((crampedHost 4 (by decide) (by decide)).execute checkedLoad).1 =
      .error (.channel (.partialWrite 16 32)) := by rfl
  refine ⟨?_, refused, ?_⟩
  · obtain ⟨overflows, failures⟩ := execute_failures made _ three
    obtain ⟨offset, capacity, overflow⟩ := overflows.2 (by decide)
    rcases failures _ overflow with ⟨same, -⟩ | ⟨_, ⟨⟩, _⟩
    rw [overflow, same]
    rfl
  · rcases (execute_failures made _ four).2 _ refused with ⟨⟨⟩, _⟩ | ⟨_, _, undelivered⟩
    rw [undelivered.pending]
    decide +kernel

end Host

end AccessTrace
