import Mathlib
import AccessTrace.Proofs.PlanExecution
import AccessTrace.Proofs.Replay

/-!
# The work of a thread

Over a recorder that takes everything nothing is lost between a thread's buffer and the stream: what
was held before and what was added meanwhile is what was sent and what is held afterwards, in this
order (`Advance`). Deliveries, pushes and plans are such advances, also plans that fail.
-/

namespace AccessTrace

namespace Log

/-- What a thread sends when it delivers these payloads: its registration first, unless that was
sent before. -/
def talk (tid : UInt64) : Bool → List (List Entry) → Log
  | _, [] => []
  | true, es :: rest => .payload tid es :: talk tid true rest
  | false, es :: rest => .registration tid :: .payload tid es :: talk tid true rest

theorem talk_registered (tid : UInt64) (payloads : List (List Entry)) :
    talk tid true payloads = payloads.map (.payload tid) := by
  induction payloads with
  | nil => rfl
  | cons es rest ih => rw [talk, ih, List.map_cons]

/-- A registration comes first if it is needed and there is anything to send. -/
theorem talk_eq (tid : UInt64) (registered : Bool) (payloads : List (List Entry)) :
    talk tid registered payloads =
      (if registered || payloads.isEmpty then [] else [.registration tid]) ++
        payloads.map (.payload tid) := by
  cases registered with
  | true => exact talk_registered tid payloads
  | false =>
    cases payloads with
    | nil => rfl
    | cons es rest =>
      rw [talk, talk_registered]
      rfl

theorem talk_append (tid : UInt64) (registered : Bool) (payloads more : List (List Entry)) :
    talk tid registered (payloads ++ more) =
      talk tid registered payloads ++ talk tid (registered || !payloads.isEmpty) more := by
  rw [talk_eq, talk_eq, talk_eq, List.map_append]
  cases registered <;> cases payloads <;> simp

theorem registrations_payloads (tid : UInt64) (payloads : List (List Entry)) :
    Log.registrations (payloads.map (.payload tid)) = [] := by
  rw [registrations, List.filterMap_map]
  exact List.filterMap_eq_nil_iff.2 fun _ _ => rfl

theorem registrations_talk (tid : UInt64) (registered : Bool) (payloads : List (List Entry)) :
    (talk tid registered payloads).registrations =
      if registered || payloads.isEmpty then [] else [tid] := by
  rw [talk_eq, registrations_append, registrations_payloads, List.append_nil]
  split <;> rfl

/-- A thread that has sent something is registered. -/
theorem mem_registrations_talk {log : Log} {tid : UInt64} {registered : Bool}
    {payloads : List (List Entry)} (known : registered = true → tid ∈ log.registrations)
    (now : (registered || !payloads.isEmpty) = true) :
    tid ∈ Log.registrations (log ++ talk tid registered payloads) := by
  rw [registrations_append, registrations_talk]
  cases registered with
  | true => exact List.mem_append_left _ (known rfl)
  | false =>
    rw [Bool.false_or, Bool.not_eq_true'] at now
    rw [now]
    exact List.mem_append_right _ List.mem_cons_self

theorem events_payloads (t tid : UInt64) (payloads : List (List Entry)) :
    Log.events t (payloads.map (.payload tid)) = if t = tid then payloads.flatten else [] := by
  induction payloads with
  | nil =>
    rw [List.flatten_nil, ite_self]
    rfl
  | cons es rest ih =>
    rw [List.map_cons, events, List.flatMap_cons, ← events, ih, Message.eventsOf,
      List.flatten_cons]
    by_cases same : t = tid
    · rw [if_pos same, if_pos same, if_pos same.symm]
    · rw [if_neg same, if_neg same, if_neg (Ne.symm same), List.nil_append]

theorem events_talk (t tid : UInt64) (registered : Bool) (payloads : List (List Entry)) :
    (talk tid registered payloads).events t = if t = tid then payloads.flatten else [] := by
  have silent : Log.events t
      (if registered || payloads.isEmpty then [] else [.registration tid]) = [] := by
    split <;> rfl
  rw [talk_eq, events_append, silent, events_payloads, List.nil_append]

theorem Orderly.payloads {log : Log} (orderly : Orderly log) {tid : UInt64}
    (known : tid ∈ log.registrations) {payloads : List (List Entry)}
    (events : ∀ es ∈ payloads, ∀ e ∈ es, e.kind.isEvent = true) :
    Orderly (log ++ payloads.map (.payload tid)) := by
  induction payloads generalizing log with
  | nil =>
    rw [List.map_nil, List.append_nil]
    exact orderly
  | cons es rest ih =>
    rw [List.map_cons, ← List.singleton_append, ← List.append_assoc]
    apply ih (orderly.payload known (events es List.mem_cons_self))
    · rw [registrations_append]
      exact List.mem_append_left _ known
    · intro es' mem
      exact events es' (List.mem_cons_of_mem _ mem)

theorem Orderly.talk {log : Log} (orderly : Orderly log) {tid : UInt64} {registered : Bool}
    (known : registered = true → tid ∈ log.registrations) {payloads : List (List Entry)}
    (events : ∀ es ∈ payloads, ∀ e ∈ es, e.kind.isEvent = true) :
    Orderly (log ++ Log.talk tid registered payloads) := by
  rw [talk_eq, ← List.append_assoc]
  cases registered with
  | true =>
    rw [Bool.true_or, if_pos rfl, List.append_nil]
    exact orderly.payloads (known rfl) events
  | false =>
    cases payloads with
    | nil =>
      rw [List.map_nil, List.append_nil]
      exact (List.append_nil log).symm ▸ orderly
    | cons es rest =>
      apply (orderly.registration tid).payloads _ events
      rw [registrations_append]
      exact List.mem_append_right _ List.mem_cons_self

/-- These messages say what is in the log. -/
def Sent (pid : UInt32) (messages : List (List UInt8)) (log : Log) : Prop :=
  List.Forall₂ (fun bytes message => Carries bytes (message.entries pid)) messages log

theorem Sent.append {pid : UInt32} {messages more : List (List UInt8)} {log later : Log}
    (first : Sent pid messages log) (second : Sent pid more later) :
    Sent pid (messages ++ more) (log ++ later) := List.rel_append first second

theorem Sent.carries {pid : UInt32} {messages : List (List UInt8)} {log : Log}
    (sent : Sent pid messages log) : Carries messages.flatten (log.entries pid) := by
  induction sent with
  | nil => exact .nil
  | cons here _ ih => exact here.append ih

end Log

/-- A recorder that takes everything, now. -/
structure Recorder.Open (c : Recorder) : Prop where
  unlimited : c.limit = none
  opened : c.closed = false

theorem Recorder.Open.accepts {c : Recorder} (isOpen : c.Open) (n : Nat) : c.Accepts n :=
  ⟨isOpen.opened, fun limit mem => by rw [isOpen.unlimited] at mem; cases mem⟩

namespace Host

/-- From `h` to `h'` the thread has added entries and delivered payloads. -/
structure Advance (h h' : Host Recorder) (es es' added : List Entry)
    (payloads : List (List Entry)) : Prop where
  tracer : h'.tracer = { h.tracer with
    channel := { h.tracer.channel with messages := h'.tracer.channel.messages } }
  sent : ∃ messages, h'.tracer.channel.messages.toList =
      h.tracer.channel.messages.toList ++ messages ∧
    Log.Sent h.tracer.pid messages (Log.talk h.buffer.tid h.buffer.registered payloads)
  life : h.buffer.SameLife h'.buffer
  registered : h'.buffer.registered = (h.buffer.registered || !payloads.isEmpty)
  events : ∀ sent ∈ payloads, ∀ e ∈ sent, e.kind.isEvent = true
  holds : h'.buffer.Holds es'
  conserved : es ++ added = payloads.flatten ++ es'

variable {h h' h'' : Host Recorder} {es es' es'' added more : List Entry}
  {payloads later : List (List Entry)}

theorem Advance.pid (advance : Advance h h' es es' added payloads) :
    h'.tracer.pid = h.tracer.pid := by rw [advance.tracer]

theorem Advance.isOpen (advance : Advance h h' es es' added payloads)
    (isOpen : h.tracer.channel.Open) : h'.tracer.channel.Open := by
  rw [advance.tracer]
  exact ⟨isOpen.unlimited, isOpen.opened⟩

/-- Nothing is sent as long as only the buffer changes. -/
theorem Advance.of_buffer (tracer : h'.tracer = h.tracer) (life : h.buffer.SameLife h'.buffer)
    (registered : h'.buffer.registered = h.buffer.registered)
    (holds : h'.buffer.Holds (es ++ added)) : Advance h h' es (es ++ added) added [] where
  tracer := by rw [tracer]
  sent := by
    refine ⟨[], by rw [tracer, List.append_nil], ?_⟩
    cases h.buffer.registered <;> exact .nil
  life := life
  registered := by rw [registered, List.isEmpty_nil, Bool.not_true, Bool.or_false]
  events := by simp
  holds := holds
  conserved := by rw [List.flatten_nil, List.nil_append]

theorem Advance.refl (holds : h.buffer.Holds es) : Advance h h es es [] [] := by
  have same : Advance h h es (es ++ []) [] [] :=
    .of_buffer rfl (.refl _) rfl (by rw [List.append_nil]; exact holds)
  rw [List.append_nil] at same
  exact same

theorem Advance.trans (first : Advance h h' es es' added payloads)
    (second : Advance h' h'' es' es'' more later) :
    Advance h h'' es es'' (added ++ more) (payloads ++ later) where
  tracer := by rw [second.tracer, first.tracer]
  sent := by
    obtain ⟨messages, grown, sent⟩ := first.sent
    obtain ⟨messages', grown', sent'⟩ := second.sent
    refine ⟨messages ++ messages', by rw [grown', grown, List.append_assoc], ?_⟩
    rw [first.pid, first.life.tid, first.registered] at sent'
    rw [Log.talk_append]
    exact sent.append sent'
  life := first.life.trans second.life
  registered := by
    rw [second.registered, first.registered, Bool.or_assoc]
    cases payloads <;> rfl
  events := by
    intro sent mem
    rcases List.mem_append.1 mem with old | new
    · exact first.events sent old
    · exact second.events sent new
  holds := second.holds
  conserved := by
    rw [← List.append_assoc, first.conserved, List.append_assoc, second.conserved,
      List.flatten_append, List.append_assoc]

/-- Registering and delivering get through, once the header is written. -/
theorem advance_headed (isOpen : h.tracer.channel.Open) {headed : Buffer}
    (same : h.buffer.SameButBytes headed)
    (payload : Carries headed.occupiedBytes
      ((Message.payload h.buffer.tid es).entries h.tracer.pid))
    (events : ∀ e ∈ es, e.kind.isEvent = true) :
    ∃ r n b₁ c₁ b c, headed.register h.tracer.channel h.tracer.pid = (.ok r, b₁, c₁) ∧
      b₁.deliver c₁ = (.ok n, b, c) ∧
      Advance h { h with buffer := b, tracer := { h.tracer with channel := c } } es [] [] [es] := by
  obtain ⟨machine, buffer, pid, capacity, channel, roster⟩ := h
  simp only at isOpen same payload ⊢
  have conserved : es ++ [] = [es].flatten ++ [] := by rw [List.flatten_singleton]
  have all : ∀ sent ∈ [es], ∀ e ∈ sent, e.kind.isEvent = true := by
    intro sent mem
    rw [List.mem_singleton.1 mem]
    exact events
  have deliver : ∀ c : Recorder, c.Open → c.send headed.occupiedBytes =
      (.ok (), { c with messages := c.messages.push headed.occupiedBytes }) :=
    fun c isOpen => Recorder.send_accepted (isOpen.accepts _)
  by_cases before : headed.registered = true
  · have registered : buffer.registered = true := by rw [← same.registered, before]
    refine ⟨_, _, _, _, _, _, Buffer.register_registered before,
      Buffer.deliver_through (deliver channel isOpen), rfl, ?_, ?_, ?_, all, Buffer.holds_nil rfl,
      conserved⟩
    · refine ⟨[headed.occupiedBytes], Array.toList_push, ?_⟩
      simp only [registered, Log.talk]
      exact .cons payload .nil
    · exact ⟨same.tid, same.capacity, same.phase, same.attached⟩
    · simp only [registered, Bool.true_or]
      exact before
  · rw [Bool.not_eq_true] at before
    have registered : buffer.registered = false := by rw [← same.registered, before]
    have first : channel.send (Buffer.registration headed.tid pid) = (.ok (), { channel with
        messages := channel.messages.push (Buffer.registration headed.tid pid) }) :=
      Recorder.send_accepted (isOpen.accepts _)
    refine ⟨_, _, _, _, _, _, Buffer.register_through before first,
      Buffer.deliver_through (deliver _ ⟨isOpen.unlimited, isOpen.opened⟩), rfl, ?_, ?_, ?_,
      all, Buffer.holds_nil rfl, conserved⟩
    · refine ⟨[Buffer.registration buffer.tid pid, headed.occupiedBytes], ?_, ?_⟩
      · simp only [Array.toList_push, List.append_assoc, List.singleton_append, same.tid]
      · simp only [registered, Log.talk]
        exact .cons (carries_registration _ _) (.cons payload .nil)
    · exact ⟨same.tid, same.capacity, same.phase, same.attached⟩
    · simp only [registered, Bool.false_or]
      rfl

/-- A delivery that is not put off sends all that is held. -/
theorem advance_flush (isOpen : h.tracer.channel.Open) (holds : h.buffer.Holds es)
    {policy : FlushPolicy} (now : ¬ (policy = .deferrable && h.buffer.mayDefer) = true) :
    ∃ n r b c, h.buffer.flush h.tracer.channel h.tracer.pid policy = (.ok (.flushed n r), b, c) ∧
      Advance h { h with buffer := b, tracer := { h.tracer with channel := c } } es [] [] [es] := by
  obtain ⟨r, n, b₁, c₁, b, c, register, deliver, advance⟩ :=
    advance_headed isOpen h.buffer.sameButBytes_writeHeader holds.carries holds.events
  exact ⟨n, r, b, c, Buffer.flush_delivered now register deliver, advance⟩

theorem advance_attempt (isOpen : h.tracer.channel.Open) (holds : h.buffer.Holds es)
    (policy : FlushPolicy) : ∃ outcome b c es' payloads,
      h.buffer.flush h.tracer.channel h.tracer.pid policy = (.ok outcome, b, c) ∧
      Advance h { h with buffer := b, tracer := { h.tracer with channel := c } } es es' []
        payloads := by
  by_cases deferred : (policy = .deferrable && h.buffer.mayDefer) = true
  · exact ⟨_, _, _, es, [], Buffer.flush_deferred deferred, .refl holds⟩
  · obtain ⟨n, r, b, c, flushed, advance⟩ := advance_flush isOpen holds deferred
    exact ⟨_, b, c, [], [es], flushed, advance⟩

end Host

/-- The entry, the same moved on by `stride`, and so on, `times` in all. -/
def Entry.series (e : Entry) (stride : UInt64) : (times : Nat) → List Entry
  | 0 => []
  | times + 1 => e :: series { e with addr := e.addr + stride } stride times

/-- The entries of a series differ in their addresses alone. -/
theorem Entry.eq_of_mem_series {e x : Entry} {stride : UInt64} {times : Nat}
    (mem : x ∈ e.series stride times) : ∃ addr, x = { e with addr } := by
  induction times generalizing e with
  | zero => cases mem
  | succ times ih =>
    rcases List.mem_cons.1 mem with rfl | later
    · exact ⟨_, rfl⟩
    · obtain ⟨addr, rfl⟩ := ih (e := { e with addr := e.addr + stride }) later
      exact ⟨addr, rfl⟩

namespace Buffer

variable {a b : Buffer} {es more : List Entry}

theorem push_fits {e : Entry} (room : b.ptr + Entry.byteSize ≤ b.byteCapacity) :
    ∃ b', b.push e = (.ok (), b') ∧ b'.bytes = writeAt b.bytes b.ptr e.toBytes ∧
      b'.ptr = b.ptr + Entry.byteSize ∧ b.SameLife b' ∧ b'.registered = b.registered := by
  have pushed : b.push e = (.ok (), (b.push e).2) := by rw [Buffer.push, dif_pos room]
  refine ⟨(b.push e).2, pushed, ?_⟩
  rw [Buffer.push, dif_pos room]
  dsimp only
  exact ⟨rfl, rfl, ⟨rfl, rfl, rfl, rfl⟩, rfl⟩

/-- The slots that are free. -/
def free (b : Buffer) : Nat := b.capacity - b.occupied

theorem room_iff (aligned : b.ptr % Entry.byteSize = 0) :
    b.ptr + Entry.byteSize ≤ b.byteCapacity ↔ 1 ≤ b.free := by
  simp only [free, occupied, byteCapacity, Entry.byteSize] at *
  omega

/-- What pushing entries makes of `a`: as many are appended as there are free slots. -/
structure Pushed (a b : Buffer) (es : List Entry) : Prop where
  aligned : b.ptr % Entry.byteSize = 0
  pending : b.pending = a.pending ++ ((es.map Entry.normal).take a.free).map .ok
  life : a.SameLife b
  registered : b.registered = a.registered

/-- Nothing is appended where no slot is free. -/
theorem pushed_full (aligned : b.ptr % Entry.byteSize = 0)
    (full : ¬ b.ptr + Entry.byteSize ≤ b.byteCapacity) (es : List Entry) : b.Pushed b es := by
  have none : b.free = 0 := by
    have free := mt (room_iff aligned).2 full
    omega
  refine ⟨aligned, ?_, .refl b, rfl⟩
  rw [none, List.take_zero, List.map_nil, List.append_nil]

theorem pushed_push (aligned : b.ptr % Entry.byteSize = 0) (e : Entry) :
    b.Pushed (b.push e).2 [e] := by
  by_cases room : b.ptr + Entry.byteSize ≤ b.byteCapacity
  · obtain ⟨b', pushed, bytes, ptr, life, registered⟩ := push_fits (e := e) room
    have inside : b.ptr + e.toBytes.length ≤ b.bytes.size := by
      rw [Entry.length_toBytes, b.size_bytes]
      exact room
    have below : b.AgreeBelow b' b.ptr := by
      intro k hk
      rw [bytes]
      exact getElem?_writeAt_outside (.inl hk)
    have last : b'.entryAt b.ptr = .ok e.normal := by
      have record := Entry.ofBytes_toBytes e []
      rw [List.append_nil] at record
      rw [← record]
      apply Entry.ofBytes_congr
      intro k bound
      rw [List.getElem?_drop, Array.getElem?_toList, bytes]
      exact getElem?_writeAt_inside inside (by rw [Entry.length_toBytes]; exact bound)
    rw [pushed]
    refine ⟨?_, ?_, life, registered⟩
    · rw [ptr]
      exact (Nat.add_mod_right _ _).trans aligned
    · rw [List.map_singleton, List.take_of_length_le ((room_iff aligned).1 room)]
      refine pending_extended aligned ?_ below fun k hk => ?_
      · rw [ptr, List.length_singleton, Nat.one_mul]
      · obtain rfl : k = 0 := by simpa using hk
        rw [List.getElem_cons_zero, Nat.zero_mul, Nat.add_zero]
        exact last
  · rw [Buffer.push, dif_neg room]
    exact pushed_full aligned room [e]

/-- Of a series of entries as many are appended as there are free slots. -/
theorem pushed_pushSeries (aligned : b.ptr % Entry.byteSize = 0) (e : Entry) (stride : UInt64)
    (times : Nat) : b.Pushed (b.pushSeries e stride times).2 (e.series stride times) := by
  induction times generalizing b e with
  | zero =>
    refine ⟨aligned, ?_, .refl b, rfl⟩
    rw [Entry.series, List.map_nil, List.take_nil, List.map_nil, List.append_nil]
    rfl
  | succ times ih =>
    have first := pushed_push aligned e
    rw [Buffer.pushSeries, Entry.series]
    by_cases room : b.ptr + Entry.byteSize ≤ b.byteCapacity
    · obtain ⟨b₁, pushed, _, ptr, _⟩ := push_fits (e := e) room
      rw [pushed] at first ⊢
      have free : b.free = b₁.free + 1 := by
        have some := (room_iff aligned).1 room
        have capacity : b₁.capacity = b.capacity := first.life.capacity
        simp only [Buffer.free, occupied, ptr, capacity, Entry.byteSize] at *
        omega
      have rest := ih first.aligned { e with addr := e.addr + stride }
      refine ⟨rest.aligned, ?_, first.life.trans rest.life, rest.registered.trans first.registered⟩
      rw [rest.pending, first.pending, free, List.map_cons, List.map_nil, List.map_cons,
        List.take_succ_cons, List.take_succ_cons, List.take_nil, List.append_assoc]
      rfl
    · rw [Buffer.push, dif_neg room]
      exact pushed_full aligned room _

theorem Holds.pushSeries (holds : b.Holds es) {e : Entry} (event : e.kind.isEvent = true)
    (stride : UInt64) (times : Nat) :
    (b.pushSeries e stride times).2.Holds
        (es ++ ((e.series stride times).map Entry.normal).take b.free) ∧
      b.SameLife (b.pushSeries e stride times).2 ∧
      (b.pushSeries e stride times).2.registered = b.registered := by
  have pushed := pushed_pushSeries holds.aligned e stride times
  refine ⟨⟨pushed.aligned, ?_, fun x mem => ?_⟩, pushed.life, pushed.registered⟩
  · rw [pushed.pending, holds.pending, List.map_append]
  · rcases List.mem_append.1 mem with old | new
    · exact holds.events x old
    · obtain ⟨y, among, rfl⟩ := List.mem_map.1 (List.mem_of_mem_take new)
      obtain ⟨addr, rfl⟩ := Entry.eq_of_mem_series among
      exact event

end Buffer

/-- A plan, with what it was made for. -/
structure PlannedInstruction where
  scheme : Instrumentation
  instruction : Instruction
  check : Bool

namespace PlannedInstruction

/-- The plan. -/
def plan (p : PlannedInstruction) : InstructionPlan := p.scheme.plan p.instruction p.check

/-- The entries that an execution calls for. -/
def called (p : PlannedInstruction) (value : Register → UInt64) : List Entry :=
  p.instruction.entries p.scheme.fetches value

end PlannedInstruction

namespace Host

variable {h h' : Host Recorder} {es es' added : List Entry} {payloads : List (List Entry)}

/-- Executing plans, all or up to one that fails, is an advance. If none fails, the program's
registers are as they were. -/
structure Executed (h h' : Host Recorder) (es : List Entry) (answer : Except TraceError Unit)
    (added : List Entry) : Prop where
  advance : ∃ es' payloads, Advance h h' es es' added payloads
  registers : answer = .ok () → h'.machine.registers = h.machine.registers

/-- Entries are added in whole plans: all that one calls for, or none. -/
theorem executed_operations (s : Instrumentation) (i : Instruction)
    (holds : h.buffer.Holds es) : ∃ answer h' added, h.exec (s.operations i) = (answer, h') ∧
      Executed h h' es answer added ∧ h'.tracer = h.tracer ∧
      added = match answer with
        | .ok _ => i.entries s.fetches h.machine.get
        | .error _ => [] := by
  by_cases room : h.buffer.ptr + s.entryCount i * Entry.byteSize ≤ h.buffer.byteCapacity
  · obtain ⟨h', run, registers, appended, tracer⟩ := exec_operations s i h room
    refine ⟨_, h', _, run, ⟨⟨_, [], .of_buffer tracer ?_ appended.registered ?_⟩,
      fun _ => registers⟩, tracer, rfl⟩
    · exact ⟨appended.tid, appended.capacity, appended.phase, appended.attached⟩
    · exact appended.holds holds fun e mem => Instruction.isEvent_of_mem_entries mem
  · obtain ⟨h', run, same, below, tracer⟩ :=
      exec_operations_full s i h holds.aligned (Nat.lt_of_not_le room)
    have kept : h'.buffer.Holds (es ++ []) := by
      rw [List.append_nil]
      exact holds.congr same.ptr fun k _ inside => below k inside
    refine ⟨_, h', [], run, ⟨⟨_, [], .of_buffer tracer same.life same.registered kept⟩, ?_⟩,
      tracer, rfl⟩
    intro ok
    cases ok

theorem executed_plan (isOpen : h.tracer.channel.Open) (p : PlannedInstruction)
    (holds : h.buffer.Holds es) : ∃ answer h' added, h.execute p.plan = (answer, h') ∧
      Executed h h' es answer added ∧
      added = match answer with
        | .ok _ => p.called h.machine.get
        | .error _ => [] := by
  obtain ⟨s, i, check⟩ := p
  obtain ⟨answer, h₁, added, run, executed, tracer, calls⟩ := executed_operations s i holds
  rw [PlannedInstruction.plan, execute_plan, run]
  cases answer with
  | error e => exact ⟨_, h₁, _, rfl, executed, calls⟩
  | ok _ =>
    cases check with
    | false => exact ⟨_, h₁, _, rfl, executed, calls⟩
    | true =>
      obtain ⟨es₁, payloads, advance⟩ := executed.advance
      obtain ⟨outcome, b, c, es', payloads', flushed, advance'⟩ :=
        advance_attempt (advance.isOpen isOpen) advance.holds .deferrable
      have both := advance.trans advance'
      rw [List.append_nil] at both
      exact ⟨_, _, added, step_flushCheck flushed, ⟨⟨_, _, both⟩, executed.registers⟩, calls⟩

theorem executeAll_append (h : Host Recorder) (done : Nat) (ps qs : List InstructionPlan) :
    h.executeAll done (ps ++ qs) =
      match h.executeAll done ps with
      | (done, .ok (), h) => h.executeAll done qs
      | (done, .error e, h) => (done, .error e, h) := by
  induction ps generalizing h done with
  | nil => rfl
  | cons p ps ih =>
    rw [List.cons_append, executeAll, executeAll]
    rcases h.execute p with ⟨answer, h₁⟩
    cases answer with
    | ok _ => exact ih h₁ (done + 1)
    | error _ => rfl

/-- Executing plans over and over is executing that many copies of them. -/
theorem executeTimes_eq (h : Host Recorder) (done : Nat) (ps : List InstructionPlan) (times : Nat) :
    h.executeTimes done ps times = h.executeAll done (List.replicate times ps).flatten := by
  induction times generalizing h done with
  | zero => rfl
  | succ times ih =>
    rw [executeTimes, List.replicate_succ, List.flatten_cons, executeAll_append]
    rcases h.executeAll done ps with ⟨done', answer, h₁⟩
    cases answer with
    | ok _ => exact ih h₁ done'
    | error _ => rfl

theorem get_congr {m m' : Machine} (same : m'.registers = m.registers) : m'.get = m.get := by
  funext r
  rw [Machine.get, same, Machine.get]

/-- The entries added are those that the plans executed call for. -/
theorem executed_all (isOpen : h.tracer.channel.Open) (holds : h.buffer.Holds es)
    (ps : List PlannedInstruction) (done : Nat) :
    ∃ count answer h', h.executeAll done (ps.map (·.plan)) = (done + count, answer, h') ∧
      Executed h h' es answer ((ps.take count).flatMap fun p => p.called h.machine.get) ∧
      (answer = .ok () → count = ps.length) := by
  induction ps generalizing h es done with
  | nil => exact ⟨0, _, h, rfl, ⟨⟨_, _, .refl holds⟩, fun _ => rfl⟩, fun _ => rfl⟩
  | cons p ps ih =>
    obtain ⟨answer, h₁, added, run, executed, rfl⟩ := executed_plan isOpen p holds
    rw [List.map_cons, executeAll, run]
    cases answer with
    | error e =>
      refine ⟨0, _, h₁, rfl, executed, fun ok => ?_⟩
      cases ok
    | ok _ =>
      obtain ⟨es₁, payloads, advance⟩ := executed.advance
      obtain ⟨count, answer', h', run', executed', all⟩ := ih (advance.isOpen isOpen) advance.holds
        (done + 1)
      obtain ⟨es', payloads', advance'⟩ := executed'.advance
      rw [get_congr (executed.registers rfl)] at advance'
      refine ⟨count + 1, answer', h', ?_, ⟨⟨es', payloads ++ payloads', ?_⟩, fun ok => ?_⟩,
        fun ok => ?_⟩
      · rw [Nat.add_comm count, ← Nat.add_assoc]
        exact run'
      · rw [List.take_succ_cons, List.flatMap_cons]
        exact advance.trans advance'
      · rw [executed'.registers ok, executed.registers rfl]
      · rw [all ok, List.length_cons]

theorem executed_times (isOpen : h.tracer.channel.Open) (holds : h.buffer.Holds es)
    (ps : List PlannedInstruction) (times : Nat) :
    ∃ done answer h', h.executeTimes 0 (ps.map (·.plan)) times = (done, answer, h') ∧
      Executed h h' es answer
        (((List.replicate times ps).flatten.take done).flatMap fun p => p.called h.machine.get) ∧
      (answer = .ok () → done = (List.replicate times ps).flatten.length) := by
  rw [executeTimes_eq, ← List.map_replicate, ← List.map_flatten]
  obtain ⟨done, answer, h', run, executed, all⟩ :=
    executed_all isOpen holds (List.replicate times ps).flatten 0
  rw [Nat.zero_add] at run
  exact ⟨done, answer, h', run, executed, all⟩

/-- The last delivery sends all that is held, and its thread has ended then. -/
theorem finished (isOpen : h.tracer.channel.Open) (active : h.buffer.phase = .active)
    (holds : h.buffer.Holds es) : ∃ refs messages,
      h.tracer.finish h.buffer = (.ok refs, { h.tracer with
        channel := { h.tracer.channel with messages }
        roster := h.tracer.roster.leave h.buffer.tid refs }) ∧
      ∃ new, messages.toList = h.tracer.channel.messages.toList ++ new ∧
        Log.Sent h.tracer.pid new (Log.talk h.buffer.tid h.buffer.registered [es]) := by
  obtain ⟨machine, buffer, t⟩ := h
  have draining : ({ buffer with phase := .draining } : Buffer).Holds es :=
    holds.congr rfl fun _ _ _ => rfl
  have forced : ¬ (FlushPolicy.forced = .deferrable &&
      ({ buffer with phase := .draining } : Buffer).mayDefer) = true := by simp
  obtain ⟨n, r, b, c, flushed, advance⟩ :=
    advance_flush (h := ⟨machine, { buffer with phase := .draining }, t⟩) isOpen draining forced
  obtain ⟨new, grown, sent⟩ := advance.sent
  have channel : c = { t.channel with messages := c.messages } :=
    congrArg Tracer.channel advance.tracer
  have tid : b.tid = buffer.tid := advance.life.tid
  refine ⟨b.refs, c.messages, ?_, new, grown, sent⟩
  rw [Tracer.finish_eq active flushed, tid]
  simp only
  rw [← channel]
  rfl

end Host

end AccessTrace
