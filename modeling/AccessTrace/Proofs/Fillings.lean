import Mathlib
import AccessTrace.Proofs.Custody
import AccessTrace.Proofs.Tidiness

/-!
# What is put into a buffer and what it sends

The log of a buffer is what was put into it: entries that were pushed while a slot was free, and
those of each plan that was not stopped by the end of the buffer. Over any recorder, also one that
cuts messages or refuses them, the buffer holds the last entries of its log in tidy slots
(`HoldsLast`), and all that it sends is its registration and entries that stand in the log one after
the other (`Uttered`). A delivery keeps that (`HoldsLast.flush`), and so do plans, executed over and
over until one fails (`Adds`, `adds_times`).
-/

namespace AccessTrace

namespace Recorder

/-- From `c` to `c'` messages were sent, all of which are `P`, and what `c` takes of each was
recorded. -/
structure Took (c c' : Recorder) (P : List UInt8 → Prop) : Prop where
  limit : c'.limit = c.limit
  messages : ∃ sent : List (List UInt8),
    c'.messages.toList = c.messages.toList ++ sent.map c.accepted ∧ ∀ m ∈ sent, P m

variable {c c' c'' : Recorder} {P Q : List UInt8 → Prop}

theorem accepted_congr (limit : c'.limit = c.limit) : c'.accepted = c.accepted := by
  funext bytes
  rw [accepted, accepted, limit]

theorem Took.none (limit : c'.limit = c.limit) (messages : c'.messages = c.messages) :
    c.Took c' P :=
  ⟨limit, [], by rw [messages, List.map_nil, List.append_nil], by simp⟩

theorem Took.mono (took : c.Took c' P) (weaker : ∀ m, P m → Q m) : c.Took c' Q := by
  obtain ⟨limit, sent, messages, all⟩ := took
  exact ⟨limit, sent, messages, fun m mem => weaker m (all m mem)⟩

theorem Took.trans (first : c.Took c' P) (second : c'.Took c'' P) : c.Took c'' P := by
  obtain ⟨limit, sent, messages, all⟩ := first
  obtain ⟨limit', sent', messages', all'⟩ := second
  rw [accepted_congr limit] at messages'
  refine ⟨limit'.trans limit, sent ++ sent', ?_, fun m mem => ?_⟩
  · rw [messages', messages, List.map_append, List.append_assoc]
  · exact (List.mem_append.1 mem).elim (all m) (all' m)

theorem took_send (c : Recorder) (bytes : List UInt8) : c.Took (c.send bytes).2 (· = bytes) := by
  unfold send
  split
  · exact .none rfl rfl
  · exact ⟨rfl, [bytes], Array.toList_push, fun m mem => List.mem_singleton.1 mem⟩

/-- Of messages that are sent until one is refused those were recorded that were sent. -/
theorem took_sendAll (c : Recorder) (messages : List (List UInt8)) :
    c.Took (Channel.sendAll c messages).2 (· ∈ messages) := by
  induction messages generalizing c with
  | nil => exact .none rfl rfl
  | cons message rest ih =>
    have first : c.Took (c.send message).2 (· ∈ message :: rest) :=
      (c.took_send message).mono fun m same => same ▸ List.mem_cons_self
    rw [Channel.sendAll]
    rcases sent : c.send message with ⟨answer, c'⟩
    rw [sent] at first
    rw [show Channel.send c message = (answer, c') from sent]
    cases answer with
    | ok _ => exact first.trans ((ih c').mono fun m mem => List.mem_cons_of_mem _ mem)
    | error _ => exact first

end Recorder

/-- A message of a thread into whose buffer `log` was put: its registration, or entries that were
put in one after the other. -/
def Message.Of (tid : UInt64) (log : List Entry) : Message → Prop
  | .registration t => t = tid
  | .payload t es => t = tid ∧ es <:+: log

theorem Message.Of.append {m : Message} {tid : UInt64} {log : List Entry} (own : m.Of tid log)
    (more : List Entry) : m.Of tid (log ++ more) := by
  cases m with
  | registration t => exact own
  | payload t es => exact ⟨own.1, own.2.trans (List.prefix_append log more).isInfix⟩

/-- The bytes are tidy records that say a message of the thread. -/
def Uttered (opcodes : Bool) (pid : UInt32) (tid : UInt64) (log : List Entry) (bytes : List UInt8) :
    Prop :=
  ∃ m : Message, m.Of tid log ∧ Carries bytes ((m.entries pid).map Entry.normal) ∧
    Entry.Tidy opcodes 0 bytes

theorem Uttered.append {opcodes : Bool} {pid : UInt32} {tid : UInt64} {log : List Entry}
    {bytes : List UInt8} (uttered : Uttered opcodes pid tid log bytes) (more : List Entry) :
    Uttered opcodes pid tid (log ++ more) bytes := by
  obtain ⟨m, own, carries, tidy⟩ := uttered
  exact ⟨m, own.append more, carries, tidy⟩

theorem uttered_registration (opcodes : Bool) (pid : UInt32) (tid : UInt64) (log : List Entry) :
    Uttered opcodes pid tid log (Buffer.registration tid pid) := by
  refine ⟨.registration tid, rfl, carries_registration tid pid, Entry.tidy_append_iff.2 ⟨?_, ?_⟩⟩
  · exact Entry.tidy_toBytes (fun _ => rfl) rfl
  · rw [Entry.length_toBytes]
    exact Entry.tidy_toBytes (fun _ => rfl) rfl

namespace Buffer

/-- The buffer holds the last entries of a log, as many as were not sent, in tidy slots. -/
structure HoldsLast (opcodes : Bool) (b : Buffer) (log : List Entry) : Prop where
  tidy : b.Tidy opcodes
  last : ∃ held, held <:+ log ∧ b.pending = (held.map Entry.normal).map .ok

variable {opcodes : Bool} {b b' : Buffer} {log : List Entry} {pid : UInt32}

theorem holdsLast_nil (tidy : b.Tidy opcodes) (empty : b.ptr = headerBytes) (log : List Entry) :
    b.HoldsLast opcodes log :=
  ⟨tidy, [], List.nil_suffix, (holds_nil empty).pending⟩

theorem HoldsLast.of_pending (held : b.HoldsLast opcodes log) (tidy : b'.Tidy opcodes)
    (pending : b'.pending = b.pending) : b'.HoldsLast opcodes log := by
  obtain ⟨es, suffix, same⟩ := held.last
  exact ⟨tidy, es, suffix, pending.trans same⟩

/-- Entries that become pending join the log. -/
theorem HoldsLast.extend (held : b.HoldsLast opcodes log) (tidy : b'.Tidy opcodes)
    {added : List Entry} (pending : b'.pending = b.pending ++ (added.map Entry.normal).map .ok) :
    b'.HoldsLast opcodes (log ++ added) := by
  obtain ⟨es, ⟨front, split⟩, same⟩ := held.last
  refine ⟨tidy, es ++ added, ⟨front, ?_⟩, ?_⟩
  · rw [← List.append_assoc, split]
  · rw [pending, same, List.map_append, List.map_append]

/-- What is due is the registration and the last entries of the log. -/
theorem HoldsLast.uttered (held : b.HoldsLast opcodes log) {bytes : List UInt8}
    (mem : bytes ∈ b.due pid) : Uttered opcodes pid b.tid log bytes := by
  obtain ⟨tidy, es, suffix, pending⟩ := held
  rcases List.mem_append.1 mem with registration | payload
  · split at registration
    · cases registration
    · rw [List.mem_singleton.1 registration]
      exact uttered_registration opcodes pid b.tid log
  · rw [List.mem_singleton.1 payload]
    refine ⟨.payload b.tid es, ⟨rfl, suffix.isInfix⟩,
      (Carries.toBytes b.header).append (carries_pendingBytes tidy.aligned pending),
      Entry.tidy_append_iff.2 ⟨Entry.tidy_toBytes (fun _ => rfl) rfl, ?_⟩⟩
    rw [Entry.length_toBytes]
    exact tidy.pendingBytes.congr rfl

/-- A delivery sends nothing but what is due; what it does not send is held. -/
theorem HoldsLast.flush (held : b.HoldsLast opcodes log) {c c' : Recorder} {policy : FlushPolicy}
    {answer : Except ChannelError FlushOutcome} (flush : b.flush c pid policy = (answer, b', c')) :
    b'.HoldsLast opcodes log ∧ c.Took c' (Uttered opcodes pid b.tid log) := by
  have tidy := held.tidy.flush flush
  have took := (c.took_sendAll (b.due pid)).mono fun m mem => held.uttered mem
  by_cases deferred : (policy = .deferrable && b.mayDefer) = true
  · rw [flush_deferred deferred] at flush
    cases flush
    exact ⟨held, .none rfl rfl⟩
  · rw [flush_now deferred] at flush
    rcases sent : Channel.sendAll c (b.due pid) with ⟨through, c₁⟩
    rw [sent] at flush took
    cases through with
    | ok _ =>
      cases flush
      exact ⟨holdsLast_nil tidy rfl log, took⟩
    | error _ =>
      cases flush
      exact ⟨held.of_pending tidy (Unsent.headed b).pending, took⟩

end Buffer

theorem Entry.normal_eq {e : Entry} (plain : e.kind ≠ .fetch → e.opcode = 0) : e.normal = e := by
  unfold normal
  split
  · rfl
  · rename_i other
    rw [← plain other]

namespace Instruction

variable {i : Instruction} {fetches : Bool} {value : Register → UInt64} {e : Entry}

/-- An instruction calls for accesses, and for a fetch if there are fetches. -/
theorem opcode_of_mem_entries (mem : e ∈ i.entries fetches value) :
    fetches = true ∧ e.kind = .fetch ∨ e.opcode = 0 := by
  by_cases traced : i.isTraced = true
  · rw [entries_of_traced traced] at mem
    rcases List.mem_append.1 mem with fetch | access
    · cases fetches with
      | false => cases fetch
      | true =>
        rw [if_pos rfl, List.mem_singleton] at fetch
        exact .inl ⟨rfl, fetch ▸ rfl⟩
    · obtain ⟨a, _, rfl⟩ := List.mem_map.1 access
      exact .inr rfl
  · rw [entries, if_neg traced] at mem
    cases mem

theorem map_normal_entries (i : Instruction) (fetches : Bool) (value : Register → UInt64) :
    (i.entries fetches value).map Entry.normal = i.entries fetches value := by
  rw [List.map_congr_left (g := id), List.map_id]
  intro e mem
  refine Entry.normal_eq fun other => ?_
  exact (opcode_of_mem_entries mem).resolve_left fun fetch => other fetch.2

end Instruction

/-- The error of an answer. -/
def failureOf : Except TraceError Unit → Option TraceError
  | .ok () => none
  | .error e => some e

/-- Of plans that were executed until one failed so many have put in their entries: those that were
executed, and one whose check could not deliver. -/
def filledBy (done : Nat) (failure : Option TraceError) : Nat :=
  if (failure.bind TraceError.failure?).isSome then done + 1 else done

namespace Host

variable {opcodes : Bool} {h h' h'' : Host Recorder} {log added more : List Entry}

/-- From `h` to `h'` the thread has put in `added`, and sent what says that or what was there
before. -/
structure Adds (opcodes : Bool) (log : List Entry) (h h' : Host Recorder) (added : List Entry) :
    Prop where
  tid : h'.buffer.tid = h.buffer.tid
  pid : h'.tracer.pid = h.tracer.pid
  plain : opcodes = false → ∀ e ∈ added, e.opcode = 0
  held : h'.buffer.HoldsLast opcodes (log ++ added)
  took : h.tracer.channel.Took h'.tracer.channel
    (Uttered opcodes h.tracer.pid h.buffer.tid (log ++ added))

theorem Adds.of_buffer (tid : h'.buffer.tid = h.buffer.tid) (tracer : h'.tracer = h.tracer)
    (plain : opcodes = false → ∀ e ∈ added, e.opcode = 0)
    (held : h'.buffer.HoldsLast opcodes (log ++ added)) : Adds opcodes log h h' added where
  tid := tid
  pid := by rw [tracer]
  plain := plain
  held := held
  took := by
    rw [tracer]
    exact .none rfl rfl

theorem Adds.refl (held : h.buffer.HoldsLast opcodes log) : Adds opcodes log h h [] :=
  .of_buffer rfl rfl (by simp) (by rw [List.append_nil]; exact held)

theorem Adds.trans (first : Adds opcodes log h h' added)
    (second : Adds opcodes (log ++ added) h' h'' more) :
    Adds opcodes log h h'' (added ++ more) where
  tid := second.tid.trans first.tid
  pid := second.pid.trans first.pid
  plain := fun none e mem =>
    (List.mem_append.1 mem).elim (first.plain none e) (second.plain none e)
  held := by
    rw [← List.append_assoc]
    exact second.held
  took := by
    have later := second.took
    rw [first.pid, first.tid] at later
    rw [← List.append_assoc]
    exact (first.took.mono fun m uttered => uttered.append more).trans later

theorem adds_flush (held : h.buffer.HoldsLast opcodes log) {policy : FlushPolicy}
    {answer : Except ChannelError FlushOutcome} {b' : Buffer} {c' : Recorder}
    (flush : h.buffer.flush h.tracer.channel h.tracer.pid policy = (answer, b', c')) :
    Adds opcodes log h { h with buffer := b', tracer := { h.tracer with channel := c' } } [] := by
  obtain ⟨held', took⟩ := held.flush flush
  rw [← List.append_nil log] at held' took
  exact ⟨(Buffer.flush_life flush).tid, rfl, by simp, held', took⟩

/-- A plan puts in all its entries, or none because they do not fit. Wherever it stops, the slots
behind the pointer stay tidy. -/
theorem adds_operations (held : h.buffer.HoldsLast opcodes log) (s : Instrumentation)
    (i : Instruction) (plain : s.fetches = true → opcodes = true) :
    ∃ answer h', h.exec (s.operations i) = (answer, h') ∧
      (answer = .ok () ∧ h'.machine.registers = h.machine.registers ∧
          Adds opcodes log h h' (i.entries s.fetches h.machine.get) ∨
        (∃ cause, answer = .error (.resource cause)) ∧ Adds opcodes log h h' []) := by
  have aligned := held.tidy.aligned
  have tidy := tidy_operations held.tidy i plain
  by_cases room : h.buffer.ptr + s.entryCount i * Entry.byteSize ≤ h.buffer.byteCapacity
  · obtain ⟨h', run, registers, appended, tracer⟩ := exec_operations s i h room
    rw [run] at tidy
    refine ⟨_, h', run, .inl ⟨rfl, registers, .of_buffer appended.tid tracer ?_ ?_⟩⟩
    · intro none e mem
      refine (Instruction.opcode_of_mem_entries mem).resolve_left fun fetch => ?_
      cases none.symm.trans (plain fetch.1)
    · refine held.extend tidy ?_
      rw [appended.pending aligned, Instruction.map_normal_entries]
  · obtain ⟨h', run, same, below, tracer⟩ :=
      exec_operations_full s i h aligned (Nat.lt_of_not_le room)
    rw [run] at tidy
    refine ⟨_, h', run, .inr ⟨⟨_, rfl⟩, .of_buffer same.tid tracer (by simp) ?_⟩⟩
    rw [List.append_nil]
    exact held.of_pending tidy (Buffer.pending_congr same.ptr fun k _ inside => below k inside)

/-- A plan whose check cannot deliver has put in its entries all the same. -/
theorem adds_plan (held : h.buffer.HoldsLast opcodes log) (p : PlannedInstruction)
    (plain : p.scheme.fetches = true → opcodes = true) :
    ∃ answer h', h.execute p.plan = (answer, h') ∧
      (answer = .ok () → h'.machine.registers = h.machine.registers) ∧
      Adds opcodes log h h'
        (if answer = .ok () ∨ ((failureOf answer).bind TraceError.failure?).isSome
        then p.called h.machine.get else []) := by
  obtain ⟨s, i, check⟩ := p
  obtain ⟨answer, h₁, run, done | stopped⟩ := adds_operations held s i plain
  · obtain ⟨rfl, registers, adds⟩ := done
    rw [PlannedInstruction.plan, execute_plan, run]
    cases check with
    | false => exact ⟨_, h₁, rfl, fun _ => registers, by rw [if_pos (.inl rfl)]; exact adds⟩
    | true =>
      rcases flush : h₁.buffer.flush h₁.tracer.channel h₁.tracer.pid .deferrable with
        ⟨delivered, b', c'⟩
      have both := adds.trans (adds_flush adds.held flush)
      rw [List.append_nil] at both
      refine ⟨_, _, step_flushCheck flush, fun _ => registers, ?_⟩
      rw [if_pos]
      · exact both
      · cases delivered with
        | ok _ => exact .inl rfl
        | error _ => exact .inr rfl
  · obtain ⟨⟨cause, rfl⟩, adds⟩ := stopped
    rw [PlannedInstruction.plan, execute_plan, run]
    refine ⟨_, h₁, rfl, by simp, ?_⟩
    rw [if_neg (by simp [failureOf, TraceError.failure?])]
    exact adds

/-- Plans that are executed until one fails put in their entries one after the other. -/
theorem adds_all (held : h.buffer.HoldsLast opcodes log) (ps : List PlannedInstruction)
    (plain : ∀ p ∈ ps, p.scheme.fetches = true → opcodes = true) (done : Nat) :
    ∃ count answer h', h.executeAll done (ps.map (·.plan)) = (done + count, answer, h') ∧
      Adds opcodes log h h' ((ps.take (filledBy count (failureOf answer))).flatMap fun p =>
        p.called h.machine.get) := by
  induction ps generalizing h log done with
  | nil =>
    refine ⟨0, _, h, rfl, ?_⟩
    rw [List.take_nil]
    exact .refl held
  | cons p ps ih =>
    obtain ⟨answer, h₁, run, registers, adds⟩ := adds_plan held p (plain p List.mem_cons_self)
    rw [List.map_cons, executeAll, run]
    cases answer with
    | error e =>
      refine ⟨0, _, h₁, rfl, ?_⟩
      unfold filledBy
      by_cases reached : ((failureOf (.error e)).bind TraceError.failure?).isSome = true
      · rw [if_pos (.inr reached)] at adds
        rw [if_pos reached, List.take_succ_cons, List.take_zero, List.flatMap_singleton]
        exact adds
      · rw [if_neg (not_or_intro (by simp) reached)] at adds
        rw [if_neg reached, List.take_zero]
        exact adds
    | ok _ =>
      rw [if_pos (.inl rfl)] at adds
      obtain ⟨count, answer', h', run', adds'⟩ :=
        ih adds.held (fun p mem => plain p (List.mem_cons_of_mem _ mem)) (done + 1)
      refine ⟨count + 1, answer', h', ?_, ?_⟩
      · rw [Nat.add_comm count, ← Nat.add_assoc]
        exact run'
      · have next : filledBy (count + 1) (failureOf answer') =
            filledBy count (failureOf answer') + 1 := by
          unfold filledBy
          split <;> rfl
        rw [get_congr (registers rfl)] at adds'
        rw [next, List.take_succ_cons, List.flatMap_cons]
        exact adds.trans adds'

theorem adds_times (held : h.buffer.HoldsLast opcodes log) (ps : List PlannedInstruction)
    (plain : ∀ p ∈ ps, p.scheme.fetches = true → opcodes = true) (times : Nat) :
    ∃ done answer h', h.executeTimes 0 (ps.map (·.plan)) times = (done, answer, h') ∧
      Adds opcodes log h h' (((List.replicate times ps).flatten.take
        (filledBy done (failureOf answer))).flatMap fun p => p.called h.machine.get) := by
  rw [executeTimes_eq, ← List.map_replicate, ← List.map_flatten]
  obtain ⟨done, answer, h', run, adds⟩ := adds_all held (List.replicate times ps).flatten
    (fun p mem => by
      obtain ⟨copy, among, inside⟩ := List.mem_flatten.1 mem
      rw [List.eq_of_mem_replicate among] at inside
      exact plain p inside) 0
  rw [Nat.zero_add] at run
  exact ⟨done, answer, h', run, adds⟩

end Host

end AccessTrace
