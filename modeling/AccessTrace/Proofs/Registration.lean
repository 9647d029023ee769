import Mathlib
import AccessTrace.Proofs.Keeping

/-!
# Whether the registration was delivered

A buffer sends its registration once, on its first attempt to deliver, and counts as registered from
then on. Over a whole life of a buffer (`Life`) what is known of that is `Tracked`: once the thread
counts as registered, its registration was recorded, provided that the recorder takes messages of
that length at all. A recorder that takes shorter messages only never records it, and yet takes the
deliveries that are short enough.
-/

namespace AccessTrace

namespace Recorder

/-- The messages that were recorded since the recorder was `c₀`. -/
def since (c₀ c : Recorder) : List (List UInt8) := c.messages.toList.drop c₀.messages.size

theorem Grown.messages_eq {c₀ c : Recorder} (grown : c₀.Grown c) :
    c.messages.toList = c₀.messages.toList ++ c₀.since c := by
  obtain ⟨new, messages, _⟩ := grown.messages
  rw [since, messages, ← Array.length_toList, List.drop_left]

theorem Grown.takes_of_mem_since {c₀ c : Recorder} (grown : c₀.Grown c) {m : List UInt8}
    (mem : m ∈ c₀.since c) : c₀.Takes m.length := by
  obtain ⟨new, messages, takes⟩ := grown.messages
  rw [since, messages, ← Array.length_toList, List.drop_left] at mem
  exact takes m mem

theorem Grown.since_trans {c₀ c c' : Recorder} (first : c₀.Grown c) (second : c.Grown c') :
    c₀.since c' = c₀.since c ++ c.since c' := by
  have all := second.messages_eq
  rw [first.messages_eq, List.append_assoc, (first.trans second).messages_eq] at all
  exact List.append_cancel_left all

end Recorder

namespace Buffer

variable {b b' : Buffer} {c c' : Recorder} {pid : UInt32}

/-- What `b` and `c` become in an attempt to deliver, or in a part of one. A thread that counts as
registered then and did not before has its registration recorded, unless the recorder is closed or
does not take it whole. -/
structure Marked (b : Buffer) (c : Recorder) (pid : UInt32) (b' : Buffer) (c' : Recorder) :
    Prop where
  tid : b'.tid = b.tid
  grown : c.Grown c'
  recorded : b'.registered = true → b.registered = true ∨
    (c'.closed = false → c.Takes (2 * Entry.byteSize) → registration b.tid pid ∈ c.since c')

theorem Marked.refl (b : Buffer) (c : Recorder) (pid : UInt32) : Marked b c pid b c :=
  ⟨rfl, .refl c, .inl⟩

theorem Marked.trans {b'' : Buffer} {c'' : Recorder} (first : Marked b c pid b' c')
    (second : Marked b' c' pid b'' c'') : Marked b c pid b'' c'' where
  tid := by rw [second.tid, first.tid]
  grown := first.grown.trans second.grown
  recorded := by
    intro now
    rcases second.recorded now with before | recorded
    · rcases first.recorded before with start | recorded
      · exact .inl start
      · right
        intro isOpen takes
        rw [first.grown.since_trans second.grown]
        exact List.mem_append_left _ (recorded (second.grown.closed isOpen) takes)
    · right
      intro isOpen takes
      rw [first.grown.since_trans second.grown, ← first.tid]
      exact List.mem_append_right _ (recorded isOpen ((first.grown.takes _).2 takes))

/-- Where the registration is left alone. -/
theorem Marked.of_same (tid : b'.tid = b.tid) (registered : b'.registered = b.registered)
    (grown : c.Grown c') : Marked b c pid b' c' :=
  ⟨tid, grown, fun now => .inl (registered ▸ now)⟩

theorem marked_of_register {answer : Except ChannelError Bool}
    (attempt : b.register c pid = (answer, b', c')) :
    Marked b c pid b' c' ∧ b'.registered = true ∧ b'.occupiedBytes = b.occupiedBytes := by
  by_cases registered : b.registered = true
  · rw [register_registered registered] at attempt
    cases attempt
    exact ⟨.refl b c pid, registered, rfl⟩
  · rw [Bool.not_eq_true] at registered
    have grown := c.grown_send (registration b.tid pid)
    rcases send : c.send (registration b.tid pid) with ⟨through, c₁⟩
    rw [send] at grown
    cases through with
    | error e =>
      rw [register_refused registered send] at attempt
      cases attempt
      refine ⟨⟨rfl, grown, fun _ => .inr fun isOpen takes => ?_⟩, rfl, rfl⟩
      -- An open recorder that takes the registration would not have refused it.
      have accepts : c.Accepts (registration b.tid pid).length :=
        ⟨grown.closed isOpen, by rw [length_registration]; exact takes⟩
      rw [Recorder.send_accepted accepts] at send
      cases send
    | ok _ =>
      rw [register_through registered send] at attempt
      cases attempt
      refine ⟨⟨rfl, grown, fun _ => .inr fun _ _ => ?_⟩, rfl, rfl⟩
      have accepts := Recorder.accepts_of_send (congrArg Prod.fst send)
      rw [Recorder.send_accepted accepts] at send
      cases send
      rw [Recorder.since, Array.toList_push, ← Array.length_toList, List.drop_left]
      exact List.mem_singleton_self _

theorem deliver_attempt {answer : Except ChannelError Nat}
    (attempt : b.deliver c = (answer, b', c')) :
    b'.tid = b.tid ∧ b'.registered = b.registered ∧ c.Grown c' ∧
      ∀ n, answer = .ok n →
        c.closed = false ∧ c'.messages = c.messages.push b.occupiedBytes := by
  have grown := c.grown_send b.occupiedBytes
  rcases send : c.send b.occupiedBytes with ⟨through, c₁⟩
  rw [send] at grown
  cases through with
  | error e =>
    rw [deliver_refused send] at attempt
    cases attempt
    refine ⟨rfl, rfl, grown, fun n refused => ?_⟩
    cases refused
  | ok _ =>
    rw [deliver_through send] at attempt
    cases attempt
    refine ⟨rfl, rfl, grown, fun n _ => ?_⟩
    have accepts := Recorder.accepts_of_send (congrArg Prod.fst send)
    rw [Recorder.send_accepted accepts] at send
    cases send
    exact ⟨accepts.isOpen, rfl⟩

/-- Behind an attempt to deliver; if it sent the entries, they came right after the state of the
recorder in which the thread had registered. -/
theorem flush_attempt {policy : FlushPolicy} {answer : Except ChannelError FlushOutcome}
    (attempt : b.flush c pid policy = (answer, b', c')) :
    Marked b c pid b' c' ∧
      ∀ n r, answer = .ok (.flushed n r) → ∃ b₁ c₁, Marked b c pid b₁ c₁ ∧
        b₁.registered = true ∧ c₁.closed = false ∧
        c'.messages = c₁.messages.push b.writeHeader.occupiedBytes := by
  by_cases deferred : (policy = .deferrable && b.mayDefer) = true
  · rw [flush_deferred deferred] at attempt
    cases attempt
    refine ⟨.refl b c pid, fun n r sent => ?_⟩
    cases sent
  · have same := b.sameButBytes_writeHeader
    rcases first : b.writeHeader.register c pid with ⟨registered, b₁, c₁⟩
    obtain ⟨marked, now, bytes⟩ := marked_of_register first
    replace marked : Marked b c pid b₁ c₁ :=
      ⟨marked.tid.trans same.tid, marked.grown, by
        rw [← same.registered, ← same.tid]
        exact marked.recorded⟩
    cases registered with
    | error e =>
      rw [flush_refused deferred first] at attempt
      cases attempt
      refine ⟨marked, fun n r sent => ?_⟩
      cases sent
    | ok r =>
      rcases second : b₁.deliver c₁ with ⟨delivered, b₂, c₂⟩
      obtain ⟨tid, registered, grown, recorded⟩ := deliver_attempt second
      have after := marked.trans (.of_same tid registered grown)
      cases delivered with
      | error e =>
        rw [flush_undelivered deferred first second] at attempt
        cases attempt
        refine ⟨after, fun n r sent => ?_⟩
        cases sent
      | ok n =>
        rw [flush_delivered deferred first second] at attempt
        cases attempt
        refine ⟨after, fun _ _ _ => ⟨b₁, c₁, marked, now, ?_⟩⟩
        rw [← bytes]
        exact recorded n rfl

end Buffer

/-- What stores, pushes and moves of the pointer leave alone. -/
structure Buffer.SameThread (a b : Buffer) : Prop where
  tid : b.tid = a.tid
  registered : b.registered = a.registered

theorem Buffer.SameAccount.thread {a b : Buffer} (same : a.SameAccount b) : a.SameThread b :=
  ⟨same.tid, same.registered⟩

namespace Buffer.SameThread

theorem refl (a : Buffer) : a.SameThread a := ⟨rfl, rfl⟩

theorem apply (a : Buffer) {action : BufferAction} (own : action ≠ .markRegistered) :
    a.SameThread (action.apply a).2 := by
  by_cases counts : ∃ n, action = .addRefs n
  · obtain ⟨n, rfl⟩ := counts
    exact ⟨rfl, rfl⟩
  · exact (SameAccount.apply a (fun n same => counts ⟨n, same⟩) own).thread

end Buffer.SameThread

namespace Host

/-- `h` is one of the states that a buffer and its thread go through from `h₀` on: operations are
executed, deliveries attempted and the buffer is used in any order, and what the thread shares with
others changes in between. -/
inductive Life (h₀ : Host Recorder) : Host Recorder → Prop
  | start : Life h₀ h₀
  /-- An operation is executed; a check for a delivery is one. -/
  | operation {h : Host Recorder} (op : Operation) : Life h₀ h → Life h₀ (h.step op).2
  /-- A delivery is attempted, whatever becomes of it. -/
  | flush {h : Host Recorder} (policy : FlushPolicy) : Life h₀ h →
    Life h₀ { h with
      buffer := (h.tracer.flush h.buffer policy).2.1
      tracer := (h.tracer.flush h.buffer policy).2.2 }
  /-- The buffer is used. Nobody but a delivery marks its thread as registered. -/
  | work {h : Host Recorder} {action : BufferAction} (own : action ≠ .markRegistered) :
    Life h₀ h → Life h₀ { h with buffer := (action.apply h.buffer).2 }
  /-- The program changes the registers. -/
  | compute {h : Host Recorder} (machine : Machine) : Life h₀ h → Life h₀ { h with machine }
  /-- Another thread sends a message. -/
  | send {h : Host Recorder} (bytes : List UInt8) : Life h₀ h →
    Life h₀ { h with tracer := { h.tracer with channel := (h.tracer.channel.send bytes).2 } }
  /-- Other threads start and end. -/
  | roster {h : Host Recorder} (roster : Roster) : Life h₀ h →
    Life h₀ { h with tracer := { h.tracer with roster } }
  | close {h : Host Recorder} : Life h₀ h → Life h₀ { h with tracer := h.tracer.close }

/-- What is known in a life that began unregistered. -/
structure Tracked (h₀ h : Host Recorder) : Prop where
  pid : h.tracer.pid = h₀.tracer.pid
  marked : Buffer.Marked h₀.buffer h₀.tracer.channel h₀.tracer.pid h.buffer h.tracer.channel

variable {h₀ h h' : Host Recorder}

theorem Tracked.followed (tracked : Tracked h₀ h) (pid : h'.tracer.pid = h.tracer.pid)
    (marked : Buffer.Marked h.buffer h.tracer.channel h.tracer.pid h'.buffer h'.tracer.channel) :
    Tracked h₀ h' :=
  ⟨pid.trans tracked.pid, tracked.marked.trans (tracked.pid ▸ marked)⟩

theorem flush_marked (t : Tracer Recorder) (b : Buffer) (policy : FlushPolicy) :
    (t.flush b policy).2.2.pid = t.pid ∧
      Buffer.Marked b t.channel t.pid (t.flush b policy).2.1 (t.flush b policy).2.2.channel := by
  rcases attempt : b.flush t.channel t.pid policy with ⟨answer, b', c'⟩
  rw [Tracer.flush_eq attempt]
  exact ⟨rfl, (Buffer.flush_attempt attempt).1⟩

theorem storeAt_same (h : Host Recorder) (base : Register) (disp : Nat) (bs : List UInt8)
    (scratch : Option (Register × UInt64)) :
    (h.storeAt base disp bs scratch).2.tracer = h.tracer ∧
      h.buffer.SameThread (h.storeAt base disp bs scratch).2.buffer := by
  obtain ⟨machine, buffer, tracer⟩ := h
  simp only [storeAt]
  rcases machine.offset? base disp with _ | offset
  · exact ⟨rfl, .refl buffer⟩
  · have same := (Buffer.SameAccount.store buffer offset bs).thread
    rcases stored : buffer.store offset bs with ⟨answer, buffer'⟩
    rw [stored] at same
    simp only [stored]
    cases answer with
    | ok _ => exact ⟨rfl, same⟩
    | error _ => exact ⟨rfl, same⟩

/-- An operation attempts a delivery if it is a check for one; any other leaves the tracer alone. -/
theorem step_marked (h : Host Recorder) (op : Operation) :
    (h.step op).2.tracer.pid = h.tracer.pid ∧
      Buffer.Marked h.buffer h.tracer.channel h.tracer.pid (h.step op).2.buffer
        (h.step op).2.tracer.channel := by
  have stores : ∀ base disp bs scratch,
      (h.storeAt base disp bs scratch).2.tracer.pid = h.tracer.pid ∧
      Buffer.Marked h.buffer h.tracer.channel h.tracer.pid (h.storeAt base disp bs scratch).2.buffer
        (h.storeAt base disp bs scratch).2.tracer.channel := by
    intro base disp bs scratch
    obtain ⟨tracer, same⟩ := storeAt_same h base disp bs scratch
    rw [tracer]
    exact ⟨rfl, .of_same same.tid same.registered (.refl _)⟩
  cases op with
  | spill reg slot => exact ⟨rfl, .refl _ _ _⟩
  | restore reg slot => exact ⟨rfl, .refl _ _ _⟩
  | loadPointer dst => exact ⟨rfl, .refl _ _ _⟩
  | storeImmediate16 base scratch disp value => exact stores _ _ _ _
  | storeImmediate64 base scratch disp value => exact stores _ _ _ _
  | loadAddress reference dst scratch => exact ⟨rfl, .refl _ _ _⟩
  | storeRegister base disp src => exact stores _ _ _ _
  | advance reg amount =>
    obtain ⟨machine, buffer, tracer⟩ := h
    simp only [step]
    rcases machine.offset? reg amount with _ | ptr
    · exact ⟨rfl, .refl _ _ _⟩
    · have same := (Buffer.SameAccount.setPtr buffer ptr).thread
      rcases moved : buffer.setPtr ptr with ⟨answer, buffer'⟩
      rw [moved] at same
      have marked : Buffer.Marked buffer tracer.channel tracer.pid buffer' tracer.channel :=
        .of_same same.tid same.registered (.refl _)
      simp only [moved]
      cases answer with
      | ok _ => exact ⟨rfl, marked⟩
      | error _ => exact ⟨rfl, marked⟩
  | flushCheck =>
    obtain ⟨machine, buffer, tracer⟩ := h
    have attempted := flush_marked tracer buffer .deferrable
    rcases flush : tracer.flush buffer .deferrable with ⟨answer, buffer', tracer'⟩
    rw [flush] at attempted
    simp only [step, flush]
    cases answer with
    | ok _ => exact attempted
    | error _ => exact attempted

theorem Life.tracked (life : Life h₀ h) : Tracked h₀ h := by
  induction life with
  | start => exact ⟨rfl, .refl _ _ _⟩
  | @operation h op _ ih => exact ih.followed (step_marked h op).1 (step_marked h op).2
  | @flush h policy _ ih =>
    obtain ⟨pid, marked⟩ := flush_marked h.tracer h.buffer policy
    exact ih.followed pid marked
  | @work h action own _ ih =>
    have same := Buffer.SameThread.apply h.buffer own
    exact ih.followed rfl (.of_same same.tid same.registered (.refl _))
  | compute _ _ ih => exact ih.followed rfl (.refl _ _ _)
  | @send h bytes _ ih =>
    exact ih.followed rfl (.of_same rfl rfl (h.tracer.channel.grown_send bytes))
  | roster _ _ ih => exact ih.followed rfl (.refl _ _ _)
  | @close h _ ih => exact ih.followed rfl (.of_same rfl rfl h.tracer.channel.grown_close)

/-- A delivery of the buffer is accepted, be it the last one, and leaves the recorder so. -/
inductive Accepted (h : Host Recorder) : Recorder → Prop
  | flushed {policy : FlushPolicy} {n : Nat} {r : Bool} {b : Buffer} {t : Tracer Recorder} :
    h.tracer.flush h.buffer policy = (.ok (.flushed n r), b, t) → Accepted h t.channel
  | finished {refs : Nat} {t : Tracer Recorder} :
    h.tracer.finish h.buffer = (.ok refs, t) → Accepted h t.channel

theorem flushed_of_flush {t t' : Tracer Recorder} {b b' : Buffer} {policy : FlushPolicy} {n : Nat}
    {r : Bool} (flushed : t.flush b policy = (.ok (.flushed n r), b', t')) :
    b.flush t.channel t.pid policy = (.ok (.flushed n r), b', t'.channel) := by
  rcases attempt : b.flush t.channel t.pid policy with ⟨answer, b₁, c₁⟩
  rw [Tracer.flush_eq attempt] at flushed
  cases answer with
  | error e => cases flushed
  | ok outcome => cases flushed; rfl

theorem flush_of_finish {t t' : Tracer Recorder} {b : Buffer} {refs : Nat}
    (finished : t.finish b = (.ok refs, t')) :
    ∃ n r b', ({ b with phase := .draining } : Buffer).flush t.channel t.pid .forced =
      (.ok (.flushed n r), b', t'.channel) := by
  by_cases active : b.phase = .active
  · rcases attempt : ({ b with phase := .draining } : Buffer).flush t.channel t.pid .forced
      with ⟨answer, b', c'⟩
    rw [Tracer.finish_eq active attempt] at finished
    cases answer with
    | error e => cases finished
    | ok outcome =>
      obtain ⟨n, r, rfl⟩ := Buffer.flushed_of_forced attempt
      cases finished
      exact ⟨n, r, b', rfl⟩
  · rw [Tracer.finish_inactive active] at finished
    cases finished

/-- Whether the registration of a thread was recorded before a delivery that was accepted depends
on nothing but the recorder: exactly if that takes messages of its length was it recorded, and then
it was after the life began. -/
theorem registration_recorded_iff {h₀ h : Host Recorder} {c : Recorder}
    (fresh : h₀.buffer.registered = false) (life : Life h₀ h) (accepted : Accepted h c) :
    ∃ prior : Array (List UInt8), c.messages = prior.push h.buffer.writeHeader.occupiedBytes ∧
      (Buffer.registration h₀.buffer.tid h₀.tracer.pid ∈
          prior.toList.drop h₀.tracer.channel.messages.size ↔
        ∀ limit ∈ h₀.tracer.channel.limit, 32 ≤ limit) := by
  have tracked := life.tracked
  have sent : ∃ c₁ b₁, Buffer.Marked h.buffer h.tracer.channel h.tracer.pid b₁ c₁ ∧
      b₁.registered = true ∧ c₁.closed = false ∧
      c.messages = c₁.messages.push h.buffer.writeHeader.occupiedBytes := by
    cases accepted with
    | flushed flushed =>
      obtain ⟨b₁, c₁, marked, sent⟩ :=
        (Buffer.flush_attempt (flushed_of_flush flushed)).2 _ _ rfl
      exact ⟨c₁, b₁, marked, sent⟩
    | finished finished =>
      obtain ⟨n, r, b', flushed⟩ := flush_of_finish finished
      obtain ⟨b₁, c₁, marked, sent⟩ := (Buffer.flush_attempt flushed).2 _ _ rfl
      exact ⟨c₁, b₁, ⟨marked.tid, marked.grown, marked.recorded⟩, sent⟩
  obtain ⟨c₁, b₁, marked, registered, isOpen, messages⟩ := sent
  have all := tracked.marked.trans (tracked.pid ▸ marked)
  refine ⟨c₁.messages, messages, fun recorded => ?_, fun takes => ?_⟩
  · have taken := all.grown.takes_of_mem_since recorded
    rw [Buffer.length_registration] at taken
    exact taken
  · rcases all.recorded registered with start | recorded
    · rw [fresh] at start
      cases start
    · exact recorded isOpen takes

/-- A thread that has just started, on a recorder that takes so many bytes of a message. -/
def started (limit : Nat) : Host Recorder where
  machine := {}
  buffer :=
    { tid := 7, capacity := 2, bytes := Buffer.emptyBytes 2, phase := .active, attached := true
      two_le_capacity := by decide, size_bytes := Buffer.size_emptyBytes 2, fits := by decide
      header_le_ptr := Nat.le_refl _, ptr_le := by decide }
  tracer := { pid := 1, channel := { limit := some limit }, roster := { live := [7] } }

theorem registration_recorded_fitting : ∃ c prior, Accepted (started 32) c ∧
    c.messages = Array.push prior (started 32).buffer.writeHeader.occupiedBytes ∧
    Buffer.registration 7 1 ∈ prior.toList := by
  have accepted : Accepted (started 32) _ :=
    .flushed (show (started 32).tracer.flush (started 32).buffer .forced =
      (.ok (.flushed 1 true), _, _) from rfl)
  obtain ⟨prior, messages, recorded⟩ :=
    registration_recorded_iff (show (started 32).buffer.registered = false from rfl) .start accepted
  exact ⟨_, prior, accepted, messages, recorded.2 (by rintro _ ⟨⟩; decide)⟩

/-- A registration that does not get through is not sent again: the second delivery is accepted
without it. -/
theorem registration_skipped :
    let first := (started 16).tracer.flush (started 16).buffer .forced
    let second := first.2.2.flush first.2.1 .forced
    first.1 = .error (.channel (.partialWrite 16 32)) ∧ second.1 = .ok (.flushed 1 false) ∧
      Buffer.registration 7 1 ∉ second.2.2.channel.messages.toList := by
  refine ⟨?_, ?_, ?_⟩ <;> decide +kernel

end Host

end AccessTrace
