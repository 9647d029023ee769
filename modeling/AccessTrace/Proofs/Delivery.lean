import Mathlib
import AccessTrace.Channel.Recorder
import AccessTrace.Proofs.Slots
import AccessTrace.Tracer.Basic

/-!
# What a delivery sends

A message gets through a recorder that is open and takes messages of its length (`Accepts`). A
delivery that is not put off sends the registration of a thread that has not registered, and then
the occupied slots; how it ends depends on which of the two get through, and a thread whose
registration was attempted counts as registered either way.
-/

namespace AccessTrace

namespace Recorder

/-- Messages of `n` bytes are taken whole. -/
def Takes (c : Recorder) (n : Nat) : Prop := ∀ limit ∈ c.limit, n ≤ limit

/-- Messages of `n` bytes get through. -/
structure Accepts (c : Recorder) (n : Nat) : Prop where
  isOpen : c.closed = false
  takes : c.Takes n

/-- `c'` is what has become of `c`: messages were recorded that are no longer than `c` takes. -/
structure Grown (c c' : Recorder) : Prop where
  limit : c'.limit = c.limit
  closed : c'.closed = false → c.closed = false
  messages : ∃ new, c'.messages.toList = c.messages.toList ++ new ∧ ∀ m ∈ new, c.Takes m.length

theorem Grown.takes {c c' : Recorder} (grown : c.Grown c') (n : Nat) : c'.Takes n ↔ c.Takes n := by
  rw [Takes, Takes, grown.limit]

theorem Grown.refl (c : Recorder) : c.Grown c where
  limit := rfl
  closed := id
  messages := ⟨[], by rw [List.append_nil], by simp⟩

theorem Grown.trans {c c' c'' : Recorder} (first : c.Grown c') (second : c'.Grown c'') :
    c.Grown c'' where
  limit := by rw [second.limit, first.limit]
  closed := fun h => first.closed (second.closed h)
  messages := by
    obtain ⟨new, grown, takes⟩ := first.messages
    obtain ⟨more, grown', takes'⟩ := second.messages
    refine ⟨new ++ more, by rw [grown', grown, List.append_assoc], fun m mem => ?_⟩
    rcases List.mem_append.1 mem with old | late
    · exact takes m old
    · exact (first.takes _).1 (takes' m late)

theorem takes_accepted (c : Recorder) (bytes : List UInt8) : c.Takes (c.accepted bytes).length := by
  intro limit mem
  rw [accepted, show c.limit = some limit from mem]
  exact List.length_take_le _ _

theorem grown_send (c : Recorder) (bytes : List UInt8) : c.Grown (c.send bytes).2 := by
  unfold send
  split
  · exact .refl c
  · refine ⟨rfl, fun h => h, [c.accepted bytes], ?_, ?_⟩
    · exact Array.toList_push
    · intro m mem
      rw [List.mem_singleton.1 mem]
      exact c.takes_accepted bytes

theorem grown_close (c : Recorder) : c.Grown c.close where
  limit := rfl
  closed := by intro h; cases h
  messages := ⟨[], by rw [List.append_nil]; rfl, by simp⟩

theorem accepted_eq_iff (c : Recorder) (bytes : List UInt8) :
    (c.accepted bytes).length = bytes.length ↔ c.Takes bytes.length := by
  rw [accepted, Takes]
  cases c.limit with
  | none => simp
  | some limit =>
    simp only [List.length_take, Option.mem_def, Option.some.injEq, forall_eq']
    omega

/-- A message that gets through is recorded as it is. -/
theorem send_accepted {c : Recorder} {bytes : List UInt8} (accepts : c.Accepts bytes.length) :
    c.send bytes = (.ok (), { c with messages := c.messages.push bytes }) := by
  have whole : c.accepted bytes = bytes := by
    have length := (c.accepted_eq_iff bytes).2 accepts.takes
    rw [accepted] at length ⊢
    cases limit : c.limit with
    | none => rfl
    | some limit =>
      simp only [limit, List.length_take] at length ⊢
      exact List.take_of_length_le (by omega)
  rw [send, if_neg (by rw [accepts.isOpen]; decide)]
  simp only [whole, verdict, if_true]

theorem accepts_of_send {c : Recorder} {bytes : List UInt8} (through : (c.send bytes).1 = .ok ()) :
    c.Accepts bytes.length := by
  unfold send at through
  split at through
  · cases through
  · rename_i isOpen
    refine ⟨by simpa using isOpen, (c.accepted_eq_iff bytes).1 ?_⟩
    by_contra cut
    simp only [verdict, if_neg cut, reduceCtorEq] at through

end Recorder

namespace Buffer

/-- A buffer that was made just now and that no tracer has handed out. -/
structure Unused (tid : UInt64) (capacity : Nat) (b : Buffer) : Prop where
  tid : b.tid = tid
  capacity : b.capacity = capacity
  blank : b.bytes = emptyBytes b.capacity
  uninitialized : b.phase = .uninitialized
  detached : b.attached = false
  unregistered : b.registered = false
  unsent : b.refs = 0
  empty : b.ptr = headerBytes

theorem unused_of_new {tid : UInt64} {capacity : Nat} {b : Buffer}
    (made : new tid capacity = .ok b) : Unused tid capacity b := by
  unfold new at made
  split at made
  · split at made
    · cases made
    · split at made
      · cases made
        exact ⟨rfl, rfl, rfl, rfl, rfl, rfl, rfl, rfl⟩
      · cases made
  · cases made

@[simp] theorem length_registration (tid : UInt64) (pid : UInt32) :
    (registration tid pid).length = 2 * Entry.byteSize := by
  rw [registration, List.length_append, Entry.length_toBytes, Entry.length_toBytes, Nat.two_mul]

section
variable {σ : Type} [Channel σ] {b : Buffer} {channel : σ} {pid : UInt32} {policy : FlushPolicy}

/-- The buffer of a thread that counts as registered. -/
def marked (b : Buffer) : Buffer := { b with registered := true }

theorem register_registered (registered : b.registered = true) :
    b.register channel pid = (.ok false, b, channel) := by
  rw [register, if_pos registered]

/-- A thread whose registration does not get through counts as registered all the same. -/
theorem register_refused (unregistered : b.registered = false) {e : ChannelError} {channel' : σ}
    (refused : Channel.send channel (registration b.tid pid) = (.error e, channel')) :
    b.register channel pid = (.error e, b.marked, channel') := by
  rw [register, if_neg (by rw [unregistered]; decide), refused]
  rfl

theorem register_through (unregistered : b.registered = false) {channel' : σ}
    (through : Channel.send channel (registration b.tid pid) = (.ok (), channel')) :
    b.register channel pid = (.ok true, b.marked, channel') := by
  rw [register, if_neg (by rw [unregistered]; decide), through]
  rfl

theorem deliver_refused {e : ChannelError} {channel' : σ}
    (refused : Channel.send channel b.occupiedBytes = (.error e, channel')) :
    b.deliver channel = (.error e, b, channel') := by
  rw [deliver, refused]

theorem deliver_through {channel' : σ}
    (through : Channel.send channel b.occupiedBytes = (.ok (), channel')) :
    b.deliver channel = (.ok b.occupied, (b.addRefs b.occupied).reset, channel') := by
  rw [deliver, through]

theorem flush_deferred (deferred : (policy = .deferrable && b.mayDefer) = true) :
    b.flush channel pid policy = (.ok .deferred, b, channel) := by
  rw [flush, if_pos deferred]

theorem flush_refused (now : ¬ (policy = .deferrable && b.mayDefer) = true) {e : ChannelError}
    {b' : Buffer} {channel' : σ}
    (refused : b.writeHeader.register channel pid = (.error e, b', channel')) :
    b.flush channel pid policy = (.error e, b', channel') := by
  rw [flush, if_neg now, refused]

theorem flush_undelivered (now : ¬ (policy = .deferrable && b.mayDefer) = true) {r : Bool}
    {b' b'' : Buffer} {channel' channel'' : σ} {e : ChannelError}
    (registered : b.writeHeader.register channel pid = (.ok r, b', channel'))
    (refused : b'.deliver channel' = (.error e, b'', channel'')) :
    b.flush channel pid policy = (.error e, b'', channel'') := by
  rw [flush, if_neg now, registered]
  simp only [refused]

theorem flush_delivered (now : ¬ (policy = .deferrable && b.mayDefer) = true) {r : Bool}
    {b' b'' : Buffer} {channel' channel'' : σ} {n : Nat}
    (registered : b.writeHeader.register channel pid = (.ok r, b', channel'))
    (through : b'.deliver channel' = (.ok n, b'', channel'')) :
    b.flush channel pid policy = (.ok (.flushed n r), b'', channel'') := by
  rw [flush, if_neg now, registered]
  simp only [through]

/-- A delivery is put off, or registers and then delivers unless registering failed. -/
theorem flush_cases {answer : Except ChannelError FlushOutcome} {b' : Buffer} {channel' : σ}
    (flush : b.flush channel pid policy = (answer, b', channel')) :
    ((policy = .deferrable && b.mayDefer) = true ∧ answer = .ok .deferred ∧ b' = b ∧
      channel' = channel) ∨
    ¬ (policy = .deferrable && b.mayDefer) = true ∧ ∃ first b₁ channel₁,
      b.writeHeader.register channel pid = (first, b₁, channel₁) ∧
      ((∃ e, first = .error e ∧ answer = .error e ∧ b' = b₁ ∧ channel' = channel₁) ∨
        ∃ r second, first = .ok r ∧ b₁.deliver channel₁ = (second, b', channel') ∧
          answer = second.map fun n => .flushed n r) := by
  by_cases deferred : (policy = .deferrable && b.mayDefer) = true
  · rw [flush_deferred deferred] at flush
    cases flush
    exact .inl ⟨deferred, rfl, rfl, rfl⟩
  · right
    refine ⟨deferred, ?_⟩
    rcases first : b.writeHeader.register channel pid with ⟨registered, b₁, channel₁⟩
    refine ⟨registered, b₁, channel₁, rfl, ?_⟩
    cases registered with
    | error e =>
      rw [flush_refused deferred first] at flush
      cases flush
      exact .inl ⟨e, rfl, rfl, rfl, rfl⟩
    | ok r =>
      right
      rcases second : b₁.deliver channel₁ with ⟨delivered, b₂, channel₂⟩
      cases delivered with
      | error e =>
        rw [flush_undelivered deferred first second] at flush
        cases flush
        exact ⟨r, _, rfl, rfl, rfl⟩
      | ok n =>
        rw [flush_delivered deferred first second] at flush
        cases flush
        exact ⟨r, _, rfl, rfl, rfl⟩

/-- What a delivery never changes. -/
structure SameLife (a b : Buffer) : Prop where
  tid : b.tid = a.tid
  capacity : b.capacity = a.capacity
  phase : b.phase = a.phase
  attached : b.attached = a.attached

theorem SameLife.refl (a : Buffer) : a.SameLife a := ⟨rfl, rfl, rfl, rfl⟩

theorem SameLife.trans {a b c : Buffer} (first : a.SameLife b) (second : b.SameLife c) :
    a.SameLife c :=
  ⟨second.tid.trans first.tid, second.capacity.trans first.capacity,
    second.phase.trans first.phase, second.attached.trans first.attached⟩

theorem SameButBytes.life {a b : Buffer} (same : a.SameButBytes b) : a.SameLife b :=
  ⟨same.tid, same.capacity, same.phase, same.attached⟩

theorem register_life {answer : Except ChannelError Bool} {b' : Buffer} {channel' : σ}
    (register : b.register channel pid = (answer, b', channel')) : b.SameLife b' := by
  unfold Buffer.register at register
  split at register
  · cases register
    exact .refl b
  · cases register
    exact ⟨rfl, rfl, rfl, rfl⟩

theorem deliver_life {answer : Except ChannelError Nat} {b' : Buffer} {channel' : σ}
    (deliver : b.deliver channel = (answer, b', channel')) : b.SameLife b' := by
  unfold Buffer.deliver at deliver
  split at deliver
  · cases deliver
    exact ⟨rfl, rfl, rfl, rfl⟩
  · cases deliver
    exact .refl b

theorem flush_life {answer : Except ChannelError FlushOutcome} {b' : Buffer} {channel' : σ}
    (flush : b.flush channel pid policy = (answer, b', channel')) : b.SameLife b' := by
  have headed := b.sameButBytes_writeHeader.life
  rcases flush_cases flush with ⟨_, _, rfl, _⟩ |
    ⟨_, _, b₁, channel₁, first, ⟨e, _, _, rfl, _⟩ | ⟨r, _, _, second, _⟩⟩
  · exact .refl b'
  · exact headed.trans (register_life first)
  · exact (headed.trans (register_life first)).trans (deliver_life second)

/-- A forced delivery is not put off. -/
theorem flushed_of_forced {outcome : FlushOutcome} {b' : Buffer} {channel' : σ}
    (flush : b.flush channel pid .forced = (.ok outcome, b', channel')) :
    ∃ n r, outcome = .flushed n r := by
  unfold Buffer.flush at flush
  rw [if_neg (by simp)] at flush
  split at flush
  · cases flush
  · split at flush
    · cases flush
    · cases flush
      exact ⟨_, _, rfl⟩

end

end Buffer

namespace Tracer

variable {σ : Type} [Channel σ] {t : Tracer σ} {b b' : Buffer} {channel' : σ}
  {policy : FlushPolicy} {answer : Except ChannelError FlushOutcome}

theorem flush_eq (flush : b.flush t.channel t.pid policy = (answer, b', channel')) :
    t.flush b policy = (answer.mapError .channel, b', { t with channel := channel' }) := by
  obtain ⟨pid, capacity, channel, roster⟩ := t
  simp only [Tracer.flush, flush]

/-- The last delivery is forced; whatever becomes of it, the thread has ended then. -/
theorem finish_eq (active : b.phase = .active)
    (flush : ({ b with phase := .draining } : Buffer).flush t.channel t.pid .forced =
      (answer, b', channel')) :
    t.finish b = (((answer.mapError TraceError.channel).map fun _ => b'.refs).mapError .trace,
      { t with channel := channel', roster := t.roster.leave b'.tid b'.refs }) := by
  have draining : b'.phase = .draining := (Buffer.flush_life flush).phase
  have begun : b.transition .draining = (.ok (), { b with phase := .draining }) := by
    rw [Buffer.transition, active]
    rfl
  have freed : b'.transition .freed = (.ok (), { b' with phase := .freed }) := by
    rw [Buffer.transition, draining]
    rfl
  simp only [Tracer.finish, begun, flush_eq flush, Tracer.free, freed, Tracer.discard]
  simp [Except.map]

theorem finish_inactive (inactive : b.phase ≠ .active) :
    t.finish b = (.error (.misuse (.transition b.tid b.phase .draining)), t.discard b) := by
  have refused : b.transition .draining =
      (.error (.transition b.tid b.phase .draining), b) := by
    rw [Buffer.transition, if_neg]
    cases phase : b.phase <;> simp_all [Phase.next?]
  simp only [Tracer.finish, refused]

/-- A buffer that was handed out just now. -/
structure Fresh (b : Buffer) : Prop where
  active : b.phase = .active
  attached : b.attached = true
  unregistered : b.registered = false
  unsent : b.refs = 0
  empty : b.ptr = headerBytes
  blank : b.bytes = Buffer.emptyBytes b.capacity

/-- A buffer that no tracer handed out goes away without a trace. -/
theorem discard_detached {σ : Type} {t : Tracer σ} {b : Buffer} (detached : b.attached = false) :
    t.discard b = t := by
  simp [discard, detached]

/-- A thread that starts is new and has an empty buffer; if it does not, nothing happens, and the
channel has nothing to do with it. -/
theorem start_eq {σ : Type} (t : Tracer σ) (tid : UInt64) :
    (∃ b, t.start tid = (.ok b, { t with roster := t.roster.enter b.tid }) ∧ b.tid = tid ∧
      b.capacity = t.capacity ∧ t.roster.exited = false ∧ b.tid ∉ t.roster.live ∧ Fresh b) ∨
    ∃ e, (∀ cause, e ≠ .channel cause) ∧ t.start tid = (.error e, t) := by
  unfold start
  cases made : Buffer.new tid t.capacity with
  | error e => exact .inr ⟨_, by rintro cause ⟨⟩, rfl⟩
  | ok b =>
    have new := Buffer.unused_of_new made
    by_cases exited : t.roster.exited = true
    · simp only [if_pos exited, discard_detached new.detached]
      exact .inr ⟨_, by rintro cause ⟨⟩, rfl⟩
    · by_cases live : tid ∈ t.roster.live
      · simp only [if_neg exited, if_pos live, discard_detached new.detached]
        exact .inr ⟨_, by rintro cause ⟨⟩, rfl⟩
      · left
        refine ⟨{ b with attached := true, phase := .active }, ?_, new.tid, new.capacity,
          by simpa using exited, ?_, rfl, rfl, new.unregistered, new.unsent, new.empty, new.blank⟩
        · simp only [if_neg exited, if_neg live, new.tid]
        · rw [new.tid]
          exact live

end Tracer

end AccessTrace
