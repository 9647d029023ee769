import Mathlib
import AccessTrace.Proofs.Records

/-!
# One attempt to deliver

What an attempt to deliver has to send is known before (`due`): the registration of a thread that
has not registered, and the payload. It is sent message by message until one is refused
(`flush_now`), whatever the channel makes of each; what it came to can be heard on any channel
(`Overheard`) and is all told by that (`flush_attempted`).
-/

namespace AccessTrace

/-- A channel, with each message that was sent on it and what became of that. -/
structure Overheard (σ : Type) where
  channel : σ
  attempts : List (List UInt8 × Except ChannelError Unit) := []

namespace Overheard

variable {σ : Type} [Channel σ]

/-- Sends a message, which is heard. -/
def send (c : Overheard σ) (bytes : List UInt8) : Except ChannelError Unit × Overheard σ :=
  match Channel.send c.channel bytes with
  | (answer, channel) => (answer, { channel, attempts := c.attempts ++ [(bytes, answer)] })

/-- Closes the channel, of which nothing is heard. -/
def close (c : Overheard σ) : Overheard σ := { c with channel := Channel.close c.channel }

instance : Channel (Overheard σ) := ⟨send, close⟩

end Overheard

namespace Channel

variable {σ : Type} [Channel σ]

/-- Sends messages until one is refused. -/
def sendAll (c : σ) : List (List UInt8) → Except ChannelError Unit × σ
  | [] => (.ok (), c)
  | message :: rest =>
    match send c message with
    | (.ok (), c) => sendAll c rest
    | (.error e, c) => (.error e, c)

/-- What is heard of messages that are sent until one is refused: all of them got through, or those
before one that did not, and nothing was sent after that. -/
def Heard (messages : List (List UInt8)) (attempts : List (List UInt8 × Except ChannelError Unit)) :
    Except ChannelError Unit → Prop
  | .ok () => attempts = messages.map (·, .ok ())
  | .error e => ∃ through message rest, messages = through ++ message :: rest ∧
      attempts = through.map (·, .ok ()) ++ [(message, .error e)]

theorem sendAll_overheard (messages : List (List UInt8)) (c : Overheard σ)
    {answer : Except ChannelError Unit} {channel : σ}
    (sent : sendAll c.channel messages = (answer, channel)) :
    ∃ attempts, sendAll c messages = (answer, { channel, attempts := c.attempts ++ attempts }) ∧
      Heard messages attempts answer := by
  induction messages generalizing c with
  | nil =>
    cases sent
    exact ⟨[], by rw [List.append_nil]; rfl, rfl⟩
  | cons message rest ih =>
    rw [sendAll] at sent ⊢
    rcases first : send c.channel message with ⟨got, channel₁⟩
    have heard : send c message =
        (got, { channel := channel₁, attempts := c.attempts ++ [(message, got)] }) := by
      change c.send message = _
      rw [Overheard.send, first]
    rw [first] at sent
    rw [heard]
    cases got with
    | error e =>
      cases sent
      exact ⟨_, rfl, [], message, rest, rfl, rfl⟩
    | ok _ =>
      obtain ⟨attempts, later, all⟩ :=
        ih { channel := channel₁, attempts := c.attempts ++ [(message, .ok ())] } sent
      refine ⟨(message, .ok ()) :: attempts, ?_, ?_⟩
      · rw [← List.append_cons] at later
        exact later
      · cases answer with
        | ok _ => exact congrArg _ all
        | error e =>
          obtain ⟨through, refused, unsent, rfl, rfl⟩ := all
          exact ⟨message :: through, refused, unsent, rfl, rfl⟩

end Channel

namespace Buffer

variable {σ : Type} [Channel σ] {b : Buffer} {c : σ} {pid : UInt32} {policy : FlushPolicy}

/-- The messages that a delivery has to send: the registration, unless the thread has registered,
and the payload, which is the thread header and whatever is behind the header slot. -/
def due (b : Buffer) (pid : UInt32) : List (List UInt8) :=
  (if b.registered then [] else [registration b.tid pid]) ++ [b.header.toBytes ++ b.pendingBytes]

/-- What a delivery that fails leaves as it was: all but the header slot and whether the thread
counts as registered. -/
structure Unsent (a b : Buffer) : Prop where
  life : a.SameLife b
  ptr : b.ptr = a.ptr
  refs : b.refs = a.refs
  behind : ∀ k, headerBytes ≤ k → b.bytes[k]? = a.bytes[k]?

namespace Unsent

variable {a b d : Buffer}

theorem trans (first : a.Unsent b) (second : b.Unsent d) : a.Unsent d where
  life := first.life.trans second.life
  ptr := second.ptr.trans first.ptr
  refs := second.refs.trans first.refs
  behind := fun k behind => (second.behind k behind).trans (first.behind k behind)

theorem occupied (unsent : a.Unsent b) : b.occupied = a.occupied := by
  rw [Buffer.occupied, unsent.ptr, Buffer.occupied]

theorem pending (unsent : a.Unsent b) : b.pending = a.pending :=
  pending_congr unsent.ptr fun k behind _ => unsent.behind k behind

theorem pendingBytes (unsent : a.Unsent b) : b.pendingBytes = a.pendingBytes := by
  have size : b.bytes.size = a.bytes.size := by
    rw [b.size_bytes, a.size_bytes, unsent.life.capacity]
  rw [Buffer.pendingBytes, Buffer.pendingBytes, unsent.ptr]
  apply List.ext_getElem?
  intro k
  rw [Array.getElem?_toList, Array.getElem?_toList, Array.getElem?_extract,
    Array.getElem?_extract, size, unsent.behind _ (Nat.le_add_right _ _)]

theorem writeHeader (a : Buffer) : a.Unsent a.writeHeader where
  life := a.sameButBytes_writeHeader.life
  ptr := a.sameButBytes_writeHeader.ptr
  refs := a.sameButBytes_writeHeader.refs
  behind := fun _ behind => a.getElem?_writeHeader behind

theorem marked (a : Buffer) : a.Unsent a.marked := ⟨⟨rfl, rfl, rfl, rfl⟩, rfl, rfl, fun _ _ => rfl⟩

theorem headed (a : Buffer) : a.Unsent a.writeHeader.marked :=
  (Unsent.writeHeader a).trans (Unsent.marked a.writeHeader)

end Unsent

theorem occupiedBytes_marked (b : Buffer) : b.marked.occupiedBytes = b.occupiedBytes := rfl

theorem marked_of_registered (registered : b.registered = true) : b.marked = b := by
  rw [marked, ← registered]

/-- Behind the thread header is what was pending. -/
theorem occupiedBytes_written (b : Buffer) :
    b.writeHeader.occupiedBytes = b.header.toBytes ++ b.pendingBytes := by
  rw [occupiedBytes_eq, extract_writeHeader, (Unsent.writeHeader b).pendingBytes, header]

theorem occupiedBytes_headed (b : Buffer) :
    b.writeHeader.marked.occupiedBytes = b.header.toBytes ++ b.pendingBytes := by
  rw [occupiedBytes_marked, occupiedBytes_written]

/-- Where the thread counts as registered what is left to be sent is the payload. -/
theorem flush_registered (now : ¬ (policy = .deferrable && b.mayDefer) = true) {r : Bool} {c₁ : σ}
    (first : b.writeHeader.register c pid = (.ok r, b.writeHeader.marked, c₁)) :
    b.flush c pid policy =
      match Channel.sendAll c₁ [b.header.toBytes ++ b.pendingBytes] with
      | (.ok (), c') => (.ok (.flushed b.occupied r),
          (b.writeHeader.marked.addRefs b.occupied).reset, c')
      | (.error e, c') => (.error e, b.writeHeader.marked, c') := by
  rw [← b.occupiedBytes_headed, Channel.sendAll, ← (Unsent.headed b).occupied]
  rcases through : Channel.send c₁ b.writeHeader.marked.occupiedBytes with ⟨answer, c₂⟩
  cases answer with
  | error e => exact flush_undelivered now first (deliver_refused through)
  | ok _ => exact flush_delivered now first (deliver_through through)

/-- A delivery that is not put off sends what is due until a message is refused. -/
theorem flush_now (now : ¬ (policy = .deferrable && b.mayDefer) = true) :
    b.flush c pid policy =
      match Channel.sendAll c (b.due pid) with
      | (.ok (), c') => (.ok (.flushed b.occupied !b.registered),
          (b.writeHeader.marked.addRefs b.occupied).reset, c')
      | (.error e, c') => (.error e, b.writeHeader.marked, c') := by
  have same : b.writeHeader.registered = b.registered := b.sameButBytes_writeHeader.registered
  cases known : b.registered with
  | true =>
    have first : b.writeHeader.register c pid = (.ok false, b.writeHeader.marked, c) := by
      rw [marked_of_registered (same.trans known)]
      exact register_registered (same.trans known)
    rw [due, known, if_pos rfl]
    exact flush_registered now first
  | false =>
    rw [due, known, if_neg (by decide), List.singleton_append, Channel.sendAll]
    rw [← b.sameButBytes_writeHeader.tid]
    rcases through : Channel.send c (registration b.writeHeader.tid pid) with ⟨answer, c₁⟩
    cases answer with
    | error e => exact flush_refused now (register_refused (same.trans known) through)
    | ok _ => exact flush_registered now (register_through (same.trans known) through)

theorem unsent_of_flush_error {e : ChannelError} {b' : Buffer} {c' : σ}
    (failed : b.flush c pid policy = (.error e, b', c')) : b.Unsent b' := by
  by_cases deferred : (policy = .deferrable && b.mayDefer) = true
  · rw [flush_deferred deferred] at failed
    cases failed
  · rw [flush_now deferred] at failed
    split at failed
    · cases failed
    · cases failed
      exact Unsent.headed b

theorem ptr_reset (b : Buffer) : b.reset.ptr = headerBytes := rfl

/-- A delivery leaves the pointer between two slots. -/
theorem aligned_flush (aligned : b.ptr % Entry.byteSize = 0)
    {answer : Except ChannelError FlushOutcome} {b' : Buffer} {c' : σ}
    (flush : b.flush c pid policy = (answer, b', c')) : b'.ptr % Entry.byteSize = 0 := by
  by_cases deferred : (policy = .deferrable && b.mayDefer) = true
  · rw [flush_deferred deferred] at flush
    cases flush
    exact aligned
  · rw [flush_now deferred] at flush
    split at flush
    · cases flush
      rw [ptr_reset]
      rfl
    · cases flush
      rw [(Unsent.headed b).ptr]
      exact aligned

end Buffer

/-! ## Sums of machine words -/

/-- What becomes of a sum that is no machine word, which is settled when the program is built: the
program ends there, or the sum is taken modulo `wordLimit`. -/
inductive Arithmetic where
  | checked
  | wrapping
  deriving DecidableEq

namespace Arithmetic

/-- The sum of two machine words, if there is one. -/
def add? (arithmetic : Arithmetic) (m n : Nat) : Option Nat :=
  if m + n < wordLimit then some (m + n)
  else match arithmetic with
    | checked => none
    | wrapping => some ((m + n) % wordLimit)

variable {arithmetic : Arithmetic} {m n sum : Nat}

theorem add?_of_lt (fits : m + n < wordLimit) : arithmetic.add? m n = some (m + n) := if_pos fits

theorem add?_eq_none (added : arithmetic.add? m n = none) :
    arithmetic = .checked ∧ wordLimit ≤ m + n := by
  unfold add? at added
  split at added
  next => cases added
  next unfit =>
    cases arithmetic with
    | checked => exact ⟨rfl, Nat.not_lt.mp unfit⟩
    | wrapping => cases added

/-- A machine word grows by what is added to it as a machine word does, and where sums are checked
it does so as a number. -/
theorem add?_eq_some (added : arithmetic.add? m n = some sum) :
    sum = (m + n) % wordLimit ∧ (arithmetic = .checked → m + n < wordLimit) := by
  unfold add? at added
  split at added
  next fits =>
    cases added
    exact ⟨(Nat.mod_eq_of_lt fits).symm, fun _ => fits⟩
  next =>
    cases arithmetic with
    | checked => cases added
    | wrapping =>
      cases added
      exact ⟨rfl, nofun⟩

end Arithmetic

/-! ## The delivery step by step

The entries sent are counted in a machine word, which a caller may have brought close to its end. -/

namespace Buffer

variable {σ : Type} [Channel σ] {b : Buffer} {c : σ} {pid : UInt32} {policy : FlushPolicy}

/-- What ends a delivery without an answer. -/
inductive Panic where
  | misuse (e : Misuse)
  /-- The entries sent cannot be counted. -/
  | overrun
  deriving DecidableEq

section
variable (arithmetic : Arithmetic)

/-- Sets the number of entries sent. -/
def withRefs (b : Buffer) (refs : Nat) : Buffer := { b with refs }

/-- Counts `count` more entries as sent. -/
def addRefsChecked (b : Buffer) (count : Nat) : Except Panic Unit × Buffer :=
  match arithmetic.add? b.refs count with
  | some refs => (.ok (), b.withRefs refs)
  | none => (.error .overrun, b)

/-- Registers the thread if it is not yet. Before the message is sent the thread is marked as
registered, which it must not be already. -/
def registerChecked (b : Buffer) (channel : σ) (pid : UInt32) :
    Except Panic (Except ChannelError Bool) × Buffer × σ :=
  if b.registered then (.ok (.ok false), b, channel)
  else
    match b.markRegistered with
    | (.error e, b) => (.error (.misuse e), b, channel)
    | (.ok (), b) =>
      match Channel.send channel (registration b.tid pid) with
      | (answer, channel) => (.ok (answer.map fun _ => true), b, channel)

/-- Sends the occupied slots, counts them and empties the buffer. They are sent before they are
counted, and the buffer is emptied last. -/
def deliverChecked (b : Buffer) (channel : σ) :
    Except Panic (Except ChannelError Nat) × Buffer × σ :=
  match Channel.send channel b.occupiedBytes with
  | (.error e, channel) => (.ok (.error e), b, channel)
  | (.ok (), channel) =>
    match b.addRefsChecked arithmetic b.occupied with
    | (.error panic, b) => (.error panic, b, channel)
    | (.ok (), counted) => (.ok (.ok b.occupied), counted.reset, channel)

/-- Delivers the buffer to the channel, with all that may end the program on the way. -/
def flushChecked (b : Buffer) (channel : σ) (pid : UInt32) (policy : FlushPolicy) :
    Except Panic (Except ChannelError FlushOutcome) × Buffer × σ :=
  if policy = .deferrable && b.mayDefer then (.ok (.ok .deferred), b, channel)
  else
    match b.writeHeader.registerChecked channel pid with
    | (.error panic, b, channel) => (.error panic, b, channel)
    | (.ok (.error e), b, channel) => (.ok (.error e), b, channel)
    | (.ok (.ok registered), b, channel) =>
      match b.deliverChecked arithmetic channel with
      | (.error panic, b, channel) => (.error panic, b, channel)
      | (.ok answer, b, channel) =>
        (.ok (answer.map fun entries => .flushed entries registered), b, channel)

end

section
variable {arithmetic : Arithmetic}

theorem registerChecked_eq (b : Buffer) (c : σ) (pid : UInt32) :
    b.registerChecked c pid = (.ok (b.register c pid).1, (b.register c pid).2) := by
  cases known : b.registered with
  | true => simp [registerChecked, register, known]
  | false => simp [registerChecked, register, markRegistered, known]

theorem buffer_register (b : Buffer) (c : σ) (pid : UInt32) :
    (b.register c pid).2.1 = b.marked := by
  cases known : b.registered with
  | true => rw [register_registered known, marked_of_registered known]
  | false => simp [register, marked, known]

theorem withRefs_delivered (b : Buffer) (count refs : Nat) :
    (b.addRefs count).reset.withRefs refs = (b.withRefs refs).reset := rfl

theorem withRefs_counted (b : Buffer) (count : Nat) :
    (b.addRefs count).reset.withRefs (b.refs + count) = (b.addRefs count).reset := rfl

/-- The step-by-step delivery is the delivery, but for a count that is no machine word. -/
theorem flushChecked_eq (b : Buffer) (c : σ) (pid : UInt32) (policy : FlushPolicy) :
    b.flushChecked arithmetic c pid policy =
      match b.flush c pid policy with
      | (.ok (.flushed entries registered), b', c') =>
        match arithmetic.add? b.refs b.occupied with
        | none => (.error .overrun, b.writeHeader.marked, c')
        | some refs => (.ok (.ok (.flushed entries registered)), b'.withRefs refs, c')
      | (answer, b', c') => (.ok answer, b', c') := by
  rw [flushChecked, flush]
  split
  · rfl
  · rw [registerChecked_eq]
    rcases registered : b.writeHeader.register c pid with ⟨first, b₁, c₁⟩
    obtain rfl : b.writeHeader.marked = b₁ := by
      rw [← b.writeHeader.buffer_register c pid, registered]
    cases first with
    | error e => rfl
    | ok r =>
      simp only [deliverChecked, deliver, addRefsChecked]
      rw [(Unsent.headed b).refs, (Unsent.headed b).occupied]
      rcases Channel.send c₁ b.writeHeader.marked.occupiedBytes with ⟨second, c₂⟩
      cases second with
      | error e => rfl
      | ok _ =>
        simp only [withRefs_delivered]
        cases arithmetic.add? b.refs b.occupied with
        | none => simp only
        | some refs => simp only [Except.map]

/-- Where the count is a machine word the step-by-step delivery is the delivery. -/
theorem flushChecked_of_lt (fits : b.refs + b.occupied < wordLimit) :
    b.flushChecked arithmetic c pid policy =
      (.ok (b.flush c pid policy).1, (b.flush c pid policy).2) := by
  rw [flushChecked_eq, Arithmetic.add?_of_lt fits]
  by_cases deferred : (policy = .deferrable && b.mayDefer) = true
  · rw [flush_deferred deferred]
  · rw [flush_now deferred]
    rcases Channel.sendAll c (b.due pid) with ⟨answer, c'⟩
    cases answer with
    | error e => rfl
    | ok _ => simp only [← (Unsent.headed b).refs, withRefs_counted]

end

/-- What an attempt to deliver comes to: how it is answered, what becomes of the buffer and what was
sent. -/
structure Attempted (arithmetic : Arithmetic) (b : Buffer) (pid : UInt32) (policy : FlushPolicy)
    (answer : Except Panic (Except ChannelError FlushOutcome)) (b' : Buffer)
    (attempts : List (List UInt8 × Except ChannelError Unit)) : Prop where
  deferred_iff : answer = .ok (.ok .deferred) ↔
    policy = .deferrable ∧ b.occupied < b.capacity / 2
  /-- Nothing is sent by a delivery that is put off. -/
  deferred : answer = .ok (.ok .deferred) → attempts = [] ∧ b' = b
  /-- A delivery that succeeds has sent all that was due, and counts what it has sent. -/
  flushed : ∀ entries registered, answer = .ok (.ok (.flushed entries registered)) →
    entries = b.occupied ∧ registered = (!b.registered) ∧
      attempts = (b.due pid).map (·, .ok ()) ∧ b'.ptr = headerBytes ∧
      b'.refs = (b.refs + b.occupied) % wordLimit ∧
      (arithmetic = .checked ∨ b.refs + b.occupied < wordLimit → b'.refs = b.refs + b.occupied)
  /-- A delivery that fails has failed by the last message that it sent. -/
  failed : ∀ e, answer = .ok (.error e) → b.Unsent b' ∧
    ∃ through message rest, b.due pid = through ++ message :: rest ∧
      attempts = through.map (·, .ok ()) ++ [(message, .error e)]
  /-- Only the count of what was sent can end the program, behind the last message: no thread is
  ever registered twice by a delivery. -/
  ended : ∀ panic, answer = .error panic → panic = .overrun ∧ arithmetic = .checked ∧
    wordLimit ≤ b.refs + b.occupied ∧ b.Unsent b' ∧ attempts = (b.due pid).map (·, .ok ())

/-- An attempt to deliver any buffer on any channel ends in one of four ways, and never by a mistake
of the caller. What is heard of it on the channel is no more and no less than what it says, and as
long as the count is a machine word it is what the delivery does. -/
theorem flush_attempted (arithmetic : Arithmetic) (b : Buffer) (c : σ) (pid : UInt32)
    (policy : FlushPolicy) :
    ∃ answer b' c' attempts, b.flushChecked arithmetic c pid policy = (answer, b', c') ∧
      b.flushChecked arithmetic ({ channel := c } : Overheard σ) pid policy =
        (answer, b', { channel := c', attempts }) ∧
      (b.refs + b.occupied < wordLimit →
        answer = .ok (b.flush c pid policy).1 ∧ (b', c') = (b.flush c pid policy).2) ∧
      b.Attempted arithmetic pid policy answer b' attempts := by
  have low : b.mayDefer = true ↔ b.occupied < b.capacity / 2 := decide_eq_true_iff
  by_cases deferred : (policy = .deferrable && b.mayDefer) = true
  · have both : policy = .deferrable ∧ b.occupied < b.capacity / 2 := by
      rwa [Bool.and_eq_true, decide_eq_true_iff, low] at deferred
    rw [flushChecked_eq, flushChecked_eq, flush_deferred deferred, flush_deferred deferred]
    exact ⟨_, _, _, _, rfl, rfl, fun _ => ⟨rfl, rfl⟩, iff_of_true rfl both, fun _ => ⟨rfl, rfl⟩,
      nofun, nofun, nofun⟩
  · have now : ¬ (policy = .deferrable ∧ b.occupied < b.capacity / 2) := by
      rwa [Bool.and_eq_true, decide_eq_true_iff, low] at deferred
    rw [flushChecked_eq, flushChecked_eq, flush_now deferred, flush_now deferred]
    rcases sent : Channel.sendAll c (b.due pid) with ⟨answer, c'⟩
    obtain ⟨attempts, overheard, heard⟩ :=
      Channel.sendAll_overheard (b.due pid) ({ channel := c } : Overheard σ) sent
    rw [overheard]
    cases answer with
    | error e =>
      refine ⟨_, _, _, _, rfl, rfl, fun _ => ⟨rfl, rfl⟩, iff_of_false nofun now, nofun, nofun, ?_,
        nofun⟩
      rintro _ ⟨⟩
      exact ⟨Unsent.headed b, heard⟩
    | ok _ =>
      cases added : arithmetic.add? b.refs b.occupied with
      | none =>
        obtain ⟨checked, unfit⟩ := Arithmetic.add?_eq_none added
        refine ⟨_, _, _, _, rfl, rfl, fun fits => absurd unfit (Nat.not_le.mpr fits),
          iff_of_false nofun now, nofun, nofun, nofun, ?_⟩
        rintro _ ⟨⟩
        exact ⟨rfl, checked, unfit, Unsent.headed b, heard⟩
      | some refs =>
        obtain ⟨word, checked⟩ := Arithmetic.add?_eq_some added
        have counted : b.refs + b.occupied < wordLimit → refs = b.refs + b.occupied :=
          fun fits => word.trans (Nat.mod_eq_of_lt fits)
        refine ⟨_, _, _, _, rfl, rfl, fun fits => ⟨rfl, ?_⟩, iff_of_false nofun now, nofun, ?_,
          nofun, nofun⟩
        · rw [counted fits, ← (Unsent.headed b).refs, withRefs_counted]
        · rintro entries registered ⟨⟩
          exact ⟨rfl, rfl, heard, rfl, word, fun h => counted (h.elim checked id)⟩

end Buffer

end AccessTrace
