import Mathlib
import AccessTrace.Proofs.Keeping
import AccessTrace.Proofs.Runs

/-!
# The custody of buffers

What an action does to the buffer under its name and to the roster (`Custody`): a buffer is handed
out or made, is used, or goes away, and in going away it ends its thread or not.
-/

namespace AccessTrace

/-- The entries that the buffer had sent when it went away, if the action took it away. -/
def Event.ended? (e : Event) : Option Nat :=
  match e.action, e.buffer?, e.outcome with
  | .finish, some _, .count n => some n
  | .finish, some b, _ | .free, some b, _ | .drop, some b, _ => some b.refs
  | _, _, _ => none

/-- What the channel failed with. -/
def TraceError.failure? : TraceError → Option ChannelError
  | channel cause => some cause
  | _ => none

/-- What the channel failed with. -/
def Outcome.failure? : Outcome → Option ChannelError
  | traceError e | executed _ (some e) _ => e.failure?
  | channelError e => some e
  | _ => none

/-- Whether a closed channel refused what was sent. -/
def Outcome.refused (o : Outcome) : Bool := o.failure? = some .closed

theorem TraceError.closed_of_failure? {e : TraceError} (failed : e.failure? = some .closed) :
    e = .channel .closed := by
  cases e with
  | channel cause => rw [Option.some.inj failed]
  | _ => cases failed

/-- What is done to a buffer alone has nothing to do with the channel. -/
theorem BufferAction.failure?_apply (b : Buffer) (action : BufferAction) :
    (action.apply b).1.failure? = none := by
  have silent : ∀ {ε : Type} (failure : ε → Outcome) (answer : Except ε Unit),
      (∀ e, (failure e).failure? = none) → (Outcome.ofUnit failure answer).failure? = none := by
    intro ε failure answer other
    cases answer with
    | ok _ => rfl
    | error e => exact other e
  cases action with
  | push e stride times => exact silent _ _ fun _ => rfl
  | store16 offset value => exact silent _ _ fun _ => rfl
  | store64 offset value => exact silent _ _ fun _ => rfl
  | setPtr ptr => exact silent _ _ fun _ => rfl
  | markRegistered => exact silent _ _ fun _ => rfl
  | transition target => exact silent _ _ fun _ => rfl
  | _ => rfl

theorem Outcome.closed_of_ofFlush {answer : Except TraceError FlushOutcome}
    (refused : (Outcome.ofFlush .traceError answer).refused = true) :
    answer = .error (.channel .closed) := by
  cases answer with
  | ok _ => cases refused
  | error e => rw [TraceError.closed_of_failure? (of_decide_eq_true refused)]

/-- What becomes of the buffer under a name and of the roster in an action that hands out a buffer
to the thread `started` or takes away one that has sent `ended` entries. -/
inductive Custody (action : Action) (r : Roster) : Option Buffer → Roster → Option Buffer →
    Option UInt64 → Option Nat → Prop
  /-- There is no buffer. -/
  | vacant : Custody action r none r none none none
  /-- A thread starts and gets its buffer. -/
  | handed {b : Buffer} (running : r.exited = false) (new : b.tid ∉ r.live)
    (fresh : Tracer.Fresh b) : Custody action r none (r.enter b.tid) (some b) (some b.tid) none
  /-- A buffer is made that the tracer knows nothing of. -/
  | made {b : Buffer} (allocates : ∃ tid capacity, action = .allocate tid capacity)
    (detached : b.attached = false) : Custody action r none r (some b) none none
  /-- The buffer is used. -/
  | kept {b b' : Buffer} (same : b.SameOwner b') : Custody action r (some b) r (some b') none none
  /-- The buffer is given back, which ends its thread. -/
  | returned {b : Buffer} (finish : action = .finish) (active : b.phase = .active) (refs : Nat) :
    Custody action r (some b) (r.leave b.tid refs) none none (some refs)
  /-- The buffer goes away otherwise, which ends its thread. -/
  | abandoned {b : Buffer} (attached : b.attached = true) (unfreed : b.phase ≠ .freed) :
    Custody action r (some b) (r.abandon b.tid b.refs) none none (some b.refs)
  /-- The buffer goes away and ends nothing: no thread was started with it, or it was freed. -/
  | released {b : Buffer}
    (nobody : b.attached = false ∨ b.phase = .freed ∨ action = .free ∧ b.phase = .draining) :
    Custody action r (some b) r none none (some b.refs)

namespace Custody

variable {action : Action} {r r' : Roster} {before after : Option Buffer} {started : Option UInt64}
  {ended : Option Nat}

theorem exited (custody : Custody action r before r' after started ended) :
    r'.exited = r.exited := by
  cases custody <;> rfl

/-- Once tracing is over no thread starts, and threads only end. -/
theorem ending (custody : Custody action r before r' after started ended)
    (done : r.exited = true) : started = none ∧ r'.live ⊆ r.live := by
  cases custody with
  | handed running new fresh => cases running.symm.trans done
  | returned finish active refs => exact ⟨rfl, List.filter_sublist.subset⟩
  | abandoned attached unfreed => exact ⟨rfl, List.filter_sublist.subset⟩
  | _ => exact ⟨rfl, List.Subset.refl _⟩

/-- A thread runs on while others act. -/
theorem live_of_other (custody : Custody action r before r' after started ended) {tid : UInt64}
    (live : tid ∈ r.live) (other : ∀ b, before = some b → (action = .finish ∨ b.attached = true) →
      b.tid ≠ tid) : tid ∈ r'.live := by
  cases custody with
  | handed running new fresh => exact List.mem_cons_of_mem _ live
  | @returned b finish active refs =>
    exact Roster.mem_live_leave.2 ⟨live, (other b rfl (.inl finish)).symm⟩
  | @abandoned b attached unfreed =>
    have left : tid ∈ (r.leave b.tid b.refs).live :=
      Roster.mem_live_leave.2 ⟨live, (other b rfl (.inr attached)).symm⟩
    exact left
  | _ => exact live

/-- A buffer that was handed out is that of a live thread, which is new or had the buffer before. -/
theorem attached (custody : Custody action r before r' after started ended)
    (live : ∀ b, before = some b → b.attached = true → b.tid ∈ r.live) {b' : Buffer}
    (here : after = some b') (attached : b'.attached = true) : b'.tid ∈ r'.live ∧
      (b'.tid ∉ r.live ∨ ∃ b, before = some b ∧ b.attached = true ∧ b'.tid = b.tid) := by
  cases custody with
  | handed running new fresh =>
    cases here
    exact ⟨List.mem_cons_self, .inl new⟩
  | made allocates detached =>
    cases here
    cases detached.symm.trans attached
  | kept same =>
    cases here
    rw [same.attached] at attached
    exact ⟨same.tid ▸ live _ rfl attached, .inr ⟨_, rfl, attached, same.tid⟩⟩
  | _ => cases here

/-- Once tracing is over and no thread is running, nothing changes the roster. -/
theorem quiet (custody : Custody action r before r' after started ended) (done : r.exited = true)
    (idle : r.live = []) (live : ∀ b, before = some b → b.attached = true → b.tid ∈ r.live)
    (handed : action = .finish → ∀ b, before = some b → b.attached = true) : r' = r := by
  have nobody : ∀ b, before = some b → b.attached ≠ true := by
    intro b here attached
    have running := live b here attached
    rw [idle] at running
    cases running
  cases custody with
  | handed running new fresh => cases running.symm.trans done
  | returned finish active refs => exact absurd (handed finish _ rfl) (nobody _ rfl)
  | abandoned attached unfreed => exact absurd attached (nobody _ rfl)
  | _ => rfl

/-- Where a thread starts, there was no buffer before. -/
theorem opened (custody : Custody action r before r' after started ended) {tid : UInt64}
    (start : started = some tid) : before = none ∧ tid ∉ r.live ∧ r' = r.enter tid ∧
      ∃ b, after = some b ∧ b.tid = tid ∧ Tracer.Fresh b := by
  cases custody with
  | handed running new fresh =>
    cases start
    exact ⟨rfl, new, rfl, _, rfl, rfl, fresh⟩
  | _ => cases start

/-- A buffer that there is stays that of the same owner or goes away. -/
theorem used (custody : Custody action r before r' after started ended) {b : Buffer}
    (here : before = some b) : started = none ∧
      ((∃ b', after = some b' ∧ b.SameOwner b' ∧ ended = none) ∨
        after = none ∧ ∃ n, ended = some n) := by
  cases custody with
  | kept same =>
    cases here
    exact ⟨rfl, .inl ⟨_, rfl, same, rfl⟩⟩
  | returned => exact ⟨rfl, .inr ⟨rfl, _, rfl⟩⟩
  | abandoned => exact ⟨rfl, .inr ⟨rfl, _, rfl⟩⟩
  | released => exact ⟨rfl, .inr ⟨rfl, _, rfl⟩⟩
  | _ => cases here

/-- Where there is no buffer and no thread starts, the roster stays as it is. -/
theorem vacant_roster (custody : Custody action r before r' after started ended)
    (absent : before = none) (unstarted : started = none) : r' = r := by
  cases custody with
  | vacant => rfl
  | handed => cases unstarted
  | made => rfl
  | _ => cases absent

/-- A buffer that was handed out ends its thread when it goes away, unless it was freed. -/
theorem leaves (custody : Custody action r before r' after started ended) {b : Buffer}
    (here : before = some b) (attached : b.attached = true)
    (unfreed : ended ≠ none → b.phase ≠ .freed) (kept : action ≠ .free) :
    (ended = none ∧ r' = r) ∨ ∃ n, ended = some n ∧ r'.total = r.total + n ∧
      r'.live = r.live.filter (· ≠ b.tid) := by
  cases custody with
  | kept same => exact .inl ⟨rfl, rfl⟩
  | returned finish active refs =>
    cases here
    exact .inr ⟨refs, rfl, rfl, rfl⟩
  | abandoned =>
    cases here
    exact .inr ⟨_, rfl, rfl, rfl⟩
  | released nobody =>
    cases here
    rcases nobody with detached | freed | ⟨free, _⟩
    · cases attached.symm.trans detached
    · exact absurd freed (unfreed (Option.some_ne_none _))
    · exact absurd free kept
  | _ => cases here

/-- Where nobody makes a buffer of his own, all buffers are handed out. -/
theorem handed_out (custody : Custody action r before r' after started ended)
    (attached : ∀ b, before = some b → b.attached = true)
    (unmade : ∀ tid capacity, action ≠ .allocate tid capacity) {b' : Buffer}
    (here : after = some b') : b'.attached = true := by
  cases custody with
  | handed running new fresh =>
    cases here
    exact fresh.attached
  | made allocates detached =>
    obtain ⟨tid, capacity, allocate⟩ := allocates
    exact absurd allocate (unmade tid capacity)
  | kept same =>
    cases here
    exact same.attached.trans (attached _ rfl)
  | _ => cases here

/-- Where nobody makes a buffer of his own, a buffer is that of the thread that starts, or of the
one that had it before. -/
theorem tid (custody : Custody action r before r' after started ended)
    (unmade : ∀ tid capacity, action ≠ .allocate tid capacity) {b' : Buffer}
    (here : after = some b') :
    started = some b'.tid ∨ ∃ b, before = some b ∧ b.tid = b'.tid := by
  cases custody with
  | handed running new fresh =>
    cases here
    exact .inl rfl
  | made allocates detached =>
    obtain ⟨tid, capacity, allocate⟩ := allocates
    exact absurd allocate (unmade tid capacity)
  | kept same =>
    cases here
    exact .inr ⟨_, rfl, same.tid.symm⟩
  | _ => cases here

/-- Where no thread starts, no buffer is handed out. -/
theorem unstarted (custody : Custody action r before r' after started ended)
    (unstarted : started = none) (vacant : ∀ b, before = some b → b.attached = false) :
    ∀ b', after = some b' → b'.attached = false := by
  intro b' here
  cases custody with
  | handed => cases unstarted
  | made allocates detached =>
    cases here
    exact detached
  | kept same =>
    cases here
    exact same.attached.trans (vacant _ rfl)
  | _ => cases here

end Custody

/-- What every action leaves alone, and what it can do to the channel. -/
structure Event.Handled (e : Event) : Prop where
  custody : Custody e.action e.before.tracer.roster e.buffer? e.after.tracer.roster
    (e.after.buffers.get? e.name) e.started? e.ended?
  elsewhere : e.before.Elsewhere e.after e.name e.machine
  tracer : e.after.tracer = { e.before.tracer with
    roster := e.after.tracer.roster
    channel := { e.before.tracer.channel with
      messages := e.after.tracer.channel.messages, closed := e.after.tracer.channel.closed } }
  grown : e.before.tracer.channel.Grown e.after.tracer.channel
  closed : e.action ≠ .close → e.after.tracer.channel.closed = e.before.tracer.channel.closed
  refused : e.outcome.refused = true → e.before.tracer.channel.closed = true

end AccessTrace
