import Mathlib
import AccessTrace.Proofs.Attempts
import AccessTrace.Proofs.Dealings

/-!
# Buffers that were not handed out

A buffer that the tracer did not hand out belongs to no thread, and ends none when it is let go of.
If it is active and given back, it is delivered like any other and ends the thread of its number
(`Tracer.finish_now`), whether there is such a thread, and whether this has a buffer of its own that
is still in use. An exit may be over then while the thread runs on (`finish_of_impostor`).
-/

namespace AccessTrace

namespace Recorder

/-- A closed channel refuses the first message and takes nothing. -/
theorem sendAll_closed {c : Recorder} (closed : c.closed = true) (message : List UInt8)
    (rest : List (List UInt8)) :
    Channel.sendAll c (message :: rest) = (.error .closed, c) := by
  have refused : Channel.send c message = (.error .closed, c) := if_pos closed
  rw [Channel.sendAll, refused]

theorem sendAll_frame (c : Recorder) (messages : List (List UInt8)) :
    (Channel.sendAll c messages).2 =
        { c with messages := (Channel.sendAll c messages).2.messages } ∧
      c.Grown (Channel.sendAll c messages).2 := by
  induction messages generalizing c with
  | nil => exact ⟨rfl, .refl c⟩
  | cons message rest ih =>
    have frame := c.send_frame message
    have grown := c.grown_send message
    rw [Channel.sendAll]
    rcases sent : c.send message with ⟨answer, c'⟩
    rw [sent] at frame grown
    rw [show Channel.send c message = (answer, c') from sent]
    cases answer with
    | ok _ =>
      obtain ⟨frame', grown'⟩ := ih c'
      refine ⟨?_, grown.trans grown'⟩
      simp only at frame frame' ⊢
      rw [frame', frame]
    | error e => exact ⟨frame, grown⟩

/-- An open channel takes something of the first message. -/
theorem size_lt_sendAll {c : Recorder} (isOpen : c.closed = false) (message : List UInt8)
    (rest : List (List UInt8)) :
    c.messages.size < (Channel.sendAll c (message :: rest)).2.messages.size := by
  have first : ∃ answer, Channel.send c message =
      (answer, { c with messages := c.messages.push (c.accepted message) }) :=
    ⟨_, if_neg (by rw [isOpen]; decide)⟩
  obtain ⟨answer, sent⟩ := first
  have one : c.messages.size < (c.messages.push (c.accepted message)).size := by
    rw [Array.size_push]
    exact Nat.lt_succ_self _
  rw [Channel.sendAll, sent]
  cases answer with
  | ok _ =>
    obtain ⟨new, grown, -⟩ := (sendAll_frame
      { c with messages := c.messages.push (c.accepted message) } rest).2.messages
    have length := congrArg List.length grown
    rw [List.length_append, Array.length_toList, Array.length_toList] at length
    simp only at one length ⊢
    omega
  | error e => exact one

end Recorder

namespace Tracer

variable {σ : Type} [Channel σ] {b : Buffer}

/-- An active buffer that is given back sends what is due, and whatever becomes of that, the thread
of its number has ended: the tracer does not ask whether it has started. -/
theorem finish_now (t : Tracer σ) (active : b.phase = .active) :
    t.finish b =
      match Channel.sendAll t.channel (b.due t.pid) with
      | (.ok (), channel) => (.ok (b.refs + b.occupied),
          { t with channel, roster := t.roster.leave b.tid (b.refs + b.occupied) })
      | (.error e, channel) => (.error (.trace (.channel e)),
          { t with channel, roster := t.roster.leave b.tid b.refs }) := by
  have headed := Buffer.Unsent.headed { b with phase := .draining }
  have flush : ({ b with phase := .draining } : Buffer).flush t.channel t.pid .forced = _ :=
    Buffer.flush_now (by simp)
  have due : ({ b with phase := .draining } : Buffer).due t.pid = b.due t.pid := rfl
  rw [due] at flush
  rcases sent : Channel.sendAll t.channel (b.due t.pid) with ⟨answer, channel⟩
  rw [sent] at flush
  cases answer with
  | ok _ =>
    have finished := finish_eq active flush
    simp only [Buffer.reset, Buffer.addRefs, headed.refs, headed.life.tid] at finished
    exact finished
  | error e =>
    have finished := finish_eq active flush
    simp only [headed.refs, headed.life.tid] at finished
    exact finished

end Tracer

theorem Buffer.exists_due (b : Buffer) (pid : UInt32) :
    ∃ message more, b.due pid = message :: more := by
  rw [due]
  split
  · exact ⟨_, _, rfl⟩
  · exact ⟨_, _, rfl⟩

namespace Roster

variable {r : Roster} {tid : UInt64}

theorem live_leave_eq_iff (refs : Nat) : (r.leave tid refs).live = r.live ↔ tid ∉ r.live := by
  rw [leave, List.filter_eq_self]
  constructor
  · intro kept live
    simpa using kept tid live
  · intro absent t live
    simpa using fun same : t = tid => absent (same ▸ live)

theorem live_leave_eq_nil_iff (refs : Nat) :
    (r.leave tid refs).live = [] ↔ ∀ t ∈ r.live, t = tid := by
  rw [leave, List.filter_eq_nil_iff]
  simp

end Roster

namespace Session

variable {s₀ s : Session} {events : List Event} {name : String} {b : Buffer} {refs : Nat}
  {limit : Option Nat} {pid : UInt32} {capacity : Nat}

theorem Runs.distinct (runs : Runs s₀ events s) (distinct : s₀.buffers.Distinct) :
    s.buffers.Distinct := by
  induction runs with
  | nil => exact distinct
  | act name machineName action _ ih =>
    exact (handled_act ih name machineName action).elsewhere.distinct ih
  | beginExit _ ih => exact ih
  | @settle _ s _ ih =>
    rcases s.settle_eq with same | ⟨-, -, settled⟩
    · rw [same]
      exact ih
    · rw [settled]
      exact ih

/-- The channel is closed once an exit is over. -/
theorem closed_settle_iff (s : Session) :
    s.settle.tracer.channel.closed = true ↔
      s.tracer.channel.closed = true ∨ none ∈ s.exits ∧ s.tracer.roster.live = [] := by
  unfold settle
  split
  · rename_i settled
    rw [Bool.and_eq_true, Array.contains_iff_mem] at settled
    exact ⟨fun _ => .inr ⟨settled.2, List.isEmpty_iff.1 settled.1⟩, fun _ => rfl⟩
  · rename_i unsettled
    rw [Bool.and_eq_true, Array.contains_iff_mem] at unsettled
    constructor
    · exact .inl
    · rintro (closed | ⟨waiting, idle⟩)
      · exact closed
      · exact absurd ⟨List.isEmpty_iff.2 idle, waiting⟩ unsettled

/-- What comes of giving back an active buffer that was not handed out, which has sent so many
entries in the end. -/
structure Impersonated (b : Buffer) (e : Event) (refs : Nat) : Prop where
  /-- Nothing but the delivery can fail. -/
  outcome : e.outcome = .count refs ∧ refs = b.refs + b.occupied ∨
    (∃ cause, e.outcome = .traceError (.channel cause)) ∧ refs = b.refs
  roster : e.after.tracer.roster = e.before.tracer.roster.leave b.tid refs
  live_iff : e.after.tracer.roster.live = e.before.tracer.roster.live ↔
    b.tid ∉ e.before.tracer.roster.live
  total_iff : e.after.tracer.roster.total = e.before.tracer.roster.total ↔ refs = 0
  sent_iff : e.sent = [] ↔ e.before.tracer.channel.closed = true
  gone : e.after.buffers.get? e.name = none
  /-- A thread that runs under this number keeps its buffer. -/
  others : ∀ other ≠ e.name, e.after.buffers.get? other = e.before.buffers.get? other
  /-- An exit that waits for this number alone is over. -/
  closes_iff : e.after.settle.tracer.channel.closed = true ↔
    e.before.tracer.channel.closed = true ∨
      none ∈ e.before.exits ∧ ∀ tid ∈ e.before.tracer.roster.live, tid = b.tid

/-- An active buffer that is given back sends what is due and ends the thread of its number. -/
theorem act_finish (here : s.buffers.get? name = some b) (active : b.phase = .active)
    (machineName : String) : ∃ rest outcome refs, s.buffers.Without rest name ∧
      s.act name machineName .finish = (outcome,
        { s with
          buffers := rest
          tracer := { s.tracer with
            channel := (Channel.sendAll s.tracer.channel (b.due s.tracer.pid)).2
            roster := s.tracer.roster.leave b.tid refs } }) ∧
      (outcome = .count refs ∧ refs = b.refs + b.occupied ∨
        (∃ cause, outcome = .traceError (.channel cause)) ∧ refs = b.refs) := by
  obtain ⟨rest, without, taken⟩ := withBuffer_of_get? here
  have acted := act.eq_def s name machineName .finish
  simp only [taken, Tracer.finish_now s.tracer active] at acted
  rcases sent : Channel.sendAll s.tracer.channel (b.due s.tracer.pid) with ⟨answer, channel⟩
  rw [sent] at acted
  cases answer with
  | ok _ => exact ⟨rest, _, _, without, acted, .inl ⟨rfl, rfl⟩⟩
  | error e => exact ⟨rest, _, _, without, acted, .inr ⟨⟨e, rfl⟩, rfl⟩⟩

/-- An active buffer that was not handed out ends a thread when it is given back: the one of its
number, if there is one. No error tells that it never started. If it is let go of instead, it ends
none. -/
theorem finish_of_impostor (runs : Runs (.begun limit pid capacity) events s)
    (here : s.buffers.get? name = some b) (detached : b.attached = false)
    (active : b.phase = .active) (machineName : String) :
    (∃ refs, Impersonated b (s.event name machineName .finish) refs) ∧
      (s.event name machineName .drop).after.tracer = s.tracer := by
  have distinct := runs.distinct List.nodup_nil
  constructor
  · have elsewhere := (handled_act distinct name machineName .finish).elsewhere
    obtain ⟨rest, outcome, refs, without, acted, result⟩ := act_finish here active machineName
    refine ⟨refs, ?_⟩
    rw [event, acted] at elsewhere ⊢
    refine ⟨result, rfl, Roster.live_leave_eq_iff refs, ?_, ?_, without.get? distinct,
      elsewhere.buffers, ?_⟩
    · exact Nat.add_eq_left
    · obtain ⟨message, more, due⟩ := b.exists_due s.tracer.pid
      rw [Event.sent, Recorder.since, List.drop_eq_nil_iff, Array.length_toList, due]
      constructor
      · intro silent
        by_contra isOpen
        have some := Recorder.size_lt_sendAll (Bool.not_eq_true _ ▸ isOpen) message more
        exact Nat.not_lt.2 silent some
      · intro closed
        rw [Recorder.sendAll_closed closed]
    · rw [closed_settle_iff, ← Roster.live_leave_eq_nil_iff refs]
      have frame := (Recorder.sendAll_frame s.tracer.channel (b.due s.tracer.pid)).1
      simp only
      rw [frame]
  · obtain ⟨rest, without, taken⟩ := withBuffer_of_get? here
    have acted := act.eq_def s name machineName .drop
    simp only [taken] at acted
    rw [event, acted]
    exact if_neg (by simp [detached])

/-- A session in which an exit waits for a thread, while there is an active buffer of its number
that was not handed out. -/
def twinned : Session :=
  ((((begun none 1 4).act "t" "m" (.start 7)).2.act "u" "m" (.allocate 7 4)).2.act "u" "m"
    (.buffer (.transition .active))).2.beginExit

theorem finish_of_impostor_twinned : ∃ events b refs, Runs (begun none 1 4) events twinned ∧
    Impersonated b (twinned.event "u" "m" .finish) refs ∧ 7 ∈ twinned.tracer.roster.live ∧
    (twinned.event "u" "m" .finish).after.settle.tracer.channel.closed = true ∧
    (twinned.event "u" "m" .drop).after.tracer = twinned.tracer := by
  have runs : Runs (begun none 1 4) _ twinned :=
    .beginExit (.act "u" "m" (.buffer (.transition .active))
      (.act "u" "m" (.allocate 7 4) (.act "t" "m" (.start 7) .nil)))
  obtain ⟨b, here, detached, active, tid⟩ : ∃ b, twinned.buffers.get? "u" = some b ∧
      b.attached = false ∧ b.phase = .active ∧ b.tid = 7 := by
    have some : (twinned.buffers.get? "u").isSome = true := by decide +kernel
    obtain ⟨b, here⟩ := Option.isSome_iff_exists.1 some
    have fields : (twinned.buffers.get? "u").map (fun b => (b.attached, b.phase, b.tid)) =
        .some (false, .active, 7) := by decide +kernel
    rw [here, Option.map_some, Option.some.injEq, Prod.mk.injEq, Prod.mk.injEq] at fields
    exact ⟨b, here, fields⟩
  obtain ⟨⟨refs, impersonated⟩, dropped⟩ := finish_of_impostor runs here detached active "m"
  have live : twinned.tracer.roster.live = [7] := by decide +kernel
  have waits : none ∈ twinned.exits := by decide +kernel
  have alone : ∀ t ∈ twinned.tracer.roster.live, t = b.tid := by
    intro t mem
    rw [live, List.mem_singleton] at mem
    exact mem.trans tid.symm
  exact ⟨_, b, refs, runs, impersonated, by decide +kernel,
    impersonated.closes_iff.2 (.inr ⟨waits, alone⟩), dropped⟩

/-- The buffer that was not handed out ends the thread that runs under its number: what it holds is
sent and counted, and the exit that waited closes the channel, with the thread's own buffer still in
use. -/
theorem impostor_ends_thread :
    let e := twinned.event "u" "m" .finish
    e.outcome = .count 1 ∧ e.sent ≠ [] ∧ e.before.tracer.roster.live = [7] ∧
      e.after.tracer.roster.live = [] ∧ e.after.tracer.roster.total = 1 ∧
      e.after.settle.tracer.channel.closed = true ∧
      (e.after.settle.buffers.get? "t").map (fun b => (b.attached, b.phase, b.tid)) =
        some (true, .active, 7) := by
  refine ⟨?_, ?_, ?_, ?_, ?_, ?_, ?_⟩
  · cbv
  all_goals decide +kernel

end Session

end AccessTrace
