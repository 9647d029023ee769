import Mathlib
import AccessTrace.Proofs.Sendings

/-!
# Sends between sends

Here every message is a step of its own, and so is the leaving of a thread behind its last message:
between them others may act, start and end threads, and begin and end exits (`Split.Runs`). It makes
no difference. The errands of a run that are over could have been done without a pause, in the order
in which they came to their ends, and what is under way could just as well not have begun
(`Runs.mirrored`): the sessions are alike but for the order of what was recorded, in which only
messages of different threads have changed places.
-/

namespace AccessTrace

namespace Recorder

variable {c : Recorder}

/-- Of what a recorder that is open takes of a message, nothing depends on what it took before. -/
theorem send_recorded (isOpen : c.closed = false) (message : List UInt8) :
    Channel.send c message =
      (verdict (c.accepted message).length message.length, c.record [c.accepted message]) := by
  change c.send message = _
  rw [send, if_neg (by rw [isOpen]; decide), record, ← Array.toList_push]

theorem send_record (isOpen : c.closed = false) (sent : List (List UInt8)) (message : List UInt8) :
    Channel.send (c.record sent) message =
      (verdict (c.accepted message).length message.length,
        c.record (sent ++ [c.accepted message])) := by
  rw [send_recorded (c := c.record sent) isOpen, record_record]
  rfl

end Recorder

/-- An errand that is under way: for which thread, what was recorded of its messages, and what is
left of it. -/
structure Underway where
  errand : Errand
  tid : UInt64
  sent : List (List UInt8) := []
  rest : Sending (Outcome × Fate)

/-- A session with what its exits have read and what is under way. Of every message that was
recorded it is known which thread it comes from. -/
structure Split extends Shutdown where
  underway : String → Option Underway := fun _ => none
  log : List (UInt64 × List UInt8) := []

/-- An action that is over. -/
structure Answered where
  name : String
  action : Action
  outcome : Outcome

namespace Split

/-- A thread begins an errand. -/
def begin (y : Split) (name : String) (b : Buffer) (errand : Errand) : Split :=
  { y with underway := Function.update y.underway name (some
      { errand, tid := b.tid
        rest := errand.sending y.session.tracer.pid ⟨y.session.machine name, b⟩ }) }

/-- A thread whose errand is under way sends a message. -/
def send (y : Split) (name : String) (u : Underway) (message : List UInt8)
    (next : Except ChannelError Unit → Sending (Outcome × Fate)) : Split :=
  match Channel.send y.session.tracer.channel message with
  | (answer, c) =>
    let new := y.session.tracer.channel.since c
    { y with
      session := y.session.withChannel c
      underway := Function.update y.underway name
        (some { u with rest := next answer, sent := u.sent ++ new })
      log := y.log ++ new.map (u.tid, ·) }

/-- An errand is over. -/
def conclude (y : Split) (name : String) (fate : Fate) : Split :=
  { y with
    session := y.session.conclude name fate
    underway := Function.update y.underway name none }

section
variable (y : Split) (name other : String)

theorem underway_begin (b : Buffer) (errand : Errand) :
    (y.begin name b errand).underway other = if other = name then some
      { errand, tid := b.tid
        rest := errand.sending y.session.tracer.pid ⟨y.session.machine name, b⟩ }
      else y.underway other := Function.update_apply _ _ _ _

theorem underway_conclude (fate : Fate) : (y.conclude name fate).underway other =
    if other = name then none else y.underway other := Function.update_apply _ _ _ _

end

/-- The runs from `y₀`, with the actions that are over. What needs no message is done in one step,
and so is each message. -/
inductive Runs (y₀ : Split) : List Answered → Split → Prop
  | nil : Runs y₀ [] y₀
  | act {answers : List Answered} {y : Split} (name : String) (action : Action)
    (free : y.underway name = none) (quiet : y.session.Quiet name action) : Runs y₀ answers y →
    Runs y₀ (answers ++ [⟨name, action, (y.session.act name name action).1⟩])
      { y with session := (y.session.act name name action).2 }
  | begin {answers : List Answered} {y : Split} (name : String) (b : Buffer) (errand : Errand)
    (free : y.underway name = none) (here : y.session.buffers.get? name = some b)
    (ready : errand.Ready b) : Runs y₀ answers y → Runs y₀ answers (y.begin name b errand)
  | send {answers : List Answered} {y : Split} (name : String) (u : Underway)
    (message : List UInt8) (next : Except ChannelError Unit → Sending (Outcome × Fate))
    (busy : y.underway name = some u) (rest : u.rest = .send message next) :
    Runs y₀ answers y → Runs y₀ answers (y.send name u message next)
  | conclude {answers : List Answered} {y : Split} (name : String) (u : Underway)
    (outcome : Outcome) (fate : Fate) (busy : y.underway name = some u)
    (rest : u.rest = .stop (outcome, fate)) : Runs y₀ answers y →
    Runs y₀ (answers ++ [⟨name, u.errand.action, outcome⟩]) (y.conclude name fate)
  | beginExit {answers : List Answered} {y : Split} : Runs y₀ answers y →
    Runs y₀ answers { y with session := y.session.beginExit }
  | wait {answers : List Answered} {y : Split} (i : Nat)
    (waiting : y.session.exits[i]? = some none) (unread : y.read i = none)
    (idle : y.session.tracer.idle = true) : Runs y₀ answers y →
    Runs y₀ answers { y with toShutdown := y.toShutdown.wait i }
  | close {answers : List Answered} {y : Split} (i total : Nat)
    (waiting : y.session.exits[i]? = some none) (read : y.read i = some total) :
    Runs y₀ answers y → Runs y₀ answers { y with toShutdown := y.toShutdown.close i total }

/-- What was recorded of a thread. -/
def said (y : Split) (tid : UInt64) : List (List UInt8) :=
  (y.log.filter (·.1 = tid)).map Prod.snd

/-- Bytes were recorded of the thread of an errand, and so much is left of that. -/
def recorded (y : Split) (name : String) (u : Underway) (taken : List UInt8)
    (rest : Sending (Outcome × Fate)) : Split :=
  { y with
    session := y.session.withChannel (y.session.tracer.channel.record [taken])
    underway := Function.update y.underway name (some { u with rest, sent := u.sent ++ [taken] })
    log := y.log ++ [(u.tid, taken)] }

section
variable {y : Split} {name : String} {u : Underway} {taken : List UInt8}
  {rest : Sending (Outcome × Fate)}

theorem send_eq (isOpen : y.session.tracer.channel.closed = false) (message : List UInt8)
    (next : Except ChannelError Unit → Sending (Outcome × Fate)) :
    y.send name u message next =
      y.recorded name u (y.session.tracer.channel.accepted message)
        (next (Recorder.verdict (y.session.tracer.channel.accepted message).length
          message.length)) := by
  simp only [send, Recorder.send_recorded isOpen, Recorder.since_record, List.map_singleton]
  rfl

theorem underway_recorded (other : String) : (y.recorded name u taken rest).underway other =
    if other = name then some { u with rest, sent := u.sent ++ [taken] } else y.underway other :=
  Function.update_apply _ _ _ _

theorem said_recorded_own :
    (y.recorded name u taken rest).said u.tid = y.said u.tid ++ [taken] := by
  simp [said, recorded]

theorem said_recorded_other {tid : UInt64} (differs : u.tid ≠ tid) :
    (y.recorded name u taken rest).said tid = y.said tid := by
  simp [said, recorded, differs]

end

end Split

/-- The action that is over when an event has taken place. -/
def Event.answered (e : Event) : Answered := ⟨e.name, e.action, e.outcome⟩

/-- The actions under a name that are over. -/
def answersOf (name : String) (answers : List Answered) : List Answered :=
  answers.filter (·.name = name)

theorem answersOf_map (name : String) (events : List Event) :
    answersOf name (events.map Event.answered) =
      (events.filter (·.name = name)).map Event.answered := by
  rw [answersOf, List.filter_map]
  rfl

/-- Whether the action is one on a buffer of this thread. -/
def Event.isOf (tid : UInt64) (e : Event) : Bool := e.buffer?.any (·.tid = tid)

/-- What the actions on the buffers of a thread sent. -/
def toldBy (events : List Event) (tid : UInt64) : List (List UInt8) :=
  (events.filter (Event.isOf tid)).flatMap Event.sent

theorem toldBy_own {events : List Event} {e : Event} {tid : UInt64} (own : e.isOf tid = true) :
    toldBy (events ++ [e]) tid = toldBy events tid ++ e.sent := by
  rw [toldBy, List.filter_append, List.flatMap_append, List.filter_cons_of_pos own, List.filter_nil,
    List.flatMap_singleton]
  rfl

theorem toldBy_other {events : List Event} {e : Event} {tid : UInt64}
    (other : e.isOf tid = false ∨ e.sent = []) :
    toldBy (events ++ [e]) tid = toldBy events tid := by
  have silent : ([e].filter (Event.isOf tid)).flatMap Event.sent = [] := by
    refine List.flatMap_eq_nil_iff.2 fun e' mem => ?_
    obtain ⟨last, own⟩ := List.mem_filter.1 mem
    rw [List.mem_singleton.1 last] at own ⊢
    rcases other with other | silent
    · cases other.symm.trans own
    · exact silent
  rw [toldBy, List.filter_append, List.flatMap_append, silent, List.append_nil]
  rfl

/-- What is left of an errand is what there would be left if it was begun now and what was recorded
of it was recorded then. -/
structure Suspended (s : Session) (name : String) (u : Underway) (b : Buffer) : Prop where
  here : s.buffers.get? name = some b
  tid : b.tid = u.tid
  ready : u.errand.Ready b
  run : ∀ c : Recorder, c.closed = false → c.limit = s.tracer.channel.limit →
    (u.errand.sending s.tracer.pid ⟨s.machine name, b⟩).run c = u.rest.run (c.record u.sent)

namespace Suspended

variable {s : Session} {name : String} {u : Underway} {b : Buffer}

theorem begun (here : s.buffers.get? name = some b) {errand : Errand} (ready : errand.Ready b) :
    Suspended s name
      { errand, tid := b.tid, rest := errand.sending s.tracer.pid ⟨s.machine name, b⟩ } b where
  here := here
  tid := rfl
  ready := ready
  run := fun c _ _ => by rw [Recorder.record_nil]

/-- A message is sent. -/
theorem sent (suspended : Suspended s name u b) {message : List UInt8}
    {next : Except ChannelError Unit → Sending (Outcome × Fate)}
    (rest : u.rest = .send message next) {c : Recorder}
    (limit : c.limit = s.tracer.channel.limit) :
    Suspended s name
      { u with
        rest := next (Recorder.verdict (c.accepted message).length message.length)
        sent := u.sent ++ [c.accepted message] } b where
  here := suspended.here
  tid := suspended.tid
  ready := suspended.ready
  run := by
    intro d isOpen same
    have accepted : d.accepted message = c.accepted message := by
      rw [Recorder.accepted, Recorder.accepted, same, limit]
    rw [suspended.run d isOpen same, rest, Sending.run, Recorder.send_record isOpen, accepted]

/-- What is done under other names leaves it as it is. -/
theorem elsewhere {e : Event} (suspended : Suspended e.before name u b) (handled : e.Handled)
    (machine : e.machine = e.name) (differs : name ≠ e.name) : Suspended e.after name u b := by
  have tracer := handled.tracer
  have pid : e.after.tracer.pid = e.before.tracer.pid := by rw [tracer]
  refine ⟨?_, suspended.tid, suspended.ready, ?_⟩
  · rw [handled.elsewhere.buffers name differs]
    exact suspended.here
  · rw [pid, handled.grown.limit, handled.elsewhere.machines name (machine.symm ▸ differs)]
    exact suspended.run

/-- What is done to neither the buffers nor the machines nor the messages leaves it as it is. -/
theorem congr {s' : Session} (suspended : Suspended s name u b) (buffers : s'.buffers = s.buffers)
    (machines : s'.machines = s.machines) (pid : s'.tracer.pid = s.tracer.pid)
    (limit : s'.tracer.channel.limit = s.tracer.channel.limit) : Suspended s' name u b := by
  refine ⟨?_, suspended.tid, suspended.ready, ?_⟩
  · rw [buffers]
    exact suspended.here
  · rw [pid, limit, Session.machine, machines]
    exact suspended.run

/-- An errand that is over could have been done just now without a pause. -/
theorem act (suspended : Suspended s name u b) {outcome : Outcome} {fate : Fate}
    (rest : u.rest = .stop (outcome, fate)) (isOpen : s.tracer.channel.closed = false) :
    s.act name name u.errand.action =
      (outcome, (s.withChannel (s.tracer.channel.record u.sent)).conclude name fate) := by
  refine Session.act_eq_run suspended.here suspended.ready ?_
  rw [suspended.run _ isOpen rfl, rest]
  rfl

end Suspended

/-- What the threads of a program do: they use the buffers that they were handed out. -/
def Action.Threaded : Action → Prop
  | start _ | setRegisters _ | machine | buffer _ | flush _ | execute _ _ | finish | free | drop =>
    True
  | _ => False

theorem Session.Quiet.threaded {s : Session} {name : String} {action : Action}
    (quiet : s.Quiet name action) : action.Threaded := by
  cases action with
  | allocate | send | close | channel | flushAs => exact quiet.elim
  | _ => trivial

theorem Errand.threaded (errand : Errand) : errand.action.Threaded := by
  cases errand <;> trivial

theorem Event.fair_of_threaded {e : Event} (threaded : e.action.Threaded)
    (attached : ∀ b, e.buffer? = some b → b.attached = true) : e.fair = true := by
  unfold fair
  split
  · rename_i close
    rw [close] at threaded
    exact threaded.elim
  · cases here : e.buffer? with
    | none => rfl
    | some b => exact attached b here
  · rfl

namespace Split

/-- What was recorded of a thread was sent by its actions that are over, and by the one that is
under way if there is one. -/
structure Tells (y : Split) (events : List Event) : Prop where
  own : ∀ name u, y.underway name = some u → y.said u.tid = toldBy events u.tid ++ u.sent
  others : ∀ tid, (∀ name u, y.underway name = some u → u.tid ≠ tid) →
    y.said tid = toldBy events tid

namespace Tells

variable {y : Split} {events : List Event} {e : Event} {name : String} {u : Underway}

/-- In the beginning nothing was recorded. -/
theorem nil (free : ∀ name, y.underway name = none) (log : y.log = []) : y.Tells [] where
  own := by
    intro name u busy
    cases (free name).symm.trans busy
  others := by
    intro tid _
    rw [said, log]
    rfl

/-- An action that sends nothing makes no difference. -/
theorem silent (tells : y.Tells events) (silent : e.sent = []) : y.Tells (events ++ [e]) where
  own := by
    intro name u busy
    rw [toldBy_other (.inr silent)]
    exact tells.own name u busy
  others := by
    intro tid idle
    rw [toldBy_other (.inr silent)]
    exact tells.others tid idle

/-- An errand that was begun just now has not sent anything. -/
theorem begin (tells : y.Tells events) (free : y.underway name = none) {b : Buffer}
    (errand : Errand) (apart : ∀ other u, y.underway other = some u → u.tid ≠ b.tid) :
    (y.begin name b errand).Tells events where
  own := by
    intro other u busy
    rw [underway_begin] at busy
    split at busy
    · cases busy
      rw [List.append_nil]
      exact tells.others b.tid apart
    · exact tells.own other u busy
  others := by
    refine fun tid idle => tells.others tid fun other u busy => idle other u ?_
    rw [underway_begin, if_neg]
    · exact busy
    · rintro rfl
      cases free.symm.trans busy

variable (busy : y.underway name = some u)
  (apart : ∀ other v, other ≠ name → y.underway other = some v → u.tid ≠ v.tid)
include busy apart

/-- What is recorded of an errand that is under way is one more of its messages. -/
theorem recorded (tells : y.Tells events) (taken : List UInt8)
    (rest : Sending (Outcome × Fate)) : (y.recorded name u taken rest).Tells events where
  own := by
    intro other v busy'
    rw [underway_recorded] at busy'
    split at busy'
    · cases busy'
      rw [said_recorded_own, tells.own name u busy, List.append_assoc]
    · rename_i differs
      rw [said_recorded_other (apart other v differs busy')]
      exact tells.own other v busy'
  others := by
    intro tid idle
    have own := idle name _ ((underway_recorded name).trans (if_pos rfl))
    have differs : u.tid ≠ tid := own
    rw [said_recorded_other differs]
    refine tells.others tid fun other v busy' => ?_
    by_cases same : other = name
    · subst same
      cases busy.symm.trans busy'
      exact differs
    · refine idle other v ?_
      rw [underway_recorded, if_neg same]
      exact busy'

/-- When an errand is over, its messages are those of the action. -/
theorem conclude (tells : y.Tells events) (fate : Fate) (sent : e.sent = u.sent)
    (isOf : ∀ tid, e.isOf tid = decide (u.tid = tid)) :
    (y.conclude name fate).Tells (events ++ [e]) where
  own := by
    intro other v busy'
    rw [underway_conclude] at busy'
    split at busy'
    · cases busy'
    · rename_i differs
      rw [toldBy_other (.inl ((isOf v.tid).trans (decide_eq_false (apart other v differs busy'))))]
      exact tells.own other v busy'
  others := by
    intro tid idle
    by_cases same : u.tid = tid
    · subst same
      rw [toldBy_own ((isOf u.tid).trans (decide_eq_true rfl)), sent]
      exact tells.own name u busy
    · rw [toldBy_other (.inl ((isOf tid).trans (decide_eq_false same)))]
      refine tells.others tid fun other v busy' => ?_
      by_cases here : other = name
      · subst here
        cases busy.symm.trans busy'
        exact same
      · refine idle other v ?_
        rw [underway_conclude, if_neg here]
        exact busy'

end Tells

end Split

/-- A session of which messages are sent one by one, `y`, and one in which the same actions, as far
as they are over, were done without a pause. -/
structure Mirrored (answers : List Answered) (y : Split) (events : List Event) (x : Shutdown) :
    Prop where
  answers : events.map Event.answered = answers
  threaded : ∀ e ∈ events, e.action.Threaded ∧ e.machine = e.name
  read : y.read = x.read
  session : y.session = x.session.withChannel y.session.tracer.channel
  limit : y.session.tracer.channel.limit = x.session.tracer.channel.limit
  closed : y.session.tracer.channel.closed = x.session.tracer.channel.closed
  log : y.session.tracer.channel.messages.toList = y.log.map Prod.snd
  underway : ∀ name u, y.underway name = some u → ∃ b, Suspended x.session name u b
  tells : y.Tells events

namespace Mirrored

variable {answers : List Answered} {y : Split} {events : List Event} {x : Shutdown}
  {name : String}

/-- What needs no message is done by both. -/
theorem act (mirrored : Mirrored answers y events x) (distinct : x.session.buffers.Distinct)
    {action : Action} (free : y.underway name = none) (quiet : y.session.Quiet name action) :
    Mirrored (answers ++ [⟨name, action, (y.session.act name name action).1⟩])
      { y with session := (y.session.act name name action).2 }
      (events ++ [x.session.event name name action])
      { x with session := (x.session.act name name action).2 } := by
  have handled := Session.handled_act distinct name name action
  have quiet' : x.session.Quiet name action := by
    rw [mirrored.session] at quiet
    exact quiet
  have channel : (x.session.act name name action).2.tracer.channel = x.session.tracer.channel :=
    congrArg (·.2.tracer.channel) (Session.act_withChannel quiet' x.session.tracer.channel)
  have acted := Session.act_withChannel quiet' y.session.tracer.channel
  rw [← mirrored.session] at acted
  have kept : (y.session.act name name action).2.tracer.channel = y.session.tracer.channel :=
    congrArg (·.2.tracer.channel) acted
  have silent : (x.session.event name name action).sent = [] := by
    change x.session.tracer.channel.since (x.session.act name name action).2.tracer.channel = []
    rw [channel, Recorder.since_self]
  refine ⟨?_, ?_, mirrored.read, ?_, ?_, ?_, ?_, ?_, ?_⟩
  · rw [List.map_append, mirrored.answers, acted]
    rfl
  · intro e mem
    rcases List.mem_append.1 mem with old | new
    · exact mirrored.threaded e old
    · rw [List.mem_singleton.1 new]
      exact ⟨quiet.threaded, rfl⟩
  · rw [kept, acted]
  · rw [kept, channel]
    exact mirrored.limit
  · rw [kept, channel]
    exact mirrored.closed
  · rw [kept]
    exact mirrored.log
  · intro other u busy
    obtain ⟨b, suspended⟩ := mirrored.underway other u busy
    refine ⟨b, suspended.elsewhere handled rfl ?_⟩
    rintro rfl
    cases free.symm.trans busy
  · obtain ⟨own, others⟩ := mirrored.tells.silent silent
    exact ⟨own, others⟩

theorem pid (mirrored : Mirrored answers y events x) :
    y.session.tracer.pid = x.session.tracer.pid := congrArg (·.tracer.pid) mirrored.session

theorem buffers (mirrored : Mirrored answers y events x) :
    y.session.buffers = x.session.buffers := congrArg (·.buffers) mirrored.session

theorem roster (mirrored : Mirrored answers y events x) :
    y.session.tracer.roster = x.session.tracer.roster :=
  congrArg (·.tracer.roster) mirrored.session

theorem exits (mirrored : Mirrored answers y events x) : y.session.exits = x.session.exits :=
  congrArg (·.exits) mirrored.session

theorem machine (mirrored : Mirrored answers y events x) (name : String) :
    y.session.machine name = x.session.machine name :=
  congrArg (·.machine name) mirrored.session

section
variable (mirrored : Mirrored answers y events x) (guarded : Shutdown.Guarded x)
  (attached : ∀ name b, x.session.buffers.get? name = some b → b.attached = true)
include mirrored guarded attached

/-- Threads with buffers under different names are different. -/
theorem unlike {other : String} {u : Underway} (busy : y.underway other = some u) {b : Buffer}
    (here : x.session.buffers.get? name = some b) (differs : other ≠ name) : u.tid ≠ b.tid := by
  obtain ⟨c, suspended⟩ := mirrored.underway other u busy
  rw [← suspended.tid]
  exact fun same => differs (guarded.apart other name c b suspended.here here
    (attached other c suspended.here) (attached name b here) same)

theorem apart {other : String} {u v : Underway} (busy : y.underway name = some u)
    (busy' : y.underway other = some v) (differs : other ≠ name) : u.tid ≠ v.tid := by
  obtain ⟨b, suspended⟩ := mirrored.underway name u busy
  rw [← suspended.tid]
  exact (mirrored.unlike guarded attached busy' suspended.here differs).symm

theorem begin (free : y.underway name = none) {b : Buffer} {errand : Errand}
    (here : y.session.buffers.get? name = some b) (ready : errand.Ready b) :
    Mirrored answers (y.begin name b errand) events x := by
  rw [mirrored.buffers] at here
  have apart : ∀ other u, y.underway other = some u → u.tid ≠ b.tid := by
    intro other u busy
    refine mirrored.unlike guarded attached busy here ?_
    rintro rfl
    cases free.symm.trans busy
  refine ⟨mirrored.answers, mirrored.threaded, mirrored.read, mirrored.session, mirrored.limit,
    mirrored.closed, mirrored.log, fun other u busy => ?_, mirrored.tells.begin free errand apart⟩
  rw [Split.underway_begin, mirrored.pid, mirrored.machine] at busy
  split at busy
  · rename_i same
    subst same
    cases busy
    exact ⟨b, .begun here ready⟩
  · exact mirrored.underway other u busy

/-- A message that is recorded is one of the errand that is under way. -/
theorem send {u : Underway} {message : List UInt8}
    {next : Except ChannelError Unit → Sending (Outcome × Fate)}
    (busy : y.underway name = some u) (rest : u.rest = .send message next) :
    Mirrored answers (y.send name u message next) events x := by
  obtain ⟨b, suspended⟩ := mirrored.underway name u busy
  have isOpen : y.session.tracer.channel.closed = false :=
    mirrored.closed.trans (guarded.isOpen suspended.here (attached name b suspended.here))
  have session := congrArg (fun s : Session => s.withChannel (y.session.tracer.channel.record
    [y.session.tracer.channel.accepted message])) mirrored.session
  rw [Split.send_eq isOpen]
  refine ⟨mirrored.answers, mirrored.threaded, mirrored.read, session, mirrored.limit,
    mirrored.closed, ?_, fun other v busy' => ?_, mirrored.tells.recorded busy
      (fun other v differs busy' => mirrored.apart guarded attached busy busy' differs) _ _⟩
  · rw [Split.recorded, Session.withChannel, Recorder.record, mirrored.log, List.map_append]
    rfl
  · rw [Split.underway_recorded] at busy'
    split at busy'
    · rename_i same
      subst same
      cases busy'
      exact ⟨b, suspended.sent rest mirrored.limit⟩
    · exact mirrored.underway other v busy'

/-- When an errand is over, it is done without a pause. -/
theorem conclude {u : Underway} {outcome : Outcome} {fate : Fate} (busy : y.underway name = some u)
    (rest : u.rest = .stop (outcome, fate)) :
    Mirrored (answers ++ [⟨name, u.errand.action, outcome⟩]) (y.conclude name fate)
      (events ++ [x.session.event name name u.errand.action])
      { x with session := (x.session.act name name u.errand.action).2 } := by
  obtain ⟨b, suspended⟩ := mirrored.underway name u busy
  have acted := suspended.act rest (guarded.isOpen suspended.here (attached name b suspended.here))
  have handled := Session.handled_act guarded.distinct name name u.errand.action
  rw [Session.conclude_withChannel] at acted
  have session : (y.conclude name fate).session =
      (x.session.conclude name fate).withChannel y.session.tracer.channel := by
    rw [← Session.conclude_withChannel, ← mirrored.session]
    rfl
  have sent : (x.session.event name name u.errand.action).sent = u.sent := by
    change x.session.tracer.channel.since
      (x.session.act name name u.errand.action).2.tracer.channel = u.sent
    rw [acted]
    exact Recorder.since_record _ _
  have isOf : ∀ tid,
      (x.session.event name name u.errand.action).isOf tid = decide (u.tid = tid) := by
    intro tid
    change (x.session.buffers.get? name).any _ = _
    rw [suspended.here, Option.any_some, suspended.tid]
  have channel : (y.conclude name fate).session.tracer.channel = y.session.tracer.channel :=
    congrArg (·.tracer.channel) session
  refine ⟨?_, ?_, mirrored.read, ?_, ?_, ?_, ?_, fun other v busy' => ?_,
    mirrored.tells.conclude busy
      (fun other v differs busy' => mirrored.apart guarded attached busy busy' differs) fate sent
      isOf⟩
  · rw [List.map_append, mirrored.answers]
    simp only [List.map_cons, List.map_nil, Session.event, acted, Event.answered]
  · intro e mem
    rcases List.mem_append.1 mem with old | new
    · exact mirrored.threaded e old
    · rw [List.mem_singleton.1 new]
      exact ⟨u.errand.threaded, rfl⟩
  · rw [session, acted]
    rfl
  · rw [channel, acted]
    exact mirrored.limit
  · rw [channel, acted]
    exact mirrored.closed
  · rw [channel]
    exact mirrored.log
  · rw [Split.underway_conclude] at busy'
    split at busy'
    · cases busy'
    · rename_i differs
      obtain ⟨c, suspended'⟩ := mirrored.underway other v busy'
      exact ⟨c, suspended'.elsewhere handled rfl differs⟩

end

/-- Both may begin and end exits. -/
theorem exiting (mirrored : Mirrored answers y events x) {y' : Split} {x' : Shutdown}
    (buffers : x'.session.buffers = x.session.buffers)
    (machines : x'.session.machines = x.session.machines)
    (pid : x'.session.tracer.pid = x.session.tracer.pid)
    (limit : x'.session.tracer.channel.limit = x.session.tracer.channel.limit)
    (session : y'.session = x'.session.withChannel y'.session.tracer.channel)
    (channel : y'.session.tracer.channel =
      { y.session.tracer.channel with closed := x'.session.tracer.channel.closed })
    (read : y'.read = x'.read) (underway : y'.underway = y.underway) (log : y'.log = y.log) :
    Mirrored answers y' events x' := by
  have said : y'.said = y.said := by
    funext tid
    rw [Split.said, Split.said, log]
  refine ⟨mirrored.answers, mirrored.threaded, read, session, ?_, ?_, ?_, ?_, ?_, ?_⟩
  · rw [channel, limit]
    exact mirrored.limit
  · rw [channel]
  · rw [channel, log]
    exact mirrored.log
  · intro name u busy
    rw [underway] at busy
    obtain ⟨b, suspended⟩ := mirrored.underway name u busy
    exact ⟨b, suspended.congr buffers machines pid limit⟩
  · rw [underway, said]
    exact mirrored.tells.own
  · rw [underway, said]
    exact mirrored.tells.others

theorem beginExit (mirrored : Mirrored answers y events x) :
    Mirrored answers { y with session := y.session.beginExit } events
      { x with session := x.session.beginExit } := by
  have session := congrArg Session.beginExit mirrored.session
  refine mirrored.exiting rfl rfl rfl rfl session ?_ mirrored.read rfl rfl
  rw [show x.session.beginExit.tracer.channel.closed = y.session.tracer.channel.closed from
    mirrored.closed.symm]
  rfl

theorem wait (mirrored : Mirrored answers y events x) (i : Nat) :
    Mirrored answers { y with toShutdown := y.toShutdown.wait i } events (x.wait i) := by
  refine mirrored.exiting rfl rfl rfl rfl mirrored.session ?_ ?_ rfl rfl
  · rw [show (x.wait i).session.tracer.channel.closed = y.session.tracer.channel.closed from
      mirrored.closed.symm]
    rfl
  · simp only [Shutdown.wait, mirrored.read, mirrored.roster]

theorem close (mirrored : Mirrored answers y events x) (i total : Nat) :
    Mirrored answers { y with toShutdown := y.toShutdown.close i total } events
      (x.close i total) := by
  have session := congrArg (fun s : Session => ({ s with
    tracer := s.tracer.close
    exits := s.exits.setIfInBounds i (some total) } : Session)) mirrored.session
  exact mirrored.exiting rfl rfl rfl rfl session rfl mirrored.read rfl rfl

end Mirrored

namespace Split

variable {limit : Option Nat} {pid : UInt32} {capacity : Nat} {answers : List Answered} {y : Split}

/-- A session that has just begun. -/
def begun (limit : Option Nat) (pid : UInt32) (capacity : Nat) : Split where
  session := .begun limit pid capacity

/-- What the threads of a program do leaves a session guarded; all their buffers were handed out. -/
theorem guarded_of_mirrored {events : List Event} {x : Shutdown}
    (runs : Shutdown.Runs { session := .begun limit pid capacity } events x)
    (mirrored : Mirrored answers y events x) : Shutdown.Guarded x ∧
      (∀ name b, x.session.buffers.get? name = some b → b.attached = true) ∧
      ∀ e ∈ events, e.fair = true ∧ ∀ b, e.buffer? = some b → b.attached = true := by
  obtain ⟨attached, attached'⟩ := runs.handed_out fun e mem tid capacity allocate => by
    have threaded := (mirrored.threaded e mem).1
    rw [allocate] at threaded
    exact threaded
  have fair : ∀ e ∈ events, e.fair = true := fun e mem =>
    Event.fair_of_threaded (mirrored.threaded e mem).1 (attached' e mem)
  exact ⟨runs.guarded (Shutdown.guarded_begun limit pid capacity) fair, attached,
    fun e mem => ⟨fair e mem, attached' e mem⟩⟩

theorem mirrored_begun (limit : Option Nat) (pid : UInt32) (capacity : Nat) :
    Mirrored [] (begun limit pid capacity) [] { session := .begun limit pid capacity } where
  answers := rfl
  threaded := fun e mem => absurd mem List.not_mem_nil
  read := rfl
  session := rfl
  limit := rfl
  closed := rfl
  log := rfl
  underway := by intro name u busy; cases busy
  tells := .nil (fun _ => rfl) rfl

/-- What comes behind a run whose actions could have been done without a pause could be done without
a pause behind these. -/
theorem Runs.mirroredFrom {events : List Event} {x : Shutdown} {later : List Answered} {y' : Split}
    (runs : Runs y later y')
    (before : Shutdown.Runs { session := .begun limit pid capacity } events x)
    (mirrored : Mirrored answers y events x) :
    ∃ more x', Shutdown.Runs x more x' ∧
      Shutdown.Runs { session := .begun limit pid capacity } (events ++ more) x' ∧
      Mirrored (answers ++ later) y' (events ++ more) x' := by
  induction runs with
  | nil =>
    refine ⟨[], x, .nil, ?_, ?_⟩
    · rw [List.append_nil]
      exact before
    · rw [List.append_nil, List.append_nil]
      exact mirrored
  | @act later y' name action free quiet _ ih =>
    obtain ⟨more, x', runs, all, mirrored⟩ := ih
    obtain ⟨guarded, _⟩ := guarded_of_mirrored all mirrored
    refine ⟨_, _, runs.act name name action, ?_, ?_⟩
    · rw [← List.append_assoc]
      exact all.act name name action
    · rw [← List.append_assoc, ← List.append_assoc]
      exact mirrored.act guarded.distinct free quiet
  | @begin later y' name b errand free here ready _ ih =>
    obtain ⟨more, x', runs, all, mirrored⟩ := ih
    obtain ⟨guarded, attached, _⟩ := guarded_of_mirrored all mirrored
    exact ⟨more, x', runs, all, mirrored.begin guarded attached free here ready⟩
  | @send later y' name u message next busy rest _ ih =>
    obtain ⟨more, x', runs, all, mirrored⟩ := ih
    obtain ⟨guarded, attached, _⟩ := guarded_of_mirrored all mirrored
    exact ⟨more, x', runs, all, mirrored.send guarded attached busy rest⟩
  | @conclude later y' name u outcome fate busy rest _ ih =>
    obtain ⟨more, x', runs, all, mirrored⟩ := ih
    obtain ⟨guarded, attached, _⟩ := guarded_of_mirrored all mirrored
    refine ⟨_, _, runs.act name name u.errand.action, ?_, ?_⟩
    · rw [← List.append_assoc]
      exact all.act name name u.errand.action
    · rw [← List.append_assoc, ← List.append_assoc]
      exact mirrored.conclude guarded attached busy rest
  | @beginExit later y' _ ih =>
    obtain ⟨more, x', runs, all, mirrored⟩ := ih
    exact ⟨more, _, runs.begin, all.begin, mirrored.beginExit⟩
  | @wait later y' i waiting unread idle _ ih =>
    obtain ⟨more, x', runs, all, mirrored⟩ := ih
    rw [mirrored.exits] at waiting
    rw [mirrored.read] at unread
    rw [Tracer.idle, mirrored.roster] at idle
    exact ⟨more, _, runs.wait i waiting unread idle, all.wait i waiting unread idle,
      mirrored.wait i⟩
  | @close later y' i total waiting read _ ih =>
    obtain ⟨more, x', runs, all, mirrored⟩ := ih
    rw [mirrored.exits] at waiting
    rw [mirrored.read] at read
    exact ⟨more, _, runs.close i total waiting read, all.close i total waiting read,
      mirrored.close i total⟩

/-- Whatever comes between the messages of a thread, the actions of a run could have been done
without a pause. -/
theorem Runs.mirrored (runs : Runs (begun limit pid capacity) answers y) :
    ∃ events x, Shutdown.Runs { session := .begun limit pid capacity } events x ∧
      Mirrored answers y events x := by
  obtain ⟨events, x, runs, -, mirrored⟩ :=
    runs.mirroredFrom .nil (mirrored_begun limit pid capacity)
  exact ⟨events, x, runs, mirrored⟩

end Split

end AccessTrace
