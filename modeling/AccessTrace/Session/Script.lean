import AccessTrace.Session.Basic

/-!
# Scripts of sessions

A script is a list of steps, each of which is reported: what it came to, how its buffer stands
afterwards, and what went through the channel since the last report. The step that ends tracing can
hold a script of its own, which runs while it waits.
-/

namespace AccessTrace

/-- A step of a script. -/
inductive Step where
  /-- A thread acts, under the name of its buffer and that of its machine. -/
  | act (name machine : String) (action : Action)
  /-- Ends tracing; the steps run while that waits. Without steps it must not have to wait. -/
  | exit (name : String) (meanwhile : List Step)

/-- How a buffer stands. -/
structure BufferStatus where
  occupied : Nat
  pending : Nat
  ptr : Nat
  refs : Nat
  registered : Bool
  phase : Phase

/-- The state of a buffer as it is reported. -/
def Buffer.status (b : Buffer) : BufferStatus :=
  { occupied := b.occupied, pending := b.pendingCount, ptr := b.ptr, refs := b.refs
    registered := b.registered, phase := b.phase }

/-- What is seen after a step: its buffer, the messages that the channel took since the last
report, and whether the channel is closed. -/
structure View where
  buffer : Option BufferStatus
  sent : List (List UInt8)
  closed : Bool

/-- The report of a step. -/
inductive Report where
  | act (outcome : Outcome) (view : View)
  /-- Tracing was ended, with a total, and these are the reports of what happened meanwhile. -/
  | exit (total : Nat) (meanwhile : List Report) (view : View)

/-- A session and the number of messages that were reported. -/
structure Playback where
  session : Session
  reported : Nat := 0

namespace Playback

/-- What is seen now; it will not be reported again. -/
def look (p : Playback) (name : String) : View × Playback :=
  let channel := p.session.tracer.channel
  let view : View :=
    { buffer := (p.session.buffers.get? name).map Buffer.status
      sent := (channel.messages.extract p.reported channel.messages.size).toList
      closed := channel.closed }
  (view, { p with reported := channel.messages.size })

/-- Reports an outcome. -/
def report (p : Playback) (name : String) (outcome : Outcome) : Report × Playback :=
  let (view, p) := p.look name
  (.act outcome view, p)

/-- Begins an exit, which is over at once if no thread is running. Its number comes with it. -/
def beginExit (p : Playback) : Nat × Playback :=
  (p.session.exits.size, { p with session := p.session.beginExit.settle })

/-- The total that an exit returned. -/
def exitTotal? (p : Playback) (exit : Nat) : Option Nat := p.session.exits[exit]?.join

/-- What an exit that would have to wait comes to. -/
def blocked (p : Playback) : Outcome := .wouldBlock p.session.tracer.roster.liveAscending

mutual

/-- Plays a step. -/
def play (p : Playback) : Step → Report × Playback
  | .act name machine action =>
    match p with
    | { session, reported } =>
      match session.act name machine action with
      | (outcome, session) => report { session := session.settle, reported } name outcome
  | .exit name [] =>
    if p.session.tracer.idle then
      let (exit, p) := p.beginExit
      p.report name (((p.exitTotal? exit).map Outcome.count).getD p.blocked)
    else p.report name p.blocked
  | .exit name (step :: steps) =>
    let (exit, p) := p.beginExit
    let (reports, p) := playAll p (step :: steps)
    let (view, p) := p.look name
    match p.exitTotal? exit with
    | some total => (.exit total reports view, p)
    | none => (.act p.blocked view, p)

/-- Plays steps, one after the other. -/
def playAll (p : Playback) : List Step → List Report × Playback
  | [] => ([], p)
  | step :: steps =>
    match play p step with
    | (report, p) =>
      match playAll p steps with
      | (reports, p) => (report :: reports, p)

end

end Playback

/-- The reports of a script that is played from a session without threads. -/
def Tracer.play (t : Tracer Recorder) (steps : List Step) : List Report :=
  (Playback.playAll { session := { tracer := t } } steps).1

end AccessTrace
