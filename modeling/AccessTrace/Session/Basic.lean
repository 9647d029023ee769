import AccessTrace.Channel.Recorder
import AccessTrace.Session.Action
import AccessTrace.Session.Named

/-!
# Tracing sessions

A session is one tracer with the buffers of its threads and the machines that run them, each under
a name, and the exits that were begun. Actions of different threads, and of whoever ends tracing,
can follow each other in any order: the runs of a session are the interleavings of its threads.

An exit waits for the running threads: it is begun, and it is over as soon as none is left.
-/

namespace AccessTrace

/-- A tracer with the buffers and machines of its threads. -/
structure Session where
  tracer : Tracer Recorder
  buffers : Named Buffer := []
  machines : Named Machine := []
  /-- The exits begun, each with the total that it returned once it is over. -/
  exits : Array (Option Nat) := #[]

namespace Session

/-- The machine under a name, a new one if there is none yet. -/
def machine (s : Session) (name : String) : Machine := (s.machines.get? name).getD {}

/-- Takes the machine under a name out, a new one if there is none yet. -/
def takeMachine (machines : Named Machine) (name : String) : Machine × Named Machine :=
  (machines.take? name).getD ({}, machines)

/-- Keeps a new buffer, which must have been had. -/
def keep {ε : Type} (s : Session) (name : String) (failure : ε → Outcome) :
    Except ε Buffer → Outcome × Session
  | .ok b => (.ofBuffer b, { s with buffers := s.buffers.put name b })
  | .error e => (failure e, s)

/-- Does what takes a buffer: `act` gets the buffer taken out of the session. -/
def withBuffer (s : Session) (name : String) (act : Buffer → Session → Outcome × Session) :
    Outcome × Session :=
  match s with
  | { tracer, buffers, machines, exits } =>
    match buffers.take? name with
    | none => (.noBuffer, { tracer, buffers, machines, exits })
    | some (b, buffers) => act b { tracer, buffers, machines, exits }

/-- Executes plans on a buffer that was taken out. -/
def execute (s : Session) (name machineName : String) (b : Buffer) (plans : List InstructionPlan)
    (times : Nat) : Outcome × Session :=
  match s with
  | { tracer, buffers, machines, exits } =>
    match takeMachine machines machineName with
    | (machine, machines) =>
      match Host.executeTimes { machine, buffer := b, tracer } 0 plans times with
      | (done, answer, { machine, buffer, tracer }) =>
        let failure := match answer with
          | .ok () => none
          | .error e => some e
        (.executed done failure machine,
          { tracer, exits, buffers := buffers.put name buffer
            machines := machines.put machineName machine })

/-- Lets a thread act, under the name of its buffer and that of its machine. -/
def act (s : Session) (name machineName : String) : Action → Outcome × Session
  | .start tid =>
    if (s.buffers.get? name).isSome then (.nameInUse, s)
    else
      let (answer, tracer) := s.tracer.start tid
      keep { s with tracer } name .traceError answer
  | .allocate tid capacity =>
    if (s.buffers.get? name).isSome then (.nameInUse, s)
    else keep s name .resourceError (Buffer.new tid capacity)
  | .send bytes =>
    let (answer, channel) := s.tracer.channel.send bytes
    (.ofUnit .channelError answer, { s with tracer := { s.tracer with channel } })
  | .close => (.done, { s with tracer := s.tracer.close })
  | .channel =>
    (.channel s.tracer.channel.stream s.tracer.channel.messages.size s.tracer.pid, s)
  | .setRegisters values =>
    match s with
    | { tracer, buffers, machines, exits } =>
      match takeMachine machines machineName with
      | (machine, machines) =>
        (.done, { tracer, buffers, exits
                  machines := machines.put machineName (machine.setAll values) })
  | .machine => (.machine (s.machine machineName), s)
  | .buffer action =>
    s.withBuffer name fun b s =>
      match action.apply b with
      | (outcome, b) => (outcome, { s with buffers := s.buffers.put name b })
  | .flush policy =>
    s.withBuffer name fun b s =>
      match s.tracer.flush b policy with
      | (answer, b, tracer) =>
        (.ofFlush .traceError answer, { s with tracer, buffers := s.buffers.put name b })
  | .flushAs pid policy =>
    s.withBuffer name fun b s =>
      match ({ s.tracer with pid } : Tracer Recorder).flush b policy with
      | (answer, b, tracer) =>
        (.ofFlush .traceError answer,
          { s with tracer := { tracer with pid := s.tracer.pid }, buffers := s.buffers.put name b })
  | .execute plans times =>
    s.withBuffer name fun b s => s.execute name machineName b plans times
  | .finish =>
    s.withBuffer name fun b s =>
      match s.tracer.finish b with
      | (.ok refs, tracer) => (.count refs, { s with tracer })
      | (.error (.trace e), tracer) => (.traceError e, { s with tracer })
      | (.error (.misuse e), tracer) => (.misuse e, { s with tracer })
  | .free =>
    s.withBuffer name fun b s =>
      match s.tracer.free b with
      | (.ok refs, tracer) => (.count refs, { s with tracer })
      | (.error e, tracer) => (.misuse e, { s with tracer })
  | .drop => s.withBuffer name fun b s => (.done, { s with tracer := s.tracer.discard b })

/-- Begins an exit: from now on no thread may start. -/
def beginExit (s : Session) : Session :=
  { s with tracer := s.tracer.beginExit, exits := s.exits.push none }

/-- Ends the exits that wait, if no thread is running: the channel is closed, and each of them
returns what the threads have sent. -/
def settle (s : Session) : Session :=
  if s.tracer.idle && s.exits.contains none then
    { s with
      tracer := s.tracer.close
      exits := s.exits.map fun total => total <|> some s.tracer.roster.total }
  else s

end Session

end AccessTrace
