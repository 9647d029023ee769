import AccessTrace.Buffer.Delivery
import AccessTrace.Tracer.Roster

/-!
# The tracer

The state that all threads of a process share: the channel and the roster. A thread starts by
getting a buffer and ends by giving it back, which delivers what is left in it; a buffer that goes
away otherwise ends its thread without that. Tracing is over in three steps: no thread may start
any more (`beginExit`), the running ones end, and the channel is closed (`close`).
-/

namespace AccessTrace

/-- What tracing can fail with. Each of these is final for the thread that meets it. -/
inductive TraceError where
  | resource (cause : ResourceError)
  | channel (cause : ChannelError)
  /-- Tracing is over. -/
  | exited
  deriving DecidableEq

namespace TraceError

/-- The text of an error. -/
def message : TraceError → String
  | resource cause => "Resource exhausted: " ++ cause.message
  | channel _ => "Unable to write to channel"
  | exited => "Tracing has already exited"

/-- The texts of what led to an error, outermost first. -/
def causes : TraceError → List String
  | resource cause => [cause.message]
  | channel cause => cause.message :: cause.causes
  | exited => []

end TraceError

/-- How giving back a buffer goes wrong: an error of tracing, or a mistake of the caller. -/
inductive ExitError where
  | trace (cause : TraceError)
  | misuse (cause : Misuse)
  deriving DecidableEq

/-- What all threads of a process share. -/
structure Tracer (σ : Type) where
  pid : UInt32
  /-- The slots of the buffers that are handed out. -/
  capacity : Nat := Buffer.defaultCapacity
  channel : σ
  roster : Roster := {}

namespace Tracer

variable {σ : Type}

/-- Takes note that a buffer went away. A freed one has ended its thread before, and one that was
not handed out has none. -/
def discard (t : Tracer σ) (b : Buffer) : Tracer σ :=
  if b.attached && b.phase ≠ .freed then { t with roster := t.roster.abandon b.tid b.refs }
  else t

/-- Starts a thread. Its buffer has to be had, tracing not to be over, and the thread not to be
running yet, in this order. The buffer of a thread that may not start is discarded. -/
def start (t : Tracer σ) (tid : UInt64) : Except TraceError Buffer × Tracer σ :=
  match Buffer.new tid t.capacity with
  | .error e => (.error (.resource e), t)
  | .ok b =>
    if t.roster.exited then (.error .exited, t.discard b)
    else if tid ∈ t.roster.live then (.error (.resource (.threadSlot tid)), t.discard b)
    else
      (.ok { b with attached := true, phase := .active },
        { t with roster := t.roster.enter tid })

/-- Frees a draining buffer and says how many entries it has sent. -/
def free (t : Tracer σ) (b : Buffer) : Except Misuse Nat × Tracer σ :=
  match b.transition .freed with
  | (answer, b) => (answer.map fun _ => b.refs, t.discard b)

/-- From now on no thread may start. -/
def beginExit (t : Tracer σ) : Tracer σ := { t with roster := { t.roster with exited := true } }

/-- Whether no thread is running. -/
def idle (t : Tracer σ) : Bool := t.roster.live.isEmpty

variable [Channel σ]

/-- Delivers a buffer to the channel. -/
def flush (t : Tracer σ) (b : Buffer) (policy : FlushPolicy) :
    Except TraceError FlushOutcome × Buffer × Tracer σ :=
  match t with
  | { pid, capacity, channel, roster } =>
    match b.flush channel pid policy with
    | (answer, b, channel) => (answer.mapError .channel, b, { pid, capacity, channel, roster })

/-- Ends the thread of an active buffer: delivers the buffer whatever it holds, frees it and says
how many entries it has sent. The thread has ended even if the delivery failed. -/
def finish (t : Tracer σ) (b : Buffer) : Except ExitError Nat × Tracer σ :=
  match b.transition .draining with
  | (.error e, b) => (.error (.misuse e), t.discard b)
  | (.ok (), b) =>
    match t.flush b .forced with
    | (flushed, b, t) =>
      match t.free b with
      | (.error e, t) => (.error (.misuse e), t)
      | (.ok refs, t) =>
        ((flushed.map fun _ => refs).mapError .trace,
          { t with roster := t.roster.leave b.tid refs })

/-- Closes the channel. -/
def close (t : Tracer σ) : Tracer σ := { t with channel := Channel.close t.channel }

/-- Ends tracing and says how many entries the threads have sent, or `none`, with nothing done,
while one is running. -/
def exit? (t : Tracer σ) : Option (Nat × Tracer σ) :=
  if t.idle then some (t.roster.total, t.beginExit.close) else none

end Tracer

end AccessTrace
