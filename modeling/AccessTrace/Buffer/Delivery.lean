import AccessTrace.Buffer.Store
import AccessTrace.Channel.Basic

/-!
# Delivering a buffer

A delivery sends the thread header with all entries that are pending behind it, as one message,
and empties the buffer. The first delivery of a thread sends its registration before that: a
message of its own with the thread header and the process. A deferrable delivery does nothing
while the buffer is less than half full.
-/

namespace AccessTrace

/-- Whether a delivery may be put off. -/
inductive FlushPolicy where
  | deferrable
  | forced
  deriving DecidableEq

/-- What a delivery did. -/
inductive FlushOutcome where
  /-- The buffer was not full enough and nothing was sent. -/
  | deferred
  /-- So many entries were sent, the header included, and the registration before them if this
  was the thread's first delivery. -/
  | flushed (entries : Nat) (registered : Bool)
  deriving DecidableEq

/-- The text of an outcome. -/
def FlushOutcome.text : FlushOutcome → String
  | deferred => "deferred"
  | flushed entries false => s!"flushed {entries} entries"
  | flushed entries true => s!"registered and flushed {entries} entries"

namespace Buffer

/-- The message by which a thread registers. -/
def registration (tid : UInt64) (pid : UInt32) : List UInt8 :=
  (Entry.thread tid).toBytes ++ (Entry.process pid).toBytes

section
variable {σ : Type} [Channel σ]

/-- Registers the thread if it is not yet, and says whether it did. A thread counts as registered
from the attempt on, even if the message does not get through. -/
def register (b : Buffer) (channel : σ) (pid : UInt32) : Except ChannelError Bool × Buffer × σ :=
  if b.registered then (.ok false, b, channel)
  else
    match Channel.send channel (registration b.tid pid) with
    | (answer, channel) => (answer.map fun _ => true, { b with registered := true }, channel)

/-- Sends the occupied slots and empties the buffer, and says how many there were. If the message
does not get through, the entries stay. -/
def deliver (b : Buffer) (channel : σ) : Except ChannelError Nat × Buffer × σ :=
  match Channel.send channel b.occupiedBytes with
  | (.ok (), channel) => (.ok b.occupied, (b.addRefs b.occupied).reset, channel)
  | (.error e, channel) => (.error e, b, channel)

/-- Whether a delivery may be put off: while fewer than half of the slots are occupied. -/
def mayDefer (b : Buffer) : Bool := decide (b.occupied < b.capacity / 2)

/-- Delivers the buffer to the channel. -/
def flush (b : Buffer) (channel : σ) (pid : UInt32) (policy : FlushPolicy) :
    Except ChannelError FlushOutcome × Buffer × σ :=
  if policy = .deferrable && b.mayDefer then (.ok .deferred, b, channel)
  else
    match b.writeHeader.register channel pid with
    | (.error e, b, channel) => (.error e, b, channel)
    | (.ok registered, b, channel) =>
      match b.deliver channel with
      | (.error e, b, channel) => (.error e, b, channel)
      | (.ok entries, b, channel) => (.ok (.flushed entries registered), b, channel)

end

end Buffer

end AccessTrace
