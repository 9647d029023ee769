import AccessTrace.Channel.Basic

/-!
# Channels that record

A recorder keeps what it takes of each message. It may take only the first bytes of each, and the
message is an error then; what was taken is recorded all the same.
-/

namespace AccessTrace

/-- A channel in memory. -/
structure Recorder where
  /-- The bytes taken of each message at most; `none` if all are. -/
  limit : Option Nat := none
  /-- What was taken of each message, in order. -/
  messages : Array (List UInt8) := #[]
  closed : Bool := false
  deriving DecidableEq

namespace Recorder

/-- What is taken of a message. -/
def accepted (c : Recorder) (bytes : List UInt8) : List UInt8 :=
  match c.limit with
  | none => bytes
  | some limit => bytes.take limit

/-- Whether a message of which so many bytes were taken got through. -/
def verdict (written expected : Nat) : Except ChannelError Unit :=
  if written = expected then .ok () else .error (.partialWrite written expected)

/-- Sends a message. -/
def send (c : Recorder) (bytes : List UInt8) : Except ChannelError Unit × Recorder :=
  if c.closed then (.error .closed, c)
  else
    let taken := c.accepted bytes
    (verdict taken.length bytes.length, { c with messages := c.messages.push taken })

/-- Closes the channel: nothing can be sent any more. -/
def close (c : Recorder) : Recorder := { c with closed := true }

/-- All that was taken, as one stream. -/
def stream (c : Recorder) : List UInt8 := c.messages.toList.flatten

instance : Channel Recorder := ⟨send, close⟩

end Recorder

end AccessTrace
