import AccessTrace.SystemError

/-!
# The channel to the consumer

All threads send to one channel, message by message, and it is closed when tracing is over.
-/

namespace AccessTrace

/-- What a send can fail with. -/
inductive ChannelError where
  /-- Only the first bytes of the message were taken. -/
  | partialWrite (written expected : Nat)
  /-- The channel was closed. -/
  | closed
  /-- The system refused. -/
  | system (cause : SystemError)
  deriving DecidableEq

namespace ChannelError

/-- The text of an error. -/
def message : ChannelError → String
  | partialWrite written expected => s!"Partial write: wrote {written} of {expected} bytes"
  | closed => "Channel is closed"
  | system _ => "Io error"

/-- The texts of what led to an error, outermost first. -/
def causes : ChannelError → List String
  | system cause => [cause.text]
  | _ => []

end ChannelError

/-- The states of a channel, with what a send and its end do to them. -/
class Channel (σ : Type) where
  /-- Sends a message as a whole; whatever is taken of one that fails shows in the state. -/
  send : σ → List UInt8 → Except ChannelError Unit × σ
  /-- Closes the channel. -/
  close : σ → σ

end AccessTrace
