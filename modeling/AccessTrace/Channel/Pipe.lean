import AccessTrace.Channel.Basic

/-!
# Named pipes

What the writing end of a pipe sends arrives at the reading end byte for byte, unless the writing
end was closed or nobody reads any more.
-/

namespace AccessTrace

/-- A pipe, and what went through it. -/
structure Pipe where
  /-- Whether the reading end was opened. -/
  opened : Bool := false
  /-- Whether the reading end is gone. -/
  deserted : Bool := false
  /-- Whether the writing end was closed. -/
  closed : Bool := false
  /-- The bytes that went through. -/
  carried : Array UInt8 := #[]
  deriving DecidableEq

namespace Pipe

/-- Opens the reading end; once it is open nothing changes. -/
def openReader (p : Pipe) : Pipe := { p with opened := true }

/-- The reading end goes away. -/
def dropReader (p : Pipe) : Pipe := { p with deserted := true }

/-- All that the reading end gets, if it was opened. -/
def readAll (p : Pipe) : Except SystemError (List UInt8) :=
  if p.opened then .ok p.carried.toList else .error .notConnected

/-- Sends bytes. A message of no bytes gets through even where nobody reads. -/
def send (p : Pipe) (bytes : List UInt8) : Except ChannelError Unit × Pipe :=
  if p.closed then (.error .closed, p)
  else if p.deserted && !bytes.isEmpty then (.error (.system .brokenPipe), p)
  else (.ok (), { p with carried := p.carried ++ bytes })

/-- Closes the writing end; once it is closed nothing changes. -/
def close (p : Pipe) : Pipe := { p with closed := true }

instance : Channel Pipe := ⟨send, close⟩

end Pipe

end AccessTrace
