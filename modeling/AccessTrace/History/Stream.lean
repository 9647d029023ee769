import AccessTrace.Entry.Reader
import AccessTrace.History.Basic

/-!
# The history of a stream

A stream is read record by record until it ends or something is wrong with it: the first record
that has no meaning, the first entry that is out of order, or a break inside a record.
-/

namespace AccessTrace.History

/-- Reads on from a reader until its stream ends. -/
def readOn (h : History) (r : Reader) : Except StreamError History :=
  match _ : r.next with
  | (.error e, _) => .error e
  | (.ok none, _) => .ok h
  | (.ok (some entry), r') =>
    match h.push entry with
    | (.ok (), h) => readOn h r'
    | (.error e, _) => .error e
termination_by r.source.remaining
decreasing_by exact Reader.remaining_lt_of_next ‹_›

/-- The history of a stream of bytes. -/
def ofBytes (bytes : List UInt8) : Except StreamError History :=
  readOn {} { source := Source.ofBytes bytes }

end AccessTrace.History
