import AccessTrace.Entry.Layout
import AccessTrace.Entry.Source

/-!
# Reading entries from a source

A reader takes one record after the other off its source and counts the entries it has given out.
A record without meaning is passed over by the next call; a stream that breaks off inside a record
is an error, one that ends between records is not.
-/

namespace AccessTrace

/-- A source read record by record. -/
structure Reader where
  source : Source
  /-- The entries given out so far. -/
  entriesRead : Nat := 0

namespace Reader

/-- The next entry, `none` at the end of the stream, or an error. -/
def next (r : Reader) : Except StreamError (Option Entry) × Reader :=
  match r.source.take Entry.byteSize with
  | (.error cause, source) => (.error (.truncated cause), { r with source })
  | (.ok none, source) => (.ok none, { r with source })
  | (.ok (some bytes), source) =>
    match Entry.ofBytes bytes with
    | .error e => (.error e, { r with source })
    | .ok entry => (.ok (some entry), { source, entriesRead := r.entriesRead + 1 })

/-- What `calls` calls of `next` answer, each with the number of entries given out by then. -/
def answers (r : Reader) : (calls : Nat) → List (Except StreamError (Option Entry) × Nat)
  | 0 => []
  | calls + 1 =>
    let (answer, r) := r.next
    (answer, r.entriesRead) :: answers r calls

/-- An answer as an iterator gives it: nothing at the end of the stream, else an entry or an
error. -/
def item : Except StreamError (Option Entry) → Option (Except StreamError Entry)
  | .ok none => none
  | .ok (some entry) => some (.ok entry)
  | .error e => some (.error e)

/-- The next item of a reader that is iterated over. -/
def nextItem (r : Reader) : Option (Except StreamError Entry) × Reader :=
  let (answer, r) := r.next
  (item answer, r)

/-- What `calls` calls of `nextItem` give, each with the number of entries given out by then. -/
def items (r : Reader) : (calls : Nat) → List (Option (Except StreamError Entry) × Nat)
  | 0 => []
  | calls + 1 =>
    let (item, r) := r.nextItem
    (item, r.entriesRead) :: items r calls

/-- What at most `calls` calls of `next` answer, the first end of the stream being the last. -/
def answersWithin (r : Reader) : (calls : Nat) → List (Except StreamError (Option Entry) × Nat)
  | 0 => []
  | calls + 1 =>
    match r.next with
    | (.ok none, r) => [(.ok none, r.entriesRead)]
    | (answer, r) => (answer, r.entriesRead) :: answersWithin r calls

/-- What `next` answers up to the first end of the stream. Every other answer takes a byte or a
piece off the source, which bounds their number. -/
def answersToEnd (r : Reader) : List (Except StreamError (Option Entry) × Nat) :=
  r.answersWithin (r.source.remaining + r.source.length + 1)

theorem remaining_lt_of_next {r r' : Reader} {entry : Entry}
    (h : r.next = (.ok (some entry), r')) : r'.source.remaining < r.source.remaining := by
  unfold next at h
  split at h
  · cases h
  · cases h
  · rename_i bytes source hs
    split at h
    · cases h
    · cases h
      have := (Source.remaining_of_fill hs).2
      simp only [Entry.byteSize] at this ⊢
      omega

end Reader

end AccessTrace
