import Mathlib
import AccessTrace.Proofs.Scanning

/-!
# Reading bytes that come in pieces

A source may hand out its bytes in pieces of any size and be interrupted any number of times
(`Source.Delivers`). A request passes over the interruptions and puts together what it asks for, the
rest of a piece being left for the next one (`Source.Delivers.fill`). A reader therefore answers by
the bytes alone (`reads_alike`).
-/

namespace AccessTrace

variable {source : Source} {bytes got : List UInt8} {need : Nat}

namespace Source

/-- A source that hands out these bytes, in pieces that are not empty and with interruptions
anywhere. -/
inductive Delivers : Source → List UInt8 → Prop
  | nil : Delivers [] []
  | interruption {source : Source} {bytes : List UInt8} :
      Delivers source bytes → Delivers (.interruption :: source) bytes
  | piece {source : Source} {piece bytes : List UInt8} :
      piece ≠ [] → Delivers source bytes → Delivers (.bytes piece :: source) (piece ++ bytes)

theorem delivers_ofBytes (nonempty : bytes ≠ []) : Delivers (ofBytes bytes) bytes := by
  simpa [ofBytes] using Delivers.piece nonempty .nil

theorem fill_zero (source : Source) (got : List UInt8) :
    fill 0 got source = (.ok (some got), source) := by
  cases source <;> rfl

/-- A piece goes to the request as far as it is asked for. -/
theorem fill_piece {piece : List UInt8} (asks : need ≠ 0) (nonempty : piece ≠ []) :
    fill need got (.bytes piece :: source) =
      if piece.length ≤ need then fill (need - piece.length) (got ++ piece) source
      else (.ok (some (got ++ piece.take need)), .bytes (piece.drop need) :: source) := by
  obtain ⟨first, others, rfl⟩ := List.exists_cons_of_ne_nil nonempty
  rw [fill, if_neg asks]
  · cases left : (first :: others).drop need with
    | nil => rw [if_pos (List.drop_eq_nil_iff.1 left)]
    | cons next after =>
      have behind : ¬(first :: others).length ≤ need := fun all => by
        rw [List.drop_eq_nil_of_le all] at left
        cases left
      rw [if_neg behind]
  · exact nonempty

/-- A request gets its bytes if the source has that many, and is told how the stream ends if not. -/
theorem Delivers.fill (delivers : Delivers source bytes) (need : Nat) (got : List UInt8) :
    ∃ rest, Delivers rest (bytes.drop need) ∧
      Source.fill need got source =
        (if need ≤ bytes.length then .ok (some (got ++ bytes.take need)) else ended (got ++ bytes),
          rest) := by
  -- By the pieces: `got` is what they have filled of the request so far.
  induction delivers generalizing need got with
  | nil =>
    by_cases served : need = 0
    · subst served
      exact ⟨[], .nil, by simp [fill_zero]⟩
    · refine ⟨[], by simpa using Delivers.nil, ?_⟩
      simp [Source.fill, served]
  | @interruption source bytes delivers ih =>
    by_cases served : need = 0
    · subst served
      exact ⟨_, .interruption delivers, by simp [fill_zero]⟩
    · rw [Source.fill, if_neg served]
      exact ih need got
  | @piece source piece bytes nonempty delivers ih =>
    by_cases served : need = 0
    · subst served
      exact ⟨_, .piece nonempty delivers, by simp [fill_zero]⟩
    · rw [fill_piece served nonempty]
      by_cases all : piece.length ≤ need
      · obtain ⟨rest, delivers', filled⟩ := ih (need - piece.length) (got ++ piece)
        refine ⟨rest, ?_, ?_⟩
        · rw [List.drop_append, List.drop_eq_nil_of_le all]
          exact delivers'
        · have reach : need - piece.length ≤ bytes.length ↔ need ≤ (piece ++ bytes).length := by
            rw [List.length_append]
            omega
          rw [if_pos all, filled, List.take_append, List.take_of_length_le all]
          simp only [reach, List.append_assoc]
      · have cut : piece.drop need ≠ [] := fun none => all (List.drop_eq_nil_iff.1 none)
        refine ⟨.bytes (piece.drop need) :: source, ?_, ?_⟩
        · rw [List.drop_append_of_le_length (by omega)]
          exact .piece cut delivers
        · rw [if_neg all, List.take_append_of_le_length (by omega), if_pos]
          rw [List.length_append]
          omega

end Source

/-! ### The answers of a reader -/

/-- The bytes of the record at an index. -/
def recordBytes (bytes : List UInt8) (k : Nat) : List UInt8 :=
  (bytes.drop (k * Entry.byteSize)).take Entry.byteSize

/-- What a call is answered: the records one after the other, then that the last one is cut, if some
bytes are left over, and then that the stream is at its end. -/
def answerAt (bytes : List UInt8) (k : Nat) : Except StreamError (Option Entry) :=
  if k < bytes.length / Entry.byteSize then (Entry.ofBytes (recordBytes bytes k)).map some
  else if k = bytes.length / Entry.byteSize ∧ bytes.length % Entry.byteSize ≠ 0 then
    .error (.truncated .unexpectedEnd)
  else .ok none

/-- How many of the first records have a meaning. -/
def meaningful (bytes : List UInt8) (n : Nat) : Nat :=
  (List.range (min n (bytes.length / Entry.byteSize))).countP fun k =>
    (Entry.ofBytes (recordBytes bytes k)).isOk

theorem recordBytes_succ (bytes : List UInt8) (k : Nat) :
    recordBytes bytes (k + 1) = recordBytes (bytes.drop Entry.byteSize) k := by
  rw [recordBytes, recordBytes, List.drop_drop, Nat.succ_mul, Nat.add_comm]

/-- The calls behind the first one are answered by the bytes behind the first record. -/
theorem answerAt_succ (bytes : List UInt8) (k : Nat) :
    answerAt bytes (k + 1) = answerAt (bytes.drop Entry.byteSize) k := by
  rcases Nat.lt_or_ge bytes.length Entry.byteSize with short | long
  · rw [List.drop_eq_nil_of_le (Nat.le_of_lt short)]
    have whole : bytes.length / Entry.byteSize = 0 := Nat.div_eq_of_lt short
    simp [answerAt, whole]
  · obtain ⟨whole, same⟩ := length_drop_record long
    simp only [answerAt, whole, same, recordBytes_succ, Nat.add_lt_add_iff_right,
      Nat.add_right_cancel_iff]

theorem meaningful_succ (bytes : List UInt8) (n : Nat) :
    meaningful bytes (n + 1) =
      meaningful bytes 1 + meaningful (bytes.drop Entry.byteSize) n := by
  rcases Nat.lt_or_ge bytes.length Entry.byteSize with short | long
  · rw [List.drop_eq_nil_of_le (Nat.le_of_lt short)]
    have whole : bytes.length / Entry.byteSize = 0 := Nat.div_eq_of_lt short
    simp [meaningful, whole]
  · obtain ⟨whole, -⟩ := length_drop_record long
    have first (m : Nat) : min 1 (m + 1) = 1 := Nat.min_eq_left (Nat.le_add_left 1 m)
    simp only [meaningful, whole, Nat.add_min_add_right, first]
    rw [Nat.add_comm (min _ _), List.range_add, List.countP_append, List.countP_map]
    simp only [Function.comp_def, Nat.add_comm 1, recordBytes_succ]

namespace Reader

variable {r : Reader}

/-- One call: the answer is that of the first record, and the bytes behind it are left. -/
theorem next_of_delivers (delivers : r.source.Delivers bytes) :
    ∃ rest, rest.Delivers (bytes.drop Entry.byteSize) ∧
      r.next = (answerAt bytes 0, ⟨rest, r.entriesRead + meaningful bytes 1⟩) := by
  obtain ⟨source, entriesRead⟩ := r
  obtain ⟨rest, left, filled⟩ := delivers.fill Entry.byteSize []
  refine ⟨rest, left, ?_⟩
  rw [List.nil_append, List.nil_append] at filled
  rw [next, Source.take, filled]
  rcases Nat.lt_or_ge bytes.length Entry.byteSize with short | long
  · have whole : bytes.length / Entry.byteSize = 0 := Nat.div_eq_of_lt short
    rw [if_neg (Nat.not_le_of_lt short)]
    rcases eq_or_ne bytes [] with rfl | nonempty
    · rfl
    · have cut : bytes.length % Entry.byteSize ≠ 0 := by
        rw [Nat.mod_eq_of_lt short]
        exact mt List.eq_nil_of_length_eq_zero nonempty
      simp [answerAt, meaningful, whole, cut, Source.ended, nonempty]
  · have some : 0 < bytes.length / Entry.byteSize := Nat.div_pos long (by decide)
    have record : recordBytes bytes 0 = bytes.take Entry.byteSize := by
      rw [recordBytes, Nat.zero_mul, List.drop_zero]
    rw [if_pos long, answerAt, if_pos some, meaningful, Nat.min_eq_left some]
    cases reads : Entry.ofBytes (bytes.take Entry.byteSize) <;>
      simp [reads, record, Except.map, Except.isOk, Except.toBool]

/-- What a reader answers, call by call. -/
theorem answers_of_delivers (delivers : r.source.Delivers bytes) (calls : Nat) :
    r.answers calls = (List.range calls).map fun k =>
      (answerAt bytes k, r.entriesRead + meaningful bytes (k + 1)) := by
  induction calls generalizing r bytes with
  | zero => rfl
  | succ calls ih =>
    obtain ⟨rest, left, next⟩ := next_of_delivers delivers
    simp only [answers, next]
    rw [ih left, List.range_succ_eq_map, List.map_cons, List.map_map]
    simp only [Function.comp_def, Nat.succ_eq_add_one, answerAt_succ bytes,
      meaningful_succ bytes (_ + 1), Nat.add_assoc, Nat.zero_add]

/-- A source with no bytes at hand is at its end. -/
theorem answers_ofBytes_nil (calls : Nat) :
    answers { source := Source.ofBytes [] } calls = answers { source := [] } calls := by
  cases calls <;> rfl

/-- Iterating gives the answers, each as an item. -/
theorem items_eq (r : Reader) (calls : Nat) :
    r.items calls = (r.answers calls).map fun (answer, count) => (item answer, count) := by
  induction calls generalizing r with
  | zero => rfl
  | succ calls ih => simp only [items, answers, nextItem, ih, List.map_cons]

end Reader

/-- What a reader answers, and what it gives when it is iterated over, is told by the bytes alone:
they may come in any pieces, with interruptions in between. Each record is answered by what it says,
whatever the records before it were; then comes an error if bytes are left over, and then the end,
as often as it is asked. The count is that of the records that have a meaning. -/
theorem reads_alike (delivers : source.Delivers bytes) (calls : Nat) :
    (Reader.answers { source } calls = (List.range calls).map fun k =>
      (answerAt bytes k, meaningful bytes (k + 1))) ∧
    (Reader.items { source } calls = (List.range calls).map fun k =>
      (Reader.item (answerAt bytes k), meaningful bytes (k + 1))) ∧
    Reader.answers { source } calls = Reader.answers { source := Source.ofBytes bytes } calls ∧
    Reader.items { source } calls = Reader.items { source := Source.ofBytes bytes } calls := by
  have told : ∀ source', source'.Delivers bytes →
      Reader.answers { source := source' } calls = (List.range calls).map fun k =>
        (answerAt bytes k, meaningful bytes (k + 1)) := by
    intro source' delivers'
    simpa using Reader.answers_of_delivers (r := { source := source' }) delivers' calls
  have whole : Reader.answers { source := Source.ofBytes bytes } calls =
      Reader.answers { source } calls := by
    rw [told source delivers]
    rcases eq_or_ne bytes [] with rfl | nonempty
    · rw [Reader.answers_ofBytes_nil]
      exact told [] .nil
    · exact told _ (Source.delivers_ofBytes nonempty)
  refine ⟨told source delivers, ?_, whole.symm, ?_⟩
  · rw [Reader.items_eq, told source delivers, List.map_map]
    rfl
  · rw [Reader.items_eq, Reader.items_eq, whole]

/-- A read, a record that says nothing, a write and three bytes more. -/
def brokenOff : List UInt8 :=
  (Entry.read 8 64).toBytes ++ [9, 0] ++ List.replicate 14 0 ++ (Entry.write 4 72).toBytes ++
    [1, 0, 4]

/-- The same in pieces that end inside of records, the second one ending in a third record, with
interruptions before, between and behind them. -/
def brokenPieces : Source :=
  [.interruption, .bytes (brokenOff.take 7), .interruption, .interruption,
    .bytes ((brokenOff.drop 7).take 30), .bytes ((brokenOff.drop 37).take 1),
    .bytes (brokenOff.drop 38), .interruption]

theorem reads_alike_brokenOff :
    brokenPieces.Delivers brokenOff ∧
    Reader.answers { source := brokenPieces } 6 =
      [(.ok (some (Entry.read 8 64)), 1), (.error (.unknownKind 9), 1),
        (.ok (some (Entry.write 4 72)), 2), (.error (.truncated .unexpectedEnd), 2),
        (.ok none, 2), (.ok none, 2)] ∧
    (Reader.items { source := brokenPieces } 6).map (·.1) =
      [some (.ok (Entry.read 8 64)), some (.error (.unknownKind 9)),
        some (.ok (Entry.write 4 72)), some (.error (.truncated .unexpectedEnd)), none, none] := by
  have delivers : brokenPieces.Delivers brokenOff :=
    .interruption (.piece (by decide) (.interruption (.interruption (.piece (by decide)
      (.piece (by decide) (.piece (by decide) (.interruption .nil)))))))
  refine ⟨delivers, (reads_alike delivers 6).1.trans ?_, ?_⟩
  · decide +kernel
  · rw [(reads_alike delivers 6).2.1]
    decide +kernel

end AccessTrace
