import Mathlib
import AccessTrace.Proofs.Records

/-!
# Reading any stream

A stream is read record by record (`accept`) up to the first that is rejected, whatever its bytes
are; one that breaks off inside a record is rejected at its end (`ofBytes_eq_scanned`).
-/

namespace AccessTrace

theorem records_short {bytes : List UInt8} (short : bytes.length < Entry.byteSize) :
    records bytes = [] := by
  rw [records, Nat.div_eq_of_lt short]
  rfl

/-- Behind its first record a stream has one whole record less, and as much left over. -/
theorem length_drop_record {bytes : List UInt8} (long : Entry.byteSize ≤ bytes.length) :
    bytes.length / Entry.byteSize = (bytes.drop Entry.byteSize).length / Entry.byteSize + 1 ∧
      (bytes.drop Entry.byteSize).length % Entry.byteSize = bytes.length % Entry.byteSize := by
  rw [List.length_drop]
  simp only [Entry.byteSize] at *
  omega

theorem records_long {bytes : List UInt8} (long : Entry.byteSize ≤ bytes.length) :
    records bytes =
      Entry.ofBytes (bytes.take Entry.byteSize) :: records (bytes.drop Entry.byteSize) := by
  rw [records, (length_drop_record long).1, groups, List.map_cons]
  rfl

/-- What the record at an index says. -/
def recordAt (bytes : List UInt8) (i : Nat) : Except StreamError Entry :=
  Entry.ofBytes (bytes.drop (i * Entry.byteSize))

theorem records_eq (bytes : List UInt8) :
    records bytes = (List.range (bytes.length / Entry.byteSize)).map (recordAt bytes) := by
  rw [records, groups_eq, List.map_map]
  apply List.map_congr_left
  intro i _
  apply Entry.ofBytes_congr
  intro k inside
  exact List.getElem?_take_of_lt inside

namespace History

/-- Reads what a record says. -/
def accept (h : History) (record : Except StreamError Entry) : Except StreamError History :=
  match record with
  | .error error => .error error
  | .ok e =>
    match h.push e with
    | (.ok (), h) => .ok h
    | (.error error, _) => .error error

/-- Reads the records of a stream and then its end. -/
def scan (h : History) (bytes : List UInt8) : Except StreamError History :=
  match (records bytes).foldlM accept h with
  | .error error => .error error
  | .ok h =>
    if bytes.length % Entry.byteSize = 0 then .ok h else .error (.truncated .unexpectedEnd)

theorem readOn_error (h : History) {r r' : Reader} {error : StreamError}
    (next : r.next = (.error error, r')) : h.readOn r = .error error := by
  unfold readOn
  split <;> simp_all

/-- A source that has less than a record at hand ends inside this record. -/
theorem next_of_short {r : Reader} {bytes : List UInt8} (remains : Remains r.source bytes)
    (some : bytes ≠ []) (short : bytes.length < Entry.byteSize) :
    ∃ r', r.next = (.error (.truncated .unexpectedEnd), r') := by
  obtain ⟨source, entriesRead⟩ := r
  rcases remains with rfl | ⟨-, none⟩
  · have taken : (Source.ofBytes bytes).take Entry.byteSize = (.error .unexpectedEnd, []) := by
      obtain ⟨first, rest, rfl⟩ := List.exists_cons_of_ne_nil some
      have left : (first :: rest).drop Entry.byteSize = [] :=
        List.drop_eq_nil_of_le (Nat.le_of_lt short)
      have lacking : Entry.byteSize - (first :: rest).length ≠ 0 := by omega
      unfold Source.take Source.ofBytes Source.fill
      rw [if_neg (by decide)]
      simp only [left, Source.fill, if_neg lacking, List.nil_append]
      rfl
    refine ⟨{ source := [], entriesRead }, ?_⟩
    simp only [Reader.next, taken]
  · exact absurd none some

theorem next_of_rejected {r : Reader} {bytes : List UInt8} {error : StreamError}
    (remains : Remains r.source bytes) (long : Entry.byteSize ≤ bytes.length)
    (rejects : Entry.ofBytes (bytes.take Entry.byteSize) = .error error) :
    ∃ r', r.next = (.error error, r') := by
  obtain ⟨source, entriesRead⟩ := r
  rcases remains with rfl | ⟨-, rfl⟩
  · obtain ⟨source', taken, -⟩ := take_ofBytes (by decide) long
    refine ⟨{ source := source', entriesRead }, ?_⟩
    simp only [Reader.next, taken, rejects]
  · exact absurd long (by decide)

/-- The records still to be read are those of the bytes at hand, one after the other. -/
theorem readOn_eq_scan (h : History) {r : Reader} {bytes : List UInt8}
    (remains : Remains r.source bytes) : h.readOn r = h.scan bytes := by
  -- By the number of whole records at hand; what is left over shows at the end alone.
  induction count : bytes.length / Entry.byteSize generalizing bytes h r with
  | zero =>
    have short : bytes.length < Entry.byteSize := by
      simp only [Entry.byteSize] at *
      omega
    rw [scan, records_short short, List.foldlM_nil]
    by_cases empty : bytes = []
    · subst empty
      obtain ⟨r', next⟩ := next_of_nil remains
      rw [readOn_end h next]
      rfl
    · obtain ⟨r', next⟩ := next_of_short remains empty short
      have length := List.length_pos_iff.2 empty
      have cut : ¬bytes.length % Entry.byteSize = 0 := by
        simp only [Entry.byteSize] at *
        omega
      rw [readOn_error h next]
      exact (if_neg cut).symm
  | succ n ih =>
    have long : Entry.byteSize ≤ bytes.length := by
      simp only [Entry.byteSize] at *
      omega
    obtain ⟨whole, same⟩ := length_drop_record long
    have rest : (bytes.drop Entry.byteSize).length / Entry.byteSize = n := by omega
    rw [scan, records_long long, List.foldlM_cons]
    cases reads : Entry.ofBytes (bytes.take Entry.byteSize) with
    | error error =>
      obtain ⟨r', next⟩ := next_of_rejected remains long reads
      rw [readOn_error h next]
      rfl
    | ok e =>
      obtain ⟨r', next, remains'⟩ := next_of_uncons remains long reads
      rw [readOn_entry h next, accept]
      rcases h.push e with ⟨answer, h'⟩
      cases answer with
      | ok _ =>
        change h'.readOn r' = _
        rw [ih h' remains' rest, scan, same]
        rfl
      | error _ => rfl

/-- What has become of a stream after its first records. -/
def scanned (bytes : List UInt8) (i : Nat) : Except StreamError History :=
  ((List.range i).map (recordAt bytes)).foldlM accept {}

theorem scanned_succ (bytes : List UInt8) (i : Nat) :
    scanned bytes (i + 1) = scanned bytes i >>= fun h => h.accept (recordAt bytes i) := by
  rw [scanned, List.range_succ, List.map_append, List.foldlM_append]
  congr 1
  funext h
  simp only [List.map_cons, List.map_nil, List.foldlM_cons, List.foldlM_nil, bind_pure]

/-- A stream that was rejected stays rejected, whatever follows. -/
theorem scanned_rejected {bytes : List UInt8} {error : StreamError} {i k : Nat} (later : i ≤ k)
    (rejected : scanned bytes i = .error error) : scanned bytes k = .error error := by
  induction k, later using Nat.le_induction with
  | base => exact rejected
  | succ k _ ih => rw [scanned_succ, ih]; rfl

/-- The history of a stream is that of its whole records, unless some bytes are left over. -/
theorem ofBytes_eq_scanned (bytes : List UInt8) :
    ofBytes bytes =
      match scanned bytes (bytes.length / Entry.byteSize) with
      | .error error => .error error
      | .ok h =>
        if bytes.length % Entry.byteSize = 0 then .ok h
        else .error (.truncated .unexpectedEnd) := by
  have read : ofBytes bytes = scan {} bytes := readOn_eq_scan {} (.inl rfl)
  rw [read, scan, records_eq]
  rfl

end History

end AccessTrace
