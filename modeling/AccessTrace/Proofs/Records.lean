import Mathlib
import AccessTrace.History.Stream
import AccessTrace.Proofs.Delivery

/-!
# Records in a stream

A stream that carries entries (`Carries`) is whole records one after the other that say just these.
Streams are put together from messages, each of which carries entries of its own, and the history of
a stream is that of the entries it carries (`ofBytes_eq`).
-/

namespace AccessTrace

theorem groups_append {width n : Nat} {front : List UInt8} (whole : front.length = n * width)
    (m : Nat) (back : List UInt8) :
    groups width (n + m) (front ++ back) = groups width n front ++ groups width m back := by
  induction n generalizing front with
  | zero =>
    rw [Nat.zero_mul] at whole
    rw [List.eq_nil_of_length_eq_zero whole, Nat.zero_add]
    rfl
  | succ n ih =>
    rw [Nat.add_mul, Nat.one_mul] at whole
    rw [Nat.succ_add, groups, groups, List.take_append_of_le_length (by omega),
      List.drop_append_of_le_length (by omega), ih (by rw [List.length_drop]; omega)]
    rfl

/-- What the records of a stream say. -/
def records (bytes : List UInt8) : List (Except StreamError Entry) :=
  (groups Entry.byteSize (bytes.length / Entry.byteSize) bytes).map Entry.ofBytes

/-- The stream is whole records, which say these entries. -/
structure Carries (bytes : List UInt8) (es : List Entry) : Prop where
  whole : bytes.length % Entry.byteSize = 0
  reads : records bytes = es.map .ok

namespace Carries

theorem nil : Carries [] [] := ⟨rfl, rfl⟩

theorem append {front back : List UInt8} {es more : List Entry} (first : Carries front es)
    (second : Carries back more) : Carries (front ++ back) (es ++ more) where
  whole := by
    have whole := first.whole
    have whole' := second.whole
    rw [List.length_append]
    simp only [Entry.byteSize] at *
    omega
  reads := by
    have whole := first.whole
    have count : (front ++ back).length / Entry.byteSize =
        front.length / Entry.byteSize + back.length / Entry.byteSize := by
      rw [List.length_append]
      simp only [Entry.byteSize] at *
      omega
    rw [records, count, groups_append (by simp only [Entry.byteSize] at *; omega), List.map_append,
      List.map_append, ← first.reads, ← second.reads]
    rfl

/-- One record. -/
theorem of_record {bytes : List UInt8} {e : Entry} (length : bytes.length = Entry.byteSize)
    (reads : Entry.ofBytes bytes = .ok e) : Carries bytes [e] where
  whole := by rw [length]; rfl
  reads := by
    rw [records, length, show Entry.byteSize / Entry.byteSize = 0 + 1 from rfl, groups,
      List.take_of_length_le (Nat.le_of_eq length)]
    simp only [groups, List.map_cons, List.map_nil, reads]

theorem toBytes (e : Entry) : Carries e.toBytes [e.normal] := by
  have reads := Entry.ofBytes_toBytes e []
  rw [List.append_nil] at reads
  exact of_record (Entry.length_toBytes e) reads

theorem eq_nil {bytes : List UInt8} (carries : Carries bytes []) : bytes = [] := by
  have count := congrArg List.length carries.reads
  have whole := carries.whole
  rw [records, List.length_map, length_groups, List.map_nil, List.length_nil] at count
  apply List.eq_nil_of_length_eq_zero
  simp only [Entry.byteSize] at *
  omega

/-- The first entry is that of the first record; the rest of the stream carries the others. -/
theorem uncons {bytes : List UInt8} {e : Entry} {es : List Entry}
    (carries : Carries bytes (e :: es)) :
    Entry.byteSize ≤ bytes.length ∧ Entry.ofBytes (bytes.take Entry.byteSize) = .ok e ∧
      Carries (bytes.drop Entry.byteSize) es := by
  have count := congrArg List.length carries.reads
  have whole := carries.whole
  have reads := carries.reads
  rw [records, List.length_map, length_groups, List.length_map, List.length_cons] at count
  rw [records, count, groups, List.map_cons, List.map_cons, List.cons.injEq] at reads
  have long : Entry.byteSize ≤ bytes.length := by
    simp only [Entry.byteSize] at *
    omega
  refine ⟨long, reads.1, ?_, ?_⟩
  · rw [List.length_drop]
    simp only [Entry.byteSize] at *
    omega
  · have left : (bytes.drop Entry.byteSize).length / Entry.byteSize = es.length := by
      rw [List.length_drop]
      simp only [Entry.byteSize] at *
      omega
    rw [records, left]
    exact reads.2

end Carries

/-- A registration carries the two headers. -/
theorem carries_registration (tid : UInt64) (pid : UInt32) :
    Carries (Buffer.registration tid pid) [Entry.thread tid, Entry.process pid] :=
  (Carries.toBytes (Entry.thread tid)).append (Carries.toBytes (Entry.process pid))

namespace Buffer

theorem occupiedBytes_eq (b : Buffer) :
    b.occupiedBytes = (b.bytes.extract 0 headerBytes).toList ++ b.pendingBytes := by
  have header := b.header_le_ptr
  rw [occupiedBytes, pendingBytes, ← Array.toList_append, Array.extract_append_extract,
    Nat.zero_min, Nat.max_eq_right header]

theorem bytes_writeHeader (b : Buffer) :
    b.writeHeader.bytes = writeAt b.bytes 0 (Entry.thread b.tid).toBytes := by
  rw [writeHeader, overwrite, header]

/-- Writing the header changes nothing behind its slot. -/
theorem getElem?_writeHeader (b : Buffer) {k : Nat} (behind : headerBytes ≤ k) :
    b.writeHeader.bytes[k]? = b.bytes[k]? := by
  rw [bytes_writeHeader]
  apply getElem?_writeAt_outside
  right
  rw [Entry.length_toBytes, Nat.zero_add]
  exact behind

theorem Holds.writeHeader {b : Buffer} {es : List Entry} (holds : b.Holds es) :
    b.writeHeader.Holds es :=
  holds.congr b.sameButBytes_writeHeader.ptr fun _ behind _ => b.getElem?_writeHeader behind

/-- What is pending is carried by the bytes behind the header slot. -/
theorem carries_pendingBytes {b : Buffer} {es : List Entry} (aligned : b.ptr % Entry.byteSize = 0)
    (pending : b.pending = es.map .ok) : Carries b.pendingBytes es where
  whole := by
    have header := b.header_le_ptr
    rw [length_pendingBytes]
    simp only [Entry.byteSize, headerBytes] at *
    omega
  reads := by
    rw [records, length_pendingBytes, ← pending]
    rfl

theorem Holds.carries_pending {b : Buffer} {es : List Entry} (holds : b.Holds es) :
    Carries b.pendingBytes es := carries_pendingBytes holds.aligned holds.pending

theorem headerBytes_le_size (b : Buffer) : headerBytes ≤ b.bytes.size := by
  rw [b.size_bytes]
  exact headerBytes_le b.two_le_capacity

/-- The header slot holds the thread header once it was written. -/
theorem extract_writeHeader (b : Buffer) :
    (b.writeHeader.bytes.extract 0 headerBytes).toList = (Entry.thread b.tid).toBytes := by
  have room := b.headerBytes_le_size
  have length : (Entry.thread b.tid).toBytes.length = headerBytes := Entry.length_toBytes _
  rw [bytes_writeHeader]
  apply List.ext_getElem?
  intro k
  rw [Array.getElem?_toList, Array.getElem?_extract, size_writeAt, Nat.min_eq_left room,
    Nat.sub_zero, Nat.zero_add]
  split
  · rename_i inside
    have written : (writeAt b.bytes 0 (Entry.thread b.tid).toBytes)[0 + k]? =
        (Entry.thread b.tid).toBytes[k]? :=
      getElem?_writeAt_inside (by rw [length, Nat.zero_add]; exact room)
        (by rw [length]; exact inside)
    rw [Nat.zero_add] at written
    exact written
  · rename_i outside
    rw [List.getElem?_eq_none (by rw [length]; exact Nat.le_of_not_lt outside)]

/-- A payload carries the thread header and what was pending. -/
theorem Holds.carries {b : Buffer} {es : List Entry} (holds : b.Holds es) :
    Carries b.writeHeader.occupiedBytes (Entry.thread b.tid :: es) := by
  rw [occupiedBytes_eq, extract_writeHeader]
  exact (Carries.toBytes (Entry.thread b.tid)).append holds.writeHeader.carries_pending

end Buffer

namespace History

/-- Reads entries until one is out of order. -/
def readAll (h : History) : List Entry → Except StreamError History
  | [] => .ok h
  | e :: es =>
    match h.push e with
    | (.ok (), h) => readAll h es
    | (.error error, _) => .error error

theorem readAll_append (h : History) (es more : List Entry) :
    h.readAll (es ++ more) =
      match h.readAll es with
      | .ok h => h.readAll more
      | .error error => .error error := by
  induction es generalizing h with
  | nil => rfl
  | cons e es ih =>
    rw [List.cons_append, readAll, readAll]
    rcases h.push e with ⟨answer, h'⟩
    cases answer with
    | ok _ => exact ih h'
    | error _ => rfl

theorem readOn_end (h : History) {r r' : Reader} (next : r.next = (.ok none, r')) :
    h.readOn r = .ok h := by
  unfold readOn
  split <;> simp_all

theorem readOn_entry (h : History) {r r' : Reader} {e : Entry}
    (next : r.next = (.ok (some e), r')) :
    h.readOn r =
      match h.push e with
      | (.ok (), h) => h.readOn r'
      | (.error error, _) => .error error := by
  rw [readOn]
  split
  · simp_all
  · simp_all
  · rename_i same
    rw [next] at same
    cases same
    rfl

/-- A source that has these bytes at hand, or has handed them all out. -/
def Remains (source : Source) (bytes : List UInt8) : Prop :=
  source = Source.ofBytes bytes ∨ source = [] ∧ bytes = []

theorem next_of_nil {r : Reader} (remains : Remains r.source []) :
    ∃ r', r.next = (.ok none, r') := by
  obtain ⟨source, entriesRead⟩ := r
  rcases remains with rfl | ⟨rfl, -⟩
  · exact ⟨_, rfl⟩
  · exact ⟨_, rfl⟩

/-- A source that has a record at hand gives out just that. -/
theorem take_ofBytes {bytes : List UInt8} {n : Nat} (positive : 0 < n) (long : n ≤ bytes.length) :
    ∃ source, (Source.ofBytes bytes).take n = (.ok (some (bytes.take n)), source) ∧
      Remains source (bytes.drop n) := by
  have asks : n ≠ 0 := by omega
  cases bytes with
  | nil =>
    rw [List.length_nil] at long
    omega
  | cons first rest =>
    unfold Source.take Source.ofBytes Source.fill
    rw [if_neg asks]
    cases left : (first :: rest).drop n with
    | nil =>
      have all := List.drop_eq_nil_iff.1 left
      have served : n - (first :: rest).length = 0 := by omega
      refine ⟨[], ?_, .inr ⟨rfl, rfl⟩⟩
      simp only [left, served, Source.fill, if_true, List.nil_append,
        List.take_of_length_le all]
    | cons next after =>
      refine ⟨_, ?_, .inl rfl⟩
      simp only [left]
      rfl

theorem next_of_uncons {r : Reader} {bytes : List UInt8} {e : Entry}
    (remains : Remains r.source bytes) (long : Entry.byteSize ≤ bytes.length)
    (reads : Entry.ofBytes (bytes.take Entry.byteSize) = .ok e) :
    ∃ r', r.next = (.ok (some e), r') ∧ Remains r'.source (bytes.drop Entry.byteSize) := by
  obtain ⟨source, entriesRead⟩ := r
  rcases remains with rfl | ⟨rfl, rfl⟩
  · obtain ⟨source', taken, remains'⟩ := take_ofBytes (by decide) long
    refine ⟨{ source := source', entriesRead := entriesRead + 1 }, ?_, remains'⟩
    simp only [Reader.next, taken, reads]
  · rw [List.length_nil] at long
    exact absurd long (by decide)

/-- The history of a stream is that of the entries that it carries. -/
theorem readOn_eq {bytes : List UInt8} {es : List Entry} (carries : Carries bytes es) (h : History)
    {r : Reader} (remains : Remains r.source bytes) : h.readOn r = h.readAll es := by
  induction es generalizing bytes h r with
  | nil =>
    rw [carries.eq_nil] at remains
    obtain ⟨r', next⟩ := next_of_nil remains
    exact readOn_end h next
  | cons e es ih =>
    obtain ⟨long, reads, rest⟩ := carries.uncons
    obtain ⟨r', next, remains'⟩ := next_of_uncons remains long reads
    rw [readOn_entry h next, readAll]
    rcases h.push e with ⟨answer, h'⟩
    cases answer with
    | ok _ => exact ih rest h' remains'
    | error _ => rfl

theorem ofBytes_eq {bytes : List UInt8} {es : List Entry} (carries : Carries bytes es) :
    ofBytes bytes = readAll {} es := readOn_eq carries {} (.inl rfl)

end History

end AccessTrace
