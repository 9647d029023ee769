import Mathlib
import AccessTrace.Proofs.Regions

/-!
# Records and entries

A record says an entry when its words are those of the entry (`ofBytes_eq_ok_iff`); the opcode
counts for fetches alone. Laying the entry of a record over this record again leaves every byte that
is read as it is and clears the others (`getElem?_encoded`), so that records and entries correspond
up to the bytes that are never read (`codec_exact`).
-/

namespace AccessTrace.Entry

namespace Kind

/-- The numbers up to four are those of the kinds. -/
theorem ofCode?_eq_none_iff {code : UInt16} : ofCode? code = none ↔ 4 < code.toNat := by
  constructor
  · intro unknown
    by_contra small
    have cases : code = 0 ∨ code = 1 ∨ code = 2 ∨ code = 3 ∨ code = 4 := by
      simp only [← UInt16.toNat_inj, UInt16.toNat_ofNat]
      omega
    rcases cases with rfl | rfl | rfl | rfl | rfl <;> simp [ofCode?] at unknown
  · intro large
    unfold ofCode?
    split
    all_goals first | exact absurd large (by decide) | rfl

theorem code_of_ofCode? {code : UInt16} {kind : Kind} (known : ofCode? code = some kind) :
    kind.code = code := by
  unfold ofCode? at known
  split at known
  all_goals cases known <;> rfl

theorem code_injective {kind kind' : Kind} (same : kind.code = kind'.code) : kind = kind' := by
  have read := congrArg ofCode? same
  rw [ofCode?_code, ofCode?_code] at read
  exact Option.some.inj read

end Kind

theorem wordAt_lt (bytes : List UInt8) (offset width : Nat) :
    wordAt bytes offset width < 256 ^ width := by
  have small := ofLittleEndian_lt ((bytes.drop offset).take width)
  have short : ((bytes.drop offset).take width).length ≤ width := List.length_take_le _ _
  exact lt_of_lt_of_le small (Nat.pow_le_pow_right (by decide) short)

/-- Writing a word that was read gives the bytes that it was read from. -/
theorem toLittleEndian_wordAt {bytes : List UInt8} {offset width : Nat}
    (room : offset + width ≤ bytes.length) :
    toLittleEndian width (wordAt bytes offset width) = (bytes.drop offset).take width := by
  have length : ((bytes.drop offset).take width).length = width := by
    rw [List.length_take, List.length_drop]
    omega
  have written := toLittleEndian_ofLittleEndian ((bytes.drop offset).take width)
  rw [length] at written
  exact written

/-- A record is rejected for its type code alone, exactly if this is above four. -/
theorem ofBytes_unknown_iff {bytes : List UInt8} {error : StreamError} :
    ofBytes bytes = .error error ↔
      4 < wordAt bytes kindOffset 2 ∧
        error = .unknownKind (UInt16.ofNat (wordAt bytes kindOffset 2)) := by
  have small : wordAt bytes kindOffset 2 < 256 ^ 2 := wordAt_lt bytes kindOffset 2
  have code : (UInt16.ofNat (wordAt bytes kindOffset 2)).toNat = wordAt bytes kindOffset 2 :=
    UInt16.toNat_ofNat_of_lt' small
  unfold ofBytes
  cases known : Kind.ofCode? (UInt16.ofNat (wordAt bytes kindOffset 2)) with
  | none =>
    have large := Kind.ofCode?_eq_none_iff.1 known
    rw [code] at large
    simp [known, large, eq_comm]
  | some kind =>
    have known' : ¬Kind.ofCode? (UInt16.ofNat (wordAt bytes kindOffset 2)) = none := by
      simp [known]
    rw [Kind.ofCode?_eq_none_iff, code] at known'
    simp [known, known']

/-- A record says an entry when its words are those of the entry. -/
theorem ofBytes_eq_ok_iff {bytes : List UInt8} {e : Entry} :
    ofBytes bytes = .ok e ↔
      wordAt bytes kindOffset 2 = e.kind.code.toNat ∧ wordAt bytes sizeOffset 2 = e.size.toNat ∧
        wordAt bytes addrOffset 8 = e.addr.toNat ∧
        (e.kind = .fetch → wordAt bytes opcodeOffset 2 = e.opcode.toNat) ∧
        (e.kind ≠ .fetch → e.opcode = 0) := by
  constructor
  · intro reads
    have word : ∀ offset, (UInt16.ofNat (wordAt bytes offset 2)).toNat = wordAt bytes offset 2 :=
      fun offset => UInt16.toNat_ofNat_of_lt' (wordAt_lt bytes offset 2)
    have addr : (UInt64.ofNat (wordAt bytes addrOffset 8)).toNat = wordAt bytes addrOffset 8 :=
      UInt64.toNat_ofNat_of_lt' (wordAt_lt bytes addrOffset 8)
    unfold ofBytes at reads
    cases known : Kind.ofCode? (UInt16.ofNat (wordAt bytes kindOffset 2)) with
    | none => simp [known] at reads
    | some kind =>
      simp only [known, Except.ok.injEq] at reads
      subst reads
      refine ⟨?_, (word _).symm, addr.symm, ?_, ?_⟩
      · rw [Kind.code_of_ofCode? known, word]
      · intro fetch
        show _ = (if kind = .fetch then _ else _ : UInt16).toNat
        rw [if_pos fetch, word]
      · intro other
        exact if_neg other
  · rintro ⟨kind, size, addr, opcode, other⟩
    exact ofBytes_of_words kind size opcode other addr

theorem read?_of_long {bytes : List UInt8} (long : byteSize ≤ bytes.length) :
    read? bytes = some (ofBytes bytes) := by
  rw [read?, if_neg (by omega)]

theorem encodeOver?_of_long (e : Entry) {bytes : List UInt8} (long : byteSize ≤ bytes.length) :
    encodeOver? e bytes = some (e.toBytes ++ bytes.drop byteSize) := by
  rw [encodeOver?, if_neg (by omega)]

/-- The words of an entry that a record says, written again, are the bytes of the record that are
read. -/
theorem toBytes_of_reads {bytes : List UInt8} {e : Entry} (long : byteSize ≤ bytes.length)
    (reads : ofBytes bytes = .ok e) :
    e.toBytes = bytes.take 4 ++
      (if e.kind = .fetch then (bytes.drop 4).take 2 else [0, 0]) ++ [0, 0] ++
      (bytes.drop 8).take 8 := by
  obtain ⟨kind, size, addr, opcode, other⟩ := ofBytes_eq_ok_iff.1 reads
  simp only [byteSize] at long
  have front : toLittleEndian 2 e.kind.code.toNat ++ toLittleEndian 2 e.size.toNat =
      bytes.take 4 := by
    rw [← kind, ← size, toLittleEndian_wordAt (by simp only [kindOffset]; omega),
      toLittleEndian_wordAt (by simp only [sizeOffset]; omega)]
    exact (List.take_add (i := 2) (j := 2)).symm
  have middle : toLittleEndian 2 e.opcode.toNat =
      if e.kind = .fetch then (bytes.drop 4).take 2 else [0, 0] := by
    split
    · rename_i fetch
      rw [← opcode fetch, toLittleEndian_wordAt (by simp only [opcodeOffset]; omega)]
      rfl
    · rename_i fetch
      rw [other fetch]
      rfl
  rw [toBytes, front, middle, ← addr, toLittleEndian_wordAt (by simp only [addrOffset]; omega)]
  rfl

/-- The bytes of a record of which two pairs were replaced. -/
theorem getElem?_replaced {bytes middle : List UInt8} (long : byteSize ≤ bytes.length)
    (pair : middle.length = 2) (i : Nat) :
    (bytes.take 4 ++ middle ++ [0, 0] ++ (bytes.drop 8).take 8 ++ bytes.drop byteSize)[i]? =
      if i = 6 ∨ i = 7 then some 0 else if i = 4 ∨ i = 5 then middle[i - 4]? else bytes[i]? := by
  simp only [byteSize] at *
  have front : (bytes.take 4).length = 4 := by
    rw [List.length_take]
    omega
  have back : ((bytes.drop 8).take 8).length = 8 := by
    rw [List.length_take, List.length_drop]
    omega
  simp only [List.getElem?_append, List.length_append, front, pair, back, List.length_cons,
    List.length_nil, List.getElem?_drop]
  have region : i < 4 ∨ (i = 4 ∨ i = 5) ∨ i = 6 ∨ i = 7 ∨ (8 ≤ i ∧ i < 16) ∨ 16 ≤ i := by omega
  rcases region with low | pair | rfl | rfl | ⟨from8, to16⟩ | behind
  · rw [if_pos (by omega), if_pos (by omega), if_pos (by omega), if_pos low,
      List.getElem?_take_of_lt low, if_neg (by omega), if_neg (by omega)]
  · rw [if_pos (by omega), if_pos (by omega), if_pos (by omega), if_neg (by omega),
      if_neg (by omega), if_pos pair]
  · rfl
  · rfl
  · rw [if_pos (by omega), if_neg (by omega), List.getElem?_take_of_lt (by omega),
      List.getElem?_drop, if_neg (by omega), if_neg (by omega)]
    congr 1
    omega
  · rw [if_neg (by omega), if_neg (by omega), if_neg (by omega)]
    congr 1
    omega

/-- The entry of a record laid over this record clears the bytes that are never read and changes no
other byte. -/
theorem getElem?_encoded {bytes : List UInt8} {e : Entry} (long : byteSize ≤ bytes.length)
    (reads : ofBytes bytes = .ok e) (i : Nat) :
    (e.toBytes ++ bytes.drop byteSize)[i]? =
      if i = 6 ∨ i = 7 ∨ e.kind ≠ .fetch ∧ (i = 4 ∨ i = 5) then some 0 else bytes[i]? := by
  rw [toBytes_of_reads long reads]
  by_cases fetch : e.kind = .fetch
  · have pair : ((bytes.drop 4).take 2).length = 2 := by
      simp only [byteSize] at long
      rw [List.length_take, List.length_drop]
      omega
    rw [if_pos fetch, getElem?_replaced long pair]
    by_cases opcode : i = 4 ∨ i = 5
    · have kept : ¬(i = 6 ∨ i = 7 ∨ e.kind ≠ .fetch ∧ (i = 4 ∨ i = 5)) := by
        rintro (six | seven | ⟨other, -⟩)
        · omega
        · omega
        · exact other fetch
      rw [if_neg (by omega), if_pos opcode, List.getElem?_take_of_lt (by omega), List.getElem?_drop,
        if_neg kept]
      congr 1
      omega
    · simp only [fetch, opcode, if_false, ne_eq, not_true_eq_false, false_and, or_false]
  · rw [if_neg fetch, getElem?_replaced long rfl]
    by_cases opcode : i = 4 ∨ i = 5
    · rw [if_neg (by omega), if_pos opcode, if_pos (.inr (.inr ⟨fetch, opcode⟩))]
      rcases opcode with rfl | rfl <;> rfl
    · simp only [opcode, if_false, and_false, or_false]

/-- The record that says an entry in the bytes that are read is read alike. -/
theorem ofBytes_encoded {bytes : List UInt8} {e : Entry} (reads : ofBytes bytes = .ok e)
    (rest : List UInt8) : ofBytes (e.toBytes ++ rest) = .ok e := by
  obtain ⟨-, -, -, -, other⟩ := ofBytes_eq_ok_iff.1 reads
  have same : e.normal = e := by
    unfold normal
    split
    · rfl
    · rename_i fetch
      rw [← other fetch]
  rw [ofBytes_toBytes, same]

/-- Two records say one entry exactly if they agree in the words that are read. -/
theorem ofBytes_agree_iff {a b : List UInt8} :
    (∃ e, ofBytes a = .ok e ∧ ofBytes b = .ok e) ↔
      wordAt a kindOffset 2 ≤ 4 ∧ wordAt a kindOffset 2 = wordAt b kindOffset 2 ∧
        wordAt a sizeOffset 2 = wordAt b sizeOffset 2 ∧
        wordAt a addrOffset 8 = wordAt b addrOffset 8 ∧
        (wordAt a kindOffset 2 = Kind.fetch.code.toNat →
          wordAt a opcodeOffset 2 = wordAt b opcodeOffset 2) := by
  have fetch_iff : ∀ {bytes : List UInt8} {e : Entry}, ofBytes bytes = .ok e →
      (e.kind = .fetch ↔ wordAt bytes kindOffset 2 = Kind.fetch.code.toNat) := by
    intro bytes e reads
    rw [(ofBytes_eq_ok_iff.1 reads).1, UInt16.toNat_inj]
    exact ⟨congrArg Kind.code, Kind.code_injective⟩
  constructor
  · rintro ⟨e, first, second⟩
    obtain ⟨kind, size, addr, opcode, -⟩ := ofBytes_eq_ok_iff.1 first
    obtain ⟨kind', size', addr', opcode', -⟩ := ofBytes_eq_ok_iff.1 second
    refine ⟨?_, by omega, by omega, by omega, fun fetch => ?_⟩
    · by_contra large
      have unknown := ofBytes_unknown_iff.2 ⟨Nat.lt_of_not_le large, rfl⟩
      rw [first] at unknown
      cases unknown
    · have fetch := (fetch_iff first).2 fetch
      rw [opcode fetch, opcode' fetch]
  · rintro ⟨known, kind, size, addr, opcode⟩
    cases first : ofBytes a with
    | error error =>
      have unknown := (ofBytes_unknown_iff.1 first).1
      omega
    | ok e =>
      refine ⟨e, rfl, ?_⟩
      obtain ⟨kind', size', addr', opcode', other⟩ := ofBytes_eq_ok_iff.1 first
      apply ofBytes_of_words
      · omega
      · omega
      · intro fetch
        rw [← opcode ((fetch_iff first).1 fetch), opcode' fetch]
      · exact other
      · omega

/-- Entries and records correspond up to the bytes that are never read. An entry is read back from
its record, without an opcode unless it is a fetch. A record is rejected exactly if its type code is
above four; from every other one an entry is read that, laid over the record again, clears the bytes
that are never read, changes no other and is read again, which changes nothing more. Two records say
one entry exactly if they agree in the words that are read. -/
theorem codec_exact :
    (∀ e : Entry, read? e.toBytes =
      some (.ok { e with opcode := if e.kind = .fetch then e.opcode else 0 })) ∧
    (∀ tid, read? (thread tid).toBytes = some (.ok (thread tid))) ∧
    (∀ pid, read? (process pid).toBytes = some (.ok (process pid))) ∧
    (∀ size addr, read? (read size addr).toBytes = some (.ok (read size addr))) ∧
    (∀ size addr, read? (write size addr).toBytes = some (.ok (write size addr))) ∧
    (∀ opcode length pc, read? (fetch opcode length pc).toBytes =
      some (.ok (fetch opcode length pc))) ∧
    (∀ bytes : List UInt8, byteSize ≤ bytes.length →
      (∀ code, read? bytes = some (.error (.unknownKind code)) ↔
        code.toNat = wordAt bytes kindOffset 2 ∧ 4 < wordAt bytes kindOffset 2) ∧
      (wordAt bytes kindOffset 2 ≤ 4 → ∃ e out, read? bytes = some (.ok e) ∧
        e.kind.code.toNat = wordAt bytes kindOffset 2 ∧ encodeOver? e bytes = some out ∧
        (∀ i, out[i]? = if i = 6 ∨ i = 7 ∨ e.kind ≠ .fetch ∧ (i = 4 ∨ i = 5) then some 0
          else bytes[i]?) ∧
        read? out = some (.ok e) ∧ encodeOver? e out = some out)) ∧
    (∀ a b : List UInt8, byteSize ≤ a.length → byteSize ≤ b.length →
      ((∃ e, read? a = some (.ok e) ∧ read? b = some (.ok e)) ↔
        wordAt a kindOffset 2 ≤ 4 ∧ wordAt a kindOffset 2 = wordAt b kindOffset 2 ∧
          wordAt a sizeOffset 2 = wordAt b sizeOffset 2 ∧
          wordAt a addrOffset 8 = wordAt b addrOffset 8 ∧
          (wordAt a kindOffset 2 = Kind.fetch.code.toNat →
            wordAt a opcodeOffset 2 = wordAt b opcodeOffset 2))) := by
  have back : ∀ e : Entry, read? e.toBytes = some (.ok e.normal) := by
    intro e
    have reads := ofBytes_toBytes e []
    rw [List.append_nil] at reads
    rw [read?_of_long (Nat.le_of_eq (length_toBytes e).symm), reads]
  refine ⟨back, fun tid => back _, fun pid => back _, fun size addr => back _,
    fun size addr => back _, fun opcode length pc => back _, fun bytes long => ⟨?_, ?_⟩, ?_⟩
  · intro code
    have small : wordAt bytes kindOffset 2 < 256 ^ 2 := wordAt_lt bytes kindOffset 2
    rw [read?_of_long long, Option.some.injEq, ofBytes_unknown_iff, StreamError.unknownKind.injEq,
      ← UInt16.toNat_inj, UInt16.toNat_ofNat_of_lt' small, and_comm]
  · intro known
    cases reads : ofBytes bytes with
    | error error =>
      have unknown := (ofBytes_unknown_iff.1 reads).1
      omega
    | ok e =>
      have long' : byteSize ≤ (e.toBytes ++ bytes.drop byteSize).length := by
        rw [List.length_append, length_toBytes]
        omega
      refine ⟨e, _, by rw [read?_of_long long, reads], (ofBytes_eq_ok_iff.1 reads).1.symm,
        encodeOver?_of_long e long, getElem?_encoded long reads, ?_, ?_⟩
      · rw [read?_of_long long', ofBytes_encoded reads]
      · rw [encodeOver?_of_long e long', List.drop_left' (length_toBytes e)]
  · intro a b long long'
    simp only [read?_of_long long, read?_of_long long', Option.some.injEq]
    exact ofBytes_agree_iff

/-- The record of a write in a slot that held a fetch before, with one byte behind it. -/
def reusedSlot : List UInt8 :=
  [1, 0, 8, 0, 0x0f, 0x0b, 0xaa, 0xbb, 0x00, 0x10, 0, 0, 0, 0, 0, 0, 0xcc]

theorem codec_exact_reusedSlot :
    ∃ e out, read? reusedSlot = some (.ok e) ∧ encodeOver? e reusedSlot = some out ∧
      out = [1, 0, 8, 0, 0, 0, 0, 0, 0x00, 0x10, 0, 0, 0, 0, 0, 0, 0xcc] ∧
      read? out = some (.ok e) := by
  obtain ⟨-, -, -, -, -, -, records, -⟩ := codec_exact
  obtain ⟨e, out, reads, code, encoded, bytes, again, -⟩ :=
    (records reusedSlot (by decide)).2 (by decide)
  have other : e.kind ≠ .fetch := by
    intro fetch
    rw [fetch] at code
    exact absurd code (by decide)
  refine ⟨e, out, reads, encoded, List.ext_getElem? fun i => ?_, again⟩
  rw [bytes i]
  by_cases short : i < 17
  · simp only [ne_eq, other, not_false_eq_true, true_and]
    interval_cases i <;> rfl
  · have past : ∀ l : List UInt8, l.length = 17 → l[i]? = none :=
      fun l length => List.getElem?_eq_none (by omega)
    rw [if_neg (by omega), past _ rfl, past _ rfl]

end AccessTrace.Entry
