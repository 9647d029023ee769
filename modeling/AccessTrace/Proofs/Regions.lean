import Mathlib
import AccessTrace.Bytes.Lemmas
import AccessTrace.Entry.Lemmas

/-!
# Reading back what was written

Bytes laid over an array are found where they were put and all others are as before. A word is
read from the bytes that it covers and from no others, and an entry from the words of its record.
-/

namespace AccessTrace

theorem getElem?_writeAt_outside {bytes : Array UInt8} {bs : List UInt8} {offset k : Nat}
    (outside : k < offset ∨ offset + bs.length ≤ k) :
    (writeAt bytes offset bs)[k]? = bytes[k]? := by
  induction bs generalizing bytes offset with
  | nil => rfl
  | cons b bs ih =>
    rw [List.length_cons] at outside
    rw [writeAt, ih (by omega)]
    exact Array.getElem?_setIfInBounds_ne (by omega)

theorem getElem?_writeAt_inside {bytes : Array UInt8} {bs : List UInt8} {offset k : Nat}
    (room : offset + bs.length ≤ bytes.size) (bound : k < bs.length) :
    (writeAt bytes offset bs)[offset + k]? = bs[k]? := by
  induction bs generalizing bytes offset k with
  | nil => simp at bound
  | cons b bs ih =>
    rw [List.length_cons] at room bound
    cases k with
    | zero =>
      rw [writeAt, getElem?_writeAt_outside (.inl (by omega)), Nat.add_zero,
        Array.getElem?_setIfInBounds_self_of_lt (by omega)]
      rfl
    | succ k =>
      have moved :
          (writeAt (bytes.setIfInBounds offset b) (offset + 1) bs)[offset + 1 + k]? = bs[k]? :=
        ih (by rw [Array.size_setIfInBounds]; omega) (by omega)
      rw [writeAt, show offset + (k + 1) = offset + 1 + k by omega, moved]
      rfl

namespace Entry

/-- A word depends on the bytes that it covers alone. -/
theorem wordAt_congr {l l' : List UInt8} {offset offset' width : Nat}
    (same : ∀ k < width, l[offset + k]? = l'[offset' + k]?) :
    wordAt l offset width = wordAt l' offset' width := by
  unfold wordAt
  congr 1
  apply List.ext_getElem?
  intro k
  by_cases hk : k < width
  · rw [List.getElem?_take_of_lt hk, List.getElem?_take_of_lt hk, List.getElem?_drop,
      List.getElem?_drop, same k hk]
  · rw [List.getElem?_eq_none (by rw [List.length_take]; omega),
      List.getElem?_eq_none (by rw [List.length_take]; omega)]

theorem wordAt_drop (l : List UInt8) (p offset width : Nat) :
    wordAt (l.drop p) offset width = wordAt l (p + offset) width := by
  rw [wordAt, List.drop_drop, wordAt]

theorem wordAt_writeAt_self {bytes : Array UInt8} {offset width n : Nat}
    (room : offset + width ≤ bytes.size) :
    wordAt (writeAt bytes offset (toLittleEndian width n)).toList offset width =
      n % 256 ^ width := by
  have written := wordAt_append [] [] width n
  rw [List.append_nil, List.nil_append, List.length_nil] at written
  rw [← written]
  apply wordAt_congr
  intro k hk
  rw [Array.getElem?_toList, Nat.zero_add]
  exact getElem?_writeAt_inside (by rw [length_toLittleEndian]; exact room)
    (by rw [length_toLittleEndian]; exact hk)

theorem wordAt_writeAt_outside {bytes : Array UInt8} {bs : List UInt8} {start offset width : Nat}
    (apart : offset + width ≤ start ∨ start + bs.length ≤ offset) :
    wordAt (writeAt bytes start bs).toList offset width = wordAt bytes.toList offset width := by
  apply wordAt_congr
  intro k hk
  rw [Array.getElem?_toList, Array.getElem?_toList, getElem?_writeAt_outside (by omega)]

/-- An entry depends on the bytes of its record alone. -/
theorem ofBytes_congr {l l' : List UInt8} (same : ∀ k < byteSize, l[k]? = l'[k]?) :
    ofBytes l = ofBytes l' := by
  have word : ∀ offset width, offset + width ≤ byteSize →
      wordAt l offset width = wordAt l' offset width := by
    intro offset width inside
    exact wordAt_congr fun k hk => same _ (by omega)
  unfold ofBytes
  rw [word kindOffset 2 (by decide), word sizeOffset 2 (by decide), word opcodeOffset 2 (by decide),
    word addrOffset 8 (by decide)]

/-- The entry of a record, from its words. -/
theorem ofBytes_of_words {l : List UInt8} {e : Entry}
    (kind : wordAt l kindOffset 2 = e.kind.code.toNat) (size : wordAt l sizeOffset 2 = e.size.toNat)
    (opcode : e.kind = .fetch → wordAt l opcodeOffset 2 = e.opcode.toNat)
    (other : e.kind ≠ .fetch → e.opcode = 0) (addr : wordAt l addrOffset 8 = e.addr.toNat) :
    ofBytes l = .ok e := by
  unfold ofBytes
  simp only [kind, size, addr, UInt16.ofNat_toNat, UInt64.ofNat_toNat, Kind.ofCode?_code]
  obtain ⟨k, s, o, a⟩ := e
  by_cases fetch : k = .fetch
  · simp only [fetch, if_true, opcode fetch, UInt16.ofNat_toNat]
  · have zero : o = 0 := other fetch
    simp only [fetch, if_false, zero]

end Entry

end AccessTrace
