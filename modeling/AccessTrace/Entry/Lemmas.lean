import Mathlib
import AccessTrace.Bytes.Lemmas
import AccessTrace.Entry.Layout

/-!
# Reading a record back

`ofBytes_toBytes` says that reading the record of an entry gives the entry, up to an opcode that
only a fetch keeps. What stands behind the record does not matter.
-/

namespace AccessTrace.Entry

theorem wordAt_append (front rest : List UInt8) (width n : Nat) :
    wordAt (front ++ (toLittleEndian width n ++ rest)) front.length width = n % 256 ^ width := by
  rw [wordAt, List.drop_left, List.take_left' (length_toLittleEndian width n),
    ofLittleEndian_toLittleEndian]

theorem ofBytes_toBytes (e : Entry) (rest : List UInt8) :
    ofBytes (e.toBytes ++ rest) = .ok e.normal := by
  have hk : wordAt (e.toBytes ++ rest) kindOffset 2 = e.kind.code.toNat := by
    have h := wordAt_append [] (toLittleEndian 2 e.size.toNat ++ toLittleEndian 2 e.opcode.toNat ++
      [0, 0] ++ toLittleEndian 8 e.addr.toNat ++ rest) 2 e.kind.code.toNat
    rw [Nat.mod_eq_of_lt (show e.kind.code.toNat < 256 ^ 2 from e.kind.code.toNat_lt)] at h
    simpa [toBytes, kindOffset] using h
  have hs : wordAt (e.toBytes ++ rest) sizeOffset 2 = e.size.toNat := by
    have h := wordAt_append (toLittleEndian 2 e.kind.code.toNat)
      (toLittleEndian 2 e.opcode.toNat ++ [0, 0] ++ toLittleEndian 8 e.addr.toNat ++ rest)
      2 e.size.toNat
    rw [Nat.mod_eq_of_lt (show e.size.toNat < 256 ^ 2 from e.size.toNat_lt)] at h
    simpa [toBytes, sizeOffset] using h
  have ho : wordAt (e.toBytes ++ rest) opcodeOffset 2 = e.opcode.toNat := by
    have h := wordAt_append (toLittleEndian 2 e.kind.code.toNat ++ toLittleEndian 2 e.size.toNat)
      ([0, 0] ++ toLittleEndian 8 e.addr.toNat ++ rest) 2 e.opcode.toNat
    rw [Nat.mod_eq_of_lt (show e.opcode.toNat < 256 ^ 2 from e.opcode.toNat_lt)] at h
    simpa [toBytes, opcodeOffset] using h
  have ha : wordAt (e.toBytes ++ rest) addrOffset 8 = e.addr.toNat := by
    have h := wordAt_append (toLittleEndian 2 e.kind.code.toNat ++ toLittleEndian 2 e.size.toNat ++
      toLittleEndian 2 e.opcode.toNat ++ [0, 0]) rest 8 e.addr.toNat
    rw [Nat.mod_eq_of_lt (show e.addr.toNat < 256 ^ 8 from e.addr.toNat_lt)] at h
    simpa [toBytes, addrOffset] using h
  simp only [ofBytes, hk, hs, ho, ha, UInt16.ofNat_toNat, UInt64.ofNat_toNat, Kind.ofCode?_code]
  rfl

end AccessTrace.Entry
