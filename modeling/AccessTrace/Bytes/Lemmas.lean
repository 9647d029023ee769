import Mathlib
import AccessTrace.Bytes

/-!
# Words and their bytes

`ofLittleEndian_toLittleEndian` and `toLittleEndian_ofLittleEndian` say that writing a word and
reading it are inverse, for the numbers that so many bytes can hold.
-/

namespace AccessTrace

theorem ofLittleEndian_toLittleEndian (w n : Nat) :
    ofLittleEndian (toLittleEndian w n) = n % 256 ^ w := by
  induction w generalizing n with
  | zero => simp [toLittleEndian, ofLittleEndian, Nat.mod_one]
  | succ w ih =>
    have h : (UInt8.ofNat (n % 256)).toNat = n % 256 :=
      UInt8.toNat_ofNat_of_lt' (Nat.mod_lt n (by decide))
    rw [toLittleEndian, ofLittleEndian, ih, h, pow_succ', Nat.mod_mul]

theorem ofLittleEndian_lt (bs : List UInt8) : ofLittleEndian bs < 256 ^ bs.length := by
  induction bs with
  | nil => simp [ofLittleEndian]
  | cons b bs ih =>
    have := b.toNat_lt
    rw [ofLittleEndian, List.length_cons, pow_succ']
    omega

theorem toLittleEndian_ofLittleEndian (bs : List UInt8) :
    toLittleEndian bs.length (ofLittleEndian bs) = bs := by
  induction bs with
  | nil => rfl
  | cons b bs ih =>
    have hb := b.toNat_lt
    have low : (b.toNat + 256 * ofLittleEndian bs) % 256 = b.toNat := by omega
    have high : (b.toNat + 256 * ofLittleEndian bs) / 256 = ofLittleEndian bs := by omega
    simp only [List.length_cons, ofLittleEndian, toLittleEndian, low, high, UInt8.ofNat_toNat, ih]

end AccessTrace
