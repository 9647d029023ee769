/-!
# Little-endian bytes

A word of `w` bytes is the list of its base-256 digits, least significant first. `writeAt` lays
bytes over an array and never changes its size (`size_writeAt`).
-/

namespace AccessTrace

/-- The `w` low bytes of `n`, least significant first. -/
def toLittleEndian : (w n : Nat) → List UInt8
  | 0, _ => []
  | w + 1, n => UInt8.ofNat (n % 256) :: toLittleEndian w (n / 256)

/-- The number whose bytes are listed, least significant first. -/
def ofLittleEndian : List UInt8 → Nat
  | [] => 0
  | b :: bs => b.toNat + 256 * ofLittleEndian bs

@[simp] theorem length_toLittleEndian (w n : Nat) : (toLittleEndian w n).length = w := by
  induction w generalizing n with
  | zero => rfl
  | succ w ih => simp [toLittleEndian, ih]

/-- Replaces the bytes from `offset` on by `bs`; whatever lies outside the array is dropped. -/
def writeAt (bytes : Array UInt8) (offset : Nat) : List UInt8 → Array UInt8
  | [] => bytes
  | b :: bs => writeAt (bytes.setIfInBounds offset b) (offset + 1) bs

@[simp] theorem size_writeAt (bytes : Array UInt8) (offset : Nat) (bs : List UInt8) :
    (writeAt bytes offset bs).size = bytes.size := by
  induction bs generalizing bytes offset with
  | nil => rfl
  | cons b bs ih => simp [writeAt, ih]

/-- The first `count` groups of `width` bytes of `bs`. -/
def groups (width : Nat) : (count : Nat) → List UInt8 → List (List UInt8)
  | 0, _ => []
  | count + 1, bs => bs.take width :: groups width count (bs.drop width)

@[simp] theorem length_groups (width count : Nat) (bs : List UInt8) :
    (groups width count bs).length = count := by
  induction count generalizing bs with
  | zero => rfl
  | succ count ih => simp [groups, ih]

end AccessTrace
