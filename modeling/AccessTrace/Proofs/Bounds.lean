import Mathlib
import AccessTrace.Proofs.Dealings

/-!
# Staying inside a buffer

Whatever is done to a buffer and however often it is delivered, it has the slots that it was made
with (`capacity_useAll`), so that all its readings and writings lie inside (`inside`) and whatever
does not fit is refused (`Checked`). Where pointers are only moved to the first bytes of slots, the
pointer is always at one (`aligned_useAll`).
-/

namespace AccessTrace

/-- The sum of two machine words, unless it is none itself. -/
def checkedAdd? (m n : Nat) : Option Nat := if m + n < wordLimit then some (m + n) else none

/-- The difference of two machine words, unless it is none itself. -/
def checkedSub? (m n : Nat) : Option Nat := if n ≤ m then some (m - n) else none

/-- The bytes from `start` up to `stop`, unless some of them do not exist or the end is before the
start. -/
def slice? (bytes : Array UInt8) (start stop : Nat) : Option (List UInt8) :=
  if start ≤ stop ∧ stop ≤ bytes.size then some (bytes.extract start stop).toList else none

namespace Buffer

/-- The bytes that a store of `width` bytes at `offset` replaces. -/
def slot? (b : Buffer) (offset width : Nat) : Option (List UInt8) :=
  (checkedAdd? offset width).bind (slice? b.bytes offset)

/-- The sum does not wrap where the bytes fit, as the end of the buffer is a machine word. -/
theorem isSome_slot?_iff {b : Buffer} {offset width : Nat} :
    (b.slot? offset width).isSome = true ↔ offset + width ≤ b.byteCapacity := by
  have limit := b.byteCapacity_lt_wordLimit
  have size : b.bytes.size = b.byteCapacity := b.size_bytes
  unfold slot? checkedAdd?
  split
  · simp [slice?, size]
  · simp
    omega

/-- `b` is `a` with the bytes `bs` at `offset` and the pointer at `ptr`. -/
structure Put (a b : Buffer) (offset : Nat) (bs : List UInt8) (ptr : Nat) : Prop where
  tid : b.tid = a.tid
  capacity : b.capacity = a.capacity
  refs : b.refs = a.refs
  registered : b.registered = a.registered
  phase : b.phase = a.phase
  attached : b.attached = a.attached
  ptr : b.ptr = ptr
  inside : ∀ k < bs.length, b.bytes[offset + k]? = bs[k]?
  outside : ∀ k, k < offset ∨ offset + bs.length ≤ k → b.bytes[k]? = a.bytes[k]?

theorem put_overwrite (a : Buffer) {offset : Nat} {bs : List UInt8}
    (fits : offset + bs.length ≤ a.byteCapacity) :
    a.Put (a.overwrite offset bs) offset bs a.ptr where
  tid := rfl
  capacity := rfl
  refs := rfl
  registered := rfl
  phase := rfl
  attached := rfl
  ptr := rfl
  inside := fun _ bound => getElem?_writeAt_inside (by rw [a.size_bytes]; exact fits) bound
  outside := fun _ apart => getElem?_writeAt_outside apart

/-- An attempt succeeds exactly if it `fits`, and the buffer is then as `done` says. If it fails,
the error names the `offset` that it was about and the buffer is as before. -/
structure Checked (a : Buffer) (offset : Nat) (fits : Prop)
    (attempt : Except ResourceError Unit × Buffer) (done : Buffer → Prop) : Prop where
  ok_iff : attempt.1 = .ok () ↔ fits
  done : attempt.1 = .ok () → done attempt.2
  refused : ∀ e, attempt.1 = .error e → e = .overflow offset a.byteCapacity ∧ attempt.2 = a

theorem Checked.of_cases {a : Buffer} {offset : Nat} {fits : Prop}
    {attempt : Except ResourceError Unit × Buffer} {done : Buffer → Prop}
    (does : fits → ∃ b, attempt = (.ok (), b) ∧ done b)
    (refuses : ¬fits → attempt = (.error (.overflow offset a.byteCapacity), a)) :
    a.Checked offset fits attempt done := by
  by_cases now : fits
  · obtain ⟨b, rfl, after⟩ := does now
    exact ⟨by simp [now], fun _ => after, by simp⟩
  · rw [refuses now]
    exact ⟨by simp [now], by simp, by simp⟩

theorem checked_store (a : Buffer) (offset : Nat) (bs : List UInt8) :
    a.Checked offset (offset + bs.length ≤ a.byteCapacity) (a.store offset bs)
      (a.Put · offset bs a.ptr) := by
  apply Checked.of_cases
  · intro fits
    exact ⟨_, if_pos fits, put_overwrite a fits⟩
  · intro outside
    exact if_neg outside

theorem checked_setPtr (a : Buffer) (ptr : Nat) :
    a.Checked ptr (headerBytes ≤ ptr ∧ ptr ≤ a.byteCapacity) (a.setPtr ptr) (a.Put · 0 [] ptr) := by
  apply Checked.of_cases
  · intro fits
    exact ⟨_, dif_pos fits, rfl, rfl, rfl, rfl, rfl, rfl, rfl, by simp, fun _ _ => rfl⟩
  · intro outside
    exact dif_neg outside

theorem checked_push (a : Buffer) (e : Entry) :
    a.Checked a.ptr (a.ptr + Entry.byteSize ≤ a.byteCapacity) (a.push e)
      (a.Put · a.ptr e.toBytes (a.ptr + Entry.byteSize)) := by
  apply Checked.of_cases
  · intro fits
    have room : a.ptr + e.toBytes.length ≤ a.byteCapacity := by simpa using fits
    have laid := put_overwrite a room
    exact ⟨_, dif_pos fits, rfl, rfl, rfl, rfl, rfl, rfl, rfl, laid.inside, laid.outside⟩
  · intro full
    exact dif_neg full

/-- What holds of a buffer of `capacity` slots: it ends where they end, the pointer is behind the
header slot and not behind the end, what is read lies inside, and of the writings exactly those that
do not are refused. -/
structure Inside (b : Buffer) (capacity : Nat) : Prop where
  size : b.bytes.size = 16 * capacity
  room : 32 ≤ 16 * capacity
  header_le_ptr : 16 ≤ b.ptr
  ptr_le : b.ptr ≤ 16 * capacity
  pendingCount : checkedSub? b.occupied 1 = some b.pendingCount
  length_pending : b.pending.length = b.pendingCount
  occupiedBytes : slice? b.bytes 0 b.ptr = some b.occupiedBytes
  pendingBytes : slice? b.bytes 16 b.ptr = some b.pendingBytes
  headerSlot : (slice? b.bytes 0 16).isSome = true
  header : b.Put b.writeHeader 0 b.header.toBytes b.ptr
  slot : ∀ offset width, (b.slot? offset width).isSome = true ↔ offset + width ≤ 16 * capacity
  store16 : ∀ offset value, b.Checked offset (offset + 2 ≤ 16 * capacity) (b.store16 offset value)
    (b.Put · offset (toLittleEndian 2 value.toNat) b.ptr)
  store64 : ∀ offset value, b.Checked offset (offset + 8 ≤ 16 * capacity) (b.store64 offset value)
    (b.Put · offset (toLittleEndian 8 value.toNat) b.ptr)
  setPtr : ∀ ptr, b.Checked ptr (16 ≤ ptr ∧ ptr ≤ 16 * capacity) (b.setPtr ptr) (b.Put · 0 [] ptr)
  push : ∀ e, b.Checked b.ptr (b.ptr + 16 ≤ 16 * capacity) (b.push e)
    (b.Put · b.ptr e.toBytes (b.ptr + 16))

theorem one_le_occupied (b : Buffer) : 1 ≤ b.occupied := by
  have header := b.header_le_ptr
  unfold occupied
  simp only [headerBytes, Entry.byteSize] at *
  omega

theorem byteCapacity_eq (b : Buffer) : b.byteCapacity = 16 * b.capacity := Nat.mul_comm _ _

theorem inside (b : Buffer) : b.Inside b.capacity := by
  have cap := b.byteCapacity_eq
  have size : b.bytes.size = 16 * b.capacity := b.size_bytes.trans cap
  have two := b.two_le_capacity
  have header : 16 ≤ b.ptr := b.header_le_ptr
  have below : b.ptr ≤ 16 * b.capacity := cap ▸ b.ptr_le
  constructor
  case size => exact size
  case room => omega
  case header_le_ptr => exact header
  case ptr_le => exact below
  case pendingCount => exact if_pos b.one_le_occupied
  case length_pending =>
    rw [length_pending, Buffer.pendingCount, occupied]
    simp only [headerBytes, Entry.byteSize]
    omega
  case occupiedBytes => exact if_pos (by omega)
  case pendingBytes => exact if_pos (by omega)
  case headerSlot =>
    simp [slice?]
    omega
  case header =>
    apply put_overwrite
    simp [Entry.byteSize]
    omega
  case slot =>
    intro offset width
    rw [isSome_slot?_iff, cap]
  case store16 =>
    intro offset value
    have checked := b.checked_store offset (toLittleEndian 2 value.toNat)
    rwa [length_toLittleEndian, cap] at checked
  case store64 =>
    intro offset value
    have checked := b.checked_store offset (toLittleEndian 8 value.toNat)
    rwa [length_toLittleEndian, cap] at checked
  case setPtr =>
    intro ptr
    have checked := b.checked_setPtr ptr
    rwa [cap] at checked
  case push =>
    intro e
    have checked := b.checked_push e
    rwa [cap] at checked

/-! ## Over a whole life -/

/-- A use of a buffer: something is done to it alone, or it is delivered to a channel that may be in
any state. -/
inductive Use (σ : Type) where
  | act (action : BufferAction)
  | flush (channel : σ) (pid : UInt32) (policy : FlushPolicy)

section
variable {σ : Type}

/-- Whether a use moves the pointer to the first byte of a slot, if it is there to move it. -/
def Use.Aligned : Use σ → Prop
  | act (.setPtr ptr) => 16 ∣ ptr
  | _ => True

variable [Channel σ]

/-- Uses a buffer once. -/
def use (b : Buffer) : Use σ → Buffer
  | .act action => (action.apply b).2
  | .flush channel pid policy => (b.flush channel pid policy).2.1

/-- Uses a buffer over and over, going on after errors. -/
def useAll (b : Buffer) (uses : List (Use σ)) : Buffer := uses.foldl use b

theorem capacity_use (b : Buffer) (u : Use σ) : (b.use u).capacity = b.capacity := by
  cases u with
  | act action => exact (SameOwner.apply b action).capacity
  | flush channel pid policy =>
    have life : b.SameLife (b.flush channel pid policy).2.1 := flush_life rfl
    exact life.capacity

theorem aligned_use {b : Buffer} {u : Use σ} (steady : u.Aligned) (aligned : 16 ∣ b.ptr) :
    16 ∣ (b.use u).ptr := by
  have start : b.ptr % Entry.byteSize = 0 := Nat.mod_eq_zero_of_dvd aligned
  apply Nat.dvd_of_mod_eq_zero
  cases u with
  | flush channel pid policy => exact aligned_flush start rfl
  | act action =>
    cases action with
    | setPtr ptr =>
      have checked := b.checked_setPtr ptr
      simp only [use, BufferAction.apply]
      cases answer : (b.setPtr ptr).1 with
      | ok _ =>
        rw [(checked.done answer).ptr]
        exact Nat.mod_eq_zero_of_dvd steady
      | error e =>
        rw [(checked.refused e answer).2]
        exact start
    | addRefs count => exact start
    | markRegistered =>
      simp only [use, BufferAction.apply, markRegistered]
      split <;> exact start
    | _ => exact Session.aligned_apply trivial start

theorem capacity_useAll (b : Buffer) (uses : List (Use σ)) :
    (b.useAll uses).capacity = b.capacity := by
  induction uses generalizing b with
  | nil => rfl
  | cons u us ih => exact (ih (b.use u)).trans (b.capacity_use u)

theorem aligned_useAll {b : Buffer} {uses : List (Use σ)} (steady : ∀ u ∈ uses, u.Aligned)
    (aligned : 16 ∣ b.ptr) : 16 ∣ (b.useAll uses).ptr := by
  induction uses generalizing b with
  | nil => exact aligned
  | cons u us ih =>
    apply ih
    · intro v mem
      exact steady v (List.mem_cons_of_mem u mem)
    · exact aligned_use (steady u List.mem_cons_self) aligned

end

end Buffer

/-- A buffer that was made with `capacity` slots is always one of so many slots, whatever it was
used for. Where pointers were only moved to the first bytes of slots, the pointer is at one. -/
theorem inside_throughout {σ : Type} [Channel σ] {tid : UInt64} {capacity : Nat} {b : Buffer}
    (made : Buffer.new tid capacity = .ok b) (uses : List (Buffer.Use σ)) :
    (b.useAll uses).Inside capacity ∧
      ((∀ u ∈ uses, u.Aligned) → 16 ∣ (b.useAll uses).ptr) := by
  have unused := Buffer.unused_of_new made
  constructor
  · have inside := (b.useAll uses).inside
    rwa [Buffer.capacity_useAll, unused.capacity] at inside
  · intro steady
    apply Buffer.aligned_useAll steady
    rw [unused.empty]
    exact dvd_rfl

/-- Words are stored where they fit, where they do not quite and at the end of the address range,
more entries are appended than there are slots, and of a delivery only the first bytes get through.
-/
def Buffer.Use.mixed : List (Buffer.Use Recorder) :=
  [.act (.setPtr 32), .act (.store64 16 0x0102030405060708), .act (.store16 (2 ^ 64 - 1) 7),
    .act (.push (.read 4 0x1000) 0 3), .act (.setPtr 80), .flush { limit := some 20 } 9 .forced,
    .act (.store64 56 7), .act (.store64 57 7), .act .writeHeader, .act (.addRefs 2)]

theorem inside_throughout_mixed :
    ∃ b, Buffer.new 7 4 = .ok b ∧ (b.useAll Buffer.Use.mixed).Inside 4 ∧
      16 ∣ (b.useAll Buffer.Use.mixed).ptr ∧ (b.useAll Buffer.Use.mixed).ptr = 64 := by
  have made : Buffer.new 7 4 = .ok _ := rfl
  obtain ⟨inside, aligned⟩ := inside_throughout made Buffer.Use.mixed
  refine ⟨_, made, inside, aligned ?_, by decide +kernel⟩
  simp [Buffer.Use.mixed, Buffer.Use.Aligned]

end AccessTrace
