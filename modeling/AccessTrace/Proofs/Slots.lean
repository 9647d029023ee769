import Mathlib
import AccessTrace.Buffer.Store
import AccessTrace.Proofs.Regions

/-!
# What a buffer holds

The pending entries of a buffer are read from its slots one by one (`pending_eq`), so that a buffer
that agrees with another below the pointer and has entries laid down from there on holds these in
addition (`pending_extended`). `Holds` is the state of a buffer into which only events went.
-/

namespace AccessTrace

theorem groups_eq (width count : Nat) (bs : List UInt8) :
    groups width count bs = (List.range count).map fun k => (bs.drop (k * width)).take width := by
  induction count generalizing bs with
  | zero => rfl
  | succ count ih =>
    rw [groups, ih, List.range_succ_eq_map, List.map_cons, List.map_map, Nat.zero_mul,
      List.drop_zero]
    congr 1
    apply List.map_congr_left
    intro k _
    rw [List.drop_drop, Function.comp_apply, Nat.succ_mul, Nat.add_comm width]

namespace Buffer

/-- What the record at a byte offset says. -/
def entryAt (b : Buffer) (offset : Nat) : Except StreamError Entry :=
  Entry.ofBytes (b.bytes.toList.drop offset)

/-- Two buffers agree in all bytes below an offset. -/
def AgreeBelow (a b : Buffer) (limit : Nat) : Prop := ∀ k < limit, b.bytes[k]? = a.bytes[k]?

theorem AgreeBelow.refl (a : Buffer) (limit : Nat) : a.AgreeBelow a limit := fun _ _ => rfl

theorem AgreeBelow.trans {a b c : Buffer} {limit : Nat} (first : a.AgreeBelow b limit)
    (second : b.AgreeBelow c limit) : a.AgreeBelow c limit :=
  fun k hk => (second k hk).trans (first k hk)

theorem AgreeBelow.entryAt {a b : Buffer} {limit offset : Nat} (agree : a.AgreeBelow b limit)
    (inside : offset + Entry.byteSize ≤ limit) : b.entryAt offset = a.entryAt offset := by
  apply Entry.ofBytes_congr
  intro k hk
  rw [List.getElem?_drop, List.getElem?_drop, Array.getElem?_toList, Array.getElem?_toList]
  exact agree _ (by omega)

theorem agreeBelow_overwrite (b : Buffer) {offset limit : Nat} (bs : List UInt8)
    (above : limit ≤ offset) : b.AgreeBelow (b.overwrite offset bs) limit :=
  fun _ hk => getElem?_writeAt_outside (.inl (by omega))

theorem length_pendingBytes (b : Buffer) : b.pendingBytes.length = b.ptr - headerBytes := by
  have inside := b.ptr_le
  have size := b.size_bytes
  rw [pendingBytes, Array.length_toList, Array.size_extract, size]
  omega

/-- The slots behind the header slot that are read end at the pointer. -/
theorem slot_le_ptr {b : Buffer} {k : Nat} (hk : k < (b.ptr - headerBytes) / Entry.byteSize) :
    headerBytes + k * Entry.byteSize + Entry.byteSize ≤ b.ptr := by
  simp only [Entry.byteSize, headerBytes] at *
  omega

theorem pending_eq (b : Buffer) :
    b.pending = (List.range ((b.ptr - headerBytes) / Entry.byteSize)).map fun k =>
      b.entryAt (headerBytes + k * Entry.byteSize) := by
  rw [pending, groups_eq, List.map_map]
  apply List.map_congr_left
  intro k hk
  have inside := slot_le_ptr (List.mem_range.1 hk)
  have room := b.ptr_le
  have size := b.size_bytes
  apply Entry.ofBytes_congr
  intro j hj
  rw [List.getElem?_take_of_lt hj, List.getElem?_drop, List.getElem?_drop, pendingBytes,
    Array.getElem?_toList, Array.getElem?_toList, Array.getElem?_extract, if_pos (by omega),
    Nat.add_assoc headerBytes]

theorem length_pending (b : Buffer) :
    b.pending.length = (b.ptr - headerBytes) / Entry.byteSize := by
  rw [pending_eq, List.length_map, List.length_range]

/-- Entries laid down behind the pointer become pending when the pointer moves past them. -/
theorem pending_extended {a b : Buffer} {es : List Entry} (aligned : a.ptr % Entry.byteSize = 0)
    (moved : b.ptr = a.ptr + es.length * Entry.byteSize) (below : a.AgreeBelow b a.ptr)
    (laid : ∀ k (h : k < es.length), b.entryAt (a.ptr + k * Entry.byteSize) = .ok es[k]) :
    b.pending = a.pending ++ es.map .ok := by
  have header := a.header_le_ptr
  have count : (b.ptr - headerBytes) / Entry.byteSize =
      (a.ptr - headerBytes) / Entry.byteSize + es.length := by
    simp only [Entry.byteSize, headerBytes] at *
    omega
  rw [pending_eq, pending_eq, count, List.range_add, List.map_append, List.map_map]
  congr 1
  · apply List.map_congr_left
    intro k hk
    exact below.entryAt (slot_le_ptr (List.mem_range.1 hk))
  · apply List.ext_getElem (by rw [List.length_map, List.length_map, List.length_range])
    intro k hk hk'
    rw [List.length_map] at hk'
    rw [List.getElem_map, List.getElem_map, List.getElem_range, Function.comp_apply, ← laid k hk']
    congr 1
    simp only [Entry.byteSize, headerBytes] at *
    omega

/-- `b` differs from `a` in the bytes of its slots alone. -/
structure SameButBytes (a b : Buffer) : Prop where
  tid : b.tid = a.tid
  capacity : b.capacity = a.capacity
  ptr : b.ptr = a.ptr
  refs : b.refs = a.refs
  registered : b.registered = a.registered
  phase : b.phase = a.phase
  attached : b.attached = a.attached

theorem SameButBytes.refl (a : Buffer) : a.SameButBytes a := ⟨rfl, rfl, rfl, rfl, rfl, rfl, rfl⟩

theorem SameButBytes.overwrite {a b : Buffer} (same : a.SameButBytes b) (offset : Nat)
    (bs : List UInt8) : a.SameButBytes (b.overwrite offset bs) :=
  ⟨same.tid, same.capacity, same.ptr, same.refs, same.registered, same.phase, same.attached⟩

theorem SameButBytes.byteCapacity {a b : Buffer} (same : a.SameButBytes b) :
    b.byteCapacity = a.byteCapacity := by
  rw [Buffer.byteCapacity, same.capacity, Buffer.byteCapacity]

theorem sameButBytes_writeHeader (b : Buffer) : b.SameButBytes b.writeHeader :=
  (SameButBytes.refl b).overwrite 0 _

theorem aligned_push {b : Buffer} (aligned : b.ptr % Entry.byteSize = 0) (e : Entry) :
    (b.push e).2.ptr % Entry.byteSize = 0 := by
  unfold push
  split
  · exact (Nat.add_mod_right _ _).trans aligned
  · exact aligned

/-- The buffer holds these entries whole, one per slot, and all of them are events. -/
structure Holds (b : Buffer) (es : List Entry) : Prop where
  aligned : b.ptr % Entry.byteSize = 0
  pending : b.pending = es.map .ok
  events : ∀ e ∈ es, e.kind.isEvent = true

theorem Holds.unique {b : Buffer} {es es' : List Entry} (holds : b.Holds es)
    (again : b.Holds es') : es' = es := by
  have same := again.pending.symm.trans holds.pending
  refine List.map_injective_iff.2 (fun e e' ok => ?_) same
  cases ok
  rfl

/-- Nothing is pending where the pointer is behind the header slot. -/
theorem holds_nil {b : Buffer} (empty : b.ptr = headerBytes) : b.Holds [] where
  aligned := by rw [empty]; rfl
  pending := by rw [pending_eq, empty]; rfl
  events := by simp

/-- What is pending does not depend on the header slot nor on what is behind the pointer. -/
theorem pending_congr {a b : Buffer} (ptr : b.ptr = a.ptr)
    (same : ∀ k, headerBytes ≤ k → k < a.ptr → b.bytes[k]? = a.bytes[k]?) :
    b.pending = a.pending := by
  rw [pending_eq, pending_eq, ptr]
  apply List.map_congr_left
  intro k hk
  have inside := slot_le_ptr (List.mem_range.1 hk)
  apply Entry.ofBytes_congr
  intro j hj
  rw [List.getElem?_drop, List.getElem?_drop, Array.getElem?_toList, Array.getElem?_toList]
  exact same _ (by omega) (by omega)

theorem Holds.congr {a b : Buffer} {es : List Entry} (holds : a.Holds es) (ptr : b.ptr = a.ptr)
    (same : ∀ k, headerBytes ≤ k → k < a.ptr → b.bytes[k]? = a.bytes[k]?) : b.Holds es where
  aligned := by rw [ptr]; exact holds.aligned
  pending := (pending_congr ptr same).trans holds.pending
  events := holds.events

theorem Holds.extended {a b : Buffer} {es more : List Entry} (holds : a.Holds es)
    (moved : b.ptr = a.ptr + more.length * Entry.byteSize) (below : a.AgreeBelow b a.ptr)
    (laid : ∀ k (h : k < more.length), b.entryAt (a.ptr + k * Entry.byteSize) = .ok more[k])
    (events : ∀ e ∈ more, e.kind.isEvent = true) : b.Holds (es ++ more) where
  aligned := by
    have aligned := holds.aligned
    simp only [Entry.byteSize] at *
    omega
  pending := by
    rw [pending_extended holds.aligned moved below laid, holds.pending, List.map_append]
  events := by
    intro e he
    rcases List.mem_append.1 he with old | new
    · exact holds.events e old
    · exact events e new

end Buffer

end AccessTrace
