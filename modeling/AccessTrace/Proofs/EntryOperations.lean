import Mathlib
import AccessTrace.Code.Instrumentation
import AccessTrace.Proofs.Operations

/-!
# Laying down an entry

Between the operations of a plan the program's values can always be got back (`Kept`): those of the
scratch registers are in the spill slots, all others in their registers. The operations of one entry
rely on that and on the pointer register alone (`Working`), whatever registers its address names, so
that they lay the entry down behind those that are there already (`Midway`).
-/

namespace AccessTrace

namespace Buffer

/-- The entries are laid down behind the pointer of `a`; all below it is as it was. -/
structure Laid (a b : Buffer) (es : List Entry) : Prop where
  same : a.SameButBytes b
  below : a.AgreeBelow b a.ptr
  entries : ∀ k (h : k < es.length), b.entryAt (a.ptr + k * Entry.byteSize) = .ok es[k]

theorem Laid.nil {a b : Buffer} (same : a.SameButBytes b) (below : a.AgreeBelow b a.ptr) :
    a.Laid b [] := ⟨same, below, by simp⟩

theorem Laid.overwrite {a b : Buffer} {es : List Entry} (laid : a.Laid b es) {offset : Nat}
    (bs : List UInt8) (above : a.ptr + es.length * Entry.byteSize ≤ offset) :
    a.Laid (b.overwrite offset bs) es where
  same := laid.same.overwrite offset bs
  below := laid.below.trans (agreeBelow_overwrite b bs (by omega))
  entries := by
    intro k hk
    have next : (k + 1) * Entry.byteSize ≤ es.length * Entry.byteSize := Nat.mul_le_mul_right _ hk
    rw [← laid.entries k hk]
    apply (agreeBelow_overwrite b bs above).entryAt
    rw [Nat.add_mul] at next
    omega

theorem Laid.snoc {a b : Buffer} {es : List Entry} {e : Entry} (laid : a.Laid b es)
    (last : b.entryAt (a.ptr + es.length * Entry.byteSize) = .ok e) : a.Laid b (es ++ [e]) where
  same := laid.same
  below := laid.below
  entries := by
    intro k hk
    rw [List.length_append, List.length_singleton] at hk
    rcases Nat.lt_or_ge k es.length with old | new
    · rw [List.getElem_append_left old]
      exact laid.entries k old
    · obtain rfl : k = es.length := by omega
      rw [List.getElem_append_right (Nat.le_refl _)]
      simpa using last

/-- The entries are appended to those of `a`: laid down behind its pointer, which is moved past
them. -/
structure Appended (a b : Buffer) (es : List Entry) : Prop where
  tid : b.tid = a.tid
  capacity : b.capacity = a.capacity
  ptr : b.ptr = a.ptr + es.length * Entry.byteSize
  refs : b.refs = a.refs
  registered : b.registered = a.registered
  phase : b.phase = a.phase
  attached : b.attached = a.attached
  below : a.AgreeBelow b a.ptr
  entries : ∀ k (h : k < es.length), b.entryAt (a.ptr + k * Entry.byteSize) = .ok es[k]

theorem Appended.refl (a : Buffer) : a.Appended a [] where
  tid := rfl
  capacity := rfl
  ptr := by rw [List.length_nil, Nat.zero_mul, Nat.add_zero]
  refs := rfl
  registered := rfl
  phase := rfl
  attached := rfl
  below := .refl a a.ptr
  entries := by simp

theorem Appended.pending {a b : Buffer} {es : List Entry} (appended : a.Appended b es)
    (aligned : a.ptr % Entry.byteSize = 0) : b.pending = a.pending ++ es.map .ok :=
  pending_extended aligned appended.ptr appended.below appended.entries

theorem Appended.holds {a b : Buffer} {es more : List Entry} (appended : a.Appended b more)
    (holds : a.Holds es) (events : ∀ e ∈ more, e.kind.isEvent = true) : b.Holds (es ++ more) :=
  holds.extended appended.ptr appended.below appended.entries events

/-- Storing kind, size and address makes the record of an access, whatever was there. -/
theorem entryAt_access {b : Buffer} {p : Nat} (room : p + Entry.byteSize ≤ b.byteCapacity)
    {kind : Entry.Kind} (access : kind ≠ .fetch) (size : UInt16) (addr : UInt64) :
    (((b.overwrite (p + Entry.kindOffset) (toLittleEndian 2 kind.code.toNat)).overwrite
      (p + Entry.sizeOffset) (toLittleEndian 2 size.toNat)).overwrite
      (p + Entry.addrOffset) (toLittleEndian 8 addr.toNat)).entryAt p =
        .ok { kind, size, addr } := by
  have all := b.size_bytes
  rw [byteCapacity, ← all] at room
  simp only [Entry.byteSize] at room
  refine Entry.ofBytes_of_words ?kind ?size (fun h => absurd h access) (fun _ => rfl) ?addr
  all_goals simp only [Entry.wordAt_drop, overwrite, Entry.kindOffset, Entry.sizeOffset,
    Entry.addrOffset]
  case kind =>
    rw [Entry.wordAt_writeAt_outside (.inl (by omega)), Entry.wordAt_writeAt_outside
      (.inl (by omega)), Entry.wordAt_writeAt_self (by omega)]
    exact Nat.mod_eq_of_lt kind.code.toNat_lt
  case size =>
    rw [Entry.wordAt_writeAt_outside (.inl (by omega)),
      Entry.wordAt_writeAt_self (by rw [size_writeAt]; omega)]
    exact Nat.mod_eq_of_lt size.toNat_lt
  case addr =>
    rw [Entry.wordAt_writeAt_self (by rw [size_writeAt, size_writeAt]; omega)]
    exact Nat.mod_eq_of_lt addr.toNat_lt

/-- Storing all four words makes the record of a fetch. -/
theorem entryAt_fetch {b : Buffer} {p : Nat} (room : p + Entry.byteSize ≤ b.byteCapacity)
    (opcode length : UInt16) (pc : UInt64) :
    ((((b.overwrite (p + Entry.kindOffset) (toLittleEndian 2 Entry.Kind.fetch.code.toNat)).overwrite
      (p + Entry.sizeOffset) (toLittleEndian 2 length.toNat)).overwrite
      (p + Entry.opcodeOffset) (toLittleEndian 2 opcode.toNat)).overwrite
      (p + Entry.addrOffset) (toLittleEndian 8 pc.toNat)).entryAt p =
        .ok (Entry.fetch opcode length pc) := by
  have all := b.size_bytes
  rw [byteCapacity, ← all] at room
  simp only [Entry.byteSize] at room
  refine Entry.ofBytes_of_words ?kind ?size (fun _ => ?opcode) (fun h => absurd rfl h) ?addr
  all_goals simp only [Entry.wordAt_drop, overwrite, Entry.kindOffset, Entry.sizeOffset,
    Entry.opcodeOffset, Entry.addrOffset, Entry.fetch]
  case kind =>
    rw [Entry.wordAt_writeAt_outside (.inl (by omega)), Entry.wordAt_writeAt_outside
      (.inl (by omega)), Entry.wordAt_writeAt_outside (.inl (by omega)),
      Entry.wordAt_writeAt_self (by omega)]
    exact Nat.mod_eq_of_lt Entry.Kind.fetch.code.toNat_lt
  case size =>
    rw [Entry.wordAt_writeAt_outside (.inl (by omega)), Entry.wordAt_writeAt_outside
      (.inl (by omega)), Entry.wordAt_writeAt_self (by rw [size_writeAt]; omega)]
    exact Nat.mod_eq_of_lt length.toNat_lt
  case opcode =>
    rw [Entry.wordAt_writeAt_outside (.inl (by omega)),
      Entry.wordAt_writeAt_self (by rw [size_writeAt, size_writeAt]; omega)]
    exact Nat.mod_eq_of_lt opcode.toNat_lt
  case addr =>
    rw [Entry.wordAt_writeAt_self (by rw [size_writeAt, size_writeAt, size_writeAt]; omega)]
    exact Nat.mod_eq_of_lt pc.toNat_lt

end Buffer

theorem Architecture.pointerRegister_ne (a : Architecture) :
    a.pointerRegister ≠ a.valueRegister := by
  cases a <;> decide

/-- The entry of an access, on the values that the registers hold. -/
def accessEntry (value : Register → UInt64) (access : Entry.Kind × MemoryOperand) : Entry :=
  { kind := access.1, size := access.2.size, addr := access.2.address value }

/-- Of a machine `m` in the middle of a plan: the program's values, those of `m₀`, can be got
back. -/
structure Kept (s : Instrumentation) (m₀ m : Machine) : Prop where
  savedPointer : m.saved .pointer = m₀.get s.architecture.pointerRegister
  savedValue : m.saved .value = m₀.get s.architecture.valueRegister
  others : ∀ r, r ≠ s.architecture.pointerRegister → r ≠ s.architecture.valueRegister →
    m.get r = m₀.get r

theorem Kept.set {s : Instrumentation} {m₀ m : Machine} (kept : Kept s m₀ m) {r : Register}
    (scratch : r = s.architecture.pointerRegister ∨ r = s.architecture.valueRegister)
    (value : UInt64) : Kept s m₀ (m.set r value) where
  savedPointer := by rw [Machine.saved_set, kept.savedPointer]
  savedValue := by rw [Machine.saved_set, kept.savedValue]
  others := by
    intro r' notPointer notValue
    have other : r' ≠ r := by
      rcases scratch with rfl | rfl
      · exact notPointer
      · exact notValue
    rw [Machine.get_set_of_ne _ _ other, kept.others r' notPointer notValue]

/-- With every value got back into its register, the registers are the program's. -/
theorem Kept.registers_eq {s : Instrumentation} {m₀ m : Machine} (kept : Kept s m₀ m)
    (pointer : m.get s.architecture.pointerRegister = m₀.get s.architecture.pointerRegister)
    (value : m.get s.architecture.valueRegister = m₀.get s.architecture.valueRegister) :
    m.registers = m₀.registers := by
  have all : ∀ r, m.get r = m₀.get r := by
    intro r
    by_cases isPointer : r = s.architecture.pointerRegister
    · rw [isPointer, pointer]
    by_cases isValue : r = s.architecture.valueRegister
    · rw [isValue, value]
    exact kept.others r isPointer isValue
  apply Vector.ext
  intro k hk
  have same := all (UInt8.ofNat k)
  have number : (UInt8.ofNat k).toNat = k := UInt8.toNat_ofNat_of_lt' hk
  simpa only [Machine.get, Vector.get_eq_getElem, number] using same

namespace Instruction

/-- The entries that an instruction calls for, the one of the instruction itself first. -/
theorem entries_of_traced {i : Instruction} (traced : i.isTraced = true) (fetches : Bool)
    (value : Register → UInt64) :
    i.entries fetches value =
      (if fetches then [Entry.fetch i.opcode i.length i.pc] else []) ++
        i.accesses.map (accessEntry value) := by
  rw [entries, if_pos traced]
  rfl

theorem length_entries (s : Instrumentation) (i : Instruction) (value : Register → UInt64) :
    (i.entries s.fetches value).length = s.entryCount i := by
  rw [entries, Instrumentation.entryCount]
  split
  · rw [List.length_append, List.length_map]
    congr 1
    cases s.fetches <;> rfl
  · rfl

theorem kind_of_mem_accesses {i : Instruction} {access : Entry.Kind × MemoryOperand}
    (mem : access ∈ i.accesses) : access.1 = .read ∨ access.1 = .write := by
  rcases List.mem_append.1 mem with read | write
  · obtain ⟨m, _, rfl⟩ := List.mem_map.1 read
    exact .inl rfl
  · obtain ⟨m, _, rfl⟩ := List.mem_map.1 write
    exact .inr rfl

theorem access_ne_fetch {i : Instruction} {access : Entry.Kind × MemoryOperand}
    (mem : access ∈ i.accesses) : access.1 ≠ .fetch := by
  rcases kind_of_mem_accesses mem with read | write
  · rw [read]; decide
  · rw [write]; decide

theorem isEvent_of_mem_entries {i : Instruction} {fetches : Bool} {value : Register → UInt64}
    {e : Entry} (mem : e ∈ i.entries fetches value) : e.kind.isEvent = true := by
  by_cases traced : i.isTraced = true
  · rw [entries_of_traced traced] at mem
    rcases List.mem_append.1 mem with fetch | access
    · cases fetches with
      | false => simp at fetch
      | true =>
        rw [if_pos rfl, List.mem_singleton] at fetch
        rw [fetch]
        rfl
    · obtain ⟨a, accessed, rfl⟩ := List.mem_map.1 access
      rw [accessEntry]
      rcases kind_of_mem_accesses accessed with read | write
      · rw [read]; rfl
      · rw [write]; rfl
  · rw [entries, if_neg traced] at mem
    simp at mem

end Instruction

namespace Host

variable {σ : Type} {s : Instrumentation} {h₀ h : Host σ} {es : List Entry}

/-- Between two stores of a plan that was begun on `h₀`. -/
structure Working (s : Instrumentation) (h₀ h : Host σ) : Prop where
  kept : Kept s h₀.machine h.machine
  pointer : h.machine.get s.architecture.pointerRegister = UInt64.ofNat h₀.buffer.ptr
  same : h₀.buffer.SameButBytes h.buffer
  tracer : h.tracer = h₀.tracer

/-- A store through the pointer register, with a value put into the value register or not. -/
theorem Working.storeAt (working : Working s h₀ h) {disp : Nat} (bs : List UInt8)
    (room : h₀.buffer.ptr + disp + bs.length ≤ h₀.buffer.byteCapacity) (value : Option UInt64) :
    ∃ h', h.storeAt s.architecture.pointerRegister disp bs
        (value.map (s.architecture.valueRegister, ·)) = (.ok (), h') ∧
      Working s h₀ h' ∧ h'.buffer = h.buffer.overwrite (h₀.buffer.ptr + disp) bs := by
  have fits := storeAt_fits bs (value.map (s.architecture.valueRegister, ·)) working.pointer
    (by rw [working.same.byteCapacity]; exact room)
  refine ⟨_, fits, ⟨?_, ?_, working.same.overwrite _ _, working.tracer⟩, rfl⟩
  · cases value with
    | none => exact working.kept
    | some v => exact working.kept.set (.inr rfl) v
  · cases value with
    | none => exact working.pointer
    | some v =>
      exact (Machine.get_set_of_ne _ _ s.architecture.pointerRegister_ne).trans working.pointer

variable [Channel σ]

theorem Working.storeImmediate16 (working : Working s h₀ h) {disp : Nat} (value : UInt16)
    (room : h₀.buffer.ptr + disp + 2 ≤ h₀.buffer.byteCapacity) :
    h.Completes [.storeImmediate16 s.architecture.pointerRegister s.architecture.valueRegister disp
        value] fun h' =>
      Working s h₀ h' ∧
        h'.buffer = h.buffer.overwrite (h₀.buffer.ptr + disp) (toLittleEndian 2 value.toNat) := by
  obtain ⟨h', run, after⟩ := working.storeAt (toLittleEndian 2 value.toNat)
    (by rw [length_toLittleEndian]; exact room) (some value.toUInt64)
  exact .cons run (.nil after)

theorem Working.storeImmediate64 (working : Working s h₀ h) {disp : Nat} (value : UInt64)
    (room : h₀.buffer.ptr + disp + 8 ≤ h₀.buffer.byteCapacity) :
    h.Completes [.storeImmediate64 s.architecture.pointerRegister s.architecture.valueRegister disp
        value] fun h' =>
      Working s h₀ h' ∧
        h'.buffer = h.buffer.overwrite (h₀.buffer.ptr + disp) (toLittleEndian 8 value.toNat) := by
  obtain ⟨h', run, after⟩ := working.storeAt (toLittleEndian 8 value.toNat)
    (by rw [length_toLittleEndian]; exact room) (some value)
  exact .cons run (.nil after)

/-- Getting back the scratch registers that an address depends on makes all of its registers hold
the program's values. -/
theorem Working.restores (working : Working s h₀ h) (m : MemoryOperand) :
    h.Completes
      ((if m.uses s.architecture.pointerRegister then
          [.restore s.architecture.pointerRegister .pointer] else []) ++
        if m.uses s.architecture.valueRegister then
          [.restore s.architecture.valueRegister .value] else [])
      fun h' => Kept s h₀.machine h'.machine ∧ h'.buffer = h.buffer ∧ h'.tracer = h.tracer ∧
        ∀ r, m.uses r = true → h'.machine.get r = h₀.machine.get r := by
  have differ := s.architecture.pointerRegister_ne
  have first : h.Completes
      (if m.uses s.architecture.pointerRegister then
        [.restore s.architecture.pointerRegister .pointer] else [])
      fun h' => Kept s h₀.machine h'.machine ∧ h'.buffer = h.buffer ∧ h'.tracer = h.tracer ∧
        (m.uses s.architecture.pointerRegister = true →
          h'.machine.get s.architecture.pointerRegister =
            h₀.machine.get s.architecture.pointerRegister) := by
    split
    · refine .cons rfl (.nil ⟨working.kept.set (.inl rfl) _, rfl, rfl, fun _ => ?_⟩)
      rw [Machine.get_set_self, working.kept.savedPointer]
    · rename_i unused
      exact .nil ⟨working.kept, rfl, rfl, fun used => absurd used unused⟩
  apply first.append
  rintro h₁ ⟨kept, buffer, tracer, pointer⟩
  -- The pointer register is not touched again, so what it was given stays.
  have others : ∀ r, m.uses r = true → r ≠ s.architecture.valueRegister →
      h₁.machine.get r = h₀.machine.get r := by
    intro r used notValue
    by_cases isPointer : r = s.architecture.pointerRegister
    · rw [isPointer] at used ⊢
      exact pointer used
    · exact kept.others r isPointer notValue
  split
  · refine .cons rfl (.nil ⟨kept.set (.inr rfl) _, buffer, tracer, fun r used => ?_⟩)
    by_cases isValue : r = s.architecture.valueRegister
    · rw [isValue, Machine.get_set_self, kept.savedValue]
    · rw [Machine.get_set_of_ne _ _ isValue, others r used isValue]
  · rename_i unused
    refine .nil ⟨kept, buffer, tracer, fun r used => others r used ?_⟩
    rintro rfl
    exact unused used

/-- Computing an address and storing it, once its registers hold the program's values. The address
goes through the value register, and the pointer register is loaded again behind it. -/
theorem storeAddress {m : MemoryOperand} {disp : Nat} (kept : Kept s h₀.machine h.machine)
    (same : h₀.buffer.SameButBytes h.buffer) (tracer : h.tracer = h₀.tracer)
    (values : ∀ r, m.uses r = true → h.machine.get r = h₀.machine.get r)
    (room : h₀.buffer.ptr + disp + 8 ≤ h₀.buffer.byteCapacity) :
    h.Completes
      [.loadAddress m s.architecture.valueRegister s.architecture.pointerRegister,
        .loadPointer s.architecture.pointerRegister,
        .storeRegister s.architecture.pointerRegister disp s.architecture.valueRegister]
      fun h' => Working s h₀ h' ∧ h'.buffer = h.buffer.overwrite (h₀.buffer.ptr + disp)
        (toLittleEndian 8 (m.address h₀.machine.get).toNat) := by
  have address := MemoryOperand.address_congr values
  refine .cons rfl (.cons rfl ?_)
  generalize loaded : ({ machine := _, buffer := _, tracer := _ } : Host σ) = h₁
  have working : Working s h₀ h₁ := by
    subst loaded
    refine ⟨(kept.set (.inr rfl) _).set (.inl rfl) _, ?_, same, tracer⟩
    rw [Machine.get_set_self, same.ptr]
  have value : h₁.machine.get s.architecture.valueRegister = m.address h₀.machine.get := by
    subst loaded
    rw [Machine.get_set_of_ne _ _ s.architecture.pointerRegister_ne.symm, Machine.get_set_self,
      address]
  have buffer : h₁.buffer = h.buffer := by rw [← loaded]
  obtain ⟨h', run, after, stored⟩ := working.storeAt
    (toLittleEndian 8 (h₁.machine.get s.architecture.valueRegister).toNat)
    (by rw [length_toLittleEndian]; exact room) none
  rw [value, buffer] at stored
  exact .cons run (.nil ⟨after, stored⟩)

/-- In the middle of a plan that was begun on `h₀`, with some of its entries laid down. -/
structure Midway (s : Instrumentation) (h₀ h : Host σ) (es : List Entry) : Prop where
  working : Working s h₀ h
  laid : h₀.buffer.Laid h.buffer es

/-- The operations of a fetch lay down its entry. -/
theorem Midway.fetch (mid : Midway s h₀ h es) (i : Instruction)
    (room : h₀.buffer.ptr + (es.length + 1) * Entry.byteSize ≤ h₀.buffer.byteCapacity) :
    h.Completes (s.fetchOperations i (es.length * Entry.byteSize)) fun h' =>
      Midway s h₀ h' (es ++ [Entry.fetch i.opcode i.length i.pc]) := by
  have inside : h₀.buffer.ptr + es.length * Entry.byteSize + 16 ≤ h₀.buffer.byteCapacity := by
    rw [Nat.add_mul] at room
    exact (Nat.add_assoc _ _ _).trans_le room
  have cap := mid.laid.same.byteCapacity
  refine (mid.working.storeImmediate16 _ ?_).step ?_
  · simp only [Entry.kindOffset]; omega
  rintro h₁ ⟨w₁, b₁⟩
  refine (w₁.storeImmediate16 _ ?_).step ?_
  · simp only [Entry.sizeOffset]; omega
  rintro h₂ ⟨w₂, b₂⟩
  refine (w₂.storeImmediate16 _ ?_).step ?_
  · simp only [Entry.opcodeOffset]; omega
  rintro h₃ ⟨w₃, b₃⟩
  refine (w₃.storeImmediate64 _ ?_).mono ?_
  · simp only [Entry.addrOffset]; omega
  rintro h₄ ⟨w₄, b₄⟩
  refine ⟨w₄, ?_⟩
  rw [b₄, b₃, b₂, b₁]
  simp only [← Nat.add_assoc]
  refine ((((mid.laid.overwrite _ ?_).overwrite _ ?_).overwrite _ ?_).overwrite _ ?_).snoc
    (Buffer.entryAt_fetch (by rw [cap]; exact inside) _ _ _)
  all_goals omega

/-- The operations of an access lay down its entry, whatever registers its address names. -/
theorem Midway.access (mid : Midway s h₀ h es) {kind : Entry.Kind} (m : MemoryOperand)
    (access : kind ≠ .fetch)
    (room : h₀.buffer.ptr + (es.length + 1) * Entry.byteSize ≤ h₀.buffer.byteCapacity) :
    h.Completes (s.accessOperations kind m (es.length * Entry.byteSize)) fun h' =>
      Midway s h₀ h' (es ++ [accessEntry h₀.machine.get (kind, m)]) := by
  have inside : h₀.buffer.ptr + es.length * Entry.byteSize + 16 ≤ h₀.buffer.byteCapacity := by
    rw [Nat.add_mul] at room
    exact (Nat.add_assoc _ _ _).trans_le room
  have cap := mid.laid.same.byteCapacity
  unfold Instrumentation.accessOperations
  simp only [List.append_assoc]
  refine (mid.working.storeImmediate16 _ ?_).step ?_
  · simp only [Entry.kindOffset]; omega
  rintro h₁ ⟨w₁, b₁⟩
  refine (w₁.storeImmediate16 _ ?_).step ?_
  · simp only [Entry.sizeOffset]; omega
  rintro h₂ ⟨w₂, b₂⟩
  change h₂.Completes (_ ++ (_ ++ [_, _, _])) _
  rw [← List.append_assoc]
  apply (w₂.restores m).append
  rintro h₃ ⟨kept, b₃, t₃, values⟩
  refine (storeAddress kept ?_ ?_ values ?_).mono ?_
  · rw [b₃]; exact w₂.same
  · rw [t₃]; exact w₂.tracer
  · simp only [Entry.addrOffset]; omega
  rintro h₄ ⟨w₄, b₄⟩
  refine ⟨w₄, ?_⟩
  rw [b₄, b₃, b₂, b₁]
  simp only [← Nat.add_assoc]
  refine (((mid.laid.overwrite _ ?_).overwrite _ ?_).overwrite _ ?_).snoc
    (Buffer.entryAt_access (by rw [cap]; exact inside) access _ _)
  all_goals omega

end Host

end AccessTrace
