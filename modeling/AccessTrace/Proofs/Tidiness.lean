import Mathlib
import AccessTrace.Proofs.Attempts
import AccessTrace.Proofs.Codec
import AccessTrace.Proofs.PlanExecution

/-!
# Slots that are used again

A plan lays down a record word by word. It never touches the padding, and the opcode only for a
fetch, so that these bytes are what the slot held before: an entry of an earlier payload, or one
that a plan began and did not complete. They are zero all the same. Every byte of a buffer, those
past the pointer included, is one that a record may have in its place (`Buffer.Tidy`), whatever is
pushed or delivered and wherever a plan stops (`tidy_operations`). If there are no opcodes at all, a
record is the one of its entry (`Carries.eq_toBytes`).
-/

namespace AccessTrace

namespace Entry

/-- What a byte may be in its place in a record: the kind is one that there is, and padding is zero.
So is the opcode where there are no `opcodes`. -/
structure Admits (opcodes : Bool) (place : Nat) (x : UInt8) : Prop where
  kind : place = 0 → x.toNat ≤ 4
  zero : place = 1 ∨ place = 6 ∨ place = 7 → x = 0
  opcode : opcodes = false → place = 4 ∨ place = 5 → x = 0

/-- Bytes that may stand at `offset`, in one record after the other. -/
def Tidy (opcodes : Bool) (offset : Nat) (bs : List UInt8) : Prop :=
  ∀ k x, bs[k]? = some x → Admits opcodes ((offset + k) % byteSize) x

variable {opcodes : Bool} {offset : Nat} {bs more : List UInt8}

theorem tidy_append_iff : Tidy opcodes offset (bs ++ more) ↔
    Tidy opcodes offset bs ∧ Tidy opcodes (offset + bs.length) more := by
  constructor
  · intro tidy
    refine ⟨fun k x here => tidy k x ?_, fun k x here => ?_⟩
    · obtain ⟨inside, _⟩ := List.getElem?_eq_some_iff.1 here
      rw [List.getElem?_append_left inside]
      exact here
    · rw [Nat.add_assoc]
      apply tidy
      rw [List.getElem?_append_right (Nat.le_add_right _ _), Nat.add_sub_cancel_left]
      exact here
  · rintro ⟨first, second⟩ k x here
    rcases Nat.lt_or_ge k bs.length with inside | behind
    · rw [List.getElem?_append_left inside] at here
      exact first k x here
    · rw [List.getElem?_append_right behind] at here
      have admits := second _ x here
      rw [show offset + bs.length + (k - bs.length) = offset + k by omega] at admits
      exact admits

/-- Only the place in a record counts. -/
theorem Tidy.congr (tidy : Tidy opcodes offset bs) {offset' : Nat}
    (same : offset' % byteSize = offset % byteSize) : Tidy opcodes offset' bs := by
  intro k x here
  have place : (offset' + k) % byteSize = (offset + k) % byteSize := by
    simp only [byteSize] at *
    omega
  rw [place]
  exact tidy k x here

theorem Tidy.take (tidy : Tidy opcodes offset bs) (n : Nat) : Tidy opcodes offset (bs.take n) := by
  rw [← List.take_append_drop n bs] at tidy
  exact (tidy_append_iff.1 tidy).1

theorem Tidy.drop (tidy : Tidy opcodes offset bs) {n : Nat} (whole : n % byteSize = 0) :
    Tidy opcodes offset (bs.drop n) := by
  intro k x here
  rw [List.getElem?_drop] at here
  have admits := tidy _ x here
  have place : (offset + (n + k)) % byteSize = (offset + k) % byteSize := by
    simp only [byteSize] at *
    omega
  rw [place] at admits
  exact admits

theorem tidy_zeros (zero : ∀ x ∈ bs, x = 0) : Tidy opcodes offset bs := by
  intro k x here
  rw [zero x (List.mem_of_getElem? here)]
  exact ⟨fun _ => by decide, fun _ => rfl, fun _ _ => rfl⟩

theorem tidy_kind (kind : Kind) (start : offset % byteSize = kindOffset) :
    Tidy opcodes offset (toLittleEndian 2 kind.code.toNat) := by
  have bytes : toLittleEndian 2 kind.code.toNat = [UInt8.ofNat kind.code.toNat, 0] := by
    cases kind <;> rfl
  have known : (UInt8.ofNat kind.code.toNat).toNat ≤ 4 := by cases kind <;> decide
  rw [bytes, ← List.singleton_append]
  refine tidy_append_iff.2 ⟨fun k x here => ?_, tidy_zeros (by simp)⟩
  obtain ⟨inside, same⟩ := List.getElem?_eq_some_iff.1 here
  rw [List.length_singleton, Nat.lt_one_iff] at inside
  subst inside
  rw [List.getElem_cons_zero] at same
  simp only [kindOffset, byteSize] at start
  refine ⟨fun _ => same ▸ known, fun place => ?_, fun _ place => ?_⟩
  all_goals
    simp only [byteSize] at place
    omega

/-- The words of a record of which nothing is asked: the size, the address, and the opcode where
there are opcodes. -/
theorem tidy_word {width n : Nat}
    (free : offset % byteSize = sizeOffset ∧ width = 2 ∨
      offset % byteSize = opcodeOffset ∧ width = 2 ∧ opcodes = true ∨
      offset % byteSize = addrOffset ∧ width = 8) :
    Tidy opcodes offset (toLittleEndian width n) := by
  intro k x here
  obtain ⟨inside, _⟩ := List.getElem?_eq_some_iff.1 here
  rw [length_toLittleEndian] at inside
  simp only [sizeOffset, opcodeOffset, addrOffset, byteSize] at free
  refine ⟨fun place => ?_, fun place => ?_, fun none place => ?_⟩
  all_goals simp only [byteSize] at place
  · omega
  · omega
  · rcases free with size | ⟨_, _, some⟩ | addr
    · omega
    · cases none.symm.trans some
    · omega

/-- The record of an entry is tidy in any slot. -/
theorem tidy_toBytes {e : Entry} (plain : opcodes = false → e.opcode = 0)
    (start : offset % byteSize = 0) : Tidy opcodes offset e.toBytes := by
  have opcode : Tidy opcodes (offset + 4) (toLittleEndian 2 e.opcode.toNat) := by
    cases opcodes with
    | false =>
      have cleared : toLittleEndian 2 e.opcode.toNat = [0, 0] := by
        rw [plain rfl]
        rfl
      rw [cleared]
      exact tidy_zeros (by simp)
    | true =>
      refine tidy_word (.inr (.inl ⟨?_, rfl, rfl⟩))
      simp only [byteSize, opcodeOffset] at *
      omega
  simp only [toBytes, tidy_append_iff, List.length_append, length_toLittleEndian,
    List.length_cons, List.length_nil]
  refine ⟨⟨⟨⟨tidy_kind _ start, tidy_word (.inl ⟨?_, rfl⟩)⟩, opcode⟩, tidy_zeros (by simp)⟩,
    tidy_word (.inr (.inr ⟨?_, rfl⟩))⟩
  all_goals
    simp only [byteSize, sizeOffset, addrOffset] at *
    omega

theorem tidy_writeAt {bytes : Array UInt8} (tidy : Tidy opcodes 0 bytes.toList)
    (new : Tidy opcodes offset bs) : Tidy opcodes 0 (writeAt bytes offset bs).toList := by
  induction bs generalizing bytes offset with
  | nil => exact tidy
  | cons b bs ih =>
    rw [← List.singleton_append, tidy_append_iff] at new
    refine ih (fun k x here => ?_) new.2
    rw [Array.getElem?_toList, Array.getElem?_setIfInBounds] at here
    split at here
    · rename_i written
      split at here
      · cases here
        rw [Nat.zero_add, ← written]
        exact new.1 0 b rfl
      · cases here
    · exact tidy k x (by rw [Array.getElem?_toList]; exact here)

/-- Without opcodes a tidy record is the one of its entry: no byte is left over that is not read. -/
theorem eq_toBytes {record : List UInt8} {e : Entry} (length : record.length = byteSize)
    (reads : ofBytes record = .ok e) (tidy : Tidy false 0 record) : record = e.toBytes := by
  have encoded := getElem?_encoded (Nat.le_of_eq length.symm) reads
  rw [List.drop_of_length_le (Nat.le_of_eq length), List.append_nil] at encoded
  apply List.ext_getElem?
  intro i
  rw [encoded]
  split
  · rename_i unread
    have inside : i < record.length := by
      simp only [length, byteSize]
      omega
    have admits := tidy i _ (List.getElem?_eq_getElem inside)
    rw [Nat.zero_add, Nat.mod_eq_of_lt (length ▸ inside)] at admits
    rw [List.getElem?_eq_getElem inside, Option.some.injEq]
    rcases unread with six | seven | ⟨_, opcode⟩
    · exact admits.zero (.inr (.inl six))
    · exact admits.zero (.inr (.inr seven))
    · exact admits.opcode rfl opcode
  · rfl

end Entry

/-- Without opcodes tidy records are those of the entries that they say. -/
theorem Carries.eq_toBytes {bytes : List UInt8} {es : List Entry} (carries : Carries bytes es)
    (tidy : Entry.Tidy false 0 bytes) : bytes = es.flatMap Entry.toBytes := by
  induction es generalizing bytes with
  | nil => exact carries.eq_nil
  | cons e es ih =>
    obtain ⟨long, reads, rest⟩ := carries.uncons
    have record := Entry.eq_toBytes (List.length_take_of_le long) reads (tidy.take _)
    rw [List.flatMap_cons, ← ih rest (tidy.drop (Nat.mod_self _)), ← record, List.take_append_drop]

namespace Buffer

/-- Every byte of the slots is one that a record may have there, up to the last slot, and the
pointer is between two slots. -/
structure Tidy (opcodes : Bool) (b : Buffer) : Prop where
  aligned : b.ptr % Entry.byteSize = 0
  bytes : Entry.Tidy opcodes 0 b.bytes.toList

variable {opcodes : Bool} {b b' : Buffer}

theorem tidy_fresh (opcodes : Bool) (fresh : Tracer.Fresh b) : b.Tidy opcodes where
  aligned := by
    rw [fresh.empty]
    exact Nat.mod_self _
  bytes := by
    rw [fresh.blank, emptyBytes, Array.toList_replicate]
    exact Entry.tidy_zeros fun _ mem => List.eq_of_mem_replicate mem

namespace Tidy

theorem overwrite (tidy : b.Tidy opcodes) {offset : Nat} {bs : List UInt8}
    (new : Entry.Tidy opcodes offset bs) : (b.overwrite offset bs).Tidy opcodes :=
  ⟨tidy.aligned, Entry.tidy_writeAt tidy.bytes new⟩

theorem setPtr (tidy : b.Tidy opcodes) {ptr : Nat} (whole : ptr % Entry.byteSize = 0) :
    (b.setPtr ptr).2.Tidy opcodes := by
  unfold Buffer.setPtr
  split
  · exact ⟨whole, tidy.bytes⟩
  · exact tidy

theorem push (tidy : b.Tidy opcodes) {e : Entry} (plain : opcodes = false → e.opcode = 0) :
    (b.push e).2.Tidy opcodes := by
  have aligned := aligned_push tidy.aligned e
  unfold Buffer.push at aligned ⊢
  split
  · rename_i room
    rw [dif_pos room] at aligned
    exact ⟨aligned, Entry.tidy_writeAt tidy.bytes (Entry.tidy_toBytes plain tidy.aligned)⟩
  · exact tidy

theorem pushSeries (tidy : b.Tidy opcodes) {e : Entry} (plain : opcodes = false → e.opcode = 0)
    (stride : UInt64) (times : Nat) : (b.pushSeries e stride times).2.Tidy opcodes := by
  induction times generalizing b e with
  | zero => exact tidy
  | succ times ih =>
    have first := tidy.push plain
    rw [Buffer.pushSeries]
    rcases pushed : b.push e with ⟨answer, b'⟩
    rw [pushed] at first
    cases answer with
    | ok _ => exact ih first plain
    | error _ => exact first

theorem writeHeader (tidy : b.Tidy opcodes) : b.writeHeader.Tidy opcodes :=
  tidy.overwrite (Entry.tidy_toBytes (fun _ => rfl) rfl)

theorem reset (tidy : b.Tidy opcodes) : b.reset.Tidy opcodes := ⟨Nat.mod_self _, tidy.bytes⟩

theorem addRefs (tidy : b.Tidy opcodes) (count : Nat) : (b.addRefs count).Tidy opcodes :=
  ⟨tidy.aligned, tidy.bytes⟩

theorem marked (tidy : b.Tidy opcodes) : b.marked.Tidy opcodes := ⟨tidy.aligned, tidy.bytes⟩

/-- Nothing is cleared when the entries have been sent. -/
theorem flush {σ : Type} [Channel σ] {c c' : σ} {pid : UInt32} {policy : FlushPolicy}
    {answer : Except ChannelError FlushOutcome} (tidy : b.Tidy opcodes)
    (flush : b.flush c pid policy = (answer, b', c')) : b'.Tidy opcodes := by
  have headed : b.writeHeader.marked.Tidy opcodes := tidy.writeHeader.marked
  by_cases deferred : (policy = .deferrable && b.mayDefer) = true
  · rw [flush_deferred deferred] at flush
    cases flush
    exact tidy
  · rw [flush_now deferred] at flush
    split at flush
    · cases flush
      exact (headed.addRefs b.occupied).reset
    · cases flush
      exact headed

/-- What is pending is tidy on its own. -/
theorem pendingBytes (tidy : b.Tidy opcodes) : Entry.Tidy opcodes 0 b.pendingBytes := by
  rw [Buffer.pendingBytes, Array.toList_extract, List.extract_eq_take_drop]
  exact (tidy.bytes.drop (Nat.mod_self _)).take _

end Tidy

end Buffer

namespace Host

variable {σ : Type} [Channel σ] {opcodes : Bool} {s : Instrumentation} {h : Host σ}

/-- However the execution of the operations ends, the host satisfies `I`, and if it was to the last,
`Q` besides. -/
def Maintains (h : Host σ) (ops : List Operation) (I Q : Host σ → Prop) : Prop :=
  I (h.exec ops).2 ∧ ((h.exec ops).1 = .ok () → Q (h.exec ops).2)

section
variable {op : Operation} {ops more : List Operation} {I P Q : Host σ → Prop}

theorem Maintains.nil (i : I h) (q : Q h) : h.Maintains [] I Q := ⟨i, fun _ => q⟩

theorem Maintains.append (first : h.Maintains ops I P)
    (rest : ∀ h', P h' → h'.Maintains more I Q) : h.Maintains (ops ++ more) I Q := by
  obtain ⟨i, p⟩ := first
  rw [Maintains, exec_append]
  rcases run : h.exec ops with ⟨answer, h'⟩
  rw [run] at i p
  cases answer with
  | ok _ => exact rest h' (p rfl)
  | error _ => exact ⟨i, nofun⟩

theorem Maintains.step (first : h.Maintains [op] I P)
    (rest : ∀ h', P h' → h'.Maintains ops I Q) : h.Maintains (op :: ops) I Q := first.append rest

end

/-- Between two stores of a plan, whichever of its entries were laid down. -/
structure Steady (opcodes : Bool) (s : Instrumentation) (h : Host σ) : Prop where
  tidy : h.buffer.Tidy opcodes
  pointer : h.machine.get s.architecture.pointerRegister = UInt64.ofNat h.buffer.ptr

omit [Channel σ] in
/-- A sum with the buffer pointer is one of offsets, unless it is no machine word. -/
theorem Steady.offset (steady : Steady opcodes s h) {disp place : Nat}
    (here : h.machine.offset? s.architecture.pointerRegister disp = some place) :
    place = h.buffer.ptr + disp := by
  have word : (UInt64.ofNat h.buffer.ptr).toNat = h.buffer.ptr :=
    UInt64.toNat_ofNat_of_lt'
      (Nat.lt_of_le_of_lt h.buffer.ptr_le_byteCapacity h.buffer.byteCapacity_lt_wordLimit)
  rw [Machine.offset?, steady.pointer, word] at here
  split at here
  · cases here
    rfl
  · cases here

omit [Channel σ] in
/-- A store through the pointer register changes the slots in one word or not at all. -/
theorem Steady.storeAt (steady : Steady opcodes s h) {disp : Nat} {bs : List UInt8}
    (new : Entry.Tidy opcodes disp bs) (value : Option UInt64) {answer : Except TraceError Unit}
    {h' : Host σ} (stored : h.storeAt s.architecture.pointerRegister disp bs
      (value.map (s.architecture.valueRegister, ·)) = (answer, h')) :
    h'.buffer.Tidy opcodes ∧ (answer = .ok () → Steady opcodes s h') := by
  have sum : ∀ place, _ → place = h.buffer.ptr + disp := fun place => steady.offset
  obtain ⟨tidy, pointer⟩ := steady
  obtain ⟨machine, buffer, tracer⟩ := h
  simp only at sum tidy pointer
  unfold Host.storeAt at stored
  rcases offset : machine.offset? s.architecture.pointerRegister disp with _ | place
  · simp only [offset] at stored
    cases stored
    exact ⟨tidy, by simp⟩
  · have moved : Entry.Tidy opcodes place bs := by
      have aligned := tidy.aligned
      rw [sum place offset]
      refine new.congr ?_
      simp only [Entry.byteSize] at *
      omega
    simp only [offset, Buffer.store] at stored
    split at stored
    · rename_i fits
      split at fits
      · cases fits
        cases stored
        refine ⟨tidy.overwrite moved, fun _ => ⟨tidy.overwrite moved, ?_⟩⟩
        cases value with
        | none => exact pointer
        | some v =>
          exact (Machine.get_set_of_ne _ _ s.architecture.pointerRegister_ne).trans pointer
      · cases fits
    · rename_i full
      split at full
      · cases full
      · cases full
        cases stored
        exact ⟨tidy, by simp⟩

theorem Steady.storeImmediate16 (steady : Steady opcodes s h) {disp : Nat} {value : UInt16}
    (new : Entry.Tidy opcodes disp (toLittleEndian 2 value.toNat)) :
    h.Maintains [.storeImmediate16 s.architecture.pointerRegister s.architecture.valueRegister disp
      value] (·.buffer.Tidy opcodes) (Steady opcodes s) := by
  rw [Maintains, exec_singleton]
  exact steady.storeAt new (some value.toUInt64) rfl

theorem Steady.storeImmediate64 (steady : Steady opcodes s h) {disp : Nat} {value : UInt64}
    (new : Entry.Tidy opcodes disp (toLittleEndian 8 value.toNat)) :
    h.Maintains [.storeImmediate64 s.architecture.pointerRegister s.architecture.valueRegister disp
      value] (·.buffer.Tidy opcodes) (Steady opcodes s) := by
  rw [Maintains, exec_singleton]
  exact steady.storeAt new (some value) rfl

/-- The operations of a fetch store an opcode. -/
theorem Steady.fetch (steady : Steady true s h) (i : Instruction) {disp : Nat}
    (start : disp % Entry.byteSize = 0) :
    h.Maintains (s.fetchOperations i disp) (·.buffer.Tidy true) (Steady true s) := by
  refine (steady.storeImmediate16 (Entry.tidy_kind _ ?_)).step fun h₁ steady₁ => ?_
  · exact start
  refine (steady₁.storeImmediate16 (Entry.tidy_word (.inl ⟨?_, rfl⟩))).step fun h₂ steady₂ => ?_
  · simp only [Entry.byteSize, Entry.sizeOffset] at *
    omega
  refine (steady₂.storeImmediate16 (Entry.tidy_word (.inr (.inl ⟨?_, rfl, rfl⟩)))).step
    fun h₃ steady₃ => ?_
  · simp only [Entry.byteSize, Entry.opcodeOffset] at *
    omega
  refine steady₃.storeImmediate64 (Entry.tidy_word (.inr (.inr ⟨?_, rfl⟩)))
  simp only [Entry.byteSize, Entry.addrOffset] at *
  omega

/-- While an address is computed the pointer register may hold anything; it is loaded again before
the address is stored. -/
theorem Steady.address (steady : Steady opcodes s h) (m : MemoryOperand) {disp : Nat}
    (start : disp % Entry.byteSize = Entry.addrOffset) :
    h.Maintains
      ((if m.uses s.architecture.pointerRegister then
          [.restore s.architecture.pointerRegister .pointer] else []) ++
        ((if m.uses s.architecture.valueRegister then
          [.restore s.architecture.valueRegister .value] else []) ++
        [.loadAddress m s.architecture.valueRegister s.architecture.pointerRegister,
          .loadPointer s.architecture.pointerRegister,
          .storeRegister s.architecture.pointerRegister disp s.architecture.valueRegister]))
      (·.buffer.Tidy opcodes) (Steady opcodes s) := by
  have restores : h.Maintains
      ((if m.uses s.architecture.pointerRegister then
          [.restore s.architecture.pointerRegister .pointer] else []) ++
        (if m.uses s.architecture.valueRegister then
          [.restore s.architecture.valueRegister .value] else []))
      (·.buffer.Tidy opcodes) (·.buffer.Tidy opcodes) := by
    split <;> split <;> exact ⟨steady.tidy, fun _ => steady.tidy⟩
  rw [← List.append_assoc]
  refine restores.append fun h₁ tidy => ?_
  have loads : h₁.Maintains
      [.loadAddress m s.architecture.valueRegister s.architecture.pointerRegister,
        .loadPointer s.architecture.pointerRegister]
      (·.buffer.Tidy opcodes) (Steady opcodes s) :=
    ⟨tidy, fun _ => ⟨tidy, Machine.get_set_self _ _ _⟩⟩
  change h₁.Maintains ([_, _] ++ [_]) _ _
  refine loads.append fun h₂ steady₂ => ?_
  rw [Maintains, exec_singleton]
  exact steady₂.storeAt (Entry.tidy_word (.inr (.inr ⟨start, rfl⟩))) none rfl

theorem Steady.access (steady : Steady opcodes s h) (kind : Entry.Kind) (m : MemoryOperand)
    {disp : Nat} (start : disp % Entry.byteSize = 0) :
    h.Maintains (s.accessOperations kind m disp) (·.buffer.Tidy opcodes) (Steady opcodes s) := by
  unfold Instrumentation.accessOperations
  simp only [List.append_assoc]
  refine (steady.storeImmediate16 (Entry.tidy_kind kind ?_)).step fun h₁ steady₁ => ?_
  · exact start
  refine (steady₁.storeImmediate16 (Entry.tidy_word (.inl ⟨?_, rfl⟩))).step fun h₂ steady₂ => ?_
  · simp only [Entry.byteSize, Entry.sizeOffset] at *
    omega
  refine steady₂.address m ?_
  simp only [Entry.byteSize, Entry.addrOffset] at *
  omega

theorem Steady.accesses (steady : Steady opcodes s h) (accesses : List (Entry.Kind × MemoryOperand))
    {disp : Nat} (start : disp % Entry.byteSize = 0) :
    h.Maintains (s.accessesOperations disp accesses) (·.buffer.Tidy opcodes)
      (Steady opcodes s) := by
  induction accesses generalizing h disp with
  | nil => exact .nil steady.tidy steady
  | cons access rest ih =>
    refine (steady.access access.1 access.2 start).append fun h₁ steady₁ => ih steady₁ ?_
    exact (Nat.add_mod_right _ _).trans start

/-- An opcode is stored only by a fetch. -/
theorem Steady.entries (steady : Steady opcodes s h) (i : Instruction)
    (plain : s.fetches = true → opcodes = true) :
    h.Maintains (entryOperations s i) (·.buffer.Tidy opcodes) (Steady opcodes s) := by
  rw [entryOperations]
  cases fetches : s.fetches with
  | false => exact steady.accesses i.accesses rfl
  | true =>
    obtain rfl := plain fetches
    exact (steady.fetch i rfl).append fun h₁ steady₁ => steady₁.accesses i.accesses rfl

/-- The pointer is moved by whole slots. -/
theorem Steady.finish (steady : Steady opcodes s h) {amount : Nat}
    (whole : amount % Entry.byteSize = 0) :
    h.Maintains
      [.advance s.architecture.pointerRegister amount,
        .restore s.architecture.pointerRegister .pointer,
        .restore s.architecture.valueRegister .value]
      (·.buffer.Tidy opcodes) (·.buffer.Tidy opcodes) := by
  have advance : h.Maintains [.advance s.architecture.pointerRegister amount]
      (·.buffer.Tidy opcodes) (·.buffer.Tidy opcodes) := by
    have sum : ∀ place, _ → place = h.buffer.ptr + amount := fun place => steady.offset
    have moved : ∀ place, place = h.buffer.ptr + amount →
        (h.buffer.setPtr place).2.Tidy opcodes := by
      rintro place rfl
      refine steady.tidy.setPtr ?_
      rw [Nat.add_mod, steady.tidy.aligned, whole]
      rfl
    rw [Maintains, exec_singleton]
    obtain ⟨machine, buffer, tracer⟩ := h
    simp only at sum moved
    rcases offset : machine.offset? s.architecture.pointerRegister amount with _ | place
    · simp only [Host.step, offset]
      exact ⟨steady.tidy, by simp⟩
    · have tidy := moved place (sum place offset)
      rcases set : buffer.setPtr place with ⟨answer, buffer'⟩
      rw [set] at tidy
      simp only [Host.step, offset, set]
      cases answer with
      | ok _ => exact ⟨tidy, fun _ => tidy⟩
      | error _ => exact ⟨tidy, by simp⟩
  exact advance.step fun h₁ tidy => ⟨tidy, fun _ => tidy⟩

/-- Whatever a plan lays down and wherever it stops, the slots stay tidy. -/
theorem tidy_operations (tidy : h.buffer.Tidy opcodes) (i : Instruction)
    (plain : s.fetches = true → opcodes = true) :
    (h.exec (s.operations i)).2.buffer.Tidy opcodes := by
  by_cases traced : i.isTraced = true
  · have begins : h.Maintains
        [.spill s.architecture.pointerRegister .pointer, .spill s.architecture.valueRegister .value,
          .loadPointer s.architecture.pointerRegister]
        (·.buffer.Tidy opcodes) (Steady opcodes s) :=
      ⟨tidy, fun _ => ⟨tidy, Machine.get_set_self _ _ _⟩⟩
    rw [operations_of_traced traced]
    exact (begins.append fun h₁ steady₁ => (steady₁.entries i plain).append fun h₂ steady₂ =>
      steady₂.finish (Nat.mul_mod_left _ _)).1
  · rw [Instrumentation.operations, if_neg traced]
    exact tidy

end Host

end AccessTrace
