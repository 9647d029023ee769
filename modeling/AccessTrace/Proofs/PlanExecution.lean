import Mathlib
import AccessTrace.Proofs.Delivery
import AccessTrace.Proofs.EntryOperations

/-!
# Executing a plan

The entries of an instruction are laid down one after the other until they are all there or the
slots are used up. In the first case the pointer is moved past them and the scratch registers are
got back, so that the program cannot tell that the plan was executed (`Wrote`); in the second the
plan stops with all that counts as it was (`Stopped`).
-/

namespace AccessTrace

namespace Host

variable {σ : Type} [Channel σ] {s : Instrumentation} {h₀ h : Host σ} {es : List Entry}

/-- Stopped in the middle of a plan: nothing was changed but bytes behind the pointer. -/
structure Stopped (h h' : Host σ) : Prop where
  same : h.buffer.SameButBytes h'.buffer
  below : h.buffer.AgreeBelow h'.buffer h.buffer.ptr
  tracer : h'.tracer = h.tracer

/-- The error of a store at the end of a buffer. -/
def fullError (b : Buffer) : TraceError := .resource (.overflow b.byteCapacity b.byteCapacity)

/-- Where the slots are used up, the first store of an entry fails. -/
theorem Midway.full (mid : Midway s h₀ h es)
    (full : h₀.buffer.ptr + es.length * Entry.byteSize = h₀.buffer.byteCapacity)
    (value : UInt16) (ops : List Operation) :
    h.Fails (.storeImmediate16 s.architecture.pointerRegister s.architecture.valueRegister
      (es.length * Entry.byteSize + Entry.kindOffset) value :: ops) (fullError h₀.buffer)
      (Stopped h₀) := by
  have cap := mid.laid.same.byteCapacity
  have used : h₀.buffer.ptr + (es.length * Entry.byteSize + Entry.kindOffset) =
      h.buffer.byteCapacity := by rw [cap]; exact full
  have stop := storeAt_full (toLittleEndian 2 value.toNat)
    (some (s.architecture.valueRegister, value.toUInt64)) mid.working.pointer used
    (by rw [length_toLittleEndian]; decide)
  rw [cap] at stop
  exact .cons stop ⟨mid.laid.same, mid.laid.below, mid.working.tracer⟩

/-- Accesses are laid down one after the other as long as all of them fit. -/
theorem Midway.accesses (mid : Midway s h₀ h es) (accesses : List (Entry.Kind × MemoryOperand))
    (kinds : ∀ a ∈ accesses, a.1 ≠ .fetch)
    (room : h₀.buffer.ptr + (es.length + accesses.length) * Entry.byteSize ≤
      h₀.buffer.byteCapacity) :
    h.Completes (s.accessesOperations (es.length * Entry.byteSize) accesses) fun h' =>
      Midway s h₀ h' (es ++ accesses.map (accessEntry h₀.machine.get)) := by
  induction accesses generalizing h es with
  | nil =>
    rw [List.map_nil, List.append_nil]
    exact .nil mid
  | cons access rest ih =>
    obtain ⟨kind, m⟩ := access
    rw [List.length_cons] at room
    have here := mid.access m (kinds _ List.mem_cons_self)
      (by simp only [Entry.byteSize] at *; omega)
    refine here.append fun h₁ mid₁ => ?_
    have next := ih mid₁ (fun a mem => kinds a (List.mem_cons_of_mem _ mem)) (by
      rw [List.length_append, List.length_singleton]
      simp only [Entry.byteSize] at *
      omega)
    rw [List.length_append, List.length_singleton, Nat.add_mul, Nat.one_mul, List.append_assoc]
      at next
    exact next

/-- Accesses of which not all fit stop the plan at the end of the buffer. -/
theorem Midway.accesses_full (mid : Midway s h₀ h es)
    (accesses : List (Entry.Kind × MemoryOperand)) (kinds : ∀ a ∈ accesses, a.1 ≠ .fetch)
    (aligned : h₀.buffer.ptr % Entry.byteSize = 0)
    (inside : h₀.buffer.ptr + es.length * Entry.byteSize ≤ h₀.buffer.byteCapacity)
    (full : h₀.buffer.byteCapacity <
      h₀.buffer.ptr + (es.length + accesses.length) * Entry.byteSize) :
    h.Fails (s.accessesOperations (es.length * Entry.byteSize) accesses) (fullError h₀.buffer)
      (Stopped h₀) := by
  induction accesses generalizing h es with
  | nil =>
    rw [List.length_nil, Nat.add_zero] at full
    omega
  | cons access rest ih =>
    obtain ⟨kind, m⟩ := access
    rw [List.length_cons] at full
    by_cases room : h₀.buffer.ptr + (es.length + 1) * Entry.byteSize ≤ h₀.buffer.byteCapacity
    · refine (mid.access m (kinds _ List.mem_cons_self) room).append_fails fun h₁ mid₁ => ?_
      have next := ih mid₁ (fun a mem => kinds a (List.mem_cons_of_mem _ mem)) (by
        rw [List.length_append, List.length_singleton]
        exact room) (by
        rw [List.length_append, List.length_singleton]
        simp only [Entry.byteSize] at *
        omega)
      rw [List.length_append, List.length_singleton, Nat.add_mul, Nat.one_mul] at next
      exact next
    · -- Pointer and capacity are whole slots, so that nothing fits means that nothing is left.
      have used : h₀.buffer.ptr + es.length * Entry.byteSize = h₀.buffer.byteCapacity := by
        simp only [Buffer.byteCapacity, Entry.byteSize] at *
        omega
      exact (mid.full used _ _).append

/-- What a plan has done that was executed on `h`: its entries are appended, and nothing else that
the program or the tracer can see has changed. -/
structure Wrote (h h' : Host σ) (es : List Entry) : Prop where
  registers : h'.machine.registers = h.machine.registers
  appended : h.buffer.Appended h'.buffer es
  tracer : h'.tracer = h.tracer

/-- Moving the pointer past the entries and getting the scratch registers back ends a plan. -/
theorem Midway.finish (mid : Midway s h₀ h es)
    (room : h₀.buffer.ptr + es.length * Entry.byteSize ≤ h₀.buffer.byteCapacity) :
    h.Completes
      [.advance s.architecture.pointerRegister (es.length * Entry.byteSize),
        .restore s.architecture.pointerRegister .pointer,
        .restore s.architecture.valueRegister .value]
      fun h' => Wrote h₀ h' es := by
  obtain ⟨⟨kept, pointer, same, tracer⟩, _, below, entries⟩ := mid
  have cap := same.byteCapacity
  have offset := offset?_eq pointer (by rw [cap]; exact room)
  have header := h₀.buffer.header_le_ptr
  have moved : headerBytes ≤ h₀.buffer.ptr + es.length * Entry.byteSize ∧
      h₀.buffer.ptr + es.length * Entry.byteSize ≤ h.buffer.byteCapacity :=
    ⟨by omega, by rw [cap]; exact room⟩
  obtain ⟨machine, buffer, t⟩ := h
  have advance : step { machine, buffer, tracer := t }
      (.advance s.architecture.pointerRegister (es.length * Entry.byteSize)) =
      (.ok (), { machine := machine.set s.architecture.pointerRegister
                   (UInt64.ofNat (h₀.buffer.ptr + es.length * Entry.byteSize))
                 buffer := { buffer with
                   ptr := h₀.buffer.ptr + es.length * Entry.byteSize
                   header_le_ptr := moved.1
                   ptr_le := moved.2 }
                 tracer := t }) := by
    simp only at offset moved
    simp only [step, offset, Buffer.setPtr, dif_pos moved]
  refine .cons advance (.cons rfl (.cons rfl (.nil ⟨?_, ?_, tracer⟩)))
  · have kept' := ((kept.set (.inl rfl) (UInt64.ofNat (h₀.buffer.ptr +
      es.length * Entry.byteSize))).set (.inl rfl) (machine.saved .pointer)).set (.inr rfl)
      (machine.saved .value)
    apply kept'.registers_eq
    · rw [Machine.get_set_of_ne _ _ s.architecture.pointerRegister_ne, Machine.get_set_self]
      exact kept.savedPointer
    · rw [Machine.get_set_self]
      exact kept.savedValue
  · exact ⟨same.tid, same.capacity, rfl, same.refs, same.registered, same.phase, same.attached,
      below, entries⟩

/-- Saving the scratch registers and loading the pointer begins a plan. -/
theorem begins (s : Instrumentation) (h : Host σ) :
    h.Completes
      [.spill s.architecture.pointerRegister .pointer, .spill s.architecture.valueRegister .value,
        .loadPointer s.architecture.pointerRegister]
      fun h' => Midway s h h' [] := by
  have kept : Kept s h.machine ((h.machine.save (h.machine.get s.architecture.pointerRegister)
      .pointer).save (h.machine.get s.architecture.valueRegister) .value) :=
    ⟨rfl, rfl, fun r _ _ => by rw [Machine.get_save, Machine.get_save]⟩
  refine .cons rfl (.cons rfl (.cons rfl
    (.nil ⟨⟨?_, ?_, .refl _, rfl⟩, .nil (.refl _) (.refl _ _)⟩)))
  · rw [Machine.get_save]
    exact kept.set (.inl rfl) _
  · exact Machine.get_set_self _ _ _

/-- The operations that lay down all entries of an instruction. -/
def entryOperations (s : Instrumentation) (i : Instruction) : List Operation :=
  (if s.fetches then s.fetchOperations i 0 else []) ++
    s.accessesOperations (if s.fetches then Entry.byteSize else 0) i.accesses

theorem operations_of_traced {i : Instruction} (traced : i.isTraced = true) :
    s.operations i =
      [.spill s.architecture.pointerRegister .pointer, .spill s.architecture.valueRegister .value,
        .loadPointer s.architecture.pointerRegister] ++
      (entryOperations s i ++
        [.advance s.architecture.pointerRegister (s.entryCount i * Entry.byteSize),
          .restore s.architecture.pointerRegister .pointer,
          .restore s.architecture.valueRegister .value]) := by
  rw [Instrumentation.operations, if_pos traced, entryOperations]
  simp only [List.append_assoc]

theorem entryCount_of_traced {i : Instruction} (traced : i.isTraced = true) :
    s.entryCount i = (if s.fetches then 1 else 0) + i.accesses.length := by
  rw [Instrumentation.entryCount, if_pos traced]

theorem Midway.entries (mid : Midway s h₀ h []) {i : Instruction} (traced : i.isTraced = true)
    (room : h₀.buffer.ptr + s.entryCount i * Entry.byteSize ≤ h₀.buffer.byteCapacity) :
    h.Completes (entryOperations s i) fun h' =>
      Midway s h₀ h' (i.entries s.fetches h₀.machine.get) := by
  rw [entryCount_of_traced traced] at room
  rw [Instruction.entries_of_traced traced, entryOperations]
  have kinds : ∀ a ∈ i.accesses, a.1 ≠ .fetch := fun a => Instruction.access_ne_fetch
  cases fetches : s.fetches with
  | false =>
    simp only [fetches, Bool.false_eq_true, if_false, Nat.zero_add] at room ⊢
    have all := mid.accesses i.accesses kinds (by rw [List.length_nil, Nat.zero_add]; exact room)
    rw [List.length_nil, Nat.zero_mul] at all
    exact all
  | true =>
    simp only [fetches, if_true] at room ⊢
    have first := mid.fetch i
      (by rw [List.length_nil]; simp only [Entry.byteSize] at *; omega)
    rw [List.length_nil, Nat.zero_mul] at first
    refine first.append fun h₁ mid₁ => ?_
    have rest := mid₁.accesses i.accesses kinds room
    rw [List.nil_append, List.length_singleton, Nat.one_mul] at rest
    exact rest

theorem Midway.entries_full (mid : Midway s h₀ h []) {i : Instruction}
    (traced : i.isTraced = true) (aligned : h₀.buffer.ptr % Entry.byteSize = 0)
    (full : h₀.buffer.byteCapacity < h₀.buffer.ptr + s.entryCount i * Entry.byteSize) :
    h.Fails (entryOperations s i) (fullError h₀.buffer) (Stopped h₀) := by
  rw [entryCount_of_traced traced] at full
  rw [entryOperations]
  have kinds : ∀ a ∈ i.accesses, a.1 ≠ .fetch := fun a => Instruction.access_ne_fetch
  have inside := h₀.buffer.ptr_le_byteCapacity
  cases fetches : s.fetches with
  | false =>
    simp only [fetches, Bool.false_eq_true, if_false, Nat.zero_add] at full ⊢
    have stop := mid.accesses_full i.accesses kinds aligned
      (by rw [List.length_nil, Nat.zero_mul]; exact inside)
      (by rw [List.length_nil, Nat.zero_add]; exact full)
    rw [List.length_nil, Nat.zero_mul] at stop
    exact stop
  | true =>
    simp only [fetches, if_true] at full ⊢
    by_cases room : h₀.buffer.ptr + 1 * Entry.byteSize ≤ h₀.buffer.byteCapacity
    · have first := mid.fetch i (by rw [List.length_nil]; exact room)
      rw [List.length_nil, Nat.zero_mul] at first
      refine first.append_fails fun h₁ mid₁ => ?_
      have stop := mid₁.accesses_full i.accesses kinds aligned room full
      rw [List.nil_append, List.length_singleton, Nat.one_mul] at stop
      exact stop
    · have used : h₀.buffer.ptr + ([] : List Entry).length * Entry.byteSize =
          h₀.buffer.byteCapacity := by
        rw [List.length_nil]
        simp only [Buffer.byteCapacity, Entry.byteSize] at *
        omega
      have stop := mid.full used Entry.Kind.fetch.code
        ((s.fetchOperations i 0).tail)
      rw [List.length_nil, Nat.zero_mul] at stop
      exact stop.append

/-- A plan whose entries fit is executed to the last operation and leaves no trace but them. -/
theorem exec_operations (s : Instrumentation) (i : Instruction) (h : Host σ)
    (room : h.buffer.ptr + s.entryCount i * Entry.byteSize ≤ h.buffer.byteCapacity) :
    h.Completes (s.operations i) fun h' => Wrote h h' (i.entries s.fetches h.machine.get) := by
  by_cases traced : i.isTraced = true
  · rw [operations_of_traced traced]
    refine (begins s h).append fun h₁ mid₁ => (mid₁.entries traced room).append fun h₂ mid₂ => ?_
    rw [← Instruction.length_entries s i h.machine.get] at room ⊢
    exact mid₂.finish room
  · rw [Instrumentation.operations, if_neg traced, Instruction.entries, if_neg traced]
    exact .nil ⟨rfl, .refl _, rfl⟩

/-- A plan whose entries do not fit stops at the end of the buffer. -/
theorem exec_operations_full (s : Instrumentation) (i : Instruction) (h : Host σ)
    (aligned : h.buffer.ptr % Entry.byteSize = 0)
    (full : h.buffer.byteCapacity < h.buffer.ptr + s.entryCount i * Entry.byteSize) :
    h.Fails (s.operations i) (fullError h.buffer) (Stopped h) := by
  have traced : i.isTraced = true := by
    by_contra untraced
    have inside := h.buffer.ptr_le_byteCapacity
    rw [Instrumentation.entryCount, if_neg untraced] at full
    omega
  rw [operations_of_traced traced]
  exact (begins s h).append_fails fun h₁ mid₁ => (mid₁.entries_full traced aligned full).append

theorem exec_singleton (h : Host σ) (op : Operation) : h.exec [op] = h.step op := by
  rw [exec]
  rcases h.step op with ⟨answer, h₁⟩
  cases answer with
  | ok _ => rfl
  | error _ => rfl

/-- A plan is what its instruction calls for and then the check, if it has one. -/
theorem execute_plan (s : Instrumentation) (i : Instruction) (check : Bool) (h : Host σ) :
    h.execute (s.plan i check) =
      match h.exec (s.operations i) with
      | (.ok (), h₁) => if check then h₁.step .flushCheck else (.ok (), h₁)
      | (.error e, h₁) => (.error e, h₁) := by
  rw [execute, Instrumentation.plan, exec_append]
  rcases h.exec (s.operations i) with ⟨answer, h₁⟩
  cases answer with
  | error _ => rfl
  | ok _ =>
    cases check with
    | false => rfl
    | true => exact h₁.exec_singleton .flushCheck

/-- A check is a delivery that may be put off. -/
theorem step_flushCheck {answer : Except ChannelError FlushOutcome} {b' : Buffer} {c' : σ}
    (flush : h.buffer.flush h.tracer.channel h.tracer.pid .deferrable = (answer, b', c')) :
    h.step .flushCheck = ((answer.map fun _ => ()).mapError .channel,
      { h with buffer := b', tracer := { h.tracer with channel := c' } }) := by
  obtain ⟨machine, buffer, tracer⟩ := h
  simp only [step, Tracer.flush_eq flush]
  cases answer with
  | ok _ => rfl
  | error _ => rfl

end Host

namespace Instrumentation

theorem planBlock_eq {s : Instrumentation} {block : List Instruction} {plans : BlockPlan}
    (planned : s.planBlock block = .ok plans) : plans = s.plansFrom false block := by
  unfold planBlock begin at planned
  split at planned
  · cases planned
  · cases planned
    exact foldl_extend s {} block

/-- Plan and instruction of one place belong together; only the check depends on the rest: it is in
the plan of the first instruction that can carry it, unless the block has its check already. -/
theorem getElem?_plansFrom (s : Instrumentation) (checked : Bool) (block : List Instruction)
    (k : Nat) :
    (s.plansFrom checked block)[k]? =
      block[k]?.map fun i => s.plan i (!checked && block.findIdx? s.canCheck = some k) := by
  induction block generalizing checked k with
  | nil => rfl
  | cons first rest ih =>
    rw [plansFrom, List.findIdx?_cons]
    cases k with
    | zero =>
      rw [List.getElem?_cons_zero, List.getElem?_cons_zero, Option.map_some]
      cases s.canCheck first <;> simp
    | succ k =>
      rw [List.getElem?_cons_succ, List.getElem?_cons_succ, ih]
      cases s.canCheck first <;> cases checked <;> simp

theorem plansFrom_get {s : Instrumentation} {checked : Bool} {block : List Instruction} {k : Nat}
    {i : Instruction} {p : InstructionPlan} (instruction : block[k]? = some i)
    (plan : (s.plansFrom checked block)[k]? = some p) : ∃ check, p = s.plan i check := by
  rw [getElem?_plansFrom, instruction, Option.map_some, Option.some.injEq] at plan
  exact ⟨_, plan.symm⟩

theorem exists_plan_of_mem {s : Instrumentation} {checked : Bool} {block : List Instruction}
    {p : InstructionPlan} (mem : p ∈ s.plansFrom checked block) :
    ∃ i check, p = s.plan i check := by
  obtain ⟨k, plan⟩ := List.mem_iff_getElem?.1 mem
  rw [getElem?_plansFrom] at plan
  obtain ⟨i, _, same⟩ := Option.map_eq_some_iff.1 plan
  exact ⟨i, _, same.symm⟩

end Instrumentation

/-- The operations of a plan, less a check for a delivery at its end. -/
def InstructionPlan.body (p : InstructionPlan) : List Operation :=
  if p.operations.getLast? = some .flushCheck then p.operations.dropLast else p.operations

theorem getLast?_operations (s : Instrumentation) (i : Instruction) :
    (s.operations i).getLast? ≠ some .flushCheck := by
  unfold Instrumentation.operations
  split
  · rw [List.getLast?_append]
    simp
  · simp

/-- The check is the only thing that a plan has besides what its instruction calls for. -/
theorem body_plan (s : Instrumentation) (i : Instruction) (check : Bool) :
    (s.plan i check).body = s.operations i := by
  unfold InstructionPlan.body Instrumentation.plan
  cases check with
  | false => simp [getLast?_operations]
  | true => simp

theorem MemoryOperand.toNat_address (m : MemoryOperand) (value : Register → UInt64) :
    ((m.address value).toNat : Int) =
      ((m.base.elim 0 value).toNat + (m.index.elim 0 value).toNat * m.scale.toNat +
        m.disp.toInt) % 2 ^ 64 := by
  have signed : (m.disp.toUInt64.toNat : Int) % 2 ^ 64 = m.disp.toInt % 2 ^ 64 := by
    have cut := BitVec.toInt_eq_toNat_bmod m.disp.toBitVec
    change _ = Int.bmod (m.disp.toUInt64.toNat : Int) (2 ^ 64) at cut
    change _ = m.disp.toBitVec.toInt % 2 ^ 64
    rw [cut]
    exact Int.bmod_emod.symm
  rw [address, UInt64.toNat_add, UInt64.toNat_add, UInt64.toNat_mul, UInt8.toNat_toUInt64]
  push_cast
  omega

/-- A plan is transparent to the program. Wherever its entries fit, all operations up to the check
are executed, exactly the entries that the instruction calls for are appended, each address computed
from what the registers held before, and registers, earlier bytes and the buffer's standing are as
they were. -/
theorem plan_transparent {σ : Type} [Channel σ] {s : Instrumentation} {block : List Instruction}
    {plans : BlockPlan} (planned : s.planBlock block = .ok plans) {k : Nat} {i : Instruction}
    {p : InstructionPlan} (instruction : block[k]? = some i) (plan : plans[k]? = some p)
    (h : Host σ) (aligned : h.buffer.ptr % Entry.byteSize = 0)
    (room : h.buffer.ptr + Entry.byteSize * p.entries ≤ h.buffer.byteCapacity) :
    ∃ h', h.exec p.body = (.ok (), h') ∧
      h'.buffer.pending =
        h.buffer.pending ++ (i.entries s.fetches h.machine.get).map .ok ∧
      (i.entries s.fetches h.machine.get).length = p.entries ∧
      (∀ m ∈ i.reads ++ i.writes, ((m.address h.machine.get).toNat : Int) =
        ((m.base.elim 0 h.machine.get).toNat +
          (m.index.elim 0 h.machine.get).toNat * m.scale.toNat + m.disp.toInt) % 2 ^ 64) ∧
      h'.machine.registers = h.machine.registers ∧
      (∀ k < h.buffer.ptr, h'.buffer.bytes[k]? = h.buffer.bytes[k]?) ∧
      h'.buffer.ptr = h.buffer.ptr + Entry.byteSize * p.entries ∧
      h'.buffer.refs = h.buffer.refs ∧ h'.buffer.registered = h.buffer.registered ∧
      h'.buffer.phase = h.buffer.phase ∧ h'.tracer = h.tracer := by
  rw [Instrumentation.planBlock_eq planned] at plan
  obtain ⟨check, rfl⟩ := Instrumentation.plansFrom_get instruction plan
  have count : (s.plan i check).entries = s.entryCount i := rfl
  rw [count, Nat.mul_comm] at room
  obtain ⟨h', run, registers, appended, tracer⟩ := Host.exec_operations s i h room
  have length := Instruction.length_entries s i h.machine.get
  refine ⟨h', by rw [body_plan, run], appended.pending aligned, length,
    fun m _ => m.toNat_address _, registers, appended.below, ?_, appended.refs,
    appended.registered, appended.phase, tracer⟩
  rw [appended.ptr, length, count, Nat.mul_comm]

/-- A load through both scratch registers. -/
def aliasedLoad : Instruction where
  pc := 4096
  opcode := 7
  length := 4
  sources := [.memory { base := some 1, index := some 3, scale := 4, disp := -8, size := 8 }]

/-- An empty buffer under a program that keeps 256 and 2 in the scratch registers. -/
def aliasedHost : Host Recorder where
  machine := Machine.setAll {} [(1, 256), (3, 2)]
  buffer :=
    { tid := 9, capacity := 4, bytes := Buffer.emptyBytes 4, two_le_capacity := by decide
      size_bytes := Buffer.size_emptyBytes 4, fits := by decide
      header_le_ptr := Nat.le_refl _, ptr_le := by decide }
  tracer := { pid := 1, channel := {} }

theorem plan_transparent_aliased : ∃ plans p h',
    ({ architecture := .x86, fetches := true } : Instrumentation).planBlock [aliasedLoad] =
      .ok plans ∧ plans[0]? = some p ∧ aliasedHost.exec p.body = (.ok (), h') ∧
    h'.buffer.pending = [.ok (.fetch 7 4 4096), .ok (.read 8 256)] ∧
    h'.machine.registers = aliasedHost.machine.registers ∧ h'.buffer.ptr = 48 := by
  obtain ⟨h', run, pending, _, _, registers, _, ptr, _⟩ :=
    plan_transparent (show ({ architecture := .x86, fetches := true } : Instrumentation).planBlock
      [aliasedLoad] = .ok _ from rfl) (k := 0) rfl rfl aliasedHost (by decide) (by decide)
  refine ⟨_, _, h', rfl, rfl, run, ?_, registers, ptr⟩
  rw [pending]
  decide +kernel

end AccessTrace
