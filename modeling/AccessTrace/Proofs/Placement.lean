import Mathlib
import AccessTrace.Proofs.PlanExecution

/-!
# What the plans of a block are made of

A block has a plan for each instruction, which is that of the instruction on its own
(`Planned`), and one check for a delivery, at the end of the plan of the first instruction that can
carry it (`Placed`). The plans are made one after the other, and all that goes from one to the next
is whether the check was inserted.
-/

namespace AccessTrace

/-- Whether an operation moves the pointer of the buffer. -/
def Operation.isAdvance : Operation → Bool
  | advance _ _ => true
  | _ => false

namespace Instruction

theorem isTraced_iff (i : Instruction) :
    i.isTraced = true ↔ i.inserted = false ∧ i.reads ++ i.writes ≠ [] := by
  simp [isTraced, isOwn, accesses]

theorem length_accesses (i : Instruction) : i.accesses.length = (i.reads ++ i.writes).length := by
  simp [accesses]

end Instruction

namespace Instrumentation

variable {s : Instrumentation} {i : Instruction}

/-- A check for a delivery may stand behind the entries of the instruction. -/
def Checkable (s : Instrumentation) (i : Instruction) : Prop :=
  i.inserted = false ∧ i.reads ++ i.writes ≠ [] ∧ s.architecture.flushAllowed i = true

theorem canCheck_iff (s : Instrumentation) (i : Instruction) :
    s.canCheck i = true ↔ s.Checkable i := by
  rw [canCheck, Bool.and_eq_true, Instruction.isTraced_iff, and_assoc, Checkable]

/-! ## The plan of an instruction -/

theorem mem_accessesOperations {disp : Nat} {accesses : List (Entry.Kind × MemoryOperand)}
    {op : Operation} (mem : op ∈ s.accessesOperations disp accesses) :
    op ≠ .flushCheck ∧ op.isAdvance = false := by
  induction accesses generalizing disp with
  | nil => cases mem
  | cons access rest ih =>
    rw [accessesOperations, List.mem_append] at mem
    rcases mem with here | later
    · simp only [accessOperations, List.mem_append] at here
      rcases here with ((stored | pointer) | value) | address
      · fin_cases stored <;> exact ⟨by rintro ⟨⟩, rfl⟩
      · split at pointer
        · fin_cases pointer
          exact ⟨by rintro ⟨⟩, rfl⟩
        · cases pointer
      · split at value
        · fin_cases value
          exact ⟨by rintro ⟨⟩, rfl⟩
        · cases value
      · fin_cases address <;> exact ⟨by rintro ⟨⟩, rfl⟩
    · exact ih later

/-- Laying down entries neither checks for a delivery nor moves the pointer. -/
theorem mem_entryOperations {op : Operation} (mem : op ∈ Host.entryOperations s i) :
    op ≠ .flushCheck ∧ op.isAdvance = false := by
  rw [Host.entryOperations, List.mem_append] at mem
  rcases mem with fetch | access
  · split at fetch
    · fin_cases fetch <;> exact ⟨by rintro ⟨⟩, rfl⟩
    · cases fetch
  · exact mem_accessesOperations access

theorem flushCheck_not_mem (s : Instrumentation) (i : Instruction) :
    .flushCheck ∉ s.operations i := by
  by_cases traced : i.isTraced = true
  · rw [Host.operations_of_traced traced]
    have without : .flushCheck ∉ Host.entryOperations s i := fun mem =>
      (mem_entryOperations mem).1 rfl
    simp [without]
  · rw [operations, if_neg traced]
    exact List.not_mem_nil

/-- The plan of an instruction has a check exactly if it was given one. -/
theorem mem_plan_flushCheck (s : Instrumentation) (i : Instruction) (check : Bool) :
    .flushCheck ∈ (s.plan i check).operations ↔ check = true := by
  cases check <;> simp [plan, flushCheck_not_mem]

theorem hasFlushCheck_plan (s : Instrumentation) (i : Instruction) (check : Bool) :
    (s.plan i check).hasFlushCheck = check := by
  rw [InstructionPlan.hasFlushCheck, Bool.eq_iff_iff, List.contains_iff_mem, mem_plan_flushCheck]

theorem count_flushCheck_plan (s : Instrumentation) (i : Instruction) (check : Bool) :
    (s.plan i check).operations.count .flushCheck = check.toNat := by
  cases check <;> simp [plan, List.count_eq_zero_of_not_mem (flushCheck_not_mem s i)]

/-- The pointer is moved once, past all entries. -/
theorem filter_isAdvance (traced : i.isTraced = true) (check : Bool) :
    (s.plan i check).operations.filter Operation.isAdvance =
      [.advance s.architecture.pointerRegister (s.entryCount i * Entry.byteSize)] := by
  have none : (Host.entryOperations s i).filter Operation.isAdvance = [] :=
    List.filter_eq_nil_iff.2 fun op mem => by simp [(mem_entryOperations mem).2]
  have checks : (if check then [Operation.flushCheck] else []).filter Operation.isAdvance = [] := by
    cases check <;> rfl
  rw [plan, List.filter_append, checks, Host.operations_of_traced traced]
  simp only [List.filter_append, none]
  rfl

/-- What the plan `p` of an instruction is, wherever it stands. -/
structure Planned (s : Instrumentation) (i : Instruction) (p : InstructionPlan) : Prop where
  /-- It is empty exactly if the instruction is not the program's own or accesses no memory. -/
  empty : p.isEmpty = true ↔ i.inserted = true ∨ i.reads ++ i.writes = []
  /-- Up to a check at its end it is the plan of the instruction as a block of its own. -/
  alone : ∃ q, s.planBlock [i] = .ok [q] ∧ p.body = q.body ∧ p.entries = q.entries
  entries : p.isEmpty = false →
    p.entries = (i.reads ++ i.writes).length + if s.fetches then 1 else 0
  advance : p.isEmpty = false → p.operations.filter Operation.isAdvance =
    [.advance s.architecture.pointerRegister (Entry.byteSize * p.entries)]
  /-- A check comes last, once both scratch registers have been got back. -/
  check : .flushCheck ∈ p.operations → ∃ front, .flushCheck ∉ front ∧ p.operations = front ++
    [.restore s.architecture.pointerRegister .pointer,
      .restore s.architecture.valueRegister .value, .flushCheck]

theorem isEmpty_plan (traced : i.isTraced = true) (check : Bool) :
    (s.plan i check).isEmpty = false := by
  rw [InstructionPlan.isEmpty, plan, Host.operations_of_traced traced]
  rfl

/-- A check is for instructions that are traced. -/
theorem planned_plan {check : Bool} (carries : check = true → i.isTraced = true) :
    s.Planned i (s.plan i check) := by
  have alone : ∃ q, s.planBlock [i] = .ok [q] ∧ (s.plan i check).body = q.body ∧
      (s.plan i check).entries = q.entries := by
    refine ⟨s.plan i (!false && s.canCheck i), rfl, ?_, rfl⟩
    rw [body_plan, body_plan]
  by_cases traced : i.isTraced = true
  · have written := isEmpty_plan (s := s) traced check
    refine ⟨?_, alone, fun _ => ?_, fun _ => ?_, fun checks => ?_⟩
    · obtain ⟨own, accesses⟩ := i.isTraced_iff.1 traced
      simp [written, own, accesses]
    · rw [← i.length_accesses, plan, Host.entryCount_of_traced traced, Nat.add_comm]
    · rw [filter_isAdvance traced, Nat.mul_comm]
      rfl
    · rw [mem_plan_flushCheck] at checks
      have entries : .flushCheck ∉ Host.entryOperations s i := fun mem =>
        (mem_entryOperations mem).1 rfl
      refine ⟨[.spill s.architecture.pointerRegister .pointer,
        .spill s.architecture.valueRegister .value,
        .loadPointer s.architecture.pointerRegister] ++ (Host.entryOperations s i ++
          [.advance s.architecture.pointerRegister (s.entryCount i * Entry.byteSize)]), ?_, ?_⟩
      · simp [entries]
      · rw [plan, checks, Host.operations_of_traced traced]
        simp only [if_true, List.append_assoc, List.cons_append, List.nil_append]
  · have unchecked : check = false := by
      cases check with
      | false => rfl
      | true => exact absurd (carries rfl) traced
    subst unchecked
    have nothing : s.plan i false = { operations := [], entries := 0 } := by
      rw [plan, operations, if_neg traced, entryCount, if_neg traced]
      rfl
    refine ⟨?_, alone, ?_, ?_, ?_⟩ <;> rw [nothing]
    · rw [Instruction.isTraced_iff, not_and_or, Bool.not_eq_false, not_not] at traced
      exact iff_of_true rfl traced
    all_goals
      intro never
      cases never

/-! ## The plans of a block -/

/-- What the plans of a block are. -/
structure Placed (s : Instrumentation) (block : List Instruction) (plans : BlockPlan) : Prop where
  length : plans.length = block.length
  planned : ∀ (k : Nat) i p, block[k]? = some i → plans[k]? = some p → s.Planned i p
  /-- There is at most one check in all plans together. -/
  once : (plans.flatMap (·.operations)).count .flushCheck ≤ 1
  /-- It is in the plan of the first instruction that can carry it. -/
  first : ∀ (k : Nat) i p, block[k]? = some i → plans[k]? = some p →
    (.flushCheck ∈ p.operations ↔
      s.Checkable i ∧ ∀ j < k, ∀ i', block[j]? = some i' → ¬ s.Checkable i')

theorem length_plansFrom (s : Instrumentation) (checked : Bool) (block : List Instruction) :
    (s.plansFrom checked block).length = block.length := by
  induction block generalizing checked with
  | nil => rfl
  | cons first rest ih => rw [plansFrom, List.length_cons, ih, List.length_cons]

/-- A block that has its check gets no other, and one that has not gets it if an instruction can
carry it. -/
theorem count_plansFrom (s : Instrumentation) (checked : Bool) (block : List Instruction) :
    ((s.plansFrom checked block).flatMap (·.operations)).count .flushCheck =
      (!checked && block.any s.canCheck).toNat := by
  induction block generalizing checked with
  | nil => cases checked <;> rfl
  | cons first rest ih =>
    rw [plansFrom, List.flatMap_cons, List.count_append, count_flushCheck_plan, ih, List.any_cons]
    cases checked <;> cases s.canCheck first <;> simp

theorem findIdx?_canCheck {block : List Instruction} {k : Nat} {i : Instruction}
    (instruction : block[k]? = some i) :
    block.findIdx? s.canCheck = some k ↔
      s.Checkable i ∧ ∀ j < k, ∀ i', block[j]? = some i' → ¬ s.Checkable i' := by
  obtain ⟨inside, rfl⟩ := List.getElem?_eq_some_iff.1 instruction
  rw [List.findIdx?_eq_some_iff_getElem]
  constructor
  · rintro ⟨_, here, before⟩
    refine ⟨(s.canCheck_iff _).1 here, fun j less i' earlier checkable => ?_⟩
    obtain ⟨_, rfl⟩ := List.getElem?_eq_some_iff.1 earlier
    exact before j less ((s.canCheck_iff _).2 checkable)
  · rintro ⟨here, before⟩
    refine ⟨inside, (s.canCheck_iff _).2 here, fun j less checks => ?_⟩
    have earlier : block[j]? = some block[j] := List.getElem?_eq_getElem (by omega)
    exact before j less _ earlier ((s.canCheck_iff _).1 checks)

theorem placed_plansFrom (s : Instrumentation) (block : List Instruction) :
    s.Placed block (s.plansFrom false block) := by
  refine ⟨s.length_plansFrom false block, ?_, ?_, ?_⟩
  · intro k i p instruction plan
    rw [getElem?_plansFrom, instruction, Option.map_some, Option.some.injEq] at plan
    subst plan
    apply planned_plan
    intro carries
    have checkable := (findIdx?_canCheck (s := s) instruction).1 (by simpa using carries)
    exact i.isTraced_iff.2 ⟨checkable.1.1, checkable.1.2.1⟩
  · rw [count_plansFrom]
    exact Bool.toNat_le _
  · intro k i p instruction plan
    rw [getElem?_plansFrom, instruction, Option.map_some, Option.some.injEq] at plan
    subst plan
    rw [mem_plan_flushCheck, ← findIdx?_canCheck instruction]
    simp

/-- A block of instructions has its plans, unless there are more than one allocation can hold, which
is more than there can be instructions in memory: one for each instruction, which but for the check
is that of the instruction alone, and the check behind the entries of the first instruction that can
carry it. -/
theorem planBlock_placed (s : Instrumentation) (block : List Instruction) :
    (∃ plans, s.planBlock block = .ok plans ∧ s.Placed block plans) ∨
      s.planBlock block = .error .blockPlans ∧ allocationLimit < block.length * planBytes := by
  by_cases large : allocationLimit < block.length * planBytes
  · right
    refine ⟨?_, large⟩
    rw [planBlock, begin, if_pos large]
    rfl
  · left
    refine ⟨s.plansFrom false block, ?_, s.placed_plansFrom block⟩
    rw [planBlock, begin, if_neg large]
    exact congrArg Except.ok (foldl_extend s {} block)

example : (({ architecture := .arm } : Instrumentation).plansFrom false
    [{ aliasedLoad with predicated := true }, { aliasedLoad with exclusiveStore := true },
      aliasedLoad, aliasedLoad]).map (·.hasFlushCheck) = [false, false, true, false] := by
  decide

end Instrumentation

end AccessTrace
