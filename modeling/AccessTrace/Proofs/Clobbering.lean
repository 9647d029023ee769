import Mathlib
import AccessTrace.Channel.Recorder
import AccessTrace.Proofs.PlanExecution

/-!
# Hosts that clobber a register

A host may leave what it likes in the scratch register of an address computation
(`stepClobbering`). That makes no difference where the register is given another value before it is
read, with nothing in between that can fail (`Dead`). Plans give it one behind every address that
they compute (`Sheltered`), so that they go the same way on all such hosts
(`clobbering_unnoticed`).
-/

namespace AccessTrace

namespace Machine

theorem set_set (m : Machine) (r : Register) (value value' : UInt64) :
    (m.set r value).set r value' = m.set r value' := by
  simp [set]

theorem set_comm (m : Machine) {r s : Register} (h : r ≠ s) (value value' : UInt64) :
    (m.set r value).set s value' = (m.set s value').set r value := by
  have apart : r.toNat ≠ s.toNat := fun same => h (UInt8.toNat_inj.1 same)
  simp only [set, mk.injEq, and_true]
  exact Vector.set_comm value value' apart

theorem save_set (m : Machine) (r : Register) (value value' : UInt64) (slot : SpillSlot) :
    (m.set r value).save value' slot = (m.save value' slot).set r value := by
  cases slot <;> rfl

theorem address_set (m : Machine) {r : Register} (value : UInt64) {reference : MemoryOperand}
    (unused : reference.uses r = false) :
    reference.address (m.set r value).get = reference.address m.get := by
  apply MemoryOperand.address_congr
  intro s used
  apply get_set_of_ne
  rintro rfl
  rw [unused] at used
  cases used

end Machine

/-- The register is given a value before it is read, and nothing that can fail stands before
that. -/
def Dead (r : Register) : List Operation → Prop
  | .loadPointer dst :: rest => dst = r ∨ Dead r rest
  | .restore reg _ :: rest => reg = r ∨ Dead r rest
  | .loadAddress reference dst _ :: rest => reference.uses r = false ∧ (dst = r ∨ Dead r rest)
  | .spill reg _ :: rest => reg ≠ r ∧ Dead r rest
  | _ => False

theorem Dead.append {r : Register} {ops : List Operation} (dead : Dead r ops)
    (more : List Operation) : Dead r (ops ++ more) := by
  induction ops with
  | nil => exact dead.elim
  | cons op rest ih =>
    cases op with
    | loadPointer dst => exact dead.imp id ih
    | restore reg slot => exact dead.imp id ih
    | loadAddress reference dst scratch => exact ⟨dead.1, dead.2.imp id ih⟩
    | spill reg slot => exact ⟨dead.1, ih dead.2⟩
    | _ => exact dead.elim

/-- Behind every address that is computed the scratch register is dead. -/
def Sheltered : List Operation → Prop
  | [] => True
  | .loadAddress _ dst scratch :: rest => dst ≠ scratch ∧ Dead scratch rest ∧ Sheltered rest
  | _ :: rest => Sheltered rest

theorem Sheltered.append {ops more : List Operation} (first : Sheltered ops)
    (second : Sheltered more) : Sheltered (ops ++ more) := by
  induction ops with
  | nil => exact second
  | cons op rest ih =>
    cases op with
    | loadAddress reference dst scratch =>
      obtain ⟨apart, dead, later⟩ := first
      exact ⟨apart, dead.append more, ih later⟩
    | _ => exact ih first

namespace Instrumentation

theorem sheltered_accessOperations (s : Instrumentation) (kind : Entry.Kind) (m : MemoryOperand)
    (disp : Nat) : Sheltered (s.accessOperations kind m disp) := by
  -- The pointer register, which is the scratch register, is loaded right behind the address.
  have address : Sheltered
      [.loadAddress m s.architecture.valueRegister s.architecture.pointerRegister,
        .loadPointer s.architecture.pointerRegister,
        .storeRegister s.architecture.pointerRegister (disp + Entry.addrOffset)
          s.architecture.valueRegister] :=
    ⟨s.architecture.pointerRegister_ne.symm, .inl rfl, trivial⟩
  refine .append (.append (.append trivial ?_) ?_) address
  · split <;> trivial
  · split <;> trivial

theorem sheltered_accessesOperations (s : Instrumentation) (disp : Nat)
    (accesses : List (Entry.Kind × MemoryOperand)) :
    Sheltered (s.accessesOperations disp accesses) := by
  induction accesses generalizing disp with
  | nil => trivial
  | cons access rest ih => exact (s.sheltered_accessOperations _ _ _).append (ih _)

theorem sheltered_plan (s : Instrumentation) (i : Instruction) (check : Bool) :
    Sheltered (s.plan i check).operations := by
  have entries : Sheltered (s.operations i) := by
    unfold operations
    split
    · refine .append (.append (.append trivial ?_) (s.sheltered_accessesOperations _ _)) trivial
      split <;> trivial
    · trivial
  refine entries.append ?_
  cases check <;> trivial

end Instrumentation

namespace Host

variable {σ : Type} [Channel σ]

/-- Executes an operation on a host that clobbers: once the registers of an address have been read,
`left` is left in the scratch register. -/
def stepClobbering (h : Host σ) (left : UInt64) : Operation → Except TraceError Unit × Host σ
  | .loadAddress reference dst scratch =>
    (.ok (), { h with
      machine := (h.machine.set scratch left).set dst (reference.address h.machine.get) })
  | op => h.step op

/-- Executes operations on a host that clobbers until one fails; `left n` is what may be left behind
by the `n`-th of them. -/
def execClobbering (h : Host σ) (left : Nat → UInt64) :
    List Operation → Except TraceError Unit × Host σ
  | [] => (.ok (), h)
  | op :: ops =>
    match h.stepClobbering (left 0) op with
    | (.ok (), h) => execClobbering h (fun n => left (n + 1)) ops
    | (.error e, h) => (.error e, h)

/-- What a dead register holds makes no difference. -/
theorem exec_of_dead {r : Register} {ops : List Operation} (dead : Dead r ops) (machine : Machine)
    (buffer : Buffer) (tracer : Tracer σ) (value : UInt64) :
    exec { machine := machine.set r value, buffer, tracer } ops =
      exec { machine, buffer, tracer } ops := by
  induction ops generalizing machine with
  | nil => exact dead.elim
  | cons op rest ih =>
    -- A register that is set next makes up for the difference, or lets it go on.
    have next : ∀ dst value', dst = r ∨ Dead r rest →
        exec { machine := (machine.set r value).set dst value', buffer, tracer } rest =
          exec { machine := machine.set dst value', buffer, tracer } rest := by
      intro dst value' later
      by_cases same : dst = r
      · rw [same, Machine.set_set]
      · rw [Machine.set_comm _ (Ne.symm same)]
        exact ih (later.resolve_left same) _
    cases op with
    | loadPointer dst => exact next dst _ dead
    | restore reg slot =>
      simp only [exec, step, Machine.saved_set]
      exact next reg _ dead
    | loadAddress reference dst scratch =>
      simp only [exec, step, machine.address_set value dead.1]
      exact next dst _ dead.2
    | spill reg slot =>
      simp only [exec, step, Machine.get_set_of_ne _ value dead.1, Machine.save_set]
      exact ih dead.2 _
    | _ => exact dead.elim

/-- Where all scratch registers are dead, clobbering them makes no difference at all. -/
theorem exec_clobbering {ops : List Operation} (sheltered : Sheltered ops) (h : Host σ)
    (left : Nat → UInt64) : h.execClobbering left ops = h.exec ops := by
  induction ops generalizing h left with
  | nil => rfl
  | cons op rest ih =>
    -- All other operations are executed alike, and the rest by induction.
    have same : Sheltered rest → h.stepClobbering (left 0) op = h.step op →
        h.execClobbering left (op :: rest) = h.exec (op :: rest) := by
      intro later alike
      rw [execClobbering, exec, alike]
      rcases h.step op with ⟨answer, h'⟩
      cases answer with
      | ok _ => exact ih later h' _
      | error _ => rfl
    cases op with
    | loadAddress reference dst scratch =>
      obtain ⟨apart, dead, later⟩ := sheltered
      obtain ⟨machine, buffer, tracer⟩ := h
      simp only [execClobbering, stepClobbering, exec, step]
      rw [ih later, Machine.set_comm _ apart.symm]
      exact exec_of_dead dead _ buffer tracer _
    | _ => exact same sheltered rfl

end Host

/-- A plan goes the same way on every host that leaves whatever it likes in the scratch register of
an address computation: with the same answer, whether the plan fails or not, and the same
registers, buffer and channel, so that the same messages were sent. -/
theorem clobbering_unnoticed {σ : Type} [Channel σ] {s : Instrumentation}
    {block : List Instruction} {plans : BlockPlan} (planned : s.planBlock block = .ok plans)
    {p : InstructionPlan} (mem : p ∈ plans) (h : Host σ) (left : Nat → UInt64) :
    h.execClobbering left p.operations = h.execute p := by
  rw [Instrumentation.planBlock_eq planned] at mem
  obtain ⟨i, check, rfl⟩ := Instrumentation.exists_plan_of_mem mem
  exact Host.exec_clobbering (s.sheltered_plan i check) h left

/-- Behind the address of a load that the pointer register is part of, the registers do differ. -/
theorem clobbering_unnoticed_aliased : ∃ plans p,
    ({ architecture := .x86, fetches := true } : Instrumentation).planBlock [aliasedLoad] =
      .ok plans ∧ p ∈ plans ∧
    (aliasedHost.execClobbering (fun _ => 77) (p.operations.take 12)).2.machine ≠
      (aliasedHost.exec (p.operations.take 12)).2.machine ∧
    aliasedHost.execClobbering (fun _ => 77) p.operations = aliasedHost.execute p := by
  have planned : ({ architecture := .x86, fetches := true } : Instrumentation).planBlock
    [aliasedLoad] = .ok _ := rfl
  refine ⟨_, _, planned, List.mem_cons_self, by decide +kernel, ?_⟩
  exact clobbering_unnoticed planned List.mem_cons_self aliasedHost _

end AccessTrace
