import Mathlib
import AccessTrace.Host.Execution
import AccessTrace.Proofs.Slots

/-!
# Executing operations one by one

How a list of operations ends: it completes (`Completes`) or stops at an error (`Fails`), with what
is known of the host then. A store through a register that holds the buffer pointer completes where
its bytes fit (`storeAt_fits`) and stops at the end of the buffer (`storeAt_full`).
-/

namespace AccessTrace

namespace Buffer

theorem byteCapacity_lt_wordLimit (b : Buffer) : b.byteCapacity < wordLimit := by
  have fits := b.fits
  rw [byteCapacity]
  simp only [allocationLimit, wordLimit, UInt64.size] at *
  omega

theorem ptr_le_byteCapacity (b : Buffer) : b.ptr ≤ b.byteCapacity := b.ptr_le

end Buffer

theorem MemoryOperand.address_congr {m : MemoryOperand} {value value' : Register → UInt64}
    (same : ∀ r, m.uses r = true → value r = value' r) : m.address value = m.address value' := by
  obtain ⟨base, index, scale, disp, size⟩ := m
  have atBase : base.elim 0 value = base.elim 0 value' := by
    cases base with
    | none => rfl
    | some r => exact same r (by simp [uses])
  have atIndex : index.elim 0 value = index.elim 0 value' := by
    cases index with
    | none => rfl
    | some r => exact same r (by simp [uses])
  simp only [address, atBase, atIndex]

namespace Host

variable {σ : Type} [Channel σ]

/-- The operations are executed to the last, and the host then satisfies `Q`. -/
def Completes (h : Host σ) (ops : List Operation) (Q : Host σ → Prop) : Prop :=
  ∃ h', h.exec ops = (.ok (), h') ∧ Q h'

/-- An operation fails with the error `e`, and the host then satisfies `Q`. -/
def Fails (h : Host σ) (ops : List Operation) (e : TraceError) (Q : Host σ → Prop) : Prop :=
  ∃ h', h.exec ops = (.error e, h') ∧ Q h'

theorem Completes.nil {h : Host σ} {Q : Host σ → Prop} (q : Q h) : h.Completes [] Q := ⟨h, rfl, q⟩

theorem Completes.cons {h h' : Host σ} {op : Operation} {ops : List Operation} {Q : Host σ → Prop}
    (here : h.step op = (.ok (), h')) (rest : h'.Completes ops Q) : h.Completes (op :: ops) Q := by
  obtain ⟨last, run, q⟩ := rest
  refine ⟨last, ?_, q⟩
  rw [exec, here]
  exact run

theorem Completes.append {h : Host σ} {ops more : List Operation} {P Q : Host σ → Prop}
    (first : h.Completes ops P) (rest : ∀ h', P h' → h'.Completes more Q) :
    h.Completes (ops ++ more) Q := by
  obtain ⟨middle, run, p⟩ := first
  obtain ⟨last, run', q⟩ := rest middle p
  refine ⟨last, ?_, q⟩
  rw [exec_append, run]
  exact run'

theorem Completes.step {h : Host σ} {op : Operation} {ops : List Operation} {P Q : Host σ → Prop}
    (first : h.Completes [op] P) (rest : ∀ h', P h' → h'.Completes ops Q) :
    h.Completes (op :: ops) Q := first.append rest

theorem Completes.mono {h : Host σ} {ops : List Operation} {P Q : Host σ → Prop}
    (completes : h.Completes ops P) (weaker : ∀ h', P h' → Q h') : h.Completes ops Q := by
  obtain ⟨last, run, p⟩ := completes
  exact ⟨last, run, weaker last p⟩

theorem Fails.cons {h h' : Host σ} {op : Operation} {ops : List Operation} {e : TraceError}
    {Q : Host σ → Prop} (here : h.step op = (.error e, h')) (q : Q h') :
    h.Fails (op :: ops) e Q := by
  refine ⟨h', ?_, q⟩
  rw [exec, here]

theorem Fails.append {h : Host σ} {ops more : List Operation} {e : TraceError} {Q : Host σ → Prop}
    (fails : h.Fails ops e Q) : h.Fails (ops ++ more) e Q := by
  obtain ⟨last, run, q⟩ := fails
  refine ⟨last, ?_, q⟩
  rw [exec_append, run]

theorem Completes.append_fails {h : Host σ} {ops more : List Operation} {e : TraceError}
    {P Q : Host σ → Prop} (first : h.Completes ops P) (rest : ∀ h', P h' → h'.Fails more e Q) :
    h.Fails (ops ++ more) e Q := by
  obtain ⟨middle, run, p⟩ := first
  obtain ⟨last, run', q⟩ := rest middle p
  refine ⟨last, ?_, q⟩
  rw [exec_append, run]
  exact run'

omit [Channel σ] in
theorem offset?_eq {h : Host σ} {base : Register} {ptr disp : Nat}
    (holds : h.machine.get base = UInt64.ofNat ptr) (inside : ptr + disp ≤ h.buffer.byteCapacity) :
    h.machine.offset? base disp = some (ptr + disp) := by
  have limit := h.buffer.byteCapacity_lt_wordLimit
  have word : (UInt64.ofNat ptr).toNat = ptr :=
    UInt64.toNat_ofNat_of_lt' (show ptr < wordLimit by omega)
  rw [Machine.offset?, holds, word]
  exact if_pos (by omega)

/-- What a machine holds once a value was put into the scratch register, if there is one. -/
def scratched (m : Machine) (scratch : Option (Register × UInt64)) : Machine :=
  match scratch with
  | none => m
  | some (r, value) => m.set r value

omit [Channel σ] in
theorem storeAt_fits {h : Host σ} {base : Register} {ptr disp : Nat} (bs : List UInt8)
    (scratch : Option (Register × UInt64)) (holds : h.machine.get base = UInt64.ofNat ptr)
    (room : ptr + disp + bs.length ≤ h.buffer.byteCapacity) :
    h.storeAt base disp bs scratch =
      (.ok (), { h with machine := scratched h.machine scratch
                        buffer := h.buffer.overwrite (ptr + disp) bs }) := by
  have offset : h.machine.offset? base disp = some (ptr + disp) := offset?_eq holds (by omega)
  obtain ⟨machine, buffer, tracer⟩ := h
  simp only at offset room
  simp only [storeAt, offset, Buffer.store, if_pos room]
  cases scratch <;> rfl

omit [Channel σ] in
theorem storeAt_full {h : Host σ} {base : Register} {ptr disp : Nat} (bs : List UInt8)
    (scratch : Option (Register × UInt64)) (holds : h.machine.get base = UInt64.ofNat ptr)
    (full : ptr + disp = h.buffer.byteCapacity) (nonempty : 0 < bs.length) :
    h.storeAt base disp bs scratch =
      (.error (.resource (.overflow h.buffer.byteCapacity h.buffer.byteCapacity)),
        { h with machine := scratched h.machine scratch }) := by
  have offset : h.machine.offset? base disp = some (ptr + disp) := offset?_eq holds (by omega)
  obtain ⟨machine, buffer, tracer⟩ := h
  simp only at offset full
  simp only [storeAt, offset, Buffer.store, full, if_neg (show
    ¬ buffer.byteCapacity + bs.length ≤ buffer.byteCapacity by omega)]
  cases scratch <;> rfl

end Host

end AccessTrace
