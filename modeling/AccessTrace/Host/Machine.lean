import AccessTrace.Code.Operation
import AccessTrace.Resource

/-!
# The machine of a thread

The registers of a thread and the two slots in which scratch registers are saved.
-/

namespace AccessTrace

/-- The number of registers. -/
def registerCount : Nat := 256

theorem toNat_lt_registerCount (r : Register) : r.toNat < registerCount := r.toNat_lt

/-- What a thread's registers and spill slots hold. -/
structure Machine where
  registers : Vector UInt64 registerCount := Vector.replicate registerCount 0
  /-- What the slot of the pointer register holds. -/
  savedPointer : UInt64 := 0
  /-- What the slot of the value register holds. -/
  savedValue : UInt64 := 0
  deriving DecidableEq

namespace Machine

/-- What a register holds. -/
def get (m : Machine) (r : Register) : UInt64 := m.registers.get ⟨r.toNat, toNat_lt_registerCount r⟩

/-- Puts a value into a register. -/
def set (m : Machine) (r : Register) (value : UInt64) : Machine :=
  { m with registers := m.registers.set r.toNat value (toNat_lt_registerCount r) }

/-- Puts values into registers, one after the other. -/
def setAll (m : Machine) (values : List (Register × UInt64)) : Machine :=
  values.foldl (fun m (r, value) => m.set r value) m

/-- What a spill slot holds. -/
def saved (m : Machine) : SpillSlot → UInt64
  | .pointer => m.savedPointer
  | .value => m.savedValue

/-- Puts a value into a spill slot. -/
def save (m : Machine) (value : UInt64) : SpillSlot → Machine
  | .pointer => { m with savedPointer := value }
  | .value => { m with savedValue := value }

@[simp] theorem get_set_self (m : Machine) (r : Register) (value : UInt64) :
    (m.set r value).get r = value :=
  Vector.getElem_set_self (toNat_lt_registerCount r)

theorem get_set_of_ne (m : Machine) {r s : Register} (value : UInt64) (h : s ≠ r) :
    (m.set r value).get s = m.get s :=
  Vector.getElem_set_ne (toNat_lt_registerCount r) (toNat_lt_registerCount s)
    fun e => h (UInt8.toNat_inj.1 e).symm

@[simp] theorem saved_set (m : Machine) (r : Register) (value : UInt64) (slot : SpillSlot) :
    (m.set r value).saved slot = m.saved slot := by cases slot <;> rfl

@[simp] theorem get_save (m : Machine) (value : UInt64) (slot : SpillSlot) (r : Register) :
    (m.save value slot).get r = m.get r := by cases slot <;> rfl

/-- The sum of a register and a displacement, if it is a machine word. -/
def offset? (m : Machine) (base : Register) (disp : Nat) : Option Nat :=
  let offset := (m.get base).toNat + disp
  if offset < wordLimit then some offset else none

/-- The registers that are not zero, in ascending order. -/
def inUse (m : Machine) : List (Register × UInt64) :=
  (m.registers.toList.zipIdx.filter (·.1 ≠ 0)).map fun (value, r) => (UInt8.ofNat r, value)

/-- The text of a machine: the registers in use and both spill slots. -/
def text (m : Machine) : String :=
  let registers := m.inUse.map fun (r, value) => s!"Reg({r}): {value}"
  "Machine \x7b regs: \x7b" ++ ", ".intercalate registers ++
    s!"\x7d, spill_slots: [{m.savedPointer}, {m.savedValue}] \x7d"

end Machine

end AccessTrace
