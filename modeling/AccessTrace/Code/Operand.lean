import AccessTrace.Text.Hex

/-!
# Operands

Registers, memory references and the other operands of an observed instruction.
-/

namespace AccessTrace

/-- A register, by number. -/
abbrev Register := UInt8

/-- The name of a register. -/
def registerName (r : Register) : String := s!"r{r}"

/-- A reference to the `size` bytes at `base + index * scale + disp`. -/
structure MemoryOperand where
  base : Option Register := none
  index : Option Register := none
  scale : UInt8 := 1
  disp : Int64 := 0
  size : UInt16
  deriving DecidableEq

namespace MemoryOperand

/-- The registers that the address is computed from, in the order in which they are read. -/
def registers (m : MemoryOperand) : List Register := m.base.toList ++ m.index.toList

/-- Whether the address depends on a register. -/
def uses (m : MemoryOperand) (r : Register) : Bool := m.base = some r || m.index = some r

/-- The address, modulo `2 ^ 64`, given what the registers hold. -/
def address (m : MemoryOperand) (value : Register → UInt64) : UInt64 :=
  m.base.elim 0 value + m.index.elim 0 value * m.scale.toUInt64 + m.disp.toUInt64

/-- The displacement as it is written behind another term, and on its own as the address of
which it is the two's complement. -/
def dispText (disp : Int64) (alone : Bool) : String :=
  if alone then hex disp.toUInt64.toNat
  else if disp = 0 then ""
  else if disp < 0 then " - " ++ hex disp.toInt.natAbs
  else " + " ++ hex disp.toInt.natAbs

/-- The text of a reference. -/
def text (m : MemoryOperand) : String :=
  let terms := (m.base.map registerName).toList ++
    (m.index.map fun index => s!"{registerName index}*{m.scale}").toList
  let address := " + ".intercalate terms ++ dispText m.disp terms.isEmpty
  s!"[{address}]:{m.size}"

end MemoryOperand

/-- An operand of an instruction. -/
inductive Operand where
  | register (r : Register)
  | immediate (value : Int64)
  | memory (reference : MemoryOperand)
  deriving DecidableEq

/-- The memory reference that an operand is. -/
def Operand.memory? : Operand → Option MemoryOperand
  | memory reference => some reference
  | register _ | immediate _ => none

end AccessTrace
