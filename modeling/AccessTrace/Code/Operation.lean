import AccessTrace.Code.Operand
import AccessTrace.Entry.Layout
import AccessTrace.Resource

/-!
# Inserted operations

The operations that a host executes before an instruction to write its entries, and their plans.
Offsets are relative to the register that holds the buffer pointer.
-/

namespace AccessTrace

/-- Where the value of a scratch register is kept while the register is in use. -/
inductive SpillSlot where
  /-- The slot of the register that holds the buffer pointer. -/
  | pointer
  /-- The slot of the register that holds the values. -/
  | value
  deriving DecidableEq

/-- The word for a spill slot. -/
def SpillSlot.word : SpillSlot → String
  | pointer => "Ptr"
  | value => "Tmp"

/-- One operation. -/
inductive Operation where
  /-- Saves a register in a slot. -/
  | spill (reg : Register) (slot : SpillSlot)
  /-- Gets a register back from a slot. -/
  | restore (reg : Register) (slot : SpillSlot)
  /-- Loads the buffer pointer of the thread. -/
  | loadPointer (dst : Register)
  /-- Loads a value into `scratch` and stores its two bytes at `base + disp`. -/
  | storeImmediate16 (base scratch : Register) (disp : Nat) (value : UInt16)
  /-- Loads a value into `scratch` and stores its eight bytes at `base + disp`. -/
  | storeImmediate64 (base scratch : Register) (disp : Nat) (value : UInt64)
  /-- Computes the address of a reference. The host may use `scratch` as it likes. -/
  | loadAddress (reference : MemoryOperand) (dst scratch : Register)
  /-- Stores the eight bytes of `src` at `base + disp`. -/
  | storeRegister (base : Register) (disp : Nat) (src : Register)
  /-- Adds `amount` to a register and makes it the buffer pointer of the thread. -/
  | advance (reg : Register) (amount : Nat)
  /-- Delivers the buffer unless that can be put off. -/
  | flushCheck
  deriving DecidableEq

/-- The text of the `width` bytes at `base + disp`. -/
def cellText (base : Register) (disp width : Nat) : String :=
  s!"[{registerName base} + {hex disp}]:{width}"

/-- The text of an operation. -/
def Operation.text : Operation → String
  | spill reg slot => s!"spill {registerName reg} -> {slot.word}"
  | restore reg slot => s!"restore {registerName reg} <- {slot.word}"
  | loadPointer dst => s!"{registerName dst} = buf_ptr"
  | storeImmediate16 base scratch disp value =>
    s!"{registerName scratch} = {hex value.toNat}; {cellText base disp 2} = {registerName scratch}"
  | storeImmediate64 base scratch disp value =>
    s!"{registerName scratch} = {hex value.toNat}; {cellText base disp 8} = {registerName scratch}"
  | loadAddress reference dst _ => s!"{registerName dst} = &{reference.text}"
  | storeRegister base disp src => s!"{cellText base disp 8} = {registerName src}"
  | advance reg amount => s!"buf_ptr = {registerName reg} += {hex amount}"
  | flushCheck => "call memtrace(deferrable)"

/-- The operations inserted before one instruction, and the entries that they write. -/
structure InstructionPlan where
  operations : List Operation := []
  entries : Nat := 0
  deriving DecidableEq

namespace InstructionPlan

/-- Whether nothing is inserted. -/
def isEmpty (p : InstructionPlan) : Bool := p.operations.isEmpty

/-- The bytes of the entries written, if their number is a machine word. -/
def advanceBytes? (p : InstructionPlan) : Option Nat :=
  let amount := p.entries * Entry.byteSize
  if amount < wordLimit then some amount else none

/-- Whether the plan checks for a delivery. -/
def hasFlushCheck (p : InstructionPlan) : Bool := p.operations.contains .flushCheck

/-- The text of a plan. -/
def text (p : InstructionPlan) : String := "; ".intercalate (p.operations.map Operation.text)

end InstructionPlan

/-- The plans of a block, one for each instruction. -/
abbrev BlockPlan := List InstructionPlan

namespace BlockPlan

/-- The entries that the block writes. -/
def entries (b : BlockPlan) : Nat := b.foldr (fun p n => p.entries + n) 0

/-- The plans of the block that check for a delivery. -/
def flushChecks (b : BlockPlan) : Nat := b.countP InstructionPlan.hasFlushCheck

end BlockPlan

end AccessTrace
