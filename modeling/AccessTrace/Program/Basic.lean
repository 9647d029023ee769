import AccessTrace.Code.Instrumentation

/-!
# Program descriptions

What the observed program is made of, and what each of its threads executes.
-/

namespace AccessTrace

/-- One execution of a block, and what is put into registers before it. -/
structure BlockRun where
  block : Nat
  registers : List (Register × UInt64) := []

/-- A thread and the blocks that it executes, in order. -/
structure ThreadProgram where
  tid : UInt64
  runs : List BlockRun

/-- A program. -/
structure Program where
  architecture : Architecture
  /-- Whether instructions get an entry of their own. -/
  fetches : Bool := false
  /-- The slots of a thread's buffer, if the description says so. -/
  capacity : Option Nat := none
  blocks : List (List Instruction)
  threads : List ThreadProgram

/-- How the program is instrumented. -/
def Program.instrumentation (p : Program) : Instrumentation :=
  { architecture := p.architecture, fetches := p.fetches }

end AccessTrace
