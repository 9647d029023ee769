import AccessTrace.Entry.Basic
import AccessTrace.Json.Fields
import AccessTrace.Program.Basic

/-!
# Descriptions as JSON

The records of a description, each with its fields in order. Entries and single instructions can
be described as well.
-/

namespace AccessTrace

open Json

/-- The kinds by the names they have in a description. -/
def Entry.Kind.names : List (String × Entry.Kind) :=
  [("Read", .read), ("Write", .write), ("InstrFetch", .fetch), ("Thread", .thread),
    ("Pid", .process)]

/-- The architectures by name. -/
def Architecture.names : List (String × Architecture) := [("x86", .x86), ("arm", .arm)]

/-- An entry. -/
def Entry.ofJson? (j : Json) : Option Entry := do
  let [kind, size, opcode, addr] ← j.fields? ["kind", "size", "opcode", "addr"] | none
  return {
    kind := ← required (name? Entry.Kind.names) kind
    size := ← required uint16? size
    opcode := ← optional uint16? 0 opcode
    addr := ← required uint64? addr }

/-- A memory reference. -/
def MemoryOperand.ofJson? (j : Json) : Option MemoryOperand := do
  let [base, index, scale, disp, size] ← j.fields? ["base", "index", "scale", "disp", "size"] | none
  return {
    base := ← optional (orNull? uint8?) none base
    index := ← optional (orNull? uint8?) none index
    scale := ← optional uint8? 1 scale
    disp := ← optional int64? 0 disp
    size := ← required uint16? size }

/-- An operand: an object whose one key says what it is. -/
def Operand.ofJson? (j : Json) : Option Operand := do
  match ← j.tagged? with
  | ("reg", j) => return .register (← j.uint8?)
  | ("imm", j) => return .immediate (← j.int64?)
  | ("mem", j) => return .memory (← MemoryOperand.ofJson? j)
  | _ => none

/-- An instruction. -/
def Instruction.ofJson? (j : Json) : Option Instruction := do
  let [pc, opcode, length, inserted, sources, destinations, predicated, exclusiveStore] ←
    j.fields?
      ["pc", "opcode", "length", "meta", "srcs", "dsts", "predicated", "exclusive_store"] | none
  return {
    pc := ← required uint64? pc
    opcode := ← optional uint16? 0 opcode
    length := ← required uint16? length
    inserted := ← optional bool? false inserted
    sources := ← optional (list? Operand.ofJson?) [] sources
    destinations := ← optional (list? Operand.ofJson?) [] destinations
    predicated := ← optional bool? false predicated
    exclusiveStore := ← optional bool? false exclusiveStore }

/-- Puts a register's value in its place in an ascending list, instead of an earlier one. -/
def putRegister (r : Register) (value : UInt64) :
    List (Register × UInt64) → List (Register × UInt64)
  | [] => [(r, value)]
  | (s, old) :: rest =>
    if s = r then (r, value) :: rest
    else if r < s then (r, value) :: (s, old) :: rest
    else (s, old) :: putRegister r value rest

/-- Values by register. The numbers of the registers are written as integers, without escapes; of
several values for a register the last one counts. -/
def registersOfJson? : Json → Option (List (Register × UInt64))
  | .object members => do
    let values ← members.mapM fun (written, j) =>
      return (← (Json.number written).uint8?, ← j.uint64?)
    return values.foldl (fun rs (r, value) => putRegister r value rs) []
  | _ => none

/-- The execution of a block. -/
def BlockRun.ofJson? (j : Json) : Option BlockRun := do
  let [block, registers] ← j.fields? ["block", "regs"] | none
  return {
    block := ← required size? block
    registers := ← optional registersOfJson? [] registers }

/-- A thread. -/
def ThreadProgram.ofJson? (j : Json) : Option ThreadProgram := do
  let [tid, runs] ← j.fields? ["tid", "runs"] | none
  return {
    tid := ← required uint64? tid
    runs := ← required (list? BlockRun.ofJson?) runs }

/-- A program. -/
def Program.ofJson? (j : Json) : Option Program := do
  let [architecture, fetches, capacity, blocks, threads] ←
    j.fields? ["arch", "instr_fetch", "buffer_entries", "blocks", "threads"] | none
  return {
    architecture := ← required (name? Architecture.names) architecture
    fetches := ← optional bool? false fetches
    capacity := ← optional (orNull? size?) none capacity
    blocks := ← required (list? (list? Instruction.ofJson?)) blocks
    threads := ← required (list? ThreadProgram.ofJson?) threads }

/-- The entry that a text describes. -/
def Entry.parse? (text : String) : Option Entry := Json.parse? text >>= Entry.ofJson?

/-- The instruction that a text describes. -/
def Instruction.parse? (text : String) : Option Instruction :=
  Json.parse? text >>= Instruction.ofJson?

/-- The program that a text describes. -/
def Program.parse? (text : String) : Option Program := Json.parse? text >>= Program.ofJson?

end AccessTrace
