import AccessTrace.Code.Instrumentation
import AccessTrace.Host.Machine
import AccessTrace.Tracer.Basic

/-!
# Executing plans

A host executes the operations of a plan for the thread that owns the buffer, one after the other.
An operation that fails ends the execution; what was done before it, and what it did itself before
it failed, stays done.
-/

namespace AccessTrace

/-- What executes a plan: the thread's machine and buffer, and the tracer. -/
structure Host (σ : Type) where
  machine : Machine
  buffer : Buffer
  tracer : Tracer σ

namespace Host

variable {σ : Type}

/-- The error of a store whose offset is no machine word. -/
def offsetError (b : Buffer) : TraceError := .resource (.overflow (wordLimit - 1) b.byteCapacity)

/-- Stores bytes at `base + disp`, having first put `value` into `scratch` if one is named. -/
def storeAt (h : Host σ) (base : Register) (disp : Nat) (bs : List UInt8)
    (scratch : Option (Register × UInt64)) : Except TraceError Unit × Host σ :=
  match h with
  | { machine, buffer, tracer } =>
    match machine.offset? base disp with
    | none => (.error (offsetError buffer), { machine, buffer, tracer })
    | some offset =>
      let machine := match scratch with
        | none => machine
        | some (r, value) => machine.set r value
      match buffer.store offset bs with
      | (.ok (), buffer) => (.ok (), { machine, buffer, tracer })
      | (.error e, buffer) => (.error (.resource e), { machine, buffer, tracer })

variable [Channel σ]

/-- Executes an operation. -/
def step (h : Host σ) : Operation → Except TraceError Unit × Host σ
  | .spill reg slot =>
    (.ok (), { h with machine := h.machine.save (h.machine.get reg) slot })
  | .restore reg slot =>
    (.ok (), { h with machine := h.machine.set reg (h.machine.saved slot) })
  | .loadPointer dst =>
    (.ok (), { h with machine := h.machine.set dst (UInt64.ofNat h.buffer.ptr) })
  | .storeImmediate16 base scratch disp value =>
    h.storeAt base disp (toLittleEndian 2 value.toNat) (some (scratch, value.toUInt64))
  | .storeImmediate64 base scratch disp value =>
    h.storeAt base disp (toLittleEndian 8 value.toNat) (some (scratch, value))
  | .loadAddress reference dst _ =>
    (.ok (), { h with machine := h.machine.set dst (reference.address h.machine.get) })
  | .storeRegister base disp src =>
    h.storeAt base disp (toLittleEndian 8 (h.machine.get src).toNat) none
  | .advance reg amount =>
    match h with
    | { machine, buffer, tracer } =>
      match machine.offset? reg amount with
      | none => (.error (offsetError buffer), { machine, buffer, tracer })
      | some ptr =>
        let machine := machine.set reg (UInt64.ofNat ptr)
        match buffer.setPtr ptr with
        | (.ok (), buffer) => (.ok (), { machine, buffer, tracer })
        | (.error e, buffer) => (.error (.resource e), { machine, buffer, tracer })
  | .flushCheck =>
    match h with
    | { machine, buffer, tracer } =>
      match tracer.flush buffer .deferrable with
      | (.ok _, buffer, tracer) => (.ok (), { machine, buffer, tracer })
      | (.error e, buffer, tracer) => (.error e, { machine, buffer, tracer })

/-- Executes operations until one fails. -/
def exec (h : Host σ) : List Operation → Except TraceError Unit × Host σ
  | [] => (.ok (), h)
  | op :: ops =>
    match h.step op with
    | (.ok (), h) => exec h ops
    | (.error e, h) => (.error e, h)

/-- Executes a plan. -/
def execute (h : Host σ) (p : InstructionPlan) : Except TraceError Unit × Host σ :=
  h.exec p.operations

/-- Executes plans until one fails. The plans executed are counted, from `done` on. -/
def executeAll (h : Host σ) (done : Nat) :
    List InstructionPlan → Nat × Except TraceError Unit × Host σ
  | [] => (done, .ok (), h)
  | p :: ps =>
    match h.execute p with
    | (.ok (), h) => executeAll h (done + 1) ps
    | (.error e, h) => (done, .error e, h)

/-- Executes plans over and over until one fails, counting in the same way. -/
def executeTimes (h : Host σ) (done : Nat) (ps : List InstructionPlan) :
    (times : Nat) → Nat × Except TraceError Unit × Host σ
  | 0 => (done, .ok (), h)
  | times + 1 =>
    match h.executeAll done ps with
    | (done, .ok (), h) => executeTimes h done ps times
    | (done, .error e, h) => (done, .error e, h)

theorem exec_append (h : Host σ) (ops more : List Operation) :
    h.exec (ops ++ more) =
      match h.exec ops with
      | (.ok (), h) => h.exec more
      | (.error e, h) => (.error e, h) := by
  induction ops generalizing h with
  | nil => rfl
  | cons op ops ih =>
    simp only [List.cons_append, exec]
    split
    · exact ih _
    · rfl

end Host

end AccessTrace
