import AccessTrace.Host.Execution
import AccessTrace.Program.Basic

/-!
# Running a program

All blocks are planned first. A thread gets a buffer and a machine of its own, executes its runs in
order and gives the buffer back. A thread that fails loses its buffer with what it still holds; the
others go on. Threads share nothing but the tracer, so that they can be run one after the other.
-/

namespace AccessTrace

/-- Where a thread fails. -/
inductive ThreadError where
  /-- It could not be started. -/
  | start (cause : TraceError)
  /-- It runs a block that the program does not have. -/
  | unknownBlock (block : Nat)
  /-- The operations inserted into a block failed. -/
  | execute (block : Nat) (cause : TraceError)
  /-- Its last delivery failed. -/
  | exit (cause : ExitError)
  deriving DecidableEq

/-- What a thread that ended has sent, and its machine. -/
structure ThreadResult where
  refs : Nat
  machine : Machine

section
variable {σ : Type} [Channel σ]

namespace Host

/-- Executes runs of blocks until one fails. -/
def executeRuns (h : Host σ) (plans : List BlockPlan) :
    List BlockRun → Except ThreadError Unit × Host σ
  | [] => (.ok (), h)
  | run :: rest =>
    match plans[run.block]? with
    | none => (.error (.unknownBlock run.block), h)
    | some plan =>
      match h with
      | { machine, buffer, tracer } =>
        let h : Host σ := { machine := machine.setAll run.registers, buffer, tracer }
        match h.executeAll 0 plan with
        | (_, .ok (), h) => executeRuns h plans rest
        | (_, .error e, h) => (.error (.execute run.block e), h)

end Host

namespace Tracer

/-- Runs a thread from its start to its end. -/
def run (t : Tracer σ) (plans : List BlockPlan) (thread : ThreadProgram) :
    Except ThreadError ThreadResult × Tracer σ :=
  match t.start thread.tid with
  | (.error e, t) => (.error (.start e), t)
  | (.ok buffer, tracer) =>
    match Host.executeRuns { machine := {}, buffer, tracer } plans thread.runs with
    | (.error e, h) => (.error e, h.tracer.discard h.buffer)
    | (.ok (), h) =>
      match h.tracer.finish h.buffer with
      | (.error e, t) => (.error (.exit e), t)
      | (.ok refs, t) => (.ok { refs, machine := h.machine }, t)

/-- Runs threads one after the other, and says what became of each. -/
def runAll (t : Tracer σ) (plans : List BlockPlan) :
    List ThreadProgram → List (Except ThreadError ThreadResult) × Tracer σ
  | [] => ([], t)
  | thread :: rest =>
    match t.run plans thread with
    | (result, t) =>
      match runAll t plans rest with
      | (results, t) => (result :: results, t)

end Tracer

end

namespace Program

/-- The plans of all blocks, or the number of the first block that has none. -/
def plans (p : Program) : Except (Nat × ResourceError) (List BlockPlan) :=
  p.blocks.zipIdx.mapM fun (block, index) =>
    (p.instrumentation.planBlock block).mapError (index, ·)

/-- The tracer by which a program is traced over a channel. -/
def tracer {σ : Type} (p : Program) (pid : UInt32) (channel : σ) : Tracer σ :=
  { pid, capacity := p.capacity.getD Buffer.defaultCapacity, channel }

end Program

end AccessTrace
