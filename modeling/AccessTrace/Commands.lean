import AccessTrace.Channel.Directory
import AccessTrace.Channel.Pipe
import AccessTrace.Client.Options
import AccessTrace.History.Stream
import AccessTrace.Program.Description
import AccessTrace.Program.Run
import AccessTrace.Summary

/-!
# The two commands

`record` runs a program and sends its trace through a pipe; `summarize` reports on a trace, read
from a file or from a pipe. A command that fails says what it could not do, and why.
-/

namespace AccessTrace

/-- What went wrong, followed by its causes. -/
abbrev Complaint := List String

/-- The text of a complaint: what went wrong, and a line for each cause. -/
def Complaint.text : Complaint → String
  | [] => "Error"
  | [deed] => "Error: " ++ deed
  | deed :: causes =>
    "Error: " ++ deed ++ "\n\nCaused by:\n" ++ "\n".intercalate (causes.map ("    " ++ ·))

/-- A result, or the complaint that names what could not be done. -/
def orComplain {ε α : Type} (deed : String) (texts : ε → List String) :
    Except ε α → Except Complaint α :=
  Except.mapError fun e => deed :: texts e

/-- The texts of an error of tracing, outermost first. -/
def TraceError.texts (e : TraceError) : List String := e.message :: e.causes

/-- The texts of an error of a stream, outermost first. -/
def StreamError.texts (e : StreamError) : List String := e.message :: e.causes

/-- What a failed thread says. -/
def ThreadError.complaint (tid : UInt64) : ThreadError → Complaint
  | start e => "Unable to start thread" :: e.texts
  | unknownBlock block => [s!"Thread {tid} runs unknown block {block}"]
  | execute block e => s!"Unable to execute block {block} on thread {tid}" :: e.texts
  | exit (.trace e) => "Unable to exit thread" :: e.texts
  | exit (.misuse e) => ["Thread panicked", e.message]

/-- What became of a recording: what went through the pipe, and the complaint of one that failed. -/
structure Recording where
  stream : List UInt8 := []
  complaint : Option Complaint := none

namespace Recording

/-- The complaint of the first thread that failed, in the order of the program. -/
def firstComplaint :
    List ThreadProgram → List (Except ThreadError ThreadResult) → Option Complaint
  | thread :: threads, result :: results =>
    match result with
    | .error e => some (e.complaint thread.tid)
    | .ok _ => firstComplaint threads results
  | _, _ => none

/-- Runs a planned program. Tracing is ended if no thread failed. -/
def ofProgram (p : Program) (plans : List BlockPlan) (pid : UInt32) : Recording :=
  match (p.tracer pid ({ opened := true } : Pipe)).runAll plans p.threads with
  | (results, t) =>
    let stream := t.channel.carried.toList
    match firstComplaint p.threads results with
    | some complaint => { stream, complaint := some complaint }
    | none =>
      { stream, complaint := if t.exit?.isSome then none else some ["Unable to finish tracing"] }

end Recording

/-- What has to be in order before a program runs. -/
structure Preparation where
  /-- The pipe that the trace goes to. -/
  pipeName : String
  program : Program
  plans : List BlockPlan

/-- Checks the options, the program and its plans, and the pipe, in this order. -/
def Preparation.of (options : String) (description : Except SystemError String)
    (pipes : PipeDirectory) : Except Complaint Preparation := do
  let options ← orComplain "Unable to parse client options" (fun e => [e.message])
    (Options.parse options)
  let text ← orComplain "Unable to open program file" (fun e => [e.text]) description
  let program ← orComplain "Unable to parse program file" (fun _ => [])
    ((Program.parse? text).elim (.error ()) .ok)
  let plans ← program.plans.mapError fun (index, e) =>
    [s!"Unable to plan block {index}", e.message]
  orComplain "Unable to start tracer"
    (fun e => (TraceError.channel (.system e)).texts) (pipes.find options.pipeName)
  return { pipeName := options.pipeName, program, plans }

/-- Records what was prepared. -/
def Preparation.record (p : Preparation) (pid : UInt32) : Recording :=
  .ofProgram p.program p.plans pid

/-- Records a program. -/
def record (options : String) (description : Except SystemError String) (pipes : PipeDirectory)
    (pid : UInt32) : Recording :=
  match Preparation.of options description pipes with
  | .error complaint => { complaint := some complaint }
  | .ok preparation => preparation.record pid

/-- Reports on the trace in a file. -/
def summarizeFile (bytes : Except SystemError (List UInt8)) (withEvents : Bool) :
    Except Complaint Summary := do
  let bytes ← orComplain "Unable to open input file" (fun e => [e.text]) bytes
  let history ← orComplain "Unable to replay input file" StreamError.texts (History.ofBytes bytes)
  return history.summary withEvents

/-- The pipe that is made for a name. The name is checked as the client's is. -/
def pipeFor (name : String) (pipes : PipeDirectory) :
    Except Complaint (Options × PipeDirectory) := do
  let options ← orComplain "Invalid pipe name" (fun e => [e.message])
    (Options.parse (Options.textFor name))
  let pipes ← orComplain "Unable to create pipe" (fun e => [e.text]) (pipes.make options.pipeName)
  return (options, pipes)

/-- Reports on the trace that comes through a pipe. -/
def summarizePipe (name : String) (pipes : PipeDirectory) (bytes : List UInt8)
    (withEvents : Bool) : Except Complaint Summary := do
  let _ ← pipeFor name pipes
  let history ← orComplain "Unable to replay pipe" StreamError.texts (History.ofBytes bytes)
  return history.summary withEvents

end AccessTrace
