/-!
# Command lines

Which command is called for, and with what.
-/

namespace AccessTrace

/-- Where a trace is read from. -/
inductive TraceInput where
  | file (path : String)
  | pipe (name : String)
  deriving DecidableEq

/-- What is called for. -/
inductive Invocation where
  /-- Records the program described in a file. -/
  | record (options file : String)
  /-- Reports on a trace, to a file or else to the standard output. -/
  | summarize (input : TraceInput) (output : Option String) (events : Bool)
  deriving DecidableEq

namespace Invocation

/-- How the commands are called. -/
def usage : String :=
  "usage: record --options <options> <file>\n" ++
  "       summarize (--input <file> | --ipc <name>) [--output <file>] [--events]"

/-- The value of an argument that is written `flag=value`. -/
def valueOf? (flag argument : String) : Option String :=
  ((flag ++ "=").toList.isPrefixOf? argument.toList).map String.ofList

/-- Splits every `flag=value` into its two parts. -/
def splitFlags (flags : List String) (arguments : List String) : List String :=
  arguments.flatMap fun argument =>
    match flags.findSome? fun flag => (valueOf? flag argument).map (flag, ·) with
    | some (flag, value) => [flag, value]
    | none => [argument]

/-- Reads the arguments of `record`, given what was read before. -/
def record? (options file : Option String) : List String → Option Invocation
  | [] => return .record (← options) (← file)
  | "--options" :: value :: rest => if options.isSome then none else record? (some value) file rest
  | path :: rest => if file.isSome then none else record? options (some path) rest

/-- Reads the arguments of `summarize`, given what was read before. -/
def summarize? (input : Option TraceInput) (output : Option String) (events : Bool) :
    List String → Option Invocation
  | [] => return .summarize (← input) output events
  | "--events" :: rest => summarize? input output true rest
  | "--input" :: path :: rest =>
    if input.isSome then none else summarize? (some (.file path)) output events rest
  | "--ipc" :: name :: rest =>
    if input.isSome then none else summarize? (some (.pipe name)) output events rest
  | "--output" :: path :: rest =>
    if output.isSome then none else summarize? input (some path) events rest
  | _ => none

/-- What a command line calls for. -/
def ofArguments? : List String → Option Invocation
  | "record" :: rest => record? none none (splitFlags ["--options"] rest)
  | "summarize" :: rest =>
    summarize? none none false (splitFlags ["--input", "--ipc", "--output"] rest)
  | _ => none

end Invocation

end AccessTrace
