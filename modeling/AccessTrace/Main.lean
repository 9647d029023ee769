import AccessTrace.Commands
import AccessTrace.Invocation

/-!
# The program

Reads the files that a command line names, lets the commands decide, and writes what they say. A
pipe has to be made beforehand.
-/

namespace AccessTrace

/-- The failure of a file. -/
def SystemError.ofIOError : IO.Error → SystemError
  | .noFileOrDirectory .. => .notFound
  | .alreadyExists .. => .alreadyExists
  | e => ⟨.other, toString e⟩

/-- Runs what touches files, and hands over its failure. -/
def attempt {α : Type} (act : IO α) : IO (Except SystemError α) := do
  match ← act.toBaseIO with
  | .ok value => return .ok value
  | .error e => return .error (.ofIOError e)

/-- Says what went wrong. -/
def complain (complaint : Complaint) : IO UInt32 := do
  IO.eprintln complaint.text
  return 1

/-- The pipe that the options name, if there is one. -/
def pipesFor (options : String) : IO PipeDirectory := do
  match Options.parse options with
  | .error _ => return {}
  | .ok client =>
    match ← attempt (IO.FS.realPath (pipePath client.pipeName)) with
    | .ok _ => return (({} : PipeDirectory).make client.pipeName).toOption.getD {}
    | .error _ => return {}

/-- The number of this process, as the system tells it. -/
def ownPid : IO UInt32 := do
  match ← attempt (IO.FS.readFile "/proc/self/stat") with
  | .ok text => return .ofNat ((String.ofList (text.toList.takeWhile Char.isDigit)).toNat?.getD 0)
  | .error _ => return 0

/-- Records the program described in a file. -/
def runRecord (options file : String) : IO UInt32 := do
  let description ← attempt (IO.FS.readFile file)
  match Preparation.of options description (← pipesFor options) with
  | .error complaint => complain complaint
  | .ok preparation =>
    let recording := preparation.record (← ownPid)
    IO.FS.writeBinFile (pipePath preparation.pipeName) ⟨recording.stream.toArray⟩
    match recording.complaint with
    | none => return 0
    | some complaint => complain complaint

/-- Reports on a trace. -/
def runSummarize (input : TraceInput) (output : Option String) (events : Bool) : IO UInt32 := do
  let summary ← match input with
    | .file path =>
      let bytes ← attempt (IO.FS.readBinFile path)
      pure (summarizeFile (bytes.map (·.data.toList)) events)
    | .pipe name =>
      match pipeFor name {} with
      | .error complaint => pure (.error complaint)
      | .ok (client, _) =>
        match ← attempt (IO.FS.readBinFile (pipePath client.pipeName)) with
        | .error e => pure (.error ["Unable to open pipe", e.text])
        | .ok bytes => pure (summarizePipe name {} bytes.data.toList events)
  match summary, output with
  | .error complaint, _ => complain complaint
  | .ok s, none =>
    IO.println s.text
    return 0
  | .ok s, some path =>
    match ← attempt (IO.FS.writeFile path s.text) with
    | .ok () => return 0
    | .error e => complain ["Unable to create output file", e.text]

end AccessTrace

open AccessTrace in
/-- Runs the command that the arguments call for. -/
def main (arguments : List String) : IO UInt32 := do
  match Invocation.ofArguments? arguments with
  | some (.record options file) => runRecord options file
  | some (.summarize input output events) => runSummarize input output events
  | none =>
    IO.eprintln Invocation.usage
    return 2
