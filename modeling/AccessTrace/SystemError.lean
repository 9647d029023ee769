/-!
# Errors of the surrounding system

What reading, writing and naming files can fail with. Each has a kind, by which callers tell
them apart, and the text that is shown.
-/

namespace AccessTrace

/-- The kinds of failure that files, pipes and readers report. -/
inductive SystemError.Kind where
  | notFound
  | alreadyExists
  | isADirectory
  | nameTooLong
  | invalidInput
  | notConnected
  | brokenPipe
  | connectionReset
  | unexpectedEnd
  | other
  deriving DecidableEq

/-- A failure together with its text. -/
structure SystemError where
  kind : SystemError.Kind
  text : String
  deriving DecidableEq

namespace SystemError

/-- Nothing has that name. -/
def notFound : SystemError := ⟨.notFound, "No such file or directory (os error 2)"⟩

/-- The name is taken. -/
def alreadyExists : SystemError := ⟨.alreadyExists, "File exists (os error 17)"⟩

/-- The name is that of a directory. -/
def isADirectory : SystemError := ⟨.isADirectory, "Is a directory (os error 21)"⟩

/-- The name has more bytes than a directory entry may have. -/
def nameTooLong : SystemError := ⟨.nameTooLong, "File name too long (os error 36)"⟩

/-- The name holds a NUL. -/
def nulInName : SystemError := ⟨.invalidInput, "file name contained an unexpected NUL byte"⟩

/-- The pipe was read before it was opened. -/
def notConnected : SystemError := ⟨.notConnected, "Pipe wasn't opened"⟩

/-- Nobody reads the pipe any more. -/
def brokenPipe : SystemError := ⟨.brokenPipe, "Broken pipe (os error 32)"⟩

/-- The input ended inside a unit. -/
def unexpectedEnd : SystemError := ⟨.unexpectedEnd, "unexpected end of file"⟩

end SystemError

end AccessTrace
