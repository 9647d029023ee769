import AccessTrace.Client.Token
import AccessTrace.Text.Quoted

/-!
# Client options

The option text names the pipe that the consumer reads: `-ipc` and the name, as often as one
likes, the last name being the one that counts. A pipe name is not empty and has no `/`, no
backslash and no NUL.
-/

namespace AccessTrace

/-- What can be wrong with an option text. -/
inductive OptionError where
  /-- No pipe is named. -/
  | missingName
  /-- The text ends behind `-ipc`. -/
  | missingValue
  /-- The last name is none of a pipe. -/
  | malformedName (name : String)
  /-- A token stands where an option has to. -/
  | unrecognized (option : String)
  /-- A quoted stretch is never closed. -/
  | unterminatedQuote
  deriving DecidableEq

/-- The text of an error. -/
def OptionError.message : OptionError → String
  | missingName => "`-ipc <name>` is required"
  | missingValue => "Missing ipc name after `-ipc`"
  | malformedName name => "Malformed ipc name " ++ quoted name
  | unrecognized option => "Unrecognized option " ++ quoted option
  | unterminatedQuote => "Unterminated quote in options"

/-- What a client is told on start: the name of the pipe. -/
structure Options where
  pipeName : String
  deriving DecidableEq

namespace Options

/-- Whether a character may not stand in a pipe name. -/
def isForbidden (c : Char) : Bool := c = '/' || c = '\\' || c = '\x00'

/-- Whether a text can name a pipe. -/
def isName (name : String) : Bool := !name.isEmpty && !name.toList.any isForbidden

/-- The last name given by tokens, `name` being the last one before them. -/
def nameOf? (name : Option String) : List String → Except OptionError (Option String)
  | [] => .ok name
  | "-ipc" :: value :: rest => nameOf? (some value) rest
  | "-ipc" :: [] => .error .missingValue
  | option :: _ => .error (.unrecognized option)

/-- The options of tokens. -/
def ofTokens (tokens : List String) : Except OptionError Options := do
  match ← nameOf? none tokens with
  | none => .error .missingName
  | some name => if isName name then .ok ⟨name⟩ else .error (.malformedName name)

/-- The options of a text. -/
def parse (text : String) : Except OptionError Options :=
  match Client.tokens? text with
  | none => .error .unterminatedQuote
  | some tokens => ofTokens tokens

/-- The option text that asks for a pipe, the name being put between quotation marks as it is. -/
def textFor (name : String) : String := "-ipc \"" ++ name ++ "\""

end Options

end AccessTrace
