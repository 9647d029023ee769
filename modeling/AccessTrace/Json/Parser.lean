import AccessTrace.Json.Token

/-!
# Parsing JSON

A stack keeps the arrays and objects that are open; each token either opens or closes one, or goes
on in the innermost. Nesting is not limited.
-/

namespace AccessTrace.Json

/-- An array or object that is open, with what it holds so far, last first. -/
inductive Frame where
  | array (elements : List Json)
  /-- An object, with the key whose value is being read. -/
  | object (members : List (String × Json)) (key : String)

/-- What the tokens read so far amount to. -/
inductive Progress where
  /-- A value has to come. -/
  | start (stack : List Frame)
  /-- An array was opened: a value has to come, or its end. -/
  | arrayOpened (stack : List Frame)
  /-- An object was opened: a key has to come, or its end. -/
  | objectOpened (stack : List Frame)
  /-- A further key of an object has to come. -/
  | key (members : List (String × Json)) (stack : List Frame)
  /-- The colon behind a key has to come. -/
  | colon (members : List (String × Json)) (key : String) (stack : List Frame)
  /-- A value is complete. -/
  | complete (value : Json) (stack : List Frame)

namespace Progress

/-- Reads the first token of a value. -/
def begin (stack : List Frame) : Token → Option Progress
  | .openObject => some (objectOpened stack)
  | .openArray => some (arrayOpened stack)
  | .string written => some (complete (.string written) stack)
  | .word value => some (complete value stack)
  | .closeObject | .closeArray | .colon | .comma => none

/-- Reads a token behind a complete value. -/
def goOn (value : Json) : List Frame → Token → Option Progress
  | .array elements :: stack, .comma => some (start (.array (value :: elements) :: stack))
  | .array elements :: stack, .closeArray =>
    some (complete (.array (value :: elements).reverse) stack)
  | .object members k :: stack, .comma => some (key ((k, value) :: members) stack)
  | .object members k :: stack, .closeObject =>
    some (complete (.object ((k, value) :: members).reverse) stack)
  | _, _ => none

/-- Reads a token. -/
def step : Progress → Token → Option Progress
  | start stack, token => begin stack token
  | arrayOpened stack, .closeArray => some (complete (.array []) stack)
  | arrayOpened stack, token => begin (.array [] :: stack) token
  | objectOpened stack, .closeObject => some (complete (.object []) stack)
  | objectOpened stack, .string k => some (colon [] k stack)
  | objectOpened _, _ => none
  | key members stack, .string k => some (colon members k stack)
  | key _ _, _ => none
  | colon members k stack, .colon => some (start (.object members k :: stack))
  | colon _ _ _, _ => none
  | complete value stack, token => goOn value stack token

/-- The value that is complete when the tokens end. -/
def result? : Progress → Option Json
  | complete value [] => some value
  | _ => none

end Progress

/-- The value of a text. -/
def parse? (text : String) : Option Json := do
  let tokens ← Token.scan text.toList
  let progress ← tokens.foldlM Progress.step (.start [])
  progress.result?

end AccessTrace.Json
