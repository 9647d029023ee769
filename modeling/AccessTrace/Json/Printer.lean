import AccessTrace.Json.Basic

/-!
# Printing JSON

Each element and each member has a line of its own, indented by two blanks a level.
-/

namespace AccessTrace.Json

/-- The blanks in front of a line at a level. -/
def indent (level : Nat) : String := "".pushn ' ' (2 * level)

/-- Lines between two brackets, or the brackets alone where there are none. -/
def block (opening closing : String) (level : Nat) (lines : List String) : String :=
  if lines.isEmpty then opening ++ closing
  else
    let inner := (",\n" ++ indent (level + 1)).intercalate lines
    opening ++ "\n" ++ indent (level + 1) ++ inner ++ "\n" ++ indent level ++ closing

mutual

/-- The text of a value that begins on a line at a level. -/
def render (level : Nat) : Json → String
  | null => "null"
  | bool value => if value then "true" else "false"
  | number written => written
  | string written => "\"" ++ written ++ "\""
  | array elements => block "[" "]" level (renderElements (level + 1) elements)
  | object members => block "\x7b" "\x7d" level (renderMembers (level + 1) members)

/-- The texts of elements at a level. -/
def renderElements (level : Nat) : List Json → List String
  | [] => []
  | j :: rest => render level j :: renderElements level rest

/-- The texts of members at a level. -/
def renderMembers (level : Nat) : List (String × Json) → List String
  | [] => []
  | (key, j) :: rest => ("\"" ++ key ++ "\": " ++ render level j) :: renderMembers level rest

end

end AccessTrace.Json
