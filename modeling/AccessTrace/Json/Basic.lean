/-!
# JSON values

A value keeps its numbers and strings as they are written: `integer?` and `unescape?` say what they
stand for. So a number or a string that nobody asks for is never interpreted, and one that is
asked for can be held to its written form.
-/

namespace AccessTrace

/-- A JSON value. Strings and keys are the characters between the quotation marks. -/
inductive Json where
  | null
  | bool (value : Bool)
  | number (written : String)
  | string (written : String)
  | array (elements : List Json)
  | object (members : List (String × Json))

namespace Json

/-- The number of a non-empty run of decimal digits without leading zero. -/
def natural? (digits : List Char) : Option Nat :=
  match digits with
  | ['0'] => some 0
  | '0' :: _ | [] => none
  | _ => if digits.all Char.isDigit then some (Nat.ofDigitChars 10 digits 0) else none

/-- The integer that a written number is, if it has neither fraction nor exponent. A negative zero
is no integer. -/
def integerOf? (written : String) : Option Int :=
  match written.toList with
  | '-' :: digits => (natural? digits).bind fun n => if n = 0 then none else some (-(n : Int))
  | digits => (natural? digits).map Int.ofNat

/-- The integer that a value is. -/
def integer? : Json → Option Int
  | number written => integerOf? written
  | _ => none

/-- The value of a hexadecimal digit. -/
def hexValue? (c : Char) : Option Nat :=
  if c.isDigit then some (c.toNat - '0'.toNat)
  else if 'a' ≤ c ∧ c ≤ 'f' then some (c.toNat - 'a'.toNat + 10)
  else if 'A' ≤ c ∧ c ≤ 'F' then some (c.toNat - 'A'.toNat + 10)
  else none

/-- The UTF-16 unit of four hexadecimal digits. -/
def unit? (a b c d : Char) : Option Nat := do
  return (((← hexValue? a) * 16 + (← hexValue? b)) * 16 + (← hexValue? c)) * 16 + (← hexValue? d)

/-- The character that a letter stands for behind a backslash. -/
def escaped? : Char → Option Char
  | '"' => some '"'
  | '\\' => some '\\'
  | '/' => some '/'
  | 'b' => some '\x08'
  | 'f' => some '\x0c'
  | 'n' => some '\n'
  | 'r' => some '\r'
  | 't' => some '\t'
  | _ => none

/-- Whether a UTF-16 unit is the first one of a pair. -/
def isLeading (unit : Nat) : Bool := 0xd800 ≤ unit && unit ≤ 0xdbff

/-- Whether a UTF-16 unit is the second one of a pair. -/
def isTrailing (unit : Nat) : Bool := 0xdc00 ≤ unit && unit ≤ 0xdfff

/-- The characters that written ones stand for; `none` if half of a pair of units stands alone. -/
def unescapeChars? : List Char → Option (List Char)
  | [] => some []
  | '\\' :: 'u' :: a :: b :: c :: d :: rest =>
    match unit? a b c d with
    | none => none
    | some unit =>
      if isTrailing unit then none
      else if isLeading unit then
        match rest with
        | '\\' :: 'u' :: a :: b :: c :: d :: rest =>
          match unit? a b c d with
          | none => none
          | some next =>
            if isTrailing next then
              (unescapeChars? rest).map
                (Char.ofNat (0x10000 + (unit - 0xd800) * 0x400 + (next - 0xdc00)) :: ·)
            else none
        | _ => none
      else (unescapeChars? rest).map (Char.ofNat unit :: ·)
  | '\\' :: c :: rest =>
    match escaped? c with
    | none => none
    | some c => (unescapeChars? rest).map (c :: ·)
  | ['\\'] => none
  | c :: rest => (unescapeChars? rest).map (c :: ·)

/-- The text that a written string stands for. -/
def unescape? (written : String) : Option String :=
  (unescapeChars? written.toList).map String.ofList

/-- A whole number as a value. -/
def ofNat (n : Nat) : Json := number (toString n)

end Json

end AccessTrace
