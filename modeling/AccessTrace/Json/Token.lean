import AccessTrace.Json.Basic

/-!
# Tokens of a JSON text

Punctuation stands for itself, a string goes from quotation mark to quotation mark, and any other
run of characters is a word: one of the three names or a number. Blanks separate words and say
nothing else.
-/

namespace AccessTrace.Json

/-- A token of a JSON text. -/
inductive Token where
  | openObject
  | closeObject
  | openArray
  | closeArray
  | colon
  | comma
  /-- A string, as it is written between the quotation marks. -/
  | string (written : String)
  /-- A value that is a single word. -/
  | word (value : Json)

namespace Token

/-- The blanks of a JSON text. -/
def isBlank (c : Char) : Bool := c = ' ' || c = '\t' || c = '\n' || c = '\r'

/-- The token that a character is by itself. -/
def punctuation? : Char → Option Token
  | '\x7b' => some openObject
  | '\x7d' => some closeObject
  | '[' => some openArray
  | ']' => some closeArray
  | ':' => some colon
  | ',' => some comma
  | _ => none

/-- Whether a character can be part of a word. -/
def isWordChar (c : Char) : Bool := !isBlank c && (punctuation? c).isNone && c ≠ '"'

/-- Whether characters are decimal digits, at least one. -/
def isDigits (cs : List Char) : Bool := !cs.isEmpty && cs.all Char.isDigit

/-- Whether characters are an exponent, sign and digits. -/
def isExponent : List Char → Bool
  | '+' :: cs | '-' :: cs => isDigits cs
  | cs => isDigits cs

/-- Whether a character separates the exponent of a number. -/
def isExponentMark (c : Char) : Bool := c = 'e' || c = 'E'

/-- Whether characters are an unsigned number: an integer without leading zero, then perhaps a
fraction, then perhaps an exponent. -/
def isUnsigned (cs : List Char) : Bool :=
  let mantissa := cs.takeWhile (!isExponentMark ·)
  let whole := mantissa.takeWhile (· ≠ '.')
  (Json.natural? whole).isSome &&
    (match mantissa.dropWhile (· ≠ '.') with
      | [] => true
      | _ :: fraction => isDigits fraction) &&
    (match cs.dropWhile (!isExponentMark ·) with
      | [] => true
      | _ :: exponent => isExponent exponent)

/-- Whether characters are a number. -/
def isNumber : List Char → Bool
  | '-' :: cs => isUnsigned cs
  | cs => isUnsigned cs

/-- The value that a word is. -/
def word? (cs : List Char) : Option Json :=
  match String.ofList cs with
  | "null" => some .null
  | "true" => some (.bool true)
  | "false" => some (.bool false)
  | written => if isNumber cs then some (.number written) else none

/-- Splits behind the quotation mark that ends a string. No control character may stand in it, and
a backslash only in front of a letter that it can escape. -/
def string? : List Char → Option (List Char × List Char)
  | [] => none
  | '"' :: rest => some ([], rest)
  | '\\' :: 'u' :: a :: b :: c :: d :: rest =>
    if (Json.unit? a b c d).isSome then
      (string? rest).map fun (cs, rest) => ('\\' :: 'u' :: a :: b :: c :: d :: cs, rest)
    else none
  | '\\' :: c :: rest =>
    if (Json.escaped? c).isSome then (string? rest).map fun (cs, rest) => ('\\' :: c :: cs, rest)
    else none
  | ['\\'] => none
  | c :: rest =>
    if c.toNat < 0x20 then none else (string? rest).map fun (cs, rest) => (c :: cs, rest)

theorem length_lt_of_string? {cs s rest : List Char} (h : string? cs = some (s, rest)) :
    rest.length < cs.length := by
  fun_induction string? cs generalizing s with
  | case1 => cases h
  | case2 => cases h; simp
  | case3 a b c d tail _ ih =>
    obtain ⟨⟨cs, r⟩, hr, he⟩ := Option.map_eq_some_iff.1 h
    cases he
    have := ih hr
    simp only [List.length_cons]
    omega
  | case4 => cases h
  | case5 c tail _ _ ih =>
    obtain ⟨⟨cs, r⟩, hr, he⟩ := Option.map_eq_some_iff.1 h
    cases he
    have := ih hr
    simp only [List.length_cons]
    omega
  | case6 => cases h
  | case7 => cases h
  | case8 => cases h
  | case9 =>
    rename_i ih
    obtain ⟨⟨cs, r⟩, hr, he⟩ := Option.map_eq_some_iff.1 h
    cases he
    have := ih hr
    simp only [List.length_cons]
    omega

/-- The tokens of a text. -/
def scan (cs : List Char) : Option (List Token) :=
  match cs with
  | [] => some []
  | '"' :: rest =>
    match h : string? rest with
    | none => none
    | some (s, tail) =>
      have : tail.length < rest.length := length_lt_of_string? h
      (scan tail).map (string (String.ofList s) :: ·)
  | c :: rest =>
    if isBlank c then scan rest
    else match punctuation? c with
      | some token => (scan rest).map (token :: ·)
      | none =>
        have : (rest.dropWhile isWordChar).length ≤ rest.length :=
          (List.dropWhile_suffix _).length_le
        match word? (c :: rest.takeWhile isWordChar) with
        | none => none
        | some value => (scan (rest.dropWhile isWordChar)).map (word value :: ·)
termination_by cs.length
decreasing_by all_goals simp only [List.length_cons]; omega

end Token

end AccessTrace.Json
