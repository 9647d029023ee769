import AccessTrace.Text.Blank

/-!
# Tokens of an option text

White space separates tokens. A quotation mark starts or ends a quoted stretch anywhere in a token:
it is no part of the token, and white space inside a quoted stretch separates nothing.
-/

namespace AccessTrace.Client

/-- The tokens of a text, given the part that is read of the token under way and whether a quoted
stretch is open; `none` if the text ends inside one. -/
def tokensFrom? (token : Option String) (isQuoted : Bool) : List Char → Option (List String)
  | [] => if isQuoted then none else some token.toList
  | c :: cs =>
    if c = '"' then tokensFrom? (some (token.getD "")) (!isQuoted) cs
    else if isBlank c && !isQuoted then (tokensFrom? none false cs).map (token.toList ++ ·)
    else tokensFrom? (some ((token.getD "").push c)) isQuoted cs

/-- The tokens of a text, or `none` if a quoted stretch is never closed. -/
def tokens? (text : String) : Option (List String) := tokensFrom? none false text.toList

end AccessTrace.Client
