import AccessTrace.Text.DefaultIgnorable
import AccessTrace.Text.GraphemeExtend
import AccessTrace.Text.Hex
import AccessTrace.Text.Unprinted

/-!
# Quoted text in messages

A name or an option is shown in double quotes. Quotes, backslashes and the common control
characters are escaped by a letter; a character that would not be seen is shown by its number.
-/

namespace AccessTrace

/-- How one character is shown between double quotes. -/
def quoteChar (c : Char) : String :=
  if c = '\x00' then "\\0"
  else if c = '\t' then "\\t"
  else if c = '\r' then "\\r"
  else if c = '\n' then "\\n"
  else if c = '\\' then "\\\\"
  else if c = '"' then "\\\""
  else if isGraphemeExtend c || isDefaultIgnorable c || isUnprinted c then
    "\\u\x7b" ++ hexDigits c.toNat ++ "\x7d"
  else String.singleton c

/-- A text in double quotes, each character as `quoteChar` shows it. -/
def quoted (text : String) : String := "\"" ++ String.join (text.toList.map quoteChar) ++ "\""

end AccessTrace
