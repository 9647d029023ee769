/-!
# Hexadecimal text

Numbers in messages and in instruction texts are written in lower case and without padding,
after `0x` where they are offsets, addresses or values.
-/

namespace AccessTrace

/-- The digits of `n` in base 16, lower case and without padding. -/
def hexDigits (n : Nat) : String := String.ofList (Nat.toDigits 16 n)

/-- The digits of `n` in base 16 after `0x`. -/
def hex (n : Nat) : String := "0x" ++ hexDigits n

end AccessTrace
