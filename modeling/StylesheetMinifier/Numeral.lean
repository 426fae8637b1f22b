/-!
# Numerals

The written forms of numbers: decimal numerals without leading zeros, and
lower-case hexadecimal numerals filled up to a width.
-/

namespace StylesheetMinifier

def decimal (number : Nat) : List Char :=
  Nat.toDigits 10 number

def signedDecimal : Int → List Char
  | .ofNat number => decimal number
  | .negSucc number => '-' :: decimal (number + 1)

/-- The hexadecimal numeral of a number, with zeros in front up to the width. -/
def hexadecimal (width number : Nat) : List Char :=
  let digits := Nat.toDigits 16 number
  List.replicate (width - digits.length) '0' ++ digits

end StylesheetMinifier
