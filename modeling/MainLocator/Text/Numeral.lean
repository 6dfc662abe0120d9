/-!
# Numerals

Numbers as text: base ten, and base sixteen with a leading `0x`. Neither form has leading zeros,
so each number has exactly one numeral of each kind. `ofDigits` reads base ten back.
-/

namespace MainLocator.Numeral

def decimal (number : Nat) : String :=
  String.ofList (Nat.toDigits 10 number)

/-- Lowercase base sixteen, without a mark in front. -/
def bareHexadecimal (number : Nat) : String :=
  String.ofList (Nat.toDigits 16 number)

/-- Lowercase base sixteen behind `0x`. -/
def hexadecimal (number : Nat) : String :=
  "0x" ++ bareHexadecimal number

/-- Puts copies of `fill` in front of `text` until it has `width` characters. -/
def padLeft (width : Nat) (fill : Char) (text : String) : String :=
  String.ofList (text.toList.leftpad width fill)

/-- The number that a list of base-ten digits denotes. -/
def ofDigits (digits : List Char) : Nat :=
  digits.foldl (fun number digit => 10 * number + (digit.toNat - '0'.toNat)) 0

/-- The number below sixteen that one base-sixteen digit of either case denotes. -/
def ofHexDigit? (digit : Char) : Option Nat :=
  if digit.isDigit then some (digit.toNat - '0'.toNat)
  else if 'a' ≤ digit ∧ digit ≤ 'f' then some (digit.toNat - 'a'.toNat + 10)
  else if 'A' ≤ digit ∧ digit ≤ 'F' then some (digit.toNat - 'A'.toNat + 10)
  else none

/-- The number that a nonempty list of base-sixteen digits denotes. -/
def ofHexDigits? (digits : List Char) : Option Nat :=
  if digits.isEmpty then none
  else digits.foldlM (fun number digit => (16 * number + ·) <$> ofHexDigit? digit) 0

end MainLocator.Numeral
