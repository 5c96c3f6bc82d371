/-!
# Numerals

Unsigned decimal numbers in text.
-/

namespace ModelGraph

namespace Numeral

/-- The number of a decimal digit. -/
def digit? (c : Char) : Option Nat :=
  if c.isDigit then some (c.toNat - '0'.toNat) else none

/-- The number that digits stand for, the most significant first. -/
def ofDigits (digits : List Char) : Nat :=
  digits.foldl (fun n c => 10 * n + (digit? c).getD 0) 0

/-- Splits the leading digits off. -/
def span (s : List Char) : List Char × List Char :=
  (s.takeWhile Char.isDigit, s.dropWhile Char.isDigit)

/-- Reads one or more digits and nothing else. -/
def read? (s : List Char) : Option Nat :=
  if s ≠ [] ∧ s.all Char.isDigit then some (ofDigits s) else none

/-- Reads digits that may follow a plus sign. -/
def readSigned? : List Char → Option Nat
  | '+' :: digits => read? digits
  | digits => read? digits

end Numeral

end ModelGraph
