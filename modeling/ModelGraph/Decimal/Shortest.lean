/-!
# Shortest decimals

Between its two neighbours every double owns an interval of reals that round to it.
`Binary.shortest` finds the decimal with the fewest digits in that interval, and of two
such decimals the one nearer to the double.  All arithmetic is on natural numbers.
-/

namespace ModelGraph

/-- The decimal `digits * 10 ^ exponent`. -/
structure Decimal where
  /-- The significant digits, read as one number. -/
  digits : Nat
  /-- The power of ten that the last digit counts. -/
  exponent : Int
  deriving DecidableEq, Repr

/-- The magnitude `significand * 2 ^ exponent` of a double. -/
structure Binary where
  /-- The bits of the significand, the hidden one included. -/
  significand : Nat
  /-- The power of two that the last bit counts. -/
  exponent : Int
  /-- Whether the next smaller double is only half as far away as the next larger one. -/
  narrowBelow : Bool
  deriving DecidableEq, Repr

namespace Binary

/-- The weight of the leading bit of a significand, which is not among the bits of a
double: the fifty-second power of two. -/
def hiddenBit : Nat :=
  4503599627370496

/-- Reads the magnitude of a finite double off its bits. -/
def ofBits (bits : UInt64) : Binary :=
  let fraction : Nat := bits.toNat % hiddenBit
  let scale : Nat := bits.toNat / hiddenBit % 2048
  if scale = 0 then
    ⟨fraction, -1074, false⟩
  else
    ⟨fraction + hiddenBit, (scale : Int) - 1075, fraction = 0 && 1 < scale⟩

/-- Multiplies by `base ^ exponent` if the exponent is positive. -/
def raise (n base : Nat) (exponent : Int) : Nat :=
  n * Nat.pow base exponent.toNat

/-- A count of quarters of the last bit, as a numerator over `gridDenominator`. -/
def gridNumerator (b : Binary) (quarters : Nat) (place : Int) : Nat :=
  raise (raise quarters 2 (b.exponent - 2)) 10 (-place)

/-- The denominator that makes `10 ^ place` the unit. -/
def gridDenominator (b : Binary) (place : Int) : Nat :=
  raise (raise 1 2 (2 - b.exponent)) 10 place

/-- Whether `n * 10 ^ place` rounds to `b`: it lies between the midpoints to the
neighbours, which themselves round to the double with the even significand. -/
def Owns (b : Binary) (place : Int) (n : Nat) : Prop :=
  let low := b.gridNumerator (4 * b.significand - if b.narrowBelow then 1 else 2) place
  let high := b.gridNumerator (4 * b.significand + 2) place
  let value := n * b.gridDenominator place
  if b.significand % 2 = 0 then low ≤ value ∧ value ≤ high else low < value ∧ value < high

instance (b : Binary) (place : Int) (n : Nat) : Decidable (b.Owns place n) := by
  unfold Owns
  exact inferInstance

/-- The multiple of `10 ^ place` next to `b` that rounds to it.  If both neighbours do,
the nearer one is taken, and the upper one if they are equally near. -/
def nearestAt? (b : Binary) (place : Int) : Option Nat :=
  let numerator := b.gridNumerator (4 * b.significand) place
  let denominator := b.gridDenominator place
  let below := numerator / denominator
  if b.Owns place below then
    if b.Owns place (below + 1) ∧ (2 * below + 1) * denominator ≤ 2 * numerator then
      some (below + 1)
    else
      some below
  else if b.Owns place (below + 1) then
    some (below + 1)
  else
    none

/-- A place whose unit exceeds `b`: the binary magnitude times `log 2`, rounded up. -/
def leadingPlace (b : Binary) : Int :=
  (b.exponent + (b.significand.log2 + 1 : Nat)) * 30103 / 100000 + 1

/-- The shortest decimal that rounds to `b`, searched from the coarsest grid down.
Seventeen digits always suffice, and `leadingPlace` is at most three places too high. -/
def shortest (b : Binary) : Decimal :=
  let places := (List.range 21).map fun (i : Nat) => b.leadingPlace - i
  let hit := places.findSome? fun place =>
    (b.nearestAt? place).map fun digits => Decimal.mk digits place
  hit.getD ⟨b.significand, 0⟩

end Binary

end ModelGraph
