import ModelGraph.Decimal.Shortest

/-!
# Decimal text

How reals are written in labels, descriptions and emitted programs: the shortest digits
that read back, positionally where the magnitude is moderate and with a power of ten
elsewhere.
-/

namespace ModelGraph

namespace Decimal

/-- A way of writing reals. -/
structure Layout where
  /-- The least power of ten of a leading digit that is written positionally. -/
  leastPositional : Int
  /-- The least power of ten of a leading digit beyond it that is not. -/
  firstScientific : Int
  /-- What separates the digits from their power of ten. -/
  exponentMark : String
  /-- The text of a number that is none. -/
  notANumber : String
  /-- The text of an infinite magnitude. -/
  infinite : String

/-- Positional from `0.0001` up to below `10 ^ 16`, with at least one digit on each side
of the point. -/
def Layout.standard : Layout :=
  ⟨-4, 16, "e", "NaN", "inf"⟩

/-- The power of ten that the leading digit counts. -/
def leadingExponent (d : Decimal) : Int :=
  d.exponent + (toString d.digits).length - 1

/-- Writes a decimal with its point in place. -/
def positional (d : Decimal) : String :=
  let digits := (toString d.digits).toList
  let fraction := (-d.exponent).toNat
  if 0 ≤ d.exponent then
    String.ofList (digits ++ List.replicate d.exponent.toNat '0') ++ ".0"
  else if fraction < digits.length then
    let whole := digits.length - fraction
    String.ofList (digits.take whole) ++ "." ++ String.ofList (digits.drop whole)
  else
    "0." ++ String.ofList (List.replicate (fraction - digits.length) '0' ++ digits)

/-- Writes a decimal as one digit, further digits after a point, and a power of ten. -/
def scientific (mark : String) (d : Decimal) : String :=
  let digits := (toString d.digits).toList
  let tail := digits.drop 1
  let point := if tail.isEmpty then "" else "."
  String.ofList (digits.take 1) ++ point ++ String.ofList tail ++ mark
    ++ toString d.leadingExponent

/-- Writes a decimal in a layout. -/
def text (layout : Layout) (d : Decimal) : String :=
  if layout.leastPositional ≤ d.leadingExponent ∧ d.leadingExponent < layout.firstScientific then
    d.positional
  else
    d.scientific layout.exponentMark

/-- Writes a real in a layout: its shortest decimal, with a sign also on the negative zero
and without one on a number that is none. -/
def ofRealIn (layout : Layout) (x : Float) : String :=
  if x.isNaN then
    layout.notANumber
  else
    let sign := if x.toBits >>> 63 = 0 then "" else "-"
    if x == 0.0 then
      sign ++ "0.0"
    else if x.isInf then
      sign ++ layout.infinite
    else
      sign ++ (Binary.ofBits x.toBits).shortest.text layout

/-- The text of a real in the standard layout. -/
def ofReal (x : Float) : String :=
  ofRealIn .standard x

end Decimal

end ModelGraph
