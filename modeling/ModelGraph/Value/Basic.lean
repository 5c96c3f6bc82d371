import ModelGraph.Refinement
import ModelGraph.Tensor.Arithmetic
import ModelGraph.Tensor.Text

/-!
# Values

A value is a number of some kind or a tensor.  Equality `==` keeps kinds apart, while
`Value.sameContents` asks only for equal numbers in equal places; the digest of a value is
computed from its contents alone.
-/

namespace ModelGraph

/-- A constant of a model. -/
inductive Value where
  | boolean (b : Bool)
  | natural (n : UInt64)
  | positiveReal (x : Float)
  | probability (x : Float)
  | real (x : Float)
  | tensor (t : Tensor)
  deriving BEq

namespace Value

/-- The kind of a value. -/
def refinement : Value → Refinement
  | .boolean _ => .boolean
  | .natural _ => .natural
  | .positiveReal _ => .positiveReal
  | .probability _ => .probability
  | .real _ => .real
  | .tensor _ => .tensor

/-- The number that a value other than a tensor stands for. -/
def scalar? : Value → Option Float
  | .boolean b => some (if b then 1.0 else 0.0)
  | .natural n => some n.toFloat
  | .positiveReal x | .probability x | .real x => some x
  | .tensor _ => none

/-- The value as a tensor; a number has no axes. -/
def toTensor : Value → Tensor
  | .tensor t => t
  | .boolean b => .scalar (if b then 1.0 else 0.0)
  | .natural n => .scalar n.toFloat
  | .positiveReal x | .probability x | .real x => .scalar x

/-- The dimensions of a value. -/
def shape (v : Value) : Shape :=
  v.toTensor.shape

/-- The value as a single number. -/
def toReal (v : Value) : Except Error Float :=
  v.toTensor.item

/-- Whether two values hold equal numbers in equal places. -/
def sameContents (a b : Value) : Bool :=
  match a.scalar?, b.scalar? with
  | some x, some y => x == y
  | _, _ => a.toTensor == b.toTensor

/-- What the digest of a value is computed from. -/
def contentBytes : Value → List UInt8
  | .tensor t => t.contentBytes
  | v => Digest.arrayBytes [] v.scalar?.toList

/-- The digest of the contents of a value. -/
def digest (v : Value) : Digest :=
  .ofBytes v.contentBytes

/-- The text of a value; a tensor is written as in labels. -/
def text : Value → Except Error String
  | .boolean b => .ok (if b then "True" else "False")
  | .natural n => .ok (toString n.toNat)
  | .positiveReal x | .probability x | .real x => .ok (Decimal.ofReal x)
  | .tensor t => t.label

end Value

end ModelGraph
