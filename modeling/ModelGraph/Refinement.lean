/-!
# Refinement types

The kinds of number a value can be, ordered by inclusion: booleans are naturals and
probabilities, both of these are positive reals, and then come reals and tensors.
Two kinds that disagree meet in their least common upper bound.
-/

namespace ModelGraph

/-- A kind of value; a wider kind holds every value of a narrower one. -/
inductive Refinement where
  | boolean
  | natural
  | probability
  | positiveReal
  | real
  | tensor
  deriving DecidableEq, Repr

namespace Refinement

/-- Every kind once, in declaration order. -/
def all : List Refinement :=
  [.boolean, .natural, .probability, .positiveReal, .real, .tensor]

/-- The place of a kind in `all`. -/
def rank (r : Refinement) : Nat :=
  all.idxOf r

/-- The kinds that hold every value of `r`, the narrower ones first. -/
def upperBounds : Refinement → List Refinement
  | .boolean => [.boolean, .natural, .probability, .positiveReal, .real, .tensor]
  | .natural => [.natural, .positiveReal, .real, .tensor]
  | .probability => [.probability, .positiveReal, .real, .tensor]
  | .positiveReal => [.positiveReal, .real, .tensor]
  | .real => [.real, .tensor]
  | .tensor => [.tensor]

/-- A kind is below another when its values are among the other's. -/
instance : LE Refinement where
  le a b := b ∈ a.upperBounds

instance (a b : Refinement) : Decidable (a ≤ b) :=
  inferInstanceAs (Decidable (b ∈ a.upperBounds))

/-- The first upper bound of `a` that is also one of `b`. -/
def sup (a b : Refinement) : Refinement :=
  (a.upperBounds.find? fun c => decide (b ≤ c)).getD .tensor

/-- Every kind but the tensors is a kind of single number. -/
def isScalar (r : Refinement) : Bool :=
  r != .tensor

/-- The name of a kind in words. -/
def name : Refinement → String
  | .boolean => "bool"
  | .natural => "natural"
  | .probability => "probability"
  | .positiveReal => "positive real"
  | .real => "real"
  | .tensor => "tensor"

instance : ToString Refinement where
  toString := name

/-- The identifier of a kind, a single word. -/
def tag : Refinement → String
  | .boolean => "Boolean"
  | .natural => "Natural"
  | .probability => "Probability"
  | .positiveReal => "PositiveReal"
  | .real => "Real"
  | .tensor => "Tensor"

end Refinement

end ModelGraph
