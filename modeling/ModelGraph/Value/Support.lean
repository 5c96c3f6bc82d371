import ModelGraph.Value.Set

/-!
# Supports

A support lists the values that a node can take.  The support of a distribution over a
finite set of outcomes holds every array of outcomes; there are too many of them to be
formed unless they are asked for, so that such a support is kept as its description.
-/

namespace ModelGraph

/-- The values that a node can take, in order. -/
inductive Support where
  /-- The values one by one. -/
  | listed (values : List Value)
  /-- Every array of a shape whose elements are whole numbers below a bound. -/
  | outcomes (bound : Nat) (shape : Shape)

namespace Support

/-- The tensor of a shape with the given whole numbers as elements. -/
def outcome (shape : Shape) (choice : List Nat) : Option Value :=
  (Tensor.ofArray shape (choice.map Float.ofNat).toArray).toOption.map .tensor

/-- The shape whose multi-indices are the choices of one outcome for each element of an
array: one axis for each element, and one position on it for each outcome. -/
def choices (bound : Nat) (shape : Shape) : Shape :=
  ⟨List.replicate shape.elementCount bound⟩

/-- The first `limit` values. -/
def take (limit : Nat) : Support → List Value
  | .listed values => values.take limit
  | .outcomes bound shape =>
    ((choices bound shape).indices.take limit).filterMap (outcome shape)

/-- All values. -/
def toList : Support → List Value
  | .listed values => values
  | .outcomes bound shape => (choices bound shape).indexList.filterMap (outcome shape)

/-- Folds the values one by one; no value is formed after a failure. -/
def foldlM {α : Type} (f : α → Value → Except Error α) (acc : α) :
    Support → Except Error α
  | .listed values => values.foldlM f acc
  | .outcomes bound shape =>
    Shape.Indices.foldlM
      (fun acc choice =>
        match outcome shape choice with
        | some value => f acc value
        | none => return acc)
      (Shape.places (choices bound shape).dims) acc (choices bound shape).indices

/-- The different values. -/
def toSet (s : Support) : ValueSet :=
  .ofList s.toList

end Support

end ModelGraph
