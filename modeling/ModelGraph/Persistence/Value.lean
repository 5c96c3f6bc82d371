import ModelGraph.Persistence.Reading
import ModelGraph.Value.Basic

/-!
# Persisted values

The data form of kinds, shapes, tensors and values.  A tensor that is read must have as
many elements as its shape has places.
-/

namespace ModelGraph

/-- The kind with an identifier. -/
def Refinement.ofTag? (tag : String) : Option Refinement :=
  Refinement.all.find? fun r => r.tag = tag

/-- Writes a kind. -/
def Refinement.toJson (r : Refinement) : Json :=
  .text r.tag

/-- Reads a kind. -/
def Refinement.ofJson (json : Json) : Read Refinement := do
  Json.Parts.need (Refinement.ofTag? (← json.toName))

/-- Writes a shape. -/
def Shape.toJson (s : Shape) : Json :=
  .object [("dims", .array (s.dims.map Json.ofNat))]

/-- Reads a shape. -/
def Shape.ofJson : Json → Read Shape :=
  Json.toRecord ["dims"] fun parts => do
    return ⟨← parts.read "dims" (Json.toList Json.toCount)⟩

/-- Writes a tensor. -/
def Tensor.toJson (t : Tensor) : Json :=
  .object [("shape", t.shape.toJson), ("data", .array (t.data.toList.map Json.ofReal))]

/-- The tensor with the given elements, as a matter of reading. -/
def Tensor.assemble (shape : Shape) (data : List Float) : Read Tensor :=
  (Tensor.ofArray shape data.toArray).mapError .invalid

/-- Reads a tensor. -/
def Tensor.ofJson (json : Json) : Read Tensor := do
  let (shape, data) ← json.toRecord ["shape", "data"] fun parts => do
    return (← parts.read "shape" Shape.ofJson, ← parts.read "data" (Json.toList Json.toReal))
  Tensor.assemble shape data

/-- Writes the number or the tensor in a value. -/
def Value.contentToJson : Value → Json
  | .boolean b => .bool b
  | .natural n => .ofNat n.toNat
  | .positiveReal x | .probability x | .real x => .ofReal x
  | .tensor t => t.toJson

/-- Writes a value. -/
def Value.toJson (v : Value) : Json :=
  .object [(v.refinement.tag, v.contentToJson)]

/-- Reads the number or the tensor in a value of a given kind. -/
def Value.contentOfJson (json : Json) : Refinement → Read Value
  | .boolean => .boolean <$> json.toBool
  | .natural => .natural <$> json.toWord
  | .probability => .probability <$> json.toReal
  | .positiveReal => .positiveReal <$> json.toReal
  | .real => .real <$> json.toReal
  | .tensor => .tensor <$> Tensor.ofJson json

/-- Reads a value. -/
def Value.ofJson (json : Json) : Read Value := do
  let choice ← json.toChoice
  let kind ← Json.Parts.need (Refinement.ofTag? choice.name)
  choice.read fun content => Value.contentOfJson content kind

end ModelGraph
