import ModelGraph.NodeType
import ModelGraph.Persistence.Node

/-!
# Persisted types

The data form of the types of nodes.  A malformed type is an object that holds both sides,
which are types themselves.
-/

namespace ModelGraph

namespace NodeType

/-- Writes a type. -/
def toJson : NodeType → Json
  | .value kind => .object [("Value", kind.toJson)]
  | .distribution family => .object [("Distribution", .text family.name)]
  | .map => .text "Map"
  | .malformed left right =>
    .object [("Malformed", .object [("left", left.toJson), ("right", right.toJson)])]

/-- Reads a family. -/
def familyOfJson (json : Json) : Read Family := do
  Json.Parts.need (Family.ofName? (← json.toName))

/-- Reads a type that has no sides. -/
def atomOfJson (name : String) (content : Json) : Read NodeType :=
  match name, content with
  | "Value", content => .value <$> Refinement.ofJson content
  | "Distribution", content => .distribution <$> familyOfJson content
  | "Map", .null => .ok .map
  | _, _ => .error .form

/-- The side of a malformed type that was read under a name. -/
def side (sides : List (String × Read NodeType)) (name : String) : Read NodeType :=
  (sides.lookup name).getD (.error .form)

mutual

/-- Reads a type. -/
def ofJson : Json → Read NodeType
  | .text name => if name = "Map" then .ok .map else .error .form
  | .object [("Malformed", .object fields)] => do
    let sides := sidesOfFields fields
    return .malformed (← side sides "left") (← side sides "right")
  | .object [(name, content)] => atomOfJson name content
  | _ => .error .form

/-- Reads each field of an object as a type. -/
def sidesOfFields : List (String × Json) → List (String × Read NodeType)
  | [] => []
  | (name, content) :: fields => (name, ofJson content) :: sidesOfFields fields

end

end NodeType

end ModelGraph
