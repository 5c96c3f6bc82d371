import ModelGraph.Node.Distribution
import ModelGraph.Refinement

/-!
# Types of nodes

The type of a node is the kind of value it has, the family it belongs to if it is a
distribution, or that of maps.  Where two inputs should agree and do not, the type is
malformed and keeps both sides, so that it can be repaired by coercing both to a common
kind.
-/

namespace ModelGraph

/-- The type of a node. -/
inductive NodeType where
  | value (kind : Refinement)
  | distribution (family : Family)
  | map
  | malformed (left right : NodeType)
  deriving DecidableEq, Repr

namespace NodeType

/-- The common type of two nodes that should agree. -/
def unify (left right : NodeType) : NodeType :=
  if left = right then left else .malformed left right

/-- Whether a disagreement is recorded at the top of a type. -/
def isMalformed : NodeType → Bool
  | .malformed .. => true
  | _ => false

/-- The kind of value, if the type is one. -/
def refinement? : NodeType → Option Refinement
  | .value kind => some kind
  | _ => none

/-- The least kind to which every part of a type can be coerced, if all parts are kinds. -/
def repairTarget? : NodeType → Option Refinement
  | .value kind => some kind
  | .malformed left right => do return (← left.repairTarget?).sup (← right.repairTarget?)
  | _ => none

/-- The text of a type. -/
def text : NodeType → String
  | .value kind => kind.name
  | .distribution family => s!"{family} distribution"
  | .map => "map"
  | .malformed left right => s!"malformed({left.text}, {right.text})"

instance : ToString NodeType where
  toString := text

end NodeType

end ModelGraph
