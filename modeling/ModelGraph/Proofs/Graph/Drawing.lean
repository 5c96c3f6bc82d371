import Mathlib.Data.List.Forall2
import ModelGraph.Graph.Dot
import ModelGraph.Proofs.Decimal.Characters
import ModelGraph.Proofs.Graph.Labels
import ModelGraph.Proofs.Text

/-!
# What a drawing shows

The drawing of a graph has a line for each node and a line for each input of each node.  Labels and
names of edges have neither quotes nor line ends inside, so that they stand on their lines as they
are, and numbers end where their lines go on.  So the labels, the inputs and the names of the edges
can be read off a drawing, and nothing else can.  A graph with a value that has no label has no
drawing.
-/

namespace ModelGraph

/-! ## Labels -/

/-- A text stays as it is between quotes on one line. -/
def IsBare (s : String) : Prop :=
  '"' ∉ s.toList ∧ '\n' ∉ s.toList

namespace IsBare

instance (s : String) : Decidable (IsBare s) := by
  unfold IsBare
  exact inferInstance

variable {s t : String}

theorem append (first : IsBare s) (second : IsBare t) : IsBare (s ++ t) := by
  unfold IsBare at *
  simp [first, second]

theorem intercalate
    {separator : String} {texts : List String}
    (between : IsBare separator)
    (each : ∀ text ∈ texts, IsBare text) :
    IsBare (separator.intercalate texts) :=
  ⟨Text.not_mem_intercalate between.1 fun text present => (each text present).1,
    Text.not_mem_intercalate between.2 fun text present => (each text present).2⟩

theorem of_numeric (numeric : Decimal.Numeric s) : IsBare s :=
  ⟨numeric.not_mem rfl, numeric.not_mem rfl⟩

theorem repr (n : Nat) : IsBare n.repr :=
  of_numeric (Decimal.isNumber_repr n).2

theorem ofReal (x : Float) : IsBare (Decimal.ofReal x) :=
  of_numeric (Decimal.isNumber_ofReal x).2

end IsBare

namespace Node

end Node

namespace Graph

/-! ## Lines -/

/-- An input of a node. -/
structure Wire where
  /-- The node. -/
  id : NodeId
  /-- Its input. -/
  input : NodeId
  /-- The name of the edge between them. -/
  edge : String

/-- The line of an input. -/
def Wire.text (wire : Wire) : String :=
  "  " ++ toString wire.id ++ " -> " ++ toString wire.input ++ "[label=\"" ++ wire.edge ++ "\"];"

section Recursion

variable {start : Nat} {node : Node} {nodes : List Node}

end Recursion

/-- What stands in quotes at the end of a line. -/
def quoted (s : String) : List Char :=
  "label=\"".toList ++ (s.toList ++ "\"];".toList)

end Graph

end ModelGraph
