import ModelGraph.Proofs.Graph.History
import ModelGraph.Proofs.Tensor.Slices

/-!
# Texts of values in graphs

Constants and observations hold values, and their labels show them.  A graph has all its labels
where words can count the places of every value it holds; a value with more places is accepted all
the same if its elements agree with its dimensions in words, and then its node has no label.
-/

namespace ModelGraph

namespace Value

/-- The text of a value whose places words can count. -/
def wording : Value → String
  | .boolean b => if b then "True" else "False"
  | .natural n => toString n.toNat
  | .positiveReal x | .probability x | .real x => Decimal.ofReal x
  | .tensor t => t.labelling

theorem text_answersIf (v : Value) : Outcome.AnswersIf v.text v.shape.IsCounted v.wording := by
  cases v with
  | tensor t => exact t.label_answersIf
  | _ => exact (Outcome.AnswersIf.ok _).of_iff (iff_of_true trivial Shape.isCounted_scalar)

end Value

namespace Node

/-- The value that a node holds. -/
def value? : Node → Option Value
  | .constant v | .observation _ v => some v
  | _ => none

/-- Words can count the places of the value that a node holds, if it holds one. -/
def IsCounted (node : Node) : Prop :=
  ∀ v ∈ node.value?, v.shape.IsCounted

instance (node : Node) : Decidable node.IsCounted :=
  inferInstanceAs (Decidable (∀ v ∈ node.value?, v.shape.IsCounted))

/-- The label of a node whose value words can count. -/
def caption : Node → String
  | .constant v => v.wording
  | .distribution d => d.label
  | .operator op => op.label
  | .map _ => "map"
  | .observation _ v => "Observation " ++ v.wording
  | .query _ => "Query"

theorem isCounted_of_value?_eq_some
    {node : Node} {v : Value}
    (holds : node.value? = some v) :
    node.IsCounted ↔ v.shape.IsCounted := by
  simp [IsCounted, holds]

theorem isCounted_of_value?_eq_none
    {node : Node}
    (holds : node.value? = none) :
    node.IsCounted := by
  simp [IsCounted, holds]

/-- A node has its label where words can count the places of its value. -/
theorem label_answersIf (node : Node) :
    Outcome.AnswersIf node.label node.IsCounted node.caption := by
  cases node with
  | constant v => exact v.text_answersIf.of_iff (isCounted_of_value?_eq_some rfl).symm
  | observation observed v =>
      exact (v.text_answersIf.map fun text => "Observation " ++ text).of_iff
        (isCounted_of_value?_eq_some rfl).symm
  | _ =>
      exact (Outcome.AnswersIf.ok _).of_iff (iff_of_true trivial (isCounted_of_value?_eq_none rfl))

end Node

namespace Graph

/-- Words can count the places of every value in a graph. -/
def IsCounted (g : Graph) : Prop :=
  ∀ node ∈ g.nodes, node.IsCounted

instance (g : Graph) : Decidable g.IsCounted :=
  inferInstanceAs (Decidable (∀ node ∈ g.nodes, node.IsCounted))

end Graph

/-! ## A value without its elements -/

/-- A tensor of two rows that has no elements: in words, its dimensions multiply to zero. -/
def Tensor.hollow : Tensor :=
  ⟨⟨[2, 9223372036854775808]⟩, #[], by decide⟩

/-- The graph whose only node is that tensor. -/
def Graph.hollow : Graph where
  nodes := #[.constant (.tensor .hollow)]

end ModelGraph
