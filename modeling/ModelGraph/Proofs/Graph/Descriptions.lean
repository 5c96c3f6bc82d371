import ModelGraph.Graph.Description
import ModelGraph.Proofs.Graph.Descent
import ModelGraph.Proofs.Graph.Labels

/-!
# Descriptions of nodes

The description of a node is composed of those of its inputs, down to the constants.  So a node is
described where words can count the places of every value below it, and where they cannot, writing
the description crashes: `WellFormed.describe_grantedIf`.
-/

namespace ModelGraph

open Outcome (GrantedIf)

namespace Graph

section Descriptions

variable {g : Graph} {describe describe' : NodeId → Except Error String}

theorem operatorDescription_congr
    {op : Operator}
    (same : ∀ input ∈ op.inputs, describe' input = describe input) :
    operatorDescription describe' op = operatorDescription describe op := by
  cases op with
  | binary op left right =>
      cases op <;> simp_all [operatorDescription, Operator.inputs]
  | unary op operand =>
      cases op <;> simp_all [operatorDescription, Operator.inputs]
  | _ => simp_all [operatorDescription, Operator.inputs]

/-- A node is described by describing its inputs. -/
theorem descriptionRule_congr
    {id : NodeId} {node : Node}
    (same : ∀ input ∈ node.inputs, describe' input = describe input) :
    descriptionRule id node describe' = descriptionRule id node describe := by
  cases node with
  | constant value => rfl
  | distribution d =>
      have arguments : d.parameters.inputs.mapM describe' = d.parameters.inputs.mapM describe :=
        Outcome.mapM_congr same
      simp only [descriptionRule, arguments]
  | operator op => exact operatorDescription_congr same
  | map entries =>
      have each : entries.mapM (entryDescription describe') =
          entries.mapM (entryDescription describe) := by
        refine Outcome.mapM_congr fun entry present => ?_
        have ofPart : ∀ part ∈ [entry.1, entry.2], describe' part = describe part :=
          fun part isPart => same part (List.mem_flatMap.mpr ⟨entry, present, isPart⟩)
        simp only [entryDescription, ofPart entry.1 (by simp), ofPart entry.2 (by simp)]
      simp only [descriptionRule, each]
  | observation observed value =>
      simp only [descriptionRule, same observed List.mem_cons_self]
  | query queried => simp only [descriptionRule, same queried List.mem_cons_self]

theorem descriptionRule_local (g : Graph) : Rule.Local descriptionRule g := by
  intro id node found answers answers' same
  exact descriptionRule_congr fun input present => same input (.single ⟨node, found, present⟩)

/-- The description of a node is composed of those of its inputs. -/
theorem describe_eq
    {id : NodeId} {node : Node}
    (wellFormed : g.WellFormed)
    (found : g.node id = .ok node) :
    g.describe id = descriptionRule id node g.describe :=
  ask_eq wellFormed g.descriptionRule_local found

/-! ## Which nodes are described -/

section Step

variable {Described : NodeId → Prop}

theorem operatorDescription_grantedIf
    {op : Operator}
    (each : ∀ input ∈ op.inputs, GrantedIf (describe input) (Described input)) :
    GrantedIf (operatorDescription describe op) (∀ input ∈ op.inputs, Described input) := by
  cases op with
  | ifThenElse condition consequence alternative =>
      simp only [Operator.inputs, List.forall_mem_cons] at each ⊢
      obtain ⟨ofCondition, ofConsequence, ofAlternative, _⟩ := each
      exact (ofCondition.bind fun _ => ofConsequence.bind fun _ => ofAlternative.map _).of_iff
        (by simp)
  | binary op left right =>
      simp only [Operator.inputs, List.forall_mem_cons] at each ⊢
      obtain ⟨ofLeft, ofRight, _⟩ := each
      cases op <;> exact (ofLeft.bind fun _ => ofRight.map _).of_iff (by simp)
  | unary op operand =>
      have ofOperand := each operand List.mem_cons_self
      cases op <;> exact (ofOperand.map _).of_iff (by simp [Operator.inputs])
  | sample distribution =>
      exact ((each distribution List.mem_cons_self).map _).of_iff (by simp [Operator.inputs])

theorem entryDescription_grantedIf
    {entry : NodeId × NodeId}
    (ofKey : GrantedIf (describe entry.1) (Described entry.1))
    (ofValue : GrantedIf (describe entry.2) (Described entry.2)) :
    GrantedIf (entryDescription describe entry) (Described entry.1 ∧ Described entry.2) :=
  ofKey.bind fun _ => ofValue.map _

/-- A node is described if its inputs are and words can count the places of its value. -/
theorem descriptionRule_grantedIf
    {node : Node}
    (each : ∀ input ∈ node.inputs, GrantedIf (describe input) (Described input))
    (id : NodeId) :
    GrantedIf (descriptionRule id node describe)
      (node.IsCounted ∧ ∀ input ∈ node.inputs, Described input) := by
  have noValue (isValueless : node.value? = none) :
      (∀ input ∈ node.inputs, Described input) ↔
        node.IsCounted ∧ ∀ input ∈ node.inputs, Described input :=
    (and_iff_right (Node.isCounted_of_value?_eq_none isValueless)).symm
  cases node with
  | constant value =>
      refine GrantedIf.of_iff ⟨_, value.text_answersIf⟩ ?_
      simp [Node.isCounted_of_value?_eq_some, Node.inputs, Node.value?]
  | distribution d => exact ((GrantedIf.mapM each).map _).of_iff (noValue rfl)
  | operator op => exact (operatorDescription_grantedIf each).of_iff (noValue rfl)
  | map entries =>
      have ofEntry : ∀ entry ∈ entries, GrantedIf (entryDescription describe entry)
          (Described entry.1 ∧ Described entry.2) := by
        intro entry present
        have ofPart : ∀ part ∈ [entry.1, entry.2], GrantedIf (describe part) (Described part) :=
          fun part isPart => each part (List.mem_flatMap.mpr ⟨entry, present, isPart⟩)
        simp only [List.forall_mem_cons] at ofPart
        exact entryDescription_grantedIf ofPart.1 ofPart.2.1
      refine ((GrantedIf.mapM ofEntry).map _).of_iff (Iff.trans ?_ (noValue rfl))
      simp only [Node.inputs, List.forall_mem_flatMap, List.forall_mem_cons, List.not_mem_nil,
        false_implies, implies_true, and_true]
  | observation observed value =>
      have ofValue : GrantedIf value.text value.shape.IsCounted := ⟨_, value.text_answersIf⟩
      refine ((each observed List.mem_cons_self).bind fun _ => ofValue.map _).of_iff ?_
      simp [Node.isCounted_of_value?_eq_some, Node.inputs, Node.value?, and_comm]
  | query queried =>
      refine ((each queried List.mem_cons_self).map _).of_iff (Iff.trans ?_ (noValue rfl))
      simp [Node.inputs]

end Step

/-- Words can count the places of the values of a node and of all nodes below it. -/
def CountedBelow (g : Graph) (id : NodeId) : Prop :=
  ∀ lower node, g.Reaches id lower → g.node lower = .ok node → node.IsCounted

theorem countedBelow_iff
    {id : NodeId} {node : Node}
    (found : g.node id = .ok node) :
    g.CountedBelow id ↔ node.IsCounted ∧ ∀ input ∈ node.inputs, g.CountedBelow input := by
  constructor
  · intro counted
    refine ⟨counted id node .refl found, fun input present lower lowerNode path => ?_⟩
    exact counted lower lowerNode (.head ⟨node, found, present⟩ path)
  · rintro ⟨here, below⟩ lower lowerNode path foundLower
    rcases path.cases_head with rfl | ⟨input, ⟨node', found', present⟩, rest⟩
    · cases found.symm.trans foundLower
      exact here
    · cases found.symm.trans found'
      exact below input present lower lowerNode rest foundLower

/-- A node is described where words can count the places of every value below it. -/
theorem WellFormed.describe_grantedIf
    {id : NodeId}
    (wellFormed : g.WellFormed)
    (inside : id.index < g.size) :
    GrantedIf (g.describe id) (g.CountedBelow id) := by
  induction id using wellFormed.induction with
  | step id ih =>
      obtain ⟨node, found⟩ := exists_node inside
      rw [describe_eq wellFormed found]
      refine (descriptionRule_grantedIf (fun input present => ?_) id).of_iff
        (countedBelow_iff found).symm
      exact ih input (.single ⟨node, found, present⟩)
        (wellFormed.inputsExist id input ⟨node, found, present⟩)

end Descriptions

end Graph

end ModelGraph
