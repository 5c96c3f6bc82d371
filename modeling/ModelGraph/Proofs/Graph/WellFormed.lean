import ModelGraph.Proofs.Graph.Dependence
import ModelGraph.Proofs.Outcome

/-!
# Well-formed graphs

`Graph.Admits` says in words of the nodes themselves what `Graph.check` computes: which
inputs a node of each sort may have.  A graph is well formed if it admits all of its nodes
and no node depends on itself.  What a graph admits depends only on the sorts of its nodes,
so that it is not disturbed when nodes are added, rewired or given other types.
-/

namespace ModelGraph

namespace Node

/-- Whether a node draws from a distribution. -/
def isSample : Node → Bool
  | .operator (.sample _) => true
  | _ => false

/-- Whether a node has a value of its own. -/
def IsOperand (node : Node) : Prop :=
  node.category = .constant ∨ node.category = .operator ∨ node.category = .map

/-- Two nodes can be used in the same places. -/
def SameSort (a b : Node) : Prop :=
  a.category = b.category ∧ a.isSample = b.isSample

theorem SameSort.refl (node : Node) : node.SameSort node :=
  ⟨rfl, rfl⟩

theorem SameSort.symm {a b : Node} (same : a.SameSort b) : b.SameSort a :=
  ⟨same.1.symm, same.2.symm⟩

theorem category_eq_distribution {node : Node} :
    node.category = .distribution ↔ ∃ d, node = .distribution d := by
  cases node <;> simp [category]

theorem category_eq_operator {node : Node} :
    node.category = .operator ↔ ∃ op, node = .operator op := by
  cases node <;> simp [category]

theorem isSample_iff {node : Node} :
    node.isSample = true ↔ ∃ distribution, node = .operator (.sample distribution) := by
  cases node with
  | operator op => cases op <;> simp [isSample]
  | _ => simp [isSample]

theorem SameSort.isOperand
    {a b : Node}
    (same : a.SameSort b)
    (operand : a.IsOperand) :
    b.IsOperand := by
  unfold IsOperand at operand ⊢
  rw [← same.1]
  exact operand

/-- Giving a node another input does not change where it can be used. -/
theorem sameSort_withInput (node : Node) (position : Nat) (input : NodeId) :
    node.SameSort (node.withInput position input) := by
  cases node with
  | operator op => cases op <;> exact ⟨rfl, rfl⟩
  | _ => exact ⟨rfl, rfl⟩

theorem sameSort_fixTypes (node : Node) : node.SameSort (Graph.fixTypes node) := by
  cases node <;> exact ⟨rfl, rfl⟩

end Node

namespace Graph

/-- A node may be part of a graph. -/
structure Admits (g : Graph) (node : Node) : Prop where
  /-- The inputs are nodes of the graph. -/
  inputs_exist : ∀ input ∈ node.inputs, input.index < g.size
  /-- A sample is drawn from a distribution. -/
  sample_input : ∀ distribution, node = .operator (.sample distribution) →
    ∃ d, g.node distribution = .ok (.distribution d)
  /-- Any other node works on nodes that have a value. -/
  operand_input : (∀ distribution, node ≠ .operator (.sample distribution)) →
    ∀ input ∈ node.inputs, ∃ operand, g.node input = .ok operand ∧ operand.IsOperand
  /-- What is observed is a sample. -/
  observed_input : ∀ observed value, node = .observation observed value →
    ∃ distribution, g.node observed = .ok (.operator (.sample distribution))
  /-- What is queried is an operator. -/
  queried_input : ∀ queried, node = .query queried →
    ∃ op, g.node queried = .ok (.operator op)
  /-- A map has an entry. -/
  map_entries : ∀ entries, node = .map entries → entries ≠ []

/-- Every node of the graph may be part of it, and no node depends on itself. -/
structure WellFormed (g : Graph) : Prop where
  admits : ∀ id node, g.node id = .ok node → g.Admits node
  acyclic : g.Acyclic

/-! ## What the check computes -/

section Require

variable {g : Graph} {id : NodeId}

theorem require_eq_ok_iff : g.require id = .ok () ↔ id.index < g.size := by
  unfold require
  constructor
  · intro passed
    obtain ⟨node, found, _⟩ := Outcome.bind_eq_ok_iff.mp passed
    exact index_lt_of_node_eq_ok found
  · intro inside
    obtain ⟨node, found⟩ := exists_node inside
    simp [found]

theorem requireDistribution_eq_ok_iff :
    g.requireDistribution id = .ok () ↔ ∃ d, g.node id = .ok (.distribution d) := by
  unfold requireDistribution
  cases found : g.node id with
  | error e => simp
  | ok node => cases node <;> simp

theorem requireSample_eq_ok_iff :
    g.requireSample id = .ok () ↔
      ∃ distribution, g.node id = .ok (.operator (.sample distribution)) := by
  unfold requireSample
  cases found : g.node id with
  | error e => simp
  | ok node =>
      cases node with
      | operator op => cases op <;> simp
      | _ => simp

theorem requireOperator_eq_ok_iff :
    g.requireOperator id = .ok () ↔ ∃ op, g.node id = .ok (.operator op) := by
  unfold requireOperator
  cases found : g.node id with
  | error e => simp
  | ok node => cases node <;> simp

theorem requireOperand_eq_ok_iff :
    g.requireOperand id = .ok () ↔ ∃ operand, g.node id = .ok operand ∧ operand.IsOperand := by
  unfold requireOperand
  cases found : g.node id with
  | error e => simp
  | ok node => cases node <;> simp [Node.IsOperand, Node.category]

end Require

/-- The check passes exactly the nodes that may be part of the graph. -/
theorem check_eq_ok_iff {g : Graph} {node : Node} :
    g.check node = .ok () ↔ g.Admits node := by
  unfold check
  rw [Outcome.bind_eq_ok_iff]
  constructor
  · rintro ⟨⟨⟩, inputsExist, passed⟩
    simp only [Outcome.forM_eq_ok_iff, require_eq_ok_iff] at inputsExist
    split at passed
    · next distribution =>
        have source := requireDistribution_eq_ok_iff.mp passed
        constructor <;> simp_all
    · cases passed
    · next observed value =>
        obtain ⟨⟨⟩, sample, operands⟩ := Outcome.bind_eq_ok_iff.mp passed
        rw [requireSample_eq_ok_iff] at sample
        simp only [Outcome.forM_eq_ok_iff, requireOperand_eq_ok_iff] at operands
        constructor <;> simp_all
    · next queried =>
        obtain ⟨⟨⟩, operator, operands⟩ := Outcome.bind_eq_ok_iff.mp passed
        rw [requireOperator_eq_ok_iff] at operator
        simp only [Outcome.forM_eq_ok_iff, requireOperand_eq_ok_iff] at operands
        constructor <;> simp_all
    · next notSample notEmpty notObservation notQuery =>
        simp only [Outcome.forM_eq_ok_iff, requireOperand_eq_ok_iff] at passed
        refine ⟨inputsExist, ?_, fun _ => passed, ?_, ?_, ?_⟩
        · intro distribution equal
          exact absurd equal (notSample distribution)
        · intro observed value equal
          exact absurd equal (notObservation observed value)
        · intro queried equal
          exact absurd equal (notQuery queried)
        · rintro entries equal rfl
          exact notEmpty equal
  · intro admitted
    have inputsExist : node.inputs.forM g.require = .ok () := by
      simpa only [Outcome.forM_eq_ok_iff, require_eq_ok_iff] using admitted.inputs_exist
    refine ⟨(), inputsExist, ?_⟩
    split
    · next distribution =>
        exact requireDistribution_eq_ok_iff.mpr (admitted.sample_input distribution rfl)
    · exact absurd rfl (admitted.map_entries [] rfl)
    · next observed value =>
        have sample := requireSample_eq_ok_iff.mpr (admitted.observed_input observed value rfl)
        have operands := admitted.operand_input (by simp)
        simp only [sample, Outcome.ok_bind, Outcome.forM_eq_ok_iff, requireOperand_eq_ok_iff]
        exact operands
    · next queried =>
        have operator := requireOperator_eq_ok_iff.mpr (admitted.queried_input queried rfl)
        have operands := admitted.operand_input (by simp)
        simp only [operator, Outcome.ok_bind, Outcome.forM_eq_ok_iff, requireOperand_eq_ok_iff]
        exact operands
    · next notSample _ _ _ =>
        simp only [Outcome.forM_eq_ok_iff, requireOperand_eq_ok_iff]
        exact admitted.operand_input notSample

/-! ## What does not disturb it -/

/-- Every node of one graph has a counterpart of the same sort in another. -/
def Retains (g g' : Graph) : Prop :=
  ∀ id node, g.node id = .ok node → ∃ node', g'.node id = .ok node' ∧ node.SameSort node'

/-- A graph whose nodes are of the same sorts at the inputs of a node admits that node, too. -/
theorem Admits.of_inputs
    {g g' : Graph} {node : Node}
    (admitted : g.Admits node)
    (retained : ∀ input ∈ node.inputs, ∀ used, g.node input = .ok used →
      ∃ used', g'.node input = .ok used' ∧ used.SameSort used') :
    g'.Admits node where
  inputs_exist := by
    intro input present
    obtain ⟨used, found⟩ := exists_node (admitted.inputs_exist input present)
    obtain ⟨used', found', _⟩ := retained input present used found
    exact index_lt_of_node_eq_ok found'
  sample_input := by
    rintro distribution rfl
    obtain ⟨d, found⟩ := admitted.sample_input distribution rfl
    obtain ⟨node', found', same⟩ := retained distribution List.mem_cons_self _ found
    obtain ⟨d', rfl⟩ := Node.category_eq_distribution.mp same.1.symm
    exact ⟨d', found'⟩
  operand_input := by
    intro notSample input present
    obtain ⟨operand, found, isOperand⟩ := admitted.operand_input notSample input present
    obtain ⟨operand', found', same⟩ := retained input present operand found
    exact ⟨operand', found', same.isOperand isOperand⟩
  observed_input := by
    rintro observed value rfl
    obtain ⟨distribution, found⟩ := admitted.observed_input observed value rfl
    obtain ⟨node', found', same⟩ := retained observed List.mem_cons_self _ found
    obtain ⟨distribution', rfl⟩ := Node.isSample_iff.mp same.2.symm
    exact ⟨distribution', found'⟩
  queried_input := by
    rintro queried rfl
    obtain ⟨op, found⟩ := admitted.queried_input queried rfl
    obtain ⟨node', found', same⟩ := retained queried List.mem_cons_self _ found
    obtain ⟨op', rfl⟩ := Node.category_eq_operator.mp same.1.symm
    exact ⟨op', found'⟩
  map_entries := admitted.map_entries

/-- A graph with nodes of the same sorts admits the same nodes. -/
theorem Admits.of_retains
    {g g' : Graph} {node : Node}
    (admitted : g.Admits node)
    (retains : g.Retains g') :
    g'.Admits node :=
  admitted.of_inputs fun input _ => retains input

/-- Fixing types does not change whether a distribution may be part of a graph. -/
theorem Admits.of_parameters_eq
    {g : Graph} {d d' : Distribution}
    (admitted : g.Admits (.distribution d))
    (same : d'.parameters = d.parameters) :
    g.Admits (.distribution d') := by
  have inputs : (Node.distribution d').inputs = (Node.distribution d).inputs :=
    congrArg Parameters.inputs same
  refine
    { inputs_exist := ?_
      sample_input := by simp
      operand_input := ?_
      observed_input := by simp
      queried_input := by simp
      map_entries := by simp }
  · rw [inputs]
    exact admitted.inputs_exist
  · intro _
    rw [inputs]
    exact admitted.operand_input (by simp)

theorem WellFormed.inputsExist {g : Graph} (wellFormed : g.WellFormed) : g.InputsExist := by
  rintro id input ⟨node, found, present⟩
  exact (wellFormed.admits id node found).inputs_exist input present

end Graph

end ModelGraph
