import Mathlib.Data.List.Nodup
import Mathlib.Data.List.Perm.Subperm
import ModelGraph.Graph.Enumeration
import ModelGraph.Proofs.Graph.WellFormed

/-!
# Questions are answered from below

A question about a node goes at most as many nodes down as the graph has.  In a graph
without cycles that is no restriction: a node lies above fewer nodes than there are, and each
node below it above fewer still.  Hence any two sufficient depths give the same answer, and
the answer at a node is what the rule makes of the answers at the nodes below.  For shapes
and for supports this gives the recursions that the rules describe.
-/

namespace ModelGraph

namespace Graph

section Rank

open Classical in
/-- The nodes that a node depends on. -/
noncomputable def dependencies (g : Graph) (id : NodeId) : List NodeId :=
  g.ids.filter fun lower => g.Above id lower

@[simp] theorem mem_dependencies (g : Graph) (id lower : NodeId) :
    lower ∈ g.dependencies id ↔ lower.index < g.size ∧ g.Above id lower := by
  simp [dependencies]

theorem nodup_dependencies (g : Graph) (id : NodeId) : (g.dependencies id).Nodup :=
  g.nodup_ids.filter _

/-- How many nodes a node depends on. -/
noncomputable def rank (g : Graph) (id : NodeId) : Nat :=
  (g.dependencies id).length

theorem nodup_cons_dependencies
    {g : Graph}
    (acyclic : g.Acyclic)
    (id : NodeId) :
    (id :: g.dependencies id).Nodup := by
  refine List.nodup_cons.mpr ⟨?_, g.nodup_dependencies id⟩
  rw [mem_dependencies]
  exact fun present => acyclic id present.2

/-- A node depends on more nodes than any node it depends on. -/
theorem rank_lt_of_above
    {g : Graph} {id lower : NodeId}
    (wellFormed : g.WellFormed)
    (above : g.Above id lower) :
    g.rank lower < g.rank id := by
  have contained : (lower :: g.dependencies lower) ⊆ g.dependencies id := by
    intro below present
    rw [mem_dependencies]
    rcases List.mem_cons.mp present with rfl | present
    · exact ⟨above.lower_index_lt wellFormed.inputsExist, above⟩
    · rw [mem_dependencies] at present
      exact ⟨present.1, above.trans present.2⟩
  exact ((nodup_cons_dependencies wellFormed.acyclic lower).subperm contained).length_le

/-- A node of a graph depends on fewer nodes than the graph has. -/
theorem rank_lt_size
    {g : Graph} {id : NodeId}
    (wellFormed : g.WellFormed)
    (inside : id.index < g.size) :
    g.rank id < g.size := by
  have contained : (id :: g.dependencies id) ⊆ g.ids := by
    intro below present
    rw [mem_ids]
    rcases List.mem_cons.mp present with rfl | present
    · exact inside
    · exact ((mem_dependencies g id below).mp present).1
  have fewer := ((nodup_cons_dependencies wellFormed.acyclic id).subperm contained).length_le
  rw [length_ids] at fewer
  exact fewer

/-- What holds of a node whenever it holds of all nodes below holds of every node. -/
theorem WellFormed.induction
    {g : Graph} {motive : NodeId → Prop}
    (wellFormed : g.WellFormed)
    (step : ∀ id, (∀ lower, g.Above id lower → motive lower) → motive id)
    (id : NodeId) :
    motive id := by
  induction bound : g.rank id using Nat.strongRecOn generalizing id with
  | ind n ih =>
      subst bound
      exact step id fun lower above => ih _ (rank_lt_of_above wellFormed above) lower rfl

end Rank

section Rule

variable {α : Type} {g : Graph} {rule : Rule α}

/-- A rule asks only about nodes below. -/
def Rule.Local (rule : Rule α) (g : Graph) : Prop :=
  ∀ id node, g.node id = .ok node →
    ∀ answers answers' : NodeId → Except Error α,
      (∀ lower, g.Above id lower → answers lower = answers' lower) →
        rule id node answers = rule id node answers'

/-- Two depths that exceed the number of nodes below give the same answer. -/
theorem descend_eq_of_rank_lt
    (wellFormed : g.WellFormed)
    (isLocal : rule.Local g)
    {depth depth' : Nat} {id : NodeId}
    (enough : g.rank id < depth)
    (enough' : g.rank id < depth') :
    g.descend rule depth id = g.descend rule depth' id := by
  induction depth generalizing depth' id with
  | zero => exact absurd enough (Nat.not_lt_zero _)
  | succ depth ih =>
      cases depth' with
      | zero => exact absurd enough' (Nat.not_lt_zero _)
      | succ depth' =>
          unfold descend
          cases found : g.node id with
          | error e => rfl
          | ok node =>
              refine isLocal id node found _ _ fun lower above => ?_
              have lowerRank := rank_lt_of_above wellFormed above
              exact ih (by omega) (by omega)

/-- The answer at a node is what the rule makes of the answers at the nodes below. -/
theorem ask_eq
    (wellFormed : g.WellFormed)
    (isLocal : rule.Local g)
    {id : NodeId} {node : Node}
    (found : g.node id = .ok node) :
    g.ask rule id = rule id node (g.ask rule) := by
  have inside := index_lt_of_node_eq_ok found
  obtain ⟨depth, size⟩ : ∃ depth, g.size = depth + 1 := ⟨g.size - 1, by omega⟩
  have unfolded : g.ask rule id = rule id node (g.descend rule depth) := by
    unfold ask
    rw [size]
    unfold descend
    rw [found]
    rfl
  rw [unfolded]
  refine isLocal id node found _ _ fun lower above => ?_
  have lowerRank := rank_lt_of_above wellFormed above
  have rank := rank_lt_size wellFormed inside
  exact descend_eq_of_rank_lt wellFormed isLocal (by omega) (by omega)

/-- There is no answer at a node that does not exist. -/
theorem ask_eq_error
    {id : NodeId}
    (outside : g.size ≤ id.index) :
    g.ask rule id = .error (.unknownNode id) := by
  have missing := node_eq_error_of_size_le outside
  unfold ask
  cases g.size with
  | zero => simp [descend, require, missing]
  | succ depth => simp [descend, missing]

theorem exists_node_of_ask_eq_ok
    {id : NodeId} {answer : α}
    (answered : g.ask rule id = .ok answer) :
    ∃ node, g.node id = .ok node := by
  by_cases inside : id.index < g.size
  · exact exists_node inside
  · rw [ask_eq_error (Nat.le_of_not_lt inside)] at answered
    cases answered

end Rule

/-! ## Shapes -/

/-- The shape of a node is found from the shapes of its inputs. -/
theorem shapeRule_congr
    {id : NodeId} {node : Node} {shapeOf shapeOf' : NodeId → Except Error Shape}
    (same : ∀ input ∈ node.inputs, shapeOf input = shapeOf' input) :
    shapeRule id node shapeOf = shapeRule id node shapeOf' := by
  cases node with
  | constant value => rfl
  | distribution d =>
      obtain ⟨parameters, fixed⟩ := d
      cases parameters <;> cases fixed <;>
        simp_all [shapeRule, distributionShapeFrom, Node.inputs, Parameters.inputs]
  | operator op =>
      cases op with
      | ifThenElse condition consequence alternative => rfl
      | binary op left right =>
          cases op <;> simp_all [shapeRule, operatorShapeFrom, Node.inputs, Operator.inputs]
      | unary op operand =>
          cases op <;> simp_all [shapeRule, operatorShapeFrom, Node.inputs, Operator.inputs]
      | sample distribution =>
          exact same distribution (by simp [Node.inputs, Operator.inputs])
  | map entries =>
      cases entries with
      | nil => rfl
      | cons first rest => exact same first.2 (by simp [Node.inputs])
  | observation observed value => rfl
  | query queried => exact same queried (by simp [Node.inputs])

theorem shapeRule_local (g : Graph) : Rule.Local shapeRule g := by
  intro id node found answers answers' same
  refine shapeRule_congr fun input present => ?_
  exact same input (.single ⟨node, found, present⟩)

theorem shapeOf_eq
    {g : Graph} {id : NodeId} {node : Node}
    (wellFormed : g.WellFormed)
    (found : g.node id = .ok node) :
    g.shapeOf id = shapeRule id node g.shapeOf :=
  ask_eq wellFormed g.shapeRule_local found

/-! ## Supports -/

/-- No key is found where there are no entries. -/
theorem findEntry_nil_ne_ok
    {g : Graph} {map entry : NodeId} {key : Value} :
    g.findEntry map key [] ≠ .ok entry := by
  intro found
  obtain ⟨text, -, refused⟩ := Outcome.bind_eq_ok_iff.mp found
  cases refused

theorem findEntry_eq_ok
    {g : Graph} {map entry : NodeId} {key : Value} {entries : List (NodeId × NodeId)}
    (found : g.findEntry map key entries = .ok entry) :
    ∃ pair ∈ entries, pair.2 = entry := by
  induction entries with
  | nil => exact absurd found findEntry_nil_ne_ok
  | cons pair rest ih =>
      obtain ⟨keyNode, valueNode⟩ := pair
      unfold findEntry at found
      obtain ⟨node, _, found⟩ := Outcome.bind_eq_ok_iff.mp found
      split at found
      · split at found
        · cases found
          exact ⟨_, List.mem_cons_self, rfl⟩
        · obtain ⟨pair, present, equal⟩ := ih found
          exact ⟨pair, List.mem_cons_of_mem _ present, equal⟩
      · cases found

/-- A key selects the value of one of the entries of a map. -/
theorem lookup_eq_ok
    {g : Graph} {map entry : NodeId} {key : Value}
    (found : g.lookup map key = .ok entry) :
    ∃ entries, g.node map = .ok (.map entries) ∧ ∃ pair ∈ entries, pair.2 = entry := by
  unfold lookup at found
  obtain ⟨node, isThere, found⟩ := Outcome.bind_eq_ok_iff.mp found
  split at found
  · next entries => exact ⟨entries, isThere, findEntry_eq_ok found⟩
  · cases found

/-- What a key selects is an input of the map. -/
theorem dependsOn_of_lookup_eq_ok
    {g : Graph} {map entry : NodeId} {key : Value}
    (found : g.lookup map key = .ok entry) :
    g.DependsOn map entry := by
  obtain ⟨entries, isThere, pair, present, rfl⟩ := lookup_eq_ok found
  refine ⟨_, isThere, ?_⟩
  exact List.mem_flatMap.mpr ⟨pair, present, by simp⟩

theorem indexSupport_congr
    {g : Graph} {map : NodeId} {keys : Support}
    {supportOf supportOf' : NodeId → Except Error Support}
    (same : ∀ lower, g.DependsOn map lower → supportOf lower = supportOf' lower) :
    g.indexSupport supportOf map keys = g.indexSupport supportOf' map keys := by
  unfold indexSupport
  refine congrArg (fun withKey => keys.foldlM withKey ∅) ?_
  funext set key
  cases found : g.lookup map key with
  | error e => rfl
  | ok entry => simp only [Outcome.ok_bind, same entry (dependsOn_of_lookup_eq_ok found)]

theorem supportRule_local (g : Graph) : Rule.Local g.supportRule g := by
  intro id node found answers answers' same
  have sameInput : ∀ input ∈ node.inputs, answers input = answers' input :=
    fun input present => same input (.single ⟨node, found, present⟩)
  cases node with
  | operator op =>
      cases op with
      | ifThenElse condition consequence alternative => rfl
      | binary op left right =>
          have sameLeft := sameInput left (by simp [Node.inputs, Operator.inputs])
          have sameRight := sameInput right (by simp [Node.inputs, Operator.inputs])
          -- the entries of a map are two steps down
          have sameEntries : ∀ lower, g.DependsOn left lower → answers lower = answers' lower := by
            intro lower depends
            have first : g.DependsOn id left :=
              ⟨_, found, by simp [Node.inputs, Operator.inputs]⟩
            exact same lower ((Relation.TransGen.single first).tail depends)
          simp only [supportRule, operatorSupport, sameLeft, sameRight,
            indexSupport_congr sameEntries]
      | unary op operand =>
          have sameOperand := sameInput operand (by simp [Node.inputs, Operator.inputs])
          simp only [supportRule, operatorSupport, sameOperand]
      | sample distribution =>
          exact sameInput distribution (by simp [Node.inputs, Operator.inputs])
  | _ => rfl

theorem supportOf_eq
    {g : Graph} {id : NodeId} {node : Node}
    (wellFormed : g.WellFormed)
    (found : g.node id = .ok node) :
    g.supportOf id = g.supportRule id node g.supportOf :=
  ask_eq wellFormed g.supportRule_local found

end Graph

end ModelGraph
