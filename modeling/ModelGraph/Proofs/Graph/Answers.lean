import ModelGraph.Proofs.Graph.Descent

/-!
# Questions that are always answered

A question about a node descends to the nodes below.  If the rule for the question does what
it should, provided that the answers from below are what they should be, then so is every
answer in a well-formed graph: the descent neither runs out of depth nor leaves the graph.
From this it follows that every node has a type.
-/

namespace ModelGraph

open Outcome (Ensures RefusedFor)

namespace Graph

section Rule

variable {α : Type} {g : Graph} {rule : Rule α} {answer : α → Prop} {reason : Error → Prop}

/-- Where the answers below a node are good, and the refusals there have good reasons, a rule
answers or refuses likewise. -/
def Rule.Keeps (rule : Rule α) (g : Graph) (answer : α → Prop) (reason : Error → Prop) : Prop :=
  ∀ id node answers, g.node id = .ok node →
    (∀ lower, g.Above id lower → Ensures (answers lower) answer reason) →
      Ensures (rule id node answers) answer reason

theorem descend_ensures
    {depth : Nat} {id : NodeId}
    (wellFormed : g.WellFormed)
    (keeps : rule.Keeps g answer reason)
    (inside : id.index < g.size)
    (enough : g.rank id < depth) :
    Ensures (g.descend rule depth id) answer reason := by
  induction depth generalizing id with
  | zero => exact absurd enough (Nat.not_lt_zero _)
  | succ depth ih =>
      obtain ⟨node, found⟩ := exists_node inside
      unfold descend
      rw [found]
      apply keeps id node _ found
      intro lower above
      have lowerRank := rank_lt_of_above wellFormed above
      exact ih (above.lower_index_lt wellFormed.inputsExist) (by omega)

/-- What a rule keeps holds of the answers at all nodes. -/
theorem ask_ensures
    {id : NodeId}
    (wellFormed : g.WellFormed)
    (keeps : rule.Keeps g answer reason)
    (inside : id.index < g.size) :
    Ensures (g.ask rule id) answer reason :=
  descend_ensures wellFormed keeps inside (rank_lt_size wellFormed inside)

end Rule

/-! ## Types -/

theorem mem_inputs_of_leading?_eq_some
    {p : Parameters} {parameter : NodeId}
    (leads : p.leading? = some parameter) :
    parameter ∈ p.inputs := by
  cases p <;> simp_all [Parameters.leading?, Parameters.inputs]

section Types

variable {typeOf : NodeId → Except Error NodeType}

theorem unifiedTypeFrom_ensures
    {left right : NodeId} {reason : Error → Prop}
    (ofLeft : RefusedFor (typeOf left) reason)
    (ofRight : RefusedFor (typeOf right) reason) :
    RefusedFor (unifiedTypeFrom typeOf left right) reason :=
  ofLeft.bind fun _ _ => ofRight.bind fun _ _ => trivial

theorem entriesTypeFrom_ensures
    {entries : List (NodeId × NodeId)} {reason : Error → Prop}
    (some_entry : entries ≠ [])
    (each : ∀ entry ∈ entries, RefusedFor (typeOf entry.2) reason) :
    RefusedFor (entriesTypeFrom typeOf entries) reason := by
  cases entries with
  | nil => exact absurd rfl some_entry
  | cons first rest =>
      obtain ⟨ofFirst, ofRest⟩ := List.forall_mem_cons.mp each
      refine ofFirst.bind fun start _ => ?_
      refine .foldlM (fun type _ entry present => ?_) trivial
      exact (ofRest entry present).bind fun _ _ => trivial

/-- The type of a node can be told from the types below: a sample is drawn from a distribution,
and the map that is indexed has an entry. -/
theorem typeRule_keeps
    {g : Graph}
    (wellFormed : g.WellFormed) :
    Rule.Keeps g.typeRule g (fun _ => True) fun _ => False := by
  intro id node typeOf found below
  have ofInput : ∀ input ∈ node.inputs, RefusedFor (typeOf input) fun _ => False :=
    fun input present => below input (.single ⟨node, found, present⟩)
  have twoBelow : ∀ input ∈ node.inputs, ∀ lower, g.DependsOn input lower →
      RefusedFor (typeOf lower) fun _ => False :=
    fun input present lower depends =>
      below lower ((Relation.TransGen.single ⟨node, found, present⟩).tail depends)
  have admitted := wellFormed.admits id node found
  cases node with
  | constant value => trivial
  | distribution d => trivial
  | map entries => trivial
  | observation observed value => trivial
  | query queried => exact ofInput queried List.mem_cons_self
  | operator op =>
      cases op with
      | ifThenElse condition consequence alternative =>
          exact ofInput consequence (by simp [Node.inputs, Operator.inputs])
      | binary op left right =>
          have isLeft : left ∈ (Node.operator (.binary op left right)).inputs :=
            List.mem_cons_self
          have unified : RefusedFor (unifiedTypeFrom typeOf left right) fun _ => False :=
            unifiedTypeFrom_ensures (ofInput left isLeft)
              (ofInput right (by simp [Node.inputs, Operator.inputs]))
          cases op with
          | index =>
              obtain ⟨used, foundLeft⟩ := exists_node (admitted.inputs_exist left isLeft)
              simp only [typeRule, operatorTypeFrom, foundLeft, Outcome.ok_bind]
              split
              · next entries =>
                  have some_entry :=
                    (wellFormed.admits left _ foundLeft).map_entries entries rfl
                  refine entriesTypeFrom_ensures some_entry fun entry present => ?_
                  refine twoBelow left isLeft entry.2 ⟨_, foundLeft, ?_⟩
                  exact List.mem_flatMap.mpr ⟨entry, present, by simp⟩
              · exact unified
          | _ => exact unified
      | unary op operand =>
          have ofOperand := ofInput operand List.mem_cons_self
          cases op with
          | not => trivial
          | toReal => trivial
          | toTensor => trivial
          | _ => exact ofOperand
      | sample distribution =>
          obtain ⟨d, isDistribution⟩ := admitted.sample_input distribution rfl
          simp only [typeRule, operatorTypeFrom, sampleTypeFrom, isDistribution, Outcome.ok_bind]
          split
          · trivial
          · next parameter _ leads =>
              refine twoBelow distribution List.mem_cons_self parameter ⟨_, isDistribution, ?_⟩
              exact mem_inputs_of_leading?_eq_some leads
          · trivial

end Types

/-- Every node has a type. -/
theorem WellFormed.exists_typeOf
    {g : Graph} {id : NodeId}
    (wellFormed : g.WellFormed)
    (inside : id.index < g.size) :
    ∃ type, g.typeOf id = .ok type := by
  obtain ⟨type, typed, _⟩ := (ask_ensures wellFormed (typeRule_keeps wellFormed) inside).exists_ok
  exact ⟨type, typed⟩

end Graph

end ModelGraph
