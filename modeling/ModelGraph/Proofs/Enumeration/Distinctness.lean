import ModelGraph.Proofs.Enumeration.NearestReals
import ModelGraph.Proofs.Enumeration.Outcomes

/-!
# No value is listed twice

The values of a distribution are counted out and never pass through a set; those of an operator are
collected in one.  Neither lists two values of equal contents: arrays of different whole numbers
differ as long as reals stand for these numbers, and a set turns away what it has.  So a set that is
made of a support afterwards leaves nothing out, results that are no number included:
`supportOf_lists_no_value_twice`.
-/

namespace ModelGraph

open ValueSet (Different)

/-- Equal contents stand for equal numbers. -/
theorem Value.map_number?_elements_of_sameContents
    {v w : Value}
    (same : v.sameContents w = true) :
    v.elements.map number? = w.elements.map number? := by
  rw [← List.forall₂_eq_eq_eq, List.forall₂_map_left_iff, List.forall₂_map_right_iff]
  refine (Value.sameContents_iff.mp same).2.imp fun x y equal => ?_
  exact number?_eq_of_beq ((beq_iff_sameNumber x y).mpr equal)

theorem Support.different_outcomes
    {bound : Nat}
    (representable : bound ≤ 2 ^ 53)
    (shape : Shape) :
    Different (outcomes bound shape).toList := by
  refine List.pairwise_iff_getElem.mpr fun k k' inside inside' before => ?_
  obtain ⟨choice, _, rfl, holds⟩ :=
    exists_choice_of_getElem?_outcomes representable (List.getElem?_eq_getElem inside)
  obtain ⟨choice', _, rfl, holds'⟩ :=
    exists_choice_of_getElem?_outcomes representable (List.getElem?_eq_getElem inside')
  refine Bool.eq_false_of_not_eq_true fun same => ?_
  cases holds.unique holds' (Value.map_number?_elements_of_sameContents same)
  exact Nat.lt_irrefl _ before

theorem different_booleans : Different [.boolean false, .boolean true] :=
  List.pairwise_pair.mpr (by decide +kernel)

namespace Graph

variable {g : Graph} {id : NodeId} {values : Support}

/-- If a node is a categorical distribution, reals stand for all of its outcomes. -/
def EventsFit (g : Graph) (node : Node) : Prop :=
  ∀ probability logits fixed shape bound,
    node = .distribution ⟨.categorical probability logits, fixed⟩ →
      g.shapeOf probability = .ok shape → shape.last? = some bound → bound ≤ 2 ^ 53

theorem different_distributionSupport
    {d : Distribution}
    (eventsFit : g.EventsFit (.distribution d))
    (listed : g.distributionSupport id d = .ok values) :
    Different values.toList := by
  obtain ⟨parameters, fixed⟩ := d
  cases parameters with
  | bernoulli probability logits =>
      cases fixed with
      | true =>
          cases listed
          exact different_booleans
      | false =>
          obtain ⟨shape, _, equal⟩ := Outcome.bind_eq_ok_iff.mp listed
          cases equal
          exact Support.different_outcomes (by norm_num) shape
  | categorical probability logits =>
      rw [distributionSupport_categorical] at listed
      obtain ⟨shape, shaped, listed⟩ := Outcome.bind_eq_ok_iff.mp listed
      split at listed
      · next bound leading innermost _ =>
          cases listed
          exact Support.different_outcomes (eventsFit _ _ _ _ _ rfl shaped innermost) leading
      · cases listed
  | _ => cases fixed <;> cases listed

/-- A support that is collected in a set lists different values. -/
theorem different_operatorSupport
    {supportOf : NodeId → Except Error Support} {op : Operator}
    (below : ∀ distribution values, op = .sample distribution →
      supportOf distribution = .ok values → Different values.toList)
    (listed : g.operatorSupport supportOf id op = .ok values) :
    Different values.toList := by
  cases op with
  | sample distribution => exact below distribution values rfl listed
  | ifThenElse => cases listed
  | unary op operand =>
      obtain ⟨operands, _, listed⟩ := Outcome.bind_eq_ok_iff.mp listed
      obtain ⟨set, formed, equal⟩ := Outcome.bind_eq_ok_iff.mp listed
      cases equal
      exact (imageSupport_sound formed).different
  | binary op left right =>
      simp only [operatorSupport] at listed
      split at listed
      · obtain ⟨rights, _, listed⟩ := Outcome.bind_eq_ok_iff.mp listed
        obtain ⟨lefts, _, listed⟩ := Outcome.bind_eq_ok_iff.mp listed
        obtain ⟨set, formed, equal⟩ := Outcome.bind_eq_ok_iff.mp listed
        cases equal
        exact (productSupport_sound formed).different
      · obtain ⟨keys, _, listed⟩ := Outcome.bind_eq_ok_iff.mp listed
        obtain ⟨set, formed, equal⟩ := Outcome.bind_eq_ok_iff.mp listed
        cases equal
        exact (indexSupport_sound formed).different

theorem different_supportOf
    (wellFormed : g.WellFormed)
    (eventsFit : g.Throughout id g.EventsFit)
    (listed : g.supportOf id = .ok values) :
    Different values.toList := by
  induction id using wellFormed.induction generalizing values with
  | step id ih =>
      obtain ⟨node, found⟩ := exists_node_of_ask_eq_ok listed
      rw [supportOf_eq wellFormed found] at listed
      cases node with
      | constant value =>
          cases listed
          exact List.pairwise_singleton _ _
      | distribution d => exact different_distributionSupport (eventsFit _ _ .refl found) listed
      | operator op =>
          refine different_operatorSupport (fun distribution values isSample drawn => ?_) listed
          have depends : g.DependsOn id distribution :=
            ⟨_, found, by simp [isSample, Node.inputs, Operator.inputs]⟩
          exact ih distribution (.single depends) (eventsFit.of_reaches (.single depends)) drawn
      | map | observation | query =>
          cases listed
          exact ValueSet.different_nil

/-- The values of a node are listed once each, and a set of them holds all of them, in their
order. -/
theorem supportOf_lists_no_value_twice
    (reachable : g.Reachable)
    (eventsFit : g.Throughout id g.EventsFit)
    (listed : g.supportOf id = .ok values) :
    Different values.toList ∧
      ∃ set, g.supportSet id = .ok set ∧ set.toList = values.toList ∧
        set.size = values.toList.length := by
  have different := different_supportOf reachable.wellFormed eventsFit listed
  have unchanged := ValueSet.toList_ofList_of_different different
  refine ⟨different, values.toSet, ?_, unchanged, congrArg List.length unchanged⟩
  unfold supportSet
  rw [listed]
  rfl

/-- Two draws from three outcomes, with a sample of them. -/
def drawnPair : Graph :=
  (∅ : Graph).edits
    [.addConstant (.tensor ⟨⟨[2, 3]⟩, #[0.5, 0.25, 0.25, 0.5, 0.5, 0.0], rfl⟩),
      .addDistribution (.categorical ⟨0⟩ false),
      .addOperator (.sample ⟨1⟩)]

theorem supportOf_lists_no_value_twice_drawnPair :
    ∃ values, drawnPair.supportOf ⟨2⟩ = .ok values ∧ Different values.toList ∧
      ∃ set, drawnPair.supportSet ⟨2⟩ = .ok set ∧ set.size = 9 := by
  have reachable : drawnPair.Reachable := ⟨_, rfl⟩
  have eventsFit : drawnPair.Throughout ⟨2⟩ drawnPair.EventsFit := by
    refine throughout_of_nodes (List.forall_iff_forall_mem.mp ?_) _
    refine ⟨nofun, fun probability logits fixed shape bound isDistribution => ?_, nofun⟩
    cases isDistribution
    intro shaped innermost
    have weights : drawnPair.shapeOf ⟨0⟩ = .ok ⟨[2, 3]⟩ := rfl
    cases weights.symm.trans shaped
    cases innermost
    norm_num
  have listed : drawnPair.supportOf ⟨2⟩ = .ok (.outcomes 3 ⟨[2]⟩) := rfl
  obtain ⟨different, set, collected, _, size⟩ :=
    supportOf_lists_no_value_twice reachable eventsFit listed
  exact ⟨_, listed, different, set, collected, size⟩

end Graph

end ModelGraph
