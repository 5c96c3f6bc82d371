import ModelGraph.Proofs.Enumeration.Refusals
import ModelGraph.Proofs.Graph.Acceptance
import ModelGraph.Proofs.Graph.Questions

/-!
# How far down questions go

The questions recurse over numbers of nodes, and these do not decrease: an input may come later in
the list.  What decreases is the number of nodes below.  Hence a recursion with a budget of as many
steps as there are nodes never uses it up, and no question raises another in a chain that is
longer than that.
-/

namespace ModelGraph

namespace Graph

/-- Answers with a budget of nested questions; beyond the budget the answers are given. -/
def answerWithin (g : Graph) (exhausted : Answers) : (depth : Nat) → Answers
  | 0 => exhausted
  | depth + 1 => g.respond (g.answerWithin exhausted depth)

/-- One question raises another if what it is answered depends on the answer to the other, given
some answers to the rest. -/
def Raises (g : Graph) (asked raised : Question × NodeId) : Prop :=
  ∃ answers answers' : Answers,
    (∀ question id, (question, id) ≠ raised → answers' question id = answers question id) ∧
      g.respond answers' asked.1 asked.2 ≠ g.respond answers asked.1 asked.2

section Budget

variable {g : Graph} {id : NodeId} {question : Question}

/-- A budget that exceeds the number of nodes below is not used up. -/
theorem WellFormed.answerWithin_eq
    (wellFormed : g.WellFormed)
    (exhausted : Answers)
    {depth : Nat}
    (enough : g.rank id < depth) :
    g.answerWithin exhausted depth question id = g.answer question id := by
  induction depth generalizing id question with
  | zero => exact absurd enough (Nat.not_lt_zero _)
  | succ depth ih =>
      rw [answerWithin, wellFormed.answer_eq]
      refine respond_congr (fun _ _ => rfl) (fun question lower above => ?_) question
      have lowerRank := rank_lt_of_above wellFormed above
      exact ih (by omega)

/-- No refusal is for lack of depth. -/
theorem WellFormed.answer_ne_depthExceeded
    (wellFormed : g.WellFormed)
    (inside : id.index < g.size)
    (question : Question)
    (node : NodeId) :
    g.answer question id ≠ .error (.depthExceeded node) := by
  intro refused
  cases question with
  | type =>
      obtain ⟨type, typed⟩ := wellFormed.exists_typeOf inside
      cases refused.symm.trans typed
  | sampleType =>
      obtain ⟨sort, found⟩ := exists_node inside
      simp only [answer, sampleTypeOf, sampleTypeFrom, found, Outcome.ok_bind] at refused
      split at refused
      · next d =>
          split at refused
          · cases refused
          · next parameter _ leads =>
              have depends : g.DependsOn id parameter :=
                ⟨_, found, mem_inputs_of_leading?_eq_some leads⟩
              obtain ⟨type, typed⟩ :=
                wellFormed.exists_typeOf (wellFormed.inputsExist id parameter depends)
              cases refused.symm.trans typed
          · cases refused
      · cases refused
  | shape => cases (wellFormed.shapeOf_ensures inside).of_error refused
  | support =>
      cases (wellFormed.supportOf_ensures inside).of_error refused with
      | fault isFault => cases isFault
      | crash isCrash _ =>
          obtain ⟨_, isCrash⟩ := isCrash
          cases isCrash
  | description =>
      obtain ⟨_, isCrash⟩ := (wellFormed.describe_grantedIf inside).isCrash_of_eq_error refused
      cases isCrash

/-- The questions that a question raises are about nodes below. -/
theorem Raises.above
    {asked raised : Question × NodeId}
    (raises : g.Raises asked raised) :
    g.Above asked.2 raised.2 := by
  obtain ⟨answers, answers', same, differ⟩ := raises
  by_contra notBelow
  refine differ (respond_congr (fun _ _ => rfl) (fun question lower above => ?_) asked.1)
  refine same question lower ?_
  rintro rfl
  exact notBelow above

/-- A question is raised if it matters with what it is refused while all others are refused
alike. -/
theorem raises_of_ne
    {asked raised : Question × NodeId}
    (e e' : Error)
    (differ :
      g.respond (fun question id => if (question, id) = raised then .error e' else .error e)
          asked.1 asked.2 ≠
        g.respond (fun _ _ => .error e) asked.1 asked.2) :
    g.Raises asked raised :=
  ⟨_, _, fun _ _ other => if_neg other, differ⟩

/-- A chain of questions, each raised by the one before, is no longer than there are nodes below
the first. -/
theorem WellFormed.length_le_rank
    (wellFormed : g.WellFormed)
    {asked : Question × NodeId} {calls : List (Question × NodeId)}
    (chain : List.IsChain g.Raises (asked :: calls)) :
    calls.length ≤ g.rank asked.2 := by
  induction calls generalizing asked with
  | nil => exact Nat.zero_le _
  | cons raised calls ih =>
      obtain ⟨raises, rest⟩ := List.isChain_cons_cons.mp chain
      have lowerRank := rank_lt_of_above wellFormed raises.above
      exact Nat.lt_of_le_of_lt (ih rest) lowerRank

end Budget

/-- A budget of as many nested questions as the graph has nodes is never used up, whatever stands
for the answers beyond it, and no question is refused for lack of depth.  A question raises
questions about nodes below only, so that a chain of nested questions, the first one included,
is no longer than the number of nodes. -/
theorem questions_end_within_size
    {g : Graph} {id : NodeId}
    (reachable : g.Reachable)
    (inside : id.index < g.size)
    (question : Question) :
    (∀ exhausted depth, g.size ≤ depth →
        g.answerWithin exhausted depth question id = g.answer question id) ∧
      (∀ node, g.answer question id ≠ .error (.depthExceeded node)) ∧
      (∀ raised, g.Raises (question, id) raised → g.Above id raised.2) ∧
      ∀ calls, List.IsChain g.Raises ((question, id) :: calls) →
        ((question, id) :: calls).length ≤ g.size := by
  have wellFormed := reachable.wellFormed
  have rank := rank_lt_size wellFormed inside
  refine ⟨?_, wellFormed.answer_ne_depthExceeded inside question, fun _ => Raises.above, ?_⟩
  · intro exhausted depth enough
    exact wellFormed.answerWithin_eq exhausted (Nat.lt_of_lt_of_le rank enough)
  · intro calls chain
    exact Nat.lt_of_le_of_lt (wellFormed.length_le_rank chain) rank

/-- A query of a toss; every node stands before the one that it depends on. -/
def queriedToss : Graph where
  nodes := #[
    .query ⟨1⟩,
    .operator (.sample ⟨2⟩),
    .distribution (.ofParameters (.bernoulli ⟨3⟩ false)),
    .constant (.probability 0.5)]

/-- The type of the query takes the whole budget: four questions for four nodes. -/
theorem questions_end_within_size_queriedToss :
    (∀ exhausted, queriedToss.answerWithin exhausted 4 .type ⟨0⟩ = .ok (.value .probability)) ∧
      (∀ exhausted, queriedToss.answerWithin exhausted 3 .type ⟨0⟩ = exhausted .type ⟨3⟩) ∧
      List.IsChain queriedToss.Raises
        [(.type, ⟨0⟩), (.type, ⟨1⟩), (.sampleType, ⟨2⟩), (.type, ⟨3⟩)] ∧
      ∀ calls, List.IsChain queriedToss.Raises ((.type, ⟨0⟩) :: calls) → calls.length ≤ 3 := by
  have ordered : queriedToss.topologicalOrder = .ok [⟨3⟩, ⟨2⟩, ⟨1⟩, ⟨0⟩] := by decide +kernel
  have reachable : queriedToss.Reachable := reachable_of_check rfl ordered
  have inside : (⟨0⟩ : NodeId).index < queriedToss.size := by decide
  obtain ⟨within, _, _, bounded⟩ := questions_end_within_size reachable inside .type
  refine ⟨fun exhausted => within exhausted 4 (Nat.le_refl 4), fun _ => rfl, ?_, ?_⟩
  · refine .cons_cons ?_ (.cons_cons ?_ (.cons_cons ?_ (.singleton _)))
    · exact raises_of_ne .emptyMap (.notAMap ⟨1⟩) (by decide)
    · exact raises_of_ne .emptyMap (.notAMap ⟨2⟩) (by decide)
    · exact raises_of_ne .emptyMap (.notAMap ⟨3⟩) (by decide)
  · intro calls chain
    exact Nat.le_of_succ_le_succ (bounded calls chain)

end Graph

end ModelGraph
