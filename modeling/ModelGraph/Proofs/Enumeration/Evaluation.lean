import ModelGraph.Proofs.Enumeration.Collecting
import ModelGraph.Proofs.Graph.Descent
import ModelGraph.Proofs.Graph.History

/-!
# Enumeration misses no outcome

An assignment gives samples a value, and a node is evaluated from the values of the samples
below it.  Whatever a node evaluates to, its support lists a value that matches.  The support
of an operator is computed from the values that the sets of its operands kept, and these are
not the values of the evaluation; what carries the induction is that every operation takes
matching values to matching values.
-/

namespace ModelGraph

namespace Node

/-- Whether a node computes quotients or powers. -/
def isQuotientOrPower : Node → Bool
  | .operator (.binary .division _ _) | .operator (.binary .power _ _) => true
  | _ => false

/-- What a node needs of the transcendental function it computes, if any. -/
def Respectful : Node → Prop
  | .operator (.unary op _) => op.Respectful
  | _ => True

theorem arithmetic_keepsMatching
    {op : BinaryOp} {left right : NodeId} {operation : Tensor → Tensor → Except Error Tensor}
    (noQuotients : (Node.operator (.binary op left right)).isQuotientOrPower = false)
    (arithmetic : op.arithmetic? = some operation) :
    KeepsMatching operation := by
  refine keepsMatching_of_arithmetic ?_ ?_ arithmetic
  · rintro rfl
    cases noQuotients
  · rintro rfl
    cases noQuotients

end Node

namespace Graph

/-- The value of a node, given values of samples. -/
inductive Evaluates (g : Graph) (assigned : NodeId → Option Value) : NodeId → Value → Prop where
  | constant {id : NodeId} {value : Value}
      (found : g.node id = .ok (.constant value)) :
      Evaluates g assigned id value
  | sample {id distribution : NodeId} {value : Value}
      (found : g.node id = .ok (.operator (.sample distribution)))
      (drawn : assigned id = some value) :
      Evaluates g assigned id value
  | unary {id operand : NodeId} {op : UnaryOp} {v r : Value}
      (found : g.node id = .ok (.operator (.unary op operand)))
      (below : Evaluates g assigned operand v)
      (applied : op.apply v = .ok r) :
      Evaluates g assigned id r
  | binary {id left right : NodeId} {op : BinaryOp}
      {operation : Tensor → Tensor → Except Error Tensor} {l r : Value} {c : Tensor}
      (found : g.node id = .ok (.operator (.binary op left right)))
      (arithmetic : op.arithmetic? = some operation)
      (belowLeft : Evaluates g assigned left l)
      (belowRight : Evaluates g assigned right r)
      (combined : operation l.toTensor r.toTensor = .ok c) :
      Evaluates g assigned id (.tensor c)
  | index {id map key entry : NodeId} {k v : Value}
      (found : g.node id = .ok (.operator (.binary .index map key)))
      (belowKey : Evaluates g assigned key k)
      (selected : g.lookup map k = .ok entry)
      (belowEntry : Evaluates g assigned entry v) :
      Evaluates g assigned id v

/-- A sample that is given a value is given one from the support of its distribution. -/
def DrawsFrom (g : Graph) (assigned : NodeId → Option Value) : Prop :=
  ∀ id distribution value,
    g.node id = .ok (.operator (.sample distribution)) → assigned id = some value →
      ∃ values, g.supportOf distribution = .ok values ∧ value ∈ values.toList

theorem findEntry_eq_ok_of_matches
    {g : Graph} {map entry : NodeId} {k k' : Value} {entries : List (NodeId × NodeId)}
    (matching : k.Matches k')
    (found : g.findEntry map k entries = .ok entry) :
    g.findEntry map k' entries = .ok entry := by
  induction entries with
  | nil => exact absurd found findEntry_nil_ne_ok
  | cons pair rest ih =>
      obtain ⟨keyNode, valueNode⟩ := pair
      unfold findEntry at found ⊢
      obtain ⟨node, isThere, found⟩ := Outcome.bind_eq_ok_iff.mp found
      rw [isThere, Outcome.ok_bind]
      cases node with
      | constant candidate =>
          simp only [matching.sameContents_congr candidate] at found
          simp only
          split at found
          · next same =>
              rw [if_pos same]
              exact found
          · next different =>
              rw [if_neg different]
              exact ih found
      | _ => cases found

/-- Keys that match select the same entry. -/
theorem lookup_eq_ok_of_matches
    {g : Graph} {map entry : NodeId} {k k' : Value}
    (matching : k.Matches k')
    (found : g.lookup map k = .ok entry) :
    g.lookup map k' = .ok entry := by
  unfold lookup at found ⊢
  obtain ⟨node, isThere, found⟩ := Outcome.bind_eq_ok_iff.mp found
  rw [isThere, Outcome.ok_bind]
  cases node with
  | map entries => exact findEntry_eq_ok_of_matches matching found
  | _ => cases found

/-! ## One operator

In each case the operands have listed values that match those of the evaluation, and the
results that were collected from the former cover the result of the latter. -/

/-- Some listed value matches a given one. -/
def ListsMatch (values : List Value) (v : Value) : Prop :=
  ∃ w ∈ values, w.Matches v

theorem listsMatch_of_covers
    {set : ValueSet} {u v : Value}
    (covers : set.Covers u)
    (matching : u.Matches v) :
    ListsMatch set.toList v := by
  obtain ⟨member, present, matching'⟩ := covers
  exact ⟨member, present, matching'.trans matching⟩

theorem listsMatch_image
    {op : UnaryOp} {operands : Support} {set : ValueSet} {v r : Value}
    (respectful : op.Respectful)
    (formed : imageSupport op operands = .ok set)
    (below : ListsMatch operands.toList v)
    (applied : op.apply v = .ok r) :
    ListsMatch set.toList r := by
  obtain ⟨v', present, matching⟩ := below
  obtain ⟨r', applied', covers⟩ := imageSupport_covers formed v' present
  obtain ⟨r'', applied'', results⟩ := (respectful.apply_agree matching).exists_of_ok applied'
  cases applied.symm.trans applied''
  exact listsMatch_of_covers covers results

theorem listsMatch_product
    {operation : Tensor → Tensor → Except Error Tensor}
    {lefts rights : Support} {set : ValueSet} {l r : Value} {c : Tensor}
    (keeps : KeepsMatching operation)
    (formed : productSupport operation lefts rights.toList = .ok set)
    (belowLeft : ListsMatch lefts.toList l)
    (belowRight : ListsMatch rights.toList r)
    (combined : operation l.toTensor r.toTensor = .ok c) :
    ListsMatch set.toList (.tensor c) := by
  obtain ⟨l', inLeft, matchingLeft⟩ := belowLeft
  obtain ⟨r', inRight, matchingRight⟩ := belowRight
  obtain ⟨c', combined', covers⟩ := productSupport_covers formed l' inLeft r' inRight
  obtain ⟨c'', combined'', results⟩ := keeps _ _ _ _ _ matchingLeft matchingRight combined'
  cases combined.symm.trans combined''
  exact listsMatch_of_covers covers results

theorem listsMatch_index
    {g : Graph} {supportOf : NodeId → Except Error Support} {map entry : NodeId}
    {keys : Support} {set : ValueSet} {k v : Value}
    (formed : g.indexSupport supportOf map keys = .ok set)
    (belowKey : ListsMatch keys.toList k)
    (selected : g.lookup map k = .ok entry)
    (belowEntry : ∀ values, supportOf entry = .ok values → ListsMatch values.toList v) :
    ListsMatch set.toList v := by
  obtain ⟨k', present, matching⟩ := belowKey
  obtain ⟨entry', values, selected', listed, covers⟩ := indexSupport_covers formed k' present
  -- the listed key finds the same entry as the evaluated one
  cases selected.symm.trans (lookup_eq_ok_of_matches matching selected')
  obtain ⟨w, inEntry, matching'⟩ := belowEntry values listed
  exact listsMatch_of_covers (covers w inEntry) matching'

/-! ## All nodes -/

theorem listsMatch_of_evaluates
    {g : Graph} {assigned : NodeId → Option Value} {id : NodeId} {v : Value}
    {values : Support}
    (wellFormed : g.WellFormed)
    (draws : g.DrawsFrom assigned)
    (noQuotients : g.Throughout id fun node => node.isQuotientOrPower = false)
    (respectful : g.Throughout id Node.Respectful)
    (evaluates : g.Evaluates assigned id v)
    (listed : g.supportOf id = .ok values) :
    ListsMatch values.toList v := by
  induction evaluates generalizing values with
  | @constant id value found =>
      rw [supportOf_eq wellFormed found] at listed
      cases listed
      exact ⟨value, List.mem_singleton.mpr rfl, .refl value⟩
  | @sample id distribution value found drawn =>
      rw [supportOf_eq wellFormed found] at listed
      obtain ⟨values', listed', present⟩ := draws id distribution value found drawn
      cases listed.symm.trans listed'
      exact ⟨value, present, .refl value⟩
  | @unary id operand op v r found below applied ih =>
      rw [supportOf_eq wellFormed found] at listed
      obtain ⟨operands, listedOperand, listed⟩ := Outcome.bind_eq_ok_iff.mp listed
      obtain ⟨set, formed, equal⟩ := Outcome.bind_eq_ok_iff.mp listed
      cases equal
      have path : g.Reaches id operand := .single ⟨_, found, List.mem_singleton.mpr rfl⟩
      refine listsMatch_image (respectful id _ .refl found) formed ?_ applied
      exact ih (noQuotients.of_reaches path) (respectful.of_reaches path) listedOperand
  | @binary id left right op operation l r c found arithmetic belowLeft belowRight combined
      ihLeft ihRight =>
      rw [supportOf_eq wellFormed found] at listed
      simp only [supportRule, operatorSupport, arithmetic] at listed
      obtain ⟨rights, listedRight, listed⟩ := Outcome.bind_eq_ok_iff.mp listed
      obtain ⟨lefts, listedLeft, listed⟩ := Outcome.bind_eq_ok_iff.mp listed
      obtain ⟨set, formed, equal⟩ := Outcome.bind_eq_ok_iff.mp listed
      cases equal
      have keeps : KeepsMatching operation :=
        Node.arithmetic_keepsMatching (noQuotients id _ .refl found) arithmetic
      have toLeft : g.Reaches id left :=
        .single ⟨_, found, by simp [Node.inputs, Operator.inputs]⟩
      have toRight : g.Reaches id right :=
        .single ⟨_, found, by simp [Node.inputs, Operator.inputs]⟩
      apply listsMatch_product keeps formed
      · exact ihLeft (noQuotients.of_reaches toLeft) (respectful.of_reaches toLeft) listedLeft
      · exact ihRight (noQuotients.of_reaches toRight) (respectful.of_reaches toRight) listedRight
      · exact combined
  | @index id map key entry k v found belowKey selected belowEntry ihKey ihEntry =>
      rw [supportOf_eq wellFormed found] at listed
      obtain ⟨keys, listedKey, listed⟩ := Outcome.bind_eq_ok_iff.mp listed
      obtain ⟨set, formed, equal⟩ := Outcome.bind_eq_ok_iff.mp listed
      cases equal
      have toKey : g.Reaches id key :=
        .single ⟨_, found, by simp [Node.inputs, Operator.inputs]⟩
      have toMap : g.Reaches id map :=
        .single ⟨_, found, by simp [Node.inputs, Operator.inputs]⟩
      have toEntry : g.Reaches id entry := toMap.tail (dependsOn_of_lookup_eq_ok selected)
      apply listsMatch_index formed _ selected
      · intro values listedEntry
        exact ihEntry (noQuotients.of_reaches toEntry) (respectful.of_reaches toEntry) listedEntry
      · exact ihKey (noQuotients.of_reaches toKey) (respectful.of_reaches toKey) listedKey

/-- Whatever a node evaluates to, its support lists a value of the same shape with equal
elements in equal places, or elements that are no number where the value has such. -/
theorem exists_mem_supportOf_of_evaluates
    {g : Graph} {assigned : NodeId → Option Value} {id : NodeId} {v : Value}
    {values : Support}
    (reachable : g.Reachable)
    (draws : g.DrawsFrom assigned)
    (noQuotients : g.Throughout id fun node => node.isQuotientOrPower = false)
    (respectful : g.Throughout id Node.Respectful)
    (listed : g.supportOf id = .ok values)
    (evaluates : g.Evaluates assigned id v) :
    ∃ w ∈ values.toList, w.Matches v :=
  listsMatch_of_evaluates reachable.wellFormed draws noQuotients respectful evaluates listed

/-- A coin whose sides are swapped by a map. -/
def swappedCoin : Graph :=
  (∅ : Graph).edits
    [.addConstant (.probability 0.5),
      .addDistribution (.bernoulli ⟨0⟩ false),
      .addOperator (.sample ⟨1⟩),
      .addConstant (.real 0.0),
      .addConstant (.real 1.0),
      .addMap [(⟨3⟩, ⟨4⟩), (⟨4⟩, ⟨3⟩)],
      .addOperator (.binary .index ⟨5⟩ ⟨2⟩)]

/-- The coin shows a one. -/
def swappedCoinToss (id : NodeId) : Option Value :=
  if id = ⟨2⟩ then some (.tensor (.scalar 1.0)) else none

theorem exists_mem_supportOf_swappedCoin :
    ∃ values, swappedCoin.supportOf ⟨6⟩ = .ok values ∧
      ∃ w ∈ values.toList, w.Matches (.real 0.0) := by
  have reachable : swappedCoin.Reachable := ⟨_, rfl⟩
  have draws : swappedCoin.DrawsFrom swappedCoinToss := by
    intro id distribution value found drawn
    unfold swappedCoinToss at drawn
    split at drawn
    · next here =>
        subst here
        cases drawn
        have isCoin : swappedCoin.node ⟨2⟩ = .ok (.operator (.sample ⟨1⟩)) := rfl
        cases isCoin.symm.trans found
        exact ⟨.outcomes 2 .scalar, rfl, .tail _ (.head _)⟩
    · cases drawn
  have evaluates : swappedCoin.Evaluates swappedCoinToss ⟨6⟩ (.real 0.0) :=
    .index rfl (.sample rfl rfl) rfl (.constant rfl)
  have isIndex : swappedCoin.node ⟨6⟩ = .ok (.operator (.binary .index ⟨5⟩ ⟨2⟩)) := rfl
  have tossed : swappedCoin.supportOf ⟨2⟩ = .ok (.outcomes 2 .scalar) := rfl
  have selected : ∀ key ∈ (Support.outcomes 2 .scalar).toList, ∃ entry values,
      swappedCoin.lookup ⟨5⟩ key = .ok entry ∧ swappedCoin.supportOf entry = .ok values := by
    intro key present
    have sides : key ∈ [Value.tensor (.scalar 0.0), Value.tensor (.scalar 1.0)] := present
    rcases List.mem_pair.mp sides with rfl | rfl <;> exact ⟨_, _, rfl, rfl⟩
  obtain ⟨set, _, listed⟩ := exists_supportOf_index reachable.wellFormed isIndex tossed selected
  refine ⟨_, listed, ?_⟩
  refine exists_mem_supportOf_of_evaluates reachable draws ?_ ?_ listed evaluates
  · exact throughout_of_nodes (by decide) _
  · refine throughout_of_nodes (List.forall_iff_forall_mem.mp ?_) _
    exact ⟨trivial, trivial, trivial, trivial, trivial, trivial, trivial⟩

end Graph

end ModelGraph
