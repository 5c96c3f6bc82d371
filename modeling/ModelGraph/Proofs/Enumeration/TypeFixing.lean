import ModelGraph.Proofs.Enumeration.Collecting
import ModelGraph.Proofs.Graph.Labels
import ModelGraph.Proofs.Graph.Locality

/-!
# Fixing the types of a coin changes no enumeration

The samples of a Bernoulli distribution whose types are fixed are truth values, and they are
arrays otherwise.  For a single coin these are the same tensors.  Operations, comparisons and
digests look at the tensors only, so that all supports that are found with the types fixed list
the same tensors in the same order as those that are found without.  The text of a key that is
missing from a map is the only trace.
-/

namespace ModelGraph

open Outcome (Correspond)

/-- Folds over related items correspond if their steps do. -/
theorem Outcome.Correspond.foldlM
    {ε α β γ δ : Type} {related : α → β → Prop} {alike : ε → ε → Prop}
    {f : α → γ → Except ε α} {g : β → δ → Except ε β} {items : List γ} {items' : List δ}
    {a : α} {b : β} {pairs : γ → δ → Prop}
    (step : ∀ a b item item', related a b → pairs item item' →
      Correspond related alike (f a item) (g b item'))
    (start : related a b)
    (same : List.Forall₂ pairs items items') :
    Correspond related alike (items.foldlM f a) (items'.foldlM g b) := by
  induction same generalizing a b with
  | nil => exact .ok start
  | cons first _ ih =>
      rw [List.foldlM_cons, List.foldlM_cons]
      exact (step a b _ _ start first).bind fun _ _ holds => ih holds

/-- Two errors are the same, but for the text of a key. -/
inductive Error.Alike : Error → Error → Prop where
  | refl (e : Error) : Alike e e
  | keyNotFound (map : NodeId) (key key' : String) :
      Alike (.keyNotFound map key) (.keyNotFound map key')

/-! ## Values with the same tensor -/

/-- Two values are the same tensor. -/
def Value.SameTensor (v w : Value) : Prop :=
  v.toTensor = w.toTensor

/-- Two supports list as many values, and the same tensors in the same order. -/
def Support.SameTensors (s t : Support) : Prop :=
  List.Forall₂ Value.SameTensor s.toList t.toList

theorem Support.SameTensors.refl (s : Support) : s.SameTensors s :=
  List.forall₂_same.mpr fun _ _ => rfl

namespace Value

theorem digest_eq (v : Value) : v.digest = v.toTensor.digest := by
  cases v <;> rfl

namespace SameTensor

variable {v w : Value}

theorem sameContents_congr
    {v' w' : Value}
    (left : v.SameTensor v')
    (right : w.SameTensor w') :
    v.sameContents w = v'.sameContents w' := by
  rw [sameContents_eq, sameContents_eq, left, right]

theorem digest_congr (same : v.SameTensor w) : v.digest = w.digest := by
  rw [digest_eq, digest_eq, same]

theorem apply
    (same : v.SameTensor w)
    (op : UnaryOp) :
    Correspond SameTensor Error.Alike (op.apply v) (op.apply w) := by
  cases op with
  | not =>
      have answers : ∀ u : Value, ∃ r, UnaryOp.not.apply u = .ok r := by
        rintro (_ | _ | _ | _ | _ | _) <;> exact ⟨_, rfl⟩
      obtain ⟨r, applied⟩ := answers v
      obtain ⟨r', applied'⟩ := answers w
      rw [applied, applied']
      refine .ok ?_
      unfold SameTensor
      rw [toTensor_of_not_eq_ok applied, toTensor_of_not_eq_ok applied', same]
  | toReal =>
      have items := Correspond.of_eq Error.Alike.refl (congrArg Tensor.item same)
      exact items.bind fun x y equal => .ok (congrArg Tensor.scalar equal)
  | exp => exact .ok (congrArg (Tensor.map · Float.exp) same)
  | log => exact .ok (congrArg (Tensor.map · Float.log) same)
  | negate => exact .ok (congrArg (Tensor.map · fun x => -x) same)
  | toTensor => exact .ok same

end SameTensor

/-- Only a tensor can have more places than words can count. -/
theorem eq_tensor_of_not_isCounted
    {v : Value}
    (uncounted : ¬v.shape.IsCounted) :
    v = .tensor v.toTensor := by
  cases v with
  | tensor t => rfl
  | _ => exact absurd Shape.isCounted_scalar uncounted

/-- Values with the same tensor are both written, or neither is. -/
theorem SameTensor.text
    {v w : Value}
    (same : v.SameTensor w) :
    Correspond (fun _ _ => True) Error.Alike v.text w.text := by
  have shapes : w.shape = v.shape := congrArg Tensor.shape same.symm
  by_cases counted : v.shape.IsCounted
  · rw [v.text_answersIf.answers counted, w.text_answersIf.answers (shapes ▸ counted)]
    exact .ok trivial
  · have uncounted : ¬w.shape.IsCounted := shapes ▸ counted
    have equal : v = w :=
      calc
        v = .tensor v.toTensor := eq_tensor_of_not_isCounted counted
        _ = .tensor w.toTensor := congrArg Value.tensor same
        _ = w := (eq_tensor_of_not_isCounted uncounted).symm
    exact (Correspond.of_eq Error.Alike.refl (congrArg Value.text equal)).imp
      fun _ _ _ _ => trivial

end Value

/-! ## Sets with the same tensors -/

namespace ValueSet

/-- Two sets have the same tensors as members, in the same order and with the same digests. -/
structure SameTensors (s t : ValueSet) : Prop where
  members : List.Forall₂ Value.SameTensor s.toList t.toList
  buckets : ∀ d, List.Forall₂ Value.SameTensor (s.bucket d) (t.bucket d)

namespace SameTensors

variable {s t : ValueSet}

theorem empty : (∅ : ValueSet).SameTensors ∅ where
  members := .nil
  buckets := by
    intro d
    have noMember : (∅ : ValueSet).bucket d = [] := Std.HashMap.getD_empty
    rw [noMember]
    exact .nil

/-- Whether a value is turned away by a set depends on the tensors only. -/
theorem contains_congr
    {v w : Value}
    (sets : s.SameTensors t)
    (values : v.SameTensor w) :
    s.contains v = t.contains w := by
  unfold contains
  rw [values.digest_congr]
  generalize s.bucket w.digest = bucket, t.bucket w.digest = bucket', sets.buckets w.digest = same
  induction same with
  | nil => rfl
  | cons first _ ih => rw [List.any_cons, List.any_cons, first.sameContents_congr values, ih]

theorem insert
    {v w : Value}
    (sets : s.SameTensors t)
    (values : v.SameTensor w) :
    (s.insert v).SameTensors (t.insert w) := by
  have turnedAway := sets.contains_congr values
  constructor
  · rw [toList_insert, toList_insert, turnedAway]
    split
    · exact sets.members
    · exact List.rel_append sets.members (.cons values .nil)
  · intro d
    rw [bucket_insert, bucket_insert, turnedAway, values.digest_congr]
    split
    · exact .cons values (sets.buckets d)
    · exact sets.buckets d

theorem insertMany
    {values values' : List Value}
    (sets : s.SameTensors t)
    (same : List.Forall₂ Value.SameTensor values values') :
    (s.insertMany values).SameTensors (t.insertMany values') :=
  List.rel_foldl (fun _ _ sets _ _ values => sets.insert values) sets same

end SameTensors

end ValueSet

/-- Sets that are collected from the same tensors by corresponding steps have the same tensors. -/
theorem Support.SameTensors.collect
    {values values' : Support} {step step' : ValueSet → Value → Except Error ValueSet}
    (same : values.SameTensors values')
    (steps : ∀ s t v w, s.SameTensors t → v.SameTensor w →
      Correspond ValueSet.SameTensors Error.Alike (step s v) (step' t w)) :
    Correspond ValueSet.SameTensors Error.Alike (values.foldlM step ∅)
      (values'.foldlM step' ∅) := by
  rw [Support.foldlM_eq, Support.foldlM_eq]
  exact .foldlM steps .empty same

namespace Graph

theorem sameTensors_product
    {operation : Tensor → Tensor → Except Error Tensor}
    {left left' : Support} {right right' : List Value}
    (lefts : left.SameTensors left')
    (rights : List.Forall₂ Value.SameTensor right right') :
    Correspond ValueSet.SameTensors Error.Alike
      (productSupport operation left right) (productSupport operation left' right') := by
  have sameRights : right.map Value.toTensor = right'.map Value.toTensor := by
    rw [← List.forall₂_eq_eq_eq, List.forall₂_map_left_iff, List.forall₂_map_right_iff]
    exact rights
  unfold productSupport
  rw [sameRights]
  refine lefts.collect fun s t l l' sets values => ?_
  refine .foldlM (fun s t r r' sets equal => ?_) sets (List.forall₂_same.mpr fun _ _ => rfl)
  have combined := Correspond.of_eq Error.Alike.refl (congrArg₂ operation values equal)
  refine combined.bind fun c c' same => .ok (sets.insert ?_)
  exact congrArg (fun c => (Value.tensor c).toTensor) same

theorem sameTensors_image
    {op : UnaryOp} {operand operand' : Support}
    (operands : operand.SameTensors operand') :
    Correspond ValueSet.SameTensors Error.Alike
      (imageSupport op operand) (imageSupport op operand') := by
  unfold imageSupport
  refine operands.collect fun s t v w sets values => ?_
  exact (values.apply op).bind fun r r' results => .ok (sets.insert results)

theorem sameTensors_index
    {g g' : Graph} {supportOf supportOf' : NodeId → Except Error Support} {map : NodeId}
    {keys keys' : Support}
    (sameKeys : keys.SameTensors keys')
    (lookups : ∀ key key', key.SameTensor key' →
      Correspond
        (fun entry entry' =>
          Correspond Support.SameTensors Error.Alike (supportOf entry) (supportOf' entry'))
        Error.Alike (g.lookup map key) (g'.lookup map key')) :
    Correspond ValueSet.SameTensors Error.Alike
      (g.indexSupport supportOf map keys) (g'.indexSupport supportOf' map keys') := by
  unfold indexSupport
  refine sameKeys.collect fun s t key key' sets values => ?_
  refine (lookups key key' values).bind fun entry entry' supports => ?_
  exact supports.bind fun listed listed' same => .ok (sets.insertMany same)

/-! ## Two graphs -/

/-- Two graphs are the same, except that the types of a single coin are fixed in the second. -/
structure FixesCoin (g g' : Graph) (coin : NodeId) : Prop where
  wellFormed : g.WellFormed
  wellFormed' : g'.WellFormed
  coins : ∃ probability logits,
    g.node coin = .ok (.distribution ⟨.bernoulli probability logits, false⟩) ∧
      g'.node coin = .ok (.distribution ⟨.bernoulli probability logits, true⟩) ∧
      g.shapeOf probability = .ok .scalar
  others : ∀ id, id ≠ coin → g'.node id = g.node id

namespace FixesCoin

variable {g g' : Graph} {coin : NodeId}

theorem shapeOf_eq
    (fixes : g.FixesCoin g' coin)
    (id : NodeId) :
    g'.shapeOf id = g.shapeOf id := by
  induction id using fixes.wellFormed.induction with
  | step id ih =>
      by_cases isCoin : id = coin
      · subst isCoin
        obtain ⟨probability, logits, free, fixed, single⟩ := fixes.coins
        rw [Graph.shapeOf_eq fixes.wellFormed free, Graph.shapeOf_eq fixes.wellFormed' fixed]
        exact single.symm
      · have here := fixes.others id isCoin
        change g'.answer .shape id = g.answer .shape id
        rw [fixes.wellFormed.answer_eq, fixes.wellFormed'.answer_eq]
        cases found : g.node id with
        | error e => simp only [respond, here, found, Outcome.error_bind]
        | ok node =>
            simp only [respond, here, found, Outcome.ok_bind]
            exact shapeRule_congr fun input present => ih input (.single ⟨node, found, present⟩)

theorem findEntry
    {map : NodeId} {key key' : Value}
    (fixes : g.FixesCoin g' coin)
    (same : key.SameTensor key')
    (entries : List (NodeId × NodeId)) :
    Correspond (· = ·) Error.Alike
      (g.findEntry map key entries) (g'.findEntry map key' entries) := by
  induction entries with
  | nil => exact same.text.bind fun text text' _ => .error (.keyNotFound map text text')
  | cons entry rest ih =>
      obtain ⟨keyNode, valueNode⟩ := entry
      unfold Graph.findEntry
      by_cases isCoin : keyNode = coin
      · subst isCoin
        obtain ⟨probability, logits, free, fixed, single⟩ := fixes.coins
        rw [free, fixed]
        exact .error (.refl _)
      · rw [fixes.others keyNode isCoin]
        cases g.node keyNode with
        | error e => exact .error (.refl e)
        | ok node =>
            cases node with
            | constant candidate =>
                have candidates : candidate.sameContents key = candidate.sameContents key' :=
                  Value.SameTensor.sameContents_congr rfl same
                simp only [Outcome.ok_bind, candidates]
                split
                · exact .ok rfl
                · exact ih
            | _ => exact .error (.refl _)

theorem lookup
    {key key' : Value}
    (fixes : g.FixesCoin g' coin)
    (same : key.SameTensor key')
    (map : NodeId) :
    Correspond (· = ·) Error.Alike (g.lookup map key) (g'.lookup map key') := by
  unfold Graph.lookup
  by_cases isCoin : map = coin
  · subst isCoin
    obtain ⟨probability, logits, free, fixed, single⟩ := fixes.coins
    rw [free, fixed]
    exact .error (.refl _)
  · rw [fixes.others map isCoin]
    cases g.node map with
    | error e => exact .error (.refl e)
    | ok node =>
        cases node with
        | map entries => exact fixes.findEntry same entries
        | _ => exact .error (.refl _)

theorem operatorSupport
    {id : NodeId} {op : Operator}
    (fixes : g.FixesCoin g' coin)
    (found : g.node id = .ok (.operator op))
    (below : ∀ lower, g.Above id lower →
      Correspond Support.SameTensors Error.Alike (g.supportOf lower) (g'.supportOf lower)) :
    Correspond Support.SameTensors Error.Alike
      (g.operatorSupport g.supportOf id op) (g'.operatorSupport g'.supportOf id op) := by
  have ofInput : ∀ input ∈ op.inputs,
      Correspond Support.SameTensors Error.Alike (g.supportOf input) (g'.supportOf input) :=
    fun input present => below input (.single ⟨_, found, present⟩)
  cases op with
  | ifThenElse condition consequence alternative => exact .error (.refl _)
  | sample distribution => exact ofInput distribution (by simp [Operator.inputs])
  | unary op operand =>
      refine (ofInput operand (by simp [Operator.inputs])).bind fun values values' same => ?_
      exact (sameTensors_image same).bind fun set set' sets => .ok sets.members
  | binary op left right =>
      have ofLeft := ofInput left (by simp [Operator.inputs])
      have ofRight := ofInput right (by simp [Operator.inputs])
      cases arithmetic : op.arithmetic? with
      | some operation =>
          simp only [Graph.operatorSupport, arithmetic]
          refine ofRight.bind fun rights rights' sameRights => ?_
          refine ofLeft.bind fun lefts lefts' sameLefts => ?_
          exact (sameTensors_product sameLefts sameRights).bind fun set set' sets =>
            .ok sets.members
      | none =>
          simp only [Graph.operatorSupport, arithmetic]
          refine ofRight.bind fun keys keys' sameKeys => ?_
          refine (sameTensors_index sameKeys fun key key' same => ?_).bind fun set set' sets =>
            .ok sets.members
          refine (fixes.lookup same left).imp fun entry entry' selected equal => ?_
          subst equal
          have isLeft : g.DependsOn id left := ⟨_, found, by simp [Node.inputs, Operator.inputs]⟩
          exact below entry
            ((Relation.TransGen.single isLeft).tail (dependsOn_of_lookup_eq_ok selected))

theorem supportOf
    (fixes : g.FixesCoin g' coin)
    (id : NodeId) :
    Correspond Support.SameTensors Error.Alike (g.supportOf id) (g'.supportOf id) := by
  induction id using fixes.wellFormed.induction with
  | step id ih =>
      by_cases isCoin : id = coin
      · subst isCoin
        obtain ⟨probability, logits, free, fixed, single⟩ := fixes.coins
        rw [supportOf_eq fixes.wellFormed free, supportOf_eq fixes.wellFormed' fixed]
        simp only [supportRule, distributionSupport, single, Outcome.ok_bind, Outcome.pure_eq]
        -- zero and one are the arrays that stand for the truth values
        exact .ok (.cons rfl (.cons rfl .nil))
      · have here := fixes.others id isCoin
        have shapes : g'.shapeOf = g.shapeOf := funext fixes.shapeOf_eq
        change Correspond _ _ (g.answer .support id) (g'.answer .support id)
        rw [fixes.wellFormed.answer_eq, fixes.wellFormed'.answer_eq]
        cases found : g.node id with
        | error e =>
            simp only [respond, here, found, Outcome.error_bind]
            exact .error (.refl e)
        | ok node =>
            simp only [respond, here, found, Outcome.ok_bind]
            cases node with
            | operator op => exact fixes.operatorSupport found ih
            | distribution d =>
                have same : distributionSupportFrom (g.answer .shape) id d =
                    distributionSupportFrom (g'.answer .shape) id d := by
                  change distributionSupportFrom g.shapeOf id d =
                    distributionSupportFrom g'.shapeOf id d
                  rw [shapes]
                refine (Correspond.of_eq Error.Alike.refl same).imp fun values values' _ equal => ?_
                exact equal ▸ .refl values
            | _ => exact .ok (.refl _)

end FixesCoin

/-- The parameters of a distribution are answered for as before when the distribution is
replaced. -/
theorem shapeOf_parameter_replace
    {g : Graph} {id input : NodeId} {d : Distribution} {node : Node}
    (wellFormed : g.WellFormed)
    (wellFormed' : (g.replace id node).WellFormed)
    (found : g.node id = .ok (.distribution d))
    (present : input ∈ d.parameters.inputs) :
    (g.replace id node).shapeOf input = g.shapeOf input := by
  refine wellFormed.answer_eq_of_node_eq wellFormed' (fun lower path => ?_) .shape
  have depends : g.DependsOn id input := ⟨_, found, present⟩
  have different : lower ≠ id := by
    rintro rfl
    exact wellFormed.acyclic lower (.head' depends path)
  rw [node_replace, if_neg fun here => different here.1]

/-- Whether the types of a single coin are fixed makes no difference to the shapes of nodes.  Nor
does it to their supports, which list the same tensors in the same order or are both refused for
one reason, but for the text of a key that a map lacks. -/
theorem fixing_single_coin_keeps_supports
    {g : Graph} {coin probability : NodeId} {logits fixed : Bool}
    (reachable : g.Reachable)
    (found : g.node coin = .ok (.distribution ⟨.bernoulli probability logits, fixed⟩))
    (single : g.shapeOf probability = .ok .scalar) :
    ∃ g₁ g₂, g.setTypesFixed coin false = .ok g₁ ∧ g.setTypesFixed coin true = .ok g₂ ∧
      ∀ id, g₁.shapeOf id = g₂.shapeOf id ∧
        Correspond Support.SameTensors Error.Alike (g₁.supportOf id) (g₂.supportOf id) := by
  have inside := index_lt_of_node_eq_ok found
  have changed : ∀ fixed, g.setTypesFixed coin fixed =
      .ok (g.replace coin (.distribution ⟨.bernoulli probability logits, fixed⟩)) :=
    fun fixed => setTypesFixed_eq_ok_iff.mpr ⟨_, found, rfl⟩
  have wellFormed := fun fixed => reachable.wellFormed.setTypesFixed (changed fixed)
  have fixes : FixesCoin (g.replace coin (.distribution ⟨.bernoulli probability logits, false⟩))
      (g.replace coin (.distribution ⟨.bernoulli probability logits, true⟩)) coin := by
    refine ⟨wellFormed false, wellFormed true, ⟨probability, logits, ?_, ?_, ?_⟩, ?_⟩
    · rw [node_replace, if_pos ⟨rfl, inside⟩]
    · rw [node_replace, if_pos ⟨rfl, inside⟩]
    · rw [shapeOf_parameter_replace reachable.wellFormed (wellFormed false) found
        List.mem_cons_self, single]
    · intro id different
      rw [node_replace, node_replace, if_neg fun here => different here.1,
        if_neg fun here => different here.1]
  exact ⟨_, _, changed false, changed true,
    fun id => ⟨(fixes.shapeOf_eq id).symm, fixes.supportOf id⟩⟩

/-- A coin that is turned over, and a number that is chosen by the result. -/
def turnedCoin : Graph :=
  (∅ : Graph).edits
    [.addConstant (.probability 0.5),
      .addDistribution (.bernoulli ⟨0⟩ false),
      .addOperator (.sample ⟨1⟩),
      .addOperator (.unary .not ⟨2⟩),
      .addConstant (.real 0.0),
      .addConstant (.natural 1),
      .addMap [(⟨4⟩, ⟨5⟩), (⟨5⟩, ⟨4⟩)],
      .addOperator (.binary .index ⟨6⟩ ⟨3⟩)]

/-- The tosses are arrays first and truth values then, and the number is chosen from the same
tensors in either case. -/
theorem fixing_turnedCoin_keeps_supports :
    ∃ g₁ g₂, turnedCoin.setTypesFixed ⟨1⟩ false = .ok g₁ ∧
      turnedCoin.setTypesFixed ⟨1⟩ true = .ok g₂ ∧
      g₁.supportOf ⟨2⟩ = .ok (.outcomes 2 .scalar) ∧
      g₂.supportOf ⟨2⟩ = .ok (.listed [.boolean false, .boolean true]) ∧
      Correspond Support.SameTensors Error.Alike (g₁.supportOf ⟨7⟩) (g₂.supportOf ⟨7⟩) := by
  have reachable : turnedCoin.Reachable := ⟨_, rfl⟩
  have isCoin : turnedCoin.node ⟨1⟩ = .ok (.distribution ⟨.bernoulli ⟨0⟩ false, false⟩) := rfl
  obtain ⟨g₁, g₂, free, fixed, alike⟩ := fixing_single_coin_keeps_supports reachable isCoin rfl
  refine ⟨g₁, g₂, free, fixed, ?_, ?_, (alike ⟨7⟩).2⟩
  · cases free
    rfl
  · cases fixed
    rfl

end Graph

end ModelGraph
