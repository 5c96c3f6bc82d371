import ModelGraph.Proofs.Enumeration.Collecting
import ModelGraph.Proofs.Graph.Descent
import ModelGraph.Proofs.Graph.Labels
import ModelGraph.Proofs.Tensor.Product

/-!
# Soundness of shapes for enumeration

Shapes are found without computing values, and supports are enumerated without looking at
the shapes of operators.  Where every node has a shape, and the values of each map that is
indexed have one, enumeration never stumbles over shapes, and whatever it lists has the shape
that was found.
-/

namespace ModelGraph

open Outcome (RefusedFor)

/-- Whether a refusal is about shapes that do not fit. -/
def Error.isShapeFault : Error → Bool
  | .shapeMismatch .. | .matrixShape .. | .invalidParameterShape .. => true
  | _ => false

theorem Error.IsCrash.isShapeFault
    {e : Error}
    (isCrash : e.IsCrash) :
    e.isShapeFault = false := by
  obtain ⟨fault, rfl⟩ := isCrash
  rfl

/-- A request gives values of one shape, or is refused for a reason other than shapes. -/
def ListsShape (request : Except Error Support) (shape : Shape) : Prop :=
  Outcome.Ensures request (fun values => ∀ v ∈ values.toList, v.shape = shape)
    (fun e => e.isShapeFault = false)

/-! ## Operations -/

/-- The shape of the result of a binary operation on operands of given shapes. -/
def BinaryOp.resultShape (op : BinaryOp) (left right : Shape) : Except Error Shape :=
  if op = .matrixMultiplication then left.matmul right else left.broadcast right

/-- An operation that has a shape for its result has a result of that shape, unless words cannot
count the places of an operand. -/
theorem BinaryOp.arithmetic_ensures_shape
    {op : BinaryOp} {operation : Tensor → Tensor → Except Error Tensor}
    {a b : Tensor} {shape : Shape}
    (arithmetic : op.arithmetic? = some operation)
    (common : op.resultShape a.shape b.shape = .ok shape) :
    Outcome.Ensures (operation a b) (fun c => c.shape = shape) (a.Overreads b) := by
  cases op with
  | matrixMultiplication =>
      cases arithmetic
      exact Tensor.matmul_ensures common
  | index => cases arithmetic
  | _ =>
      cases arithmetic
      exact Tensor.zipWith_ensures _ common

/-- The shape of the result of an operation on an operand of a given shape. -/
def UnaryOp.resultShape (op : UnaryOp) (operand : Shape) : Shape :=
  if op = .toReal then .scalar else operand

theorem Tensor.item_ensures (t : Tensor) :
    Outcome.Ensures t.item (fun _ => True) (fun e => e = .notScalar t.shape) := by
  unfold Tensor.item
  split
  · trivial
  · rfl

theorem UnaryOp.apply_ensures (op : UnaryOp) (v : Value) :
    Outcome.Ensures (op.apply v) (fun r => r.shape = op.resultShape v.shape)
      (fun e => e = .notScalar v.shape) := by
  cases op with
  | toReal => exact v.toTensor.item_ensures.bind fun x _ => rfl
  | not => cases v <;> rfl
  | _ => rfl

theorem shape_of_mem_outcomes
    {bound : Nat} {shape : Shape} {v : Value}
    (present : v ∈ (Support.outcomes bound shape).toList) :
    v.shape = shape := by
  obtain ⟨choice, _, outcome⟩ := List.mem_filterMap.mp present
  unfold Support.outcome Tensor.ofArray at outcome
  split at outcome
  · cases outcome
    rfl
  · cases outcome

/-- A shape whose innermost axis can be dropped has an innermost axis. -/
theorem Shape.exists_last
    {whole rows : Shape}
    (leading : whole.withoutLast? = some rows) :
    ∃ bound, whole.last? = some bound := by
  obtain ⟨dims⟩ := whole
  cases dims with
  | nil => cases leading
  | cons size sizes => exact ⟨_, List.getLast?_eq_some_getLast (by simp)⟩

namespace Graph

section Lookup

variable {g : Graph} {map : NodeId} {key : Value} {reason : Error → Prop}

/-- Why no entry is found: the node of a key is missing or no constant, or no key is alike, and
then the key that was looked for is written out. -/
theorem findEntry_refusedFor
    {entries : List (NodeId × NodeId)}
    (nodes : ∀ entry ∈ entries, RefusedFor (g.node entry.1) reason)
    (text : RefusedFor key.text reason)
    (notConstant : ∀ keyNode, reason (.nonConstantKey map keyNode))
    (notFound : ∀ text, reason (.keyNotFound map text)) :
    RefusedFor (g.findEntry map key entries) reason := by
  induction entries with
  | nil => exact text.bind fun text _ => notFound text
  | cons pair rest ih =>
      obtain ⟨keyNode, valueNode⟩ := pair
      obtain ⟨here, later⟩ := List.forall_mem_cons.mp nodes
      refine here.bind fun node _ => ?_
      split
      · split
        · trivial
        · exact ih later
      · exact notConstant keyNode

theorem lookup_refusedFor
    (node : RefusedFor (g.node map) reason)
    (nodes : ∀ entries, g.node map = .ok (.map entries) →
      ∀ entry ∈ entries, RefusedFor (g.node entry.1) reason)
    (text : RefusedFor key.text reason)
    (notAMap : reason (.notAMap map))
    (notConstant : ∀ keyNode, reason (.nonConstantKey map keyNode))
    (notFound : ∀ text, reason (.keyNotFound map text)) :
    RefusedFor (g.lookup map key) reason := by
  unfold lookup
  cases found : g.node map with
  | error e => exact node.of_error found
  | ok node =>
      rw [Outcome.ok_bind]
      split
      · exact findEntry_refusedFor (nodes _ found) text notConstant notFound
      · exact notAMap

theorem node_error
    {id : NodeId} {e : Error}
    (missing : g.node id = .error e) :
    e.isShapeFault = false := by
  unfold Graph.node at missing
  split at missing
  · cases missing
  · cases missing
    rfl

end Lookup

/-- A key that selects no entry is no matter of shapes. -/
theorem lookup_error
    {g : Graph} {map : NodeId} {key : Value} {e : Error}
    (refused : g.lookup map key = .error e) :
    e.isShapeFault = false := by
  have missing (id : NodeId) : RefusedFor (g.node id) fun e => e.isShapeFault = false := by
    cases found : g.node id with
    | ok node => trivial
    | error e => exact node_error found
  have text : RefusedFor key.text fun e => e.isShapeFault = false := by
    cases written : key.text with
    | ok text => trivial
    | error e => exact (key.text_answersIf.isCrash_of_eq_error written).isShapeFault
  exact (lookup_refusedFor (missing map) (fun _ _ entry _ => missing entry.1) text rfl
    (fun _ => rfl) fun _ => rfl).of_error refused

/-! ## Soundness, sort by sort -/

theorem distributionShapeFrom_categorical
    (shapeOf : NodeId → Except Error Shape) (id probability : NodeId) (logits fixed : Bool) :
    distributionShapeFrom shapeOf id ⟨.categorical probability logits, fixed⟩ = (do
      let shape ← shapeOf probability
      match shape.withoutLast? with
      | some leading => return leading
      | none => throw (.invalidParameterShape id "probability" shape)) := by
  cases fixed <;> rfl

theorem distributionSupport_categorical
    (g : Graph) (id probability : NodeId) (logits fixed : Bool) :
    g.distributionSupport id ⟨.categorical probability logits, fixed⟩ = (do
      let shape ← g.shapeOf probability
      match shape.last?, shape.withoutLast? with
      | some bound, some leading => return .outcomes bound leading
      | _, _ => throw (.invalidParameterShape id "probability" shape)) := by
  cases fixed <;> rfl

theorem listsShape_distribution
    {g : Graph} {id : NodeId} {d : Distribution} {shape : Shape}
    (shaped : distributionShapeFrom g.shapeOf id d = .ok shape) :
    ListsShape (g.distributionSupport id d) shape := by
  obtain ⟨parameters, fixed⟩ := d
  cases parameters with
  | bernoulli probability logits =>
      cases fixed with
      | true =>
          cases shaped
          intro v present
          rcases List.mem_pair.mp present with rfl | rfl <;> rfl
      | false =>
          change g.shapeOf probability = .ok shape at shaped
          simp only [distributionSupport, shaped, Outcome.ok_bind, Outcome.pure_eq]
          exact fun v present => shape_of_mem_outcomes present
  | categorical probability logits =>
      rw [distributionShapeFrom_categorical] at shaped
      obtain ⟨whole, ofProbability, shaped⟩ := Outcome.bind_eq_ok_iff.mp shaped
      cases leading : whole.withoutLast? with
      | none => simp [leading] at shaped
      | some rows =>
          obtain ⟨bound, innermost⟩ := Shape.exists_last leading
          simp only [leading, Outcome.pure_eq, Except.ok.injEq] at shaped
          subst shaped
          rw [distributionSupport_categorical]
          simp only [ofProbability, innermost, leading, Outcome.ok_bind, Outcome.pure_eq]
          exact fun v present => shape_of_mem_outcomes present
  | _ => cases fixed <;> rfl

/-- The shape of an operator in terms of the shapes of its operands. -/
theorem operatorShapeFrom_arithmetic
    {op : BinaryOp} {operation : Tensor → Tensor → Except Error Tensor}
    (arithmetic : op.arithmetic? = some operation)
    (shapeOf : NodeId → Except Error Shape) (left right : NodeId) :
    operatorShapeFrom shapeOf (.binary op left right) =
      (do op.resultShape (← shapeOf left) (← shapeOf right)) := by
  cases op with
  | index => cases arithmetic
  | _ => rfl

theorem operatorShapeFrom_unary
    {op : UnaryOp} {shapeOf : NodeId → Except Error Shape} {operand : NodeId} {shape : Shape}
    (shaped : shapeOf operand = .ok shape) :
    operatorShapeFrom shapeOf (.unary op operand) = .ok (op.resultShape shape) := by
  cases op with
  | toReal => rfl
  | _ => exact shaped

theorem listsShape_product
    {op : BinaryOp} {operation : Tensor → Tensor → Except Error Tensor}
    {left right : Support} {leftShape rightShape shape : Shape}
    (arithmetic : op.arithmetic? = some operation)
    (lefts : ∀ l ∈ left.toList, l.shape = leftShape)
    (rights : ∀ r ∈ right.toList, r.shape = rightShape)
    (common : op.resultShape leftShape rightShape = .ok shape) :
    ListsShape (do return .listed (← productSupport operation left right.toList).toList)
      shape := by
  refine (productSupport_ensures fun l inLeft r inRight => ?_).bind fun set holds => holds
  rw [← lefts l inLeft, ← rights r inRight] at common
  exact (op.arithmetic_ensures_shape arithmetic common).imp (fun _ ofShape => ofShape)
    fun e overreads => overreads.isCrash.isShapeFault

theorem listsShape_image
    {op : UnaryOp} {operand : Support} {shape : Shape}
    (operands : ∀ v ∈ operand.toList, v.shape = shape) :
    ListsShape (do return .listed (← imageSupport op operand).toList)
      (op.resultShape shape) := by
  refine (imageSupport_ensures fun v present => ?_).bind fun set holds => holds
  rw [← operands v present]
  refine (op.apply_ensures v).imp (fun _ ofShape => ofShape) fun e notScalar => ?_
  rw [notScalar]
  rfl

theorem listsShape_index
    {g : Graph} {supportOf : NodeId → Except Error Support} {map : NodeId} {keys : Support}
    {shape : Shape}
    (entries : ∀ key entry, g.lookup map key = .ok entry → ListsShape (supportOf entry) shape) :
    ListsShape (do return .listed (← g.indexSupport supportOf map keys).toList) shape := by
  refine (indexSupport_ensures fun key _ => ?_).bind fun set holds => holds
  cases selected : g.lookup map key with
  | ok entry => exact entries key entry selected
  | error e => exact lookup_error selected

/-! ## Soundness -/

/-- A node and all nodes below it have shapes, and so does each map that is indexed there:
its values share one. -/
structure Shaped (g : Graph) (id : NodeId) : Prop where
  shapes : ∀ lower, g.Reaches id lower → ∃ shape, g.shapeOf lower = .ok shape
  maps : ∀ lower map key entries, g.Reaches id lower →
    g.node lower = .ok (.operator (.binary .index map key)) →
      g.node map = .ok (.map entries) →
        ∃ shape, ∀ entry ∈ entries, g.shapeOf entry.2 = .ok shape

theorem Shaped.of_reaches
    {g : Graph} {id lower : NodeId}
    (isShaped : g.Shaped id)
    (path : g.Reaches id lower) :
    g.Shaped lower where
  shapes := fun _ further => isShaped.shapes _ (path.trans further)
  maps := fun _ map key entries further => isShaped.maps _ map key entries (path.trans further)

/-- An entry of an indexed map has the shape of the index. -/
theorem shapeOf_entry
    {g : Graph} {id map keyNode entry : NodeId} {key : Value} {shape : Shape}
    (wellFormed : g.WellFormed)
    (found : g.node id = .ok (.operator (.binary .index map keyNode)))
    (isShaped : g.Shaped id)
    (shaped : operatorShapeFrom g.shapeOf (.binary .index map keyNode) = .ok shape)
    (selected : g.lookup map key = .ok entry) :
    g.shapeOf entry = .ok shape := by
  obtain ⟨entries, foundMap, pair, present, rfl⟩ := lookup_eq_ok selected
  obtain ⟨common, each⟩ := isShaped.maps id map keyNode entries .refl found foundMap
  change g.shapeOf map = .ok shape at shaped
  rw [shapeOf_eq wellFormed foundMap] at shaped
  -- a map has the shape of its first value
  cases entries with
  | nil => cases shaped
  | cons first rest =>
      change g.shapeOf first.2 = .ok shape at shaped
      rw [each first List.mem_cons_self] at shaped
      rw [each pair present]
      exact shaped

theorem listsShape_operator
    {g : Graph} {id : NodeId} {op : Operator} {shape : Shape}
    (wellFormed : g.WellFormed)
    (found : g.node id = .ok (.operator op))
    (isShaped : g.Shaped id)
    (shaped : g.shapeOf id = .ok shape)
    (below : ∀ lower, g.Above id lower → ∀ shape, g.shapeOf lower = .ok shape →
      ListsShape (g.supportOf lower) shape) :
    ListsShape (g.operatorSupport g.supportOf id op) shape := by
  have ofInput : ∀ input ∈ op.inputs, ∃ shape, g.shapeOf input = .ok shape ∧
      ListsShape (g.supportOf input) shape := by
    intro input present
    have depends : g.DependsOn id input := ⟨_, found, present⟩
    obtain ⟨shape, shapedInput⟩ := isShaped.shapes input (.single depends)
    exact ⟨shape, shapedInput, below input (.single depends) shape shapedInput⟩
  rw [shapeOf_eq wellFormed found] at shaped
  change operatorShapeFrom g.shapeOf op = .ok shape at shaped
  cases op with
  | ifThenElse condition consequence alternative => exact rfl
  | sample distribution =>
      have depends : g.DependsOn id distribution := ⟨_, found, List.mem_singleton.mpr rfl⟩
      exact below distribution (.single depends) shape shaped
  | unary op operand =>
      obtain ⟨inner, shapedOperand, lists⟩ := ofInput operand (by simp [Operator.inputs])
      rw [operatorShapeFrom_unary shapedOperand] at shaped
      cases shaped
      exact lists.bind fun values holds => listsShape_image holds
  | binary op left right =>
      obtain ⟨rightShape, shapedRight, listsRight⟩ := ofInput right (by simp [Operator.inputs])
      cases arithmetic : op.arithmetic? with
      | some operation =>
          obtain ⟨leftShape, shapedLeft, listsLeft⟩ := ofInput left (by simp [Operator.inputs])
          rw [operatorShapeFrom_arithmetic arithmetic, shapedLeft, shapedRight] at shaped
          simp only [operatorSupport, arithmetic]
          refine listsRight.bind fun rights holdsRight => ?_
          exact listsLeft.bind fun lefts holdsLeft =>
            listsShape_product arithmetic holdsLeft holdsRight shaped
      | none =>
          obtain rfl := BinaryOp.eq_index_of_arithmetic_eq_none arithmetic
          simp only [operatorSupport, arithmetic]
          refine listsRight.bind fun keys _ => listsShape_index fun key entry selected => ?_
          have depends : g.DependsOn id left := ⟨_, found, by simp [Node.inputs, Operator.inputs]⟩
          refine below entry
            ((Relation.TransGen.single depends).tail (dependsOn_of_lookup_eq_ok selected)) shape ?_
          exact shapeOf_entry wellFormed found isShaped shaped selected

theorem listsShape_supportOf
    {g : Graph} {id : NodeId} {shape : Shape}
    (wellFormed : g.WellFormed)
    (isShaped : g.Shaped id)
    (shaped : g.shapeOf id = .ok shape) :
    ListsShape (g.supportOf id) shape := by
  induction id using wellFormed.induction generalizing shape with
  | step id ih =>
      obtain ⟨node, found⟩ := exists_node_of_ask_eq_ok shaped
      rw [supportOf_eq wellFormed found]
      have below : ∀ lower, g.Above id lower → ∀ shape, g.shapeOf lower = .ok shape →
          ListsShape (g.supportOf lower) shape := by
        intro lower above shape shapedLower
        exact ih lower above (isShaped.of_reaches above.to_reflTransGen) shapedLower
      cases node with
      | constant value =>
          rw [shapeOf_eq wellFormed found] at shaped
          cases shaped
          intro v present
          rw [List.mem_singleton.mp present]
      | distribution d =>
          rw [shapeOf_eq wellFormed found] at shaped
          exact listsShape_distribution shaped
      | operator op => exact listsShape_operator wellFormed found isShaped shaped below
      | _ =>
          intro v present
          cases present

/-- Where every node has a shape, and each indexed map has one shape for all of its values,
enumeration does not fail for shapes and lists only values of the shape that was found. -/
theorem supportOf_respects_shapeOf
    {g : Graph} {id : NodeId}
    (reachable : g.Reachable)
    (shapes : ∀ lower, g.Reaches id lower → ∃ shape, g.shapeOf lower = .ok shape)
    (maps : ∀ lower map key entries, g.Reaches id lower →
      g.node lower = .ok (.operator (.binary .index map key)) →
        g.node map = .ok (.map entries) →
          ∃ shape, ∀ entry ∈ entries, g.shapeOf entry.2 = .ok shape) :
    (∀ e, g.supportOf id = .error e → e.isShapeFault = false) ∧
      ∀ values, g.supportOf id = .ok values →
        ∀ v ∈ values.toList, g.shapeOf id = .ok v.shape := by
  obtain ⟨shape, shaped⟩ := shapes id .refl
  have lists := listsShape_supportOf reachable.wellFormed ⟨shapes, maps⟩ shaped
  constructor
  · intro e refused
    exact lists.of_error refused
  · intro values listed v present
    rw [shaped, lists.of_ok listed v present]

/-- Two draws from three outcomes, each multiplied by a weight. -/
def weightedDraws : Graph :=
  (∅ : Graph).edits
    [.addConstant (.tensor ⟨⟨[2, 3]⟩, #[0.5, 0.25, 0.25, 0.125, 0.125, 0.75], rfl⟩),
      .addDistribution (.categorical ⟨0⟩ false),
      .addOperator (.sample ⟨1⟩),
      .addConstant (.tensor (.vector #[1.0, 2.0])),
      .addOperator (.binary .multiplication ⟨2⟩ ⟨3⟩)]

theorem supportOf_weightedDraws :
    ∃ values, weightedDraws.supportOf ⟨4⟩ = .ok values ∧
      ∀ v ∈ values.toList, v.shape = ⟨[2]⟩ := by
  have reachable : weightedDraws.Reachable := ⟨_, rfl⟩
  have shapes : ∀ lower, weightedDraws.Reaches ⟨4⟩ lower →
      ∃ shape, weightedDraws.shapeOf lower = .ok shape := by
    intro lower path
    have inside : lower.index < 5 :=
      path.index_lt reachable.wellFormed.inputsExist (by decide)
    obtain ⟨i⟩ := lower
    match i with
    | 0 | 1 | 2 | 3 | 4 => exact ⟨_, rfl⟩
    | _ + 5 => exact absurd inside (by simp)
  have noIndex : ∀ node ∈ weightedDraws.nodes.toList,
      ∀ map key, node ≠ .operator (.binary .index map key) :=
    List.forall_iff_forall_mem.mp ⟨nofun, nofun, nofun, nofun, nofun⟩
  have maps : ∀ lower map key entries, weightedDraws.Reaches ⟨4⟩ lower →
      weightedDraws.node lower = .ok (.operator (.binary .index map key)) →
        weightedDraws.node map = .ok (.map entries) →
          ∃ shape, ∀ entry ∈ entries, weightedDraws.shapeOf entry.2 = .ok shape := by
    intro lower map key entries path found
    exact absurd rfl (throughout_of_nodes noIndex ⟨4⟩ lower _ path found map key)
  have drawn : weightedDraws.supportOf ⟨2⟩ = .ok (.outcomes 3 ⟨[2]⟩) := rfl
  have weight : weightedDraws.supportOf ⟨3⟩ = .ok (.listed [.tensor (.vector #[1.0, 2.0])]) :=
    rfl
  have multiplied : Outcome.Ensures
      (productSupport (Tensor.zipWith (· * ·)) (.outcomes 3 ⟨[2]⟩)
        [.tensor (.vector #[1.0, 2.0])])
      (fun set => ∀ v ∈ set.toList, True) (fun _ => False) := by
    refine productSupport_ensures fun l inLeft r inRight => ?_
    rw [List.mem_singleton.mp inRight]
    have ofDraw : l.toTensor.shape = ⟨[2]⟩ := shape_of_mem_outcomes inLeft
    have common : l.toTensor.shape.broadcast ⟨[2]⟩ = .ok ⟨[2]⟩ := by
      rw [ofDraw]
      rfl
    have counted : l.toTensor.shape.IsCounted := by
      rw [ofDraw]
      decide
    exact (Tensor.zipWith_ensures (b := .vector #[1.0, 2.0]) (· * ·) common).imp
      (fun _ _ => trivial) fun e overreads => overreads.uncounted ⟨counted, by decide⟩
  obtain ⟨set, formed, _⟩ := multiplied.exists_ok
  have isProduct : weightedDraws.node ⟨4⟩ =
      .ok (.operator (.binary .multiplication ⟨2⟩ ⟨3⟩)) := rfl
  have listed : weightedDraws.supportOf ⟨4⟩ = .ok (.listed set.toList) := by
    rw [supportOf_eq reachable.wellFormed isProduct]
    simp only [supportRule, operatorSupport, BinaryOp.arithmetic?,
      BinaryOp.arithmeticWith?, drawn, weight,
      Outcome.ok_bind, Outcome.pure_eq]
    rw [show (Support.listed [Value.tensor (.vector #[1.0, 2.0])]).toList =
      [.tensor (.vector #[1.0, 2.0])] from rfl, formed]
    rfl
  refine ⟨_, listed, fun v present => ?_⟩
  have shaped := (supportOf_respects_shapeOf reachable shapes maps).2 _ listed v present
  have computed : weightedDraws.shapeOf ⟨4⟩ = .ok ⟨[2]⟩ := rfl
  exact (Except.ok.inj (computed.symm.trans shaped)).symm

end Graph

end ModelGraph
