import ModelGraph.Proofs.Enumeration.ShapeSoundness
import ModelGraph.Proofs.Graph.Answers

/-!
# Why shapes and supports are refused

A node of a well-formed graph has a shape unless arrays below it do not fit together, and a
support unless, besides that, it depends on something that cannot be enumerated or on an index
that selects nothing.  No other reason can come up: nodes that are asked about exist, samples
are drawn from distributions, and maps have entries.  Only where a value is listed whose places
words cannot count may enumeration crash.
-/

namespace ModelGraph

open Outcome (Ensures RefusedFor)

/-- Whether a refusal is one that enumeration may run into: about shapes, about nodes without a
finite support, about an index, or about an array where a number is needed. -/
def Error.isSupportFault : Error → Bool
  | .noFiniteSupport .. | .notAMap _ | .nonConstantKey .. | .keyNotFound .. | .notScalar _ => true
  | e => e.isShapeFault

theorem Error.isSupportFault_of_isShapeFault
    {e : Error}
    (fault : e.isShapeFault = true) :
    e.isSupportFault = true := by
  cases e <;> first | rfl | cases fault

/-! ## Shapes -/

theorem Shape.broadcast_ensures (s t : Shape) :
    RefusedFor (s.broadcast t) fun e => e.isShapeFault = true := by
  unfold Shape.broadcast
  split
  · trivial
  · rfl

theorem Shape.matmul_ensures (s t : Shape) :
    RefusedFor (s.matmul t) fun e => e.isShapeFault = true := by
  unfold Shape.matmul
  split
  · trivial
  · rfl

theorem BinaryOp.resultShape_ensures (op : BinaryOp) (left right : Shape) :
    RefusedFor (op.resultShape left right) fun e => e.isShapeFault = true := by
  unfold BinaryOp.resultShape
  split
  · exact left.matmul_ensures right
  · exact left.broadcast_ensures right

/-- An operation that has no shape for its result is refused for that. -/
theorem BinaryOp.arithmetic_eq_error
    {op : BinaryOp} {operation : Tensor → Tensor → Except Error Tensor}
    {a b : Tensor} {e : Error}
    (arithmetic : op.arithmetic? = some operation)
    (noShape : op.resultShape a.shape b.shape = .error e) :
    operation a b = .error e := by
  cases op with
  | matrixMultiplication =>
      cases arithmetic
      exact congrArg (· >>= _) noShape
  | index => cases arithmetic
  | _ =>
      cases arithmetic
      exact congrArg (· >>= _) noShape

theorem BinaryOp.arithmetic_ensures
    {op : BinaryOp} {operation : Tensor → Tensor → Except Error Tensor}
    (arithmetic : op.arithmetic? = some operation)
    (a b : Tensor) :
    RefusedFor (operation a b) fun e => e.isShapeFault = true ∨ a.Overreads b e := by
  cases common : op.resultShape a.shape b.shape with
  | ok shape => exact (op.arithmetic_ensures_shape arithmetic common).refusedFor fun _ => .inr
  | error e =>
      rw [op.arithmetic_eq_error arithmetic common]
      exact .inl ((op.resultShape_ensures a.shape b.shape).of_error common)

namespace Graph

section Shapes

variable {shapeOf : NodeId → Except Error Shape}

theorem distributionShapeFrom_ensures
    {d : Distribution}
    (each : ∀ input ∈ d.parameters.inputs,
      RefusedFor (shapeOf input) fun e => e.isShapeFault = true)
    (id : NodeId) :
    RefusedFor (distributionShapeFrom shapeOf id d) fun e => e.isShapeFault = true := by
  obtain ⟨parameters, fixed⟩ := d
  cases parameters with
  | bernoulli probability logits =>
      cases fixed with
      | true => trivial
      | false => exact each probability List.mem_cons_self
  | binomial count probability logits =>
      cases fixed with
      | true => trivial
      | false =>
          refine (each count List.mem_cons_self).bind fun left _ => ?_
          refine (each probability (by simp [Parameters.inputs])).bind fun right _ => ?_
          exact left.broadcast_ensures right
  | categorical probability logits =>
      rw [distributionShapeFrom_categorical]
      refine (each probability List.mem_cons_self).bind fun shape _ => ?_
      split
      · trivial
      · rfl
  | _ => cases fixed <;> exact each _ List.mem_cons_self

theorem operatorShapeFrom_ensures
    {op : Operator}
    (each : ∀ input ∈ op.inputs,
      RefusedFor (shapeOf input) fun e => e.isShapeFault = true) :
    RefusedFor (operatorShapeFrom shapeOf op) fun e => e.isShapeFault = true := by
  cases op with
  | ifThenElse condition consequence alternative => trivial
  | binary op left right =>
      simp only [Operator.inputs, List.forall_mem_cons] at each
      obtain ⟨ofLeft, ofRight, _⟩ := each
      cases op with
      | index => exact ofLeft
      | matrixMultiplication =>
          exact ofLeft.bind fun a _ => ofRight.bind fun b _ => a.matmul_ensures b
      | _ => exact ofLeft.bind fun a _ => ofRight.bind fun b _ => a.broadcast_ensures b
  | unary op operand =>
      cases op with
      | toReal => trivial
      | _ => exact each operand List.mem_cons_self
  | sample distribution => exact each distribution List.mem_cons_self

/-- A node has a shape if its inputs have and they fit together. -/
theorem shapeRule_keeps
    {g : Graph}
    (wellFormed : g.WellFormed) :
    Rule.Keeps shapeRule g (fun _ => True) fun e => e.isShapeFault = true := by
  intro id node shapeOf found below
  have ofInput : ∀ input ∈ node.inputs,
      RefusedFor (shapeOf input) fun e => e.isShapeFault = true :=
    fun input present => below input (.single ⟨node, found, present⟩)
  cases node with
  | constant value => trivial
  | distribution d => exact distributionShapeFrom_ensures ofInput id
  | operator op => exact operatorShapeFrom_ensures ofInput
  | map entries =>
      cases entries with
      | nil => exact absurd rfl ((wellFormed.admits id _ found).map_entries [] rfl)
      | cons first rest => exact ofInput first.2 (by simp [Node.inputs])
  | observation observed value => trivial
  | query queried => exact ofInput queried List.mem_cons_self

end Shapes

section Supports

variable {g : Graph} {id : NodeId}

/-- Shapes are refused because arrays do not fit together. -/
theorem WellFormed.shapeOf_ensures
    (wellFormed : g.WellFormed)
    (inside : id.index < g.size) :
    RefusedFor (g.shapeOf id) fun e => e.isShapeFault = true :=
  ask_ensures wellFormed (shapeRule_keeps wellFormed) inside

/-! ## Supports -/

/-- A node, or one below it, lists a value whose places words cannot count. -/
def ListsUncounted (g : Graph) (id : NodeId) : Prop :=
  ∃ lower values, g.Reaches id lower ∧ g.supportOf lower = .ok values ∧
    ∃ v ∈ values.toList, ¬v.shape.IsCounted

/-- Why the support of a node is refused. -/
inductive SupportRefusal (g : Graph) (id : NodeId) (e : Error) : Prop where
  | fault (isFault : e.isSupportFault = true)
  | crash (isCrash : e.IsCrash) (uncounted : g.ListsUncounted id)

theorem SupportRefusal.of_isShapeFault
    {e : Error}
    (isFault : e.isShapeFault = true) :
    g.SupportRefusal id e :=
  .fault (Error.isSupportFault_of_isShapeFault isFault)

theorem SupportRefusal.of_reaches
    {lower : NodeId} {e : Error}
    (path : g.Reaches id lower)
    (refusal : g.SupportRefusal lower e) :
    g.SupportRefusal id e := by
  cases refusal with
  | fault isFault => exact .fault isFault
  | crash isCrash uncounted =>
      obtain ⟨lowest, values, further, lists⟩ := uncounted
      exact .crash isCrash ⟨lowest, values, path.trans further, lists⟩

theorem SupportRefusal.of_listed
    {input : NodeId} {values : Support} {v : Value} {e : Error}
    (isCrash : e.IsCrash)
    (isInput : g.DependsOn id input)
    (listed : g.supportOf input = .ok values)
    (present : v ∈ values.toList)
    (uncounted : ¬v.shape.IsCounted) :
    g.SupportRefusal id e :=
  .crash isCrash ⟨input, values, .single isInput, listed, v, present, uncounted⟩

/-- A lookup in a node that exists selects an input of a map, or has a reason of its own not to; to
report a key that is not found, it is written out. -/
theorem lookup_ensures
    {map : NodeId}
    (wellFormed : g.WellFormed)
    (inside : map.index < g.size)
    (key : Value) :
    Ensures (g.lookup map key) (g.DependsOn map)
      fun e => e.isSupportFault = true ∨ e.IsCrash ∧ ¬key.shape.IsCounted := by
  have exist {lower : NodeId} (isNode : lower.index < g.size) :
      RefusedFor (g.node lower)
        fun e => e.isSupportFault = true ∨ e.IsCrash ∧ ¬key.shape.IsCounted := by
    obtain ⟨node, found⟩ := exists_node isNode
    rw [found]
    trivial
  have text : RefusedFor key.text
      fun e => e.isSupportFault = true ∨ e.IsCrash ∧ ¬key.shape.IsCounted := by
    cases written : key.text with
    | ok text => trivial
    | error e =>
        refine .inr ⟨key.text_answersIf.isCrash_of_eq_error written, fun counted => ?_⟩
        cases written.symm.trans (key.text_answersIf.answers counted)
  cases selected : g.lookup map key with
  | ok entry => exact dependsOn_of_lookup_eq_ok selected
  | error e =>
      refine (lookup_refusedFor (exist inside) (fun entries found entry present => exist ?_) text
        (.inl rfl) (fun _ => .inl rfl) fun _ => .inl rfl).of_error selected
      apply (wellFormed.admits map _ found).inputs_exist
      exact List.mem_flatMap.mpr ⟨entry, present, List.mem_cons_self⟩

theorem distributionSupport_ensures
    {d : Distribution}
    (wellFormed : g.WellFormed)
    (found : g.node id = .ok (.distribution d)) :
    RefusedFor (g.distributionSupport id d) fun e => e.isSupportFault = true := by
  have ofInput : ∀ input ∈ d.parameters.inputs,
      RefusedFor (g.shapeOf input) fun e => e.isSupportFault = true := by
    intro input present
    have inside := (wellFormed.admits id _ found).inputs_exist input present
    exact (wellFormed.shapeOf_ensures inside).refusedFor fun _ =>
      Error.isSupportFault_of_isShapeFault
  obtain ⟨parameters, fixed⟩ := d
  cases parameters with
  | bernoulli probability logits =>
      cases fixed with
      | true => trivial
      | false => exact (ofInput probability List.mem_cons_self).bind fun _ _ => trivial
  | categorical probability logits =>
      rw [distributionSupport_categorical]
      refine (ofInput probability List.mem_cons_self).bind fun shape _ => ?_
      split
      · trivial
      · rfl
  | _ => cases fixed <;> rfl

/-- The support of an input is known where it is not refused. -/
theorem supportOf_ensures_of_dependsOn
    {input : NodeId}
    (below : ∀ lower, g.Above id lower → RefusedFor (g.supportOf lower) (g.SupportRefusal id))
    (isInput : g.DependsOn id input) :
    Ensures (g.supportOf input) (fun values => g.supportOf input = .ok values)
      (g.SupportRefusal id) := by
  cases listed : g.supportOf input with
  | ok values => exact rfl
  | error e => exact (below input (.single isInput)).of_error listed

section Binary

variable {left right : NodeId}

/-- Two inputs are combined unless their arrays do not fit together; the combination crashes only on
a value that one of them lists. -/
theorem arithmeticSupport_ensures
    {op : BinaryOp} {operation : Tensor → Tensor → Except Error Tensor}
    (arithmetic : op.arithmetic? = some operation)
    (dependsLeft : g.DependsOn id left)
    (dependsRight : g.DependsOn id right)
    (below : ∀ lower, g.Above id lower → RefusedFor (g.supportOf lower) (g.SupportRefusal id)) :
    RefusedFor (g.operatorSupport g.supportOf id (.binary op left right))
      (g.SupportRefusal id) := by
  simp only [operatorSupport, arithmetic]
  refine (supportOf_ensures_of_dependsOn below dependsRight).bind fun rights ofRight => ?_
  refine (supportOf_ensures_of_dependsOn below dependsLeft).bind fun lefts ofLeft => ?_
  refine (productSupport_ensures (P := fun _ => True) fun l inLeft r inRight => ?_).bind
    fun _ _ => trivial
  refine (op.arithmetic_ensures arithmetic _ _).refusedFor fun e reason => ?_
  rcases reason with isFault | ⟨isCrash, uncounted⟩
  · exact .of_isShapeFault isFault
  · rcases not_and_or.mp uncounted with ofOne | ofOne
    · exact .of_listed isCrash dependsLeft ofLeft inLeft ofOne
    · exact .of_listed isCrash dependsRight ofRight inRight ofOne

/-- A map is indexed by every key that is listed; an index crashes only on such a key, to report
that it is not found. -/
theorem indexedSupport_ensures
    {op : BinaryOp}
    (wellFormed : g.WellFormed)
    (isIndex : op.arithmetic? = none)
    (dependsLeft : g.DependsOn id left)
    (dependsRight : g.DependsOn id right)
    (below : ∀ lower, g.Above id lower → RefusedFor (g.supportOf lower) (g.SupportRefusal id)) :
    RefusedFor (g.operatorSupport g.supportOf id (.binary op left right))
      (g.SupportRefusal id) := by
  simp only [operatorSupport, isIndex]
  refine (supportOf_ensures_of_dependsOn below dependsRight).bind fun keys ofRight => ?_
  refine (indexSupport_ensures (P := fun _ => True) fun key present => ?_).bind
    fun _ _ => trivial
  have inside := wellFormed.inputsExist id left dependsLeft
  refine (lookup_ensures wellFormed inside key).imp (fun entry isInput => ?_) fun e reason => ?_
  · exact (below entry ((Relation.TransGen.single dependsLeft).tail isInput)).imp
      (fun _ _ _ _ => trivial) fun _ refusal => refusal
  · rcases reason with isFault | ⟨isCrash, uncounted⟩
    · exact .fault isFault
    · exact .of_listed isCrash dependsRight ofRight present uncounted

end Binary

theorem operatorSupport_ensures
    {op : Operator}
    (wellFormed : g.WellFormed)
    (found : g.node id = .ok (.operator op))
    (below : ∀ lower, g.Above id lower → RefusedFor (g.supportOf lower) (g.SupportRefusal id)) :
    RefusedFor (g.operatorSupport g.supportOf id op) (g.SupportRefusal id) := by
  have depends : ∀ input ∈ op.inputs, g.DependsOn id input :=
    fun input present => ⟨_, found, present⟩
  cases op with
  | ifThenElse condition consequence alternative => exact .fault rfl
  | sample distribution => exact below distribution (.single (depends _ List.mem_cons_self))
  | unary op operand =>
      refine (supportOf_ensures_of_dependsOn below (depends operand List.mem_cons_self)).bind
        fun values _ => ?_
      refine (imageSupport_ensures (P := fun _ => True) fun v _ => ?_).bind fun _ _ => trivial
      refine (op.apply_ensures v).refusedFor fun e notScalar => ?_
      rw [notScalar]
      exact .fault rfl
  | binary op left right =>
      have dependsLeft := depends left List.mem_cons_self
      have dependsRight := depends right (by simp [Operator.inputs])
      cases arithmetic : op.arithmetic? with
      | some operation => exact arithmeticSupport_ensures arithmetic dependsLeft dependsRight below
      | none => exact indexedSupport_ensures wellFormed arithmetic dependsLeft dependsRight below

/-- Supports are refused for reasons of enumeration, and crash only where a value below has more
places than words can count. -/
theorem WellFormed.supportOf_ensures
    (wellFormed : g.WellFormed)
    (inside : id.index < g.size) :
    RefusedFor (g.supportOf id) (g.SupportRefusal id) := by
  induction id using wellFormed.induction with
  | step id ih =>
      obtain ⟨node, found⟩ := exists_node inside
      rw [supportOf_eq wellFormed found]
      cases node with
      | distribution d =>
          exact (distributionSupport_ensures wellFormed found).refusedFor fun _ => .fault
      | operator op =>
          refine operatorSupport_ensures wellFormed found fun lower above => ?_
          have lowerInside := above.lower_index_lt wellFormed.inputsExist
          exact (ih lower above lowerInside).refusedFor fun _ refusal =>
            refusal.of_reaches above.to_reflTransGen
      | _ => trivial

end Supports

end Graph

end ModelGraph
