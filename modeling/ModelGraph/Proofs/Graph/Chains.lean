import ModelGraph.Graph.Shapes
import ModelGraph.Proofs.Graph.Acceptance
import ModelGraph.Proofs.Graph.Descent
import ModelGraph.Proofs.Shape.Joins
import ModelGraph.Proofs.Tensor.Elementwise

/-!
# Chains of elementwise operators

A node may be computed element by element from other nodes, through any number of operators.  Its
shape is the join of the shapes of those nodes.  So it does not matter how the operators are
parenthesized or in which order the nodes come: `broadcast_joins_shapes`.
-/

namespace ModelGraph

/-- Whether an operation combines its operands element by element. -/
def BinaryOp.isElementwise : BinaryOp → Bool
  | .addition | .division | .multiplication | .power => true
  | .index | .matrixMultiplication => false

/-- Whether an operation is applied to each element of its operand. -/
def UnaryOp.isElementwise : UnaryOp → Bool
  | .exp | .log | .negate | .not | .toTensor => true
  | .toReal => false

namespace Graph

open Shape (Fits)

/-- A node is computed from other nodes by elementwise operators; the nodes are listed from left to
right. -/
inductive Chain (g : Graph) : NodeId → List NodeId → Prop where
  | part (id : NodeId) : g.Chain id [id]
  | unary {id operand : NodeId} {op : UnaryOp} {parts : List NodeId}
      (found : g.node id = .ok (.operator (.unary op operand)))
      (elementwise : op.isElementwise = true)
      (ofOperand : g.Chain operand parts) :
      g.Chain id parts
  | binary {id left right : NodeId} {op : BinaryOp} {lefts rights : List NodeId}
      (found : g.node id = .ok (.operator (.binary op left right)))
      (elementwise : op.isElementwise = true)
      (ofLeft : g.Chain left lefts)
      (ofRight : g.Chain right rights) :
      g.Chain id (lefts ++ rights)

section ShapeOf

variable {g : Graph} {id left right operand : NodeId}

theorem shapeOf_unary
    {op : UnaryOp}
    (wellFormed : g.WellFormed)
    (found : g.node id = .ok (.operator (.unary op operand)))
    (elementwise : op.isElementwise = true) :
    g.shapeOf id = g.shapeOf operand := by
  rw [shapeOf_eq wellFormed found]
  cases op with
  | toReal => cases elementwise
  | _ => rfl

theorem shapeOf_binary
    {op : BinaryOp}
    (wellFormed : g.WellFormed)
    (found : g.node id = .ok (.operator (.binary op left right)))
    (elementwise : op.isElementwise = true) :
    g.shapeOf id = (do (← g.shapeOf left).broadcast (← g.shapeOf right)) := by
  rw [shapeOf_eq wellFormed found]
  cases op with
  | index => cases elementwise
  | matrixMultiplication => cases elementwise
  | _ => rfl

/-- A chain has a shape that can be stretched to a given one if all its parts have. -/
theorem Chain.fits_iff
    {parts : List NodeId}
    (chain : g.Chain id parts)
    (wellFormed : g.WellFormed)
    (d : Shape) :
    Fits (g.shapeOf id) d ↔ ∀ part ∈ parts, Fits (g.shapeOf part) d := by
  induction chain with
  | part id => simp
  | unary found elementwise _ ih => rw [shapeOf_unary wellFormed found elementwise, ih]
  | binary found elementwise _ _ ihLeft ihRight =>
      rw [shapeOf_binary wellFormed found elementwise, Shape.fits_bind_broadcast, ihLeft, ihRight,
        List.forall_mem_append]

/-- Chains of parts with the same shapes have the same shape. -/
theorem Chain.shapeOf_eq_ok_iff
    {g' : Graph} {id' : NodeId} {parts parts' : List NodeId}
    (chain : g.Chain id parts)
    (chain' : g'.Chain id' parts')
    (wellFormed : g.WellFormed)
    (wellFormed' : g'.WellFormed)
    (same : ∀ answer, answer ∈ parts.map g.shapeOf ↔ answer ∈ parts'.map g'.shapeOf)
    (s : Shape) :
    g.shapeOf id = .ok s ↔ g'.shapeOf id' = .ok s := by
  apply Shape.eq_ok_iff_of_fits_iff
  intro d
  have answers : ∀ (h : Graph) (nodes : List NodeId),
      (∀ part ∈ nodes, Fits (h.shapeOf part) d) ↔
        ∀ answer ∈ nodes.map h.shapeOf, Fits answer d := by
    intro h nodes
    rw [List.forall_mem_map]
  rw [chain.fits_iff wellFormed, chain'.fits_iff wellFormed', answers, answers]
  exact forall_congr' fun answer => imp_congr_left (same answer)

end ShapeOf

/-- Shapes are combined by a partial operation that is commutative, associative and idempotent and
has the shape of a single number as neutral element.  So the shape of a chain of elementwise
operators is told by the shapes of its parts, in whatever order and with whatever parentheses. -/
theorem broadcast_joins_shapes :
    (∀ a : Shape, a.broadcast a = .ok a) ∧
      (∀ a : Shape, a.broadcast .scalar = .ok a) ∧
      (∀ a b d : Shape, a.broadcast b = .ok d ↔ b.broadcast a = .ok d) ∧
      (∀ a b c d : Shape,
        (do (← a.broadcast b).broadcast c) = .ok d ↔
          (do a.broadcast (← b.broadcast c)) = .ok d) ∧
      ∀ (g g' : Graph) (id id' : NodeId) (parts parts' : List NodeId),
        g.Reachable → g'.Reachable → g.Chain id parts → g'.Chain id' parts' →
          (∀ answer, answer ∈ parts.map g.shapeOf ↔ answer ∈ parts'.map g'.shapeOf) →
            ∀ s, g.shapeOf id = .ok s ↔ g'.shapeOf id' = .ok s := by
  refine ⟨Shape.broadcast_self, Shape.broadcast_scalar, ?_, ?_, ?_⟩
  · intro a b d
    exact Shape.broadcast_comm
  · intro a b c d
    exact Shape.broadcast_assoc
  · intro g g' id id' parts parts' reachable reachable' chain chain' same
    exact chain.shapeOf_eq_ok_iff chain' reachable.wellFormed reachable'.wellFormed same

/-- A column, a row and a number, combined from the left and from the right. -/
def regroupedSum : Graph where
  nodes := #[
    .constant (.tensor .column),
    .constant (.tensor .row),
    .constant (.real 0.5),
    .operator (.binary .addition ⟨0⟩ ⟨1⟩),
    .operator (.binary .addition ⟨3⟩ ⟨2⟩),
    .operator (.binary .addition ⟨2⟩ ⟨0⟩),
    .operator (.unary .negate ⟨5⟩),
    .operator (.binary .multiplication ⟨1⟩ ⟨6⟩)]

theorem broadcast_joins_shapes_regroupedSum :
    regroupedSum.shapeOf ⟨4⟩ = .ok ⟨[2, 3]⟩ ∧ regroupedSum.shapeOf ⟨7⟩ = .ok ⟨[2, 3]⟩ := by
  have ordered : regroupedSum.topologicalOrder = .ok regroupedSum.ids := by decide +kernel
  have reachable : regroupedSum.Reachable := reachable_of_check rfl ordered
  have fromLeft : regroupedSum.Chain ⟨4⟩ [⟨0⟩, ⟨1⟩, ⟨2⟩] :=
    .binary rfl rfl (.binary rfl rfl (.part ⟨0⟩) (.part ⟨1⟩)) (.part ⟨2⟩)
  have fromRight : regroupedSum.Chain ⟨7⟩ [⟨1⟩, ⟨2⟩, ⟨0⟩] :=
    .binary rfl rfl (.part ⟨1⟩) (.unary rfl rfl (.binary rfl rfl (.part ⟨2⟩) (.part ⟨0⟩)))
  have same : ∀ answer, answer ∈ [⟨0⟩, ⟨1⟩, ⟨2⟩].map regroupedSum.shapeOf ↔
      answer ∈ [⟨1⟩, ⟨2⟩, ⟨0⟩].map regroupedSum.shapeOf := by
    intro answer
    simp only [List.map_cons, List.map_nil, List.mem_cons, List.not_mem_nil, or_false]
    tauto
  have shaped : regroupedSum.shapeOf ⟨4⟩ = .ok ⟨[2, 3]⟩ := rfl
  refine ⟨shaped, ?_⟩
  have regrouped := broadcast_joins_shapes.2.2.2.2 regroupedSum regroupedSum ⟨4⟩ ⟨7⟩ _ _
    reachable reachable fromLeft fromRight same
  exact (regrouped ⟨[2, 3]⟩).mp shaped

end Graph

end ModelGraph
