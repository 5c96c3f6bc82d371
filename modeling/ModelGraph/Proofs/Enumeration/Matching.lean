import ModelGraph.Proofs.Enumeration.Reals
import ModelGraph.Proofs.Tensor.Product
import ModelGraph.Value.Operation

/-!
# Tensors and values that match

Two tensors match if they have one shape and matching elements, and two values if they match
as tensors.  Every operation that finds its way into the enumeration of a support, except
for quotients and powers, takes matching values to matching values.
-/

namespace ModelGraph

theorem realMatches_sum
    {terms terms' : List Float}
    (matching : List.Forall₂ RealMatches terms terms') :
    RealMatches (Tensor.sum terms) (Tensor.sum terms') := by
  exact List.rel_foldl (fun _ _ sums _ _ terms => sums.add terms) (.refl _) matching

theorem forall₂_trans
    {α : Type} {R : α → α → Prop} {xs ys zs : List α}
    (transitive : ∀ x y z, R x y → R y z → R x z)
    (first : List.Forall₂ R xs ys)
    (next : List.Forall₂ R ys zs) :
    List.Forall₂ R xs zs := by
  induction first generalizing zs with
  | nil => exact next
  | cons head _ ih =>
      cases next with
      | cons head' rest' => exact .cons (transitive _ _ _ head head') (ih rest')

theorem beq_list_congr
    {xs xs' ys ys' : List Float}
    (left : List.Forall₂ RealMatches xs xs')
    (right : List.Forall₂ RealMatches ys ys') :
    (xs == ys) = (xs' == ys') := by
  induction left generalizing ys ys' with
  | nil => cases right <;> rfl
  | cons first _ ih =>
      cases right with
      | nil => rfl
      | cons first' rest' =>
          rw [List.cons_beq_cons, List.cons_beq_cons, first.beq_congr first', ih rest']

/-- Lists compare equal if their items do, one by one. -/
theorem list_beq_iff
    {α : Type} [BEq α] {xs ys : List α} :
    (xs == ys) = true ↔ List.Forall₂ (fun x y => (x == y) = true) xs ys := by
  induction xs generalizing ys with
  | nil => cases ys <;> simp
  | cons x xs ih => cases ys <;> simp [ih]

namespace Tensor

/-- Two tensors have one shape and matching elements. -/
structure Matches (a b : Tensor) : Prop where
  shape_eq : a.shape = b.shape
  elements : List.Forall₂ RealMatches a.data.toList b.data.toList

theorem beq_iff {a b : Tensor} :
    (a == b) = true ↔
      a.shape = b.shape ∧
        List.Forall₂ (fun x y => (x == y) = true) a.data.toList b.data.toList := by
  change (a.shape == b.shape && a.data == b.data) = true ↔ _
  rw [Bool.and_eq_true, ← Array.beq_toList, beq_iff_eq, list_beq_iff]

/-- Elementwise operations on tensors of equal shapes are refused alike.  Otherwise both combine
the elements at every multi-index of one common shape. -/
theorem zipWith_agree
    {a a' b b' : Tensor} {f : Float → Float → Float} {related : Tensor → Tensor → Prop}
    (left : a.shape = a'.shape)
    (right : b.shape = b'.shape)
    (combined : ∀ shape, Outcome.Agree related
      (generate shape fun index => do return f (← a.get index) (← b.get index))
      (generate shape fun index => do return f (← a'.get index) (← b'.get index))) :
    Outcome.Agree related (a.zipWith f b) (a'.zipWith f b') := by
  unfold Tensor.zipWith
  rw [left, right]
  refine (Outcome.Agree.refl (a'.shape.broadcast b'.shape)).bind ?_
  rintro shape _ rfl
  exact combined shape

/-- Tensors are generated alike, with related elements, where the functions answer alike. -/
theorem generate_agree
    {related : Float → Float → Prop} {shape : Shape} {entry entry' : List Nat → Except Error Float}
    (each : ∀ index, Outcome.Agree related (entry index) (entry' index)) :
    Outcome.Agree (fun c c' => List.Forall₂ related c.data.toList c'.data.toList)
      (generate shape entry) (generate shape entry') := by
  have elements := Outcome.Agree.mapM fun index (_ : index ∈ shape.indexList) => each index
  cases formed : generate shape entry with
  | ok t =>
      obtain ⟨-, mapped⟩ := generate_eq_ok_iff.mp formed
      obtain ⟨data, mapped', similar⟩ := elements.exists_of_ok mapped
      cases formed' : generate shape entry' with
      | ok t' =>
          cases mapped'.symm.trans (generate_eq_ok_iff.mp formed').2
          exact .ok similar
      | error e => cases mapped'.symm.trans (generate_eq_error_iff.mp formed')
  | error e =>
      have failed := elements.symm.eq_error (generate_eq_error_iff.mp formed)
      rw [generate_eq_error_iff.mpr failed]
      exact .error e

namespace Matches

variable {a a' b b' : Tensor}

theorem refl (a : Tensor) : a.Matches a :=
  ⟨rfl, List.forall₂_same.mpr fun x _ => .refl x⟩

theorem trans
    {c : Tensor}
    (first : a.Matches b)
    (next : b.Matches c) :
    a.Matches c :=
  ⟨first.shape_eq.trans next.shape_eq,
    forall₂_trans (fun _ _ _ => RealMatches.trans) first.elements next.elements⟩

theorem scalar {x y : Float} (matching : RealMatches x y) :
    (Tensor.scalar x).Matches (Tensor.scalar y) :=
  ⟨rfl, .cons matching .nil⟩

/-- The element at a place is read alike, and missing alike. -/
theorem read (matching : a.Matches a') (place : Nat) :
    Outcome.Agree RealMatches (a.read place) (a'.read place) := by
  have counted := matching.elements.length_eq
  simp only [Array.length_toList] at counted
  unfold Tensor.read
  by_cases inside : place < a.data.size
  · have inside' : place < a'.data.size := by omega
    rw [Array.getElem?_eq_getElem inside, Array.getElem?_eq_getElem inside']
    exact .ok (matching.elements.get (by simpa using inside) (by simpa using inside'))
  · rw [Array.getElem?_eq_none (by omega), Array.getElem?_eq_none (by omega), counted]
    exact .error _

theorem get (matching : a.Matches a') (index : List Nat) :
    Outcome.Agree RealMatches (a.get index) (a'.get index) := by
  unfold Tensor.get
  rw [matching.shape_eq]
  exact matching.read _

theorem map
    {f : Float → Float}
    (keeps : ∀ x y, RealMatches x y → RealMatches (f x) (f y))
    (matching : a.Matches a') :
    (a.map f).Matches (a'.map f) := by
  refine ⟨matching.shape_eq, ?_⟩
  simp only [data_map, Array.toList_map, List.forall₂_map_left_iff, List.forall₂_map_right_iff]
  exact matching.elements.imp keeps

theorem generate
    {shape : Shape} {entry entry' : List Nat → Except Error Float}
    (matching : ∀ index, Outcome.Agree RealMatches (entry index) (entry' index)) :
    Outcome.Agree Tensor.Matches (Tensor.generate shape entry) (Tensor.generate shape entry') := by
  refine (generate_agree matching).imp_of_eq_ok fun c c' formed formed' elements => ?_
  exact ⟨(generate_eq_ok_iff.mp formed).1.trans (generate_eq_ok_iff.mp formed').1.symm, elements⟩

/-- Complete tensors that match have matching elements everywhere. -/
theorem element
    {index : List Nat}
    (matching : a.Matches a')
    (complete : a.IsComplete)
    (complete' : a'.IsComplete)
    (inside : Shape.InBounds a.shape.dims index)
    (inside' : Shape.InBounds a'.shape.dims index) :
    RealMatches (a.element complete index inside) (a'.element complete' index inside') := by
  have stored := complete.position_lt_size inside
  have stored' := complete'.position_lt_size inside'
  unfold Tensor.element
  simp only [← Array.getElem_toList, matching.shape_eq] at stored ⊢
  exact matching.elements.get (by simpa using stored) (by simpa using stored')

theorem zipWith
    {f : Float → Float → Float}
    (keeps : ∀ x x' y y', RealMatches x x' → RealMatches y y' → RealMatches (f x y) (f x' y'))
    (left : a.Matches a')
    (right : b.Matches b') :
    Outcome.Agree Tensor.Matches (a.zipWith f b) (a'.zipWith f b') :=
  zipWith_agree left.shape_eq right.shape_eq fun _ => generate fun index =>
    (left.get index).bind fun _ _ first => (right.get index).bind fun _ _ next =>
      .ok (keeps _ _ _ _ first next)

theorem dot
    (left : a.Matches a')
    (right : b.Matches b')
    (inner columns row column : Nat) :
    Outcome.Agree RealMatches (a.dot b inner columns row column)
      (a'.dot b' inner columns row column) := by
  simp only [Tensor.dot, Steps.run_zero_eq]
  refine (Outcome.Agree.mapM fun k _ => ?_).bind fun _ _ terms => .ok (realMatches_sum terms)
  exact (left.read _).bind fun _ _ first => (right.read _).bind fun _ _ next =>
    .ok (first.mul next)

theorem matmul
    (left : a.Matches a')
    (right : b.Matches b') :
    Outcome.Agree Tensor.Matches (a.matmul b) (a'.matmul b') := by
  unfold Tensor.matmul
  rw [left.shape_eq, right.shape_eq]
  refine (Outcome.Agree.refl (a'.shape.matmul b'.shape)).bind ?_
  rintro shape _ rfl
  refine generate fun index => ?_
  unfold dotAt
  split
  · exact left.dot right _ _ _ _
  · exact .ok (.refl _)

theorem item (matching : a.Matches a') : Outcome.Agree RealMatches a.item a'.item := by
  have elements := matching.elements
  unfold Tensor.item
  rw [matching.shape_eq]
  generalize a.data.toList = xs, a'.data.toList = ys at elements
  cases elements with
  | nil => exact .error _
  | cons first rest =>
      cases rest with
      | nil => exact .ok first
      | cons _ _ => exact .error _

theorem beq_congr
    (left : a.Matches a')
    (right : b.Matches b') :
    (a == b) = (a' == b') := by
  change (a.shape == b.shape && a.data == b.data) = (a'.shape == b'.shape && a'.data == b'.data)
  rw [left.shape_eq, right.shape_eq, ← Array.beq_toList, ← Array.beq_toList,
    beq_list_congr left.elements right.elements]

theorem of_beq (equal : (a == b) = true) : a.Matches b := by
  obtain ⟨shapes, elements⟩ := beq_iff.mp equal
  exact ⟨shapes, elements.imp fun _ _ same => .inl same⟩

end Matches

end Tensor

namespace Value

/-- Two values have one shape and hold matching numbers in equal places. -/
def Matches (v w : Value) : Prop :=
  v.toTensor.Matches w.toTensor

theorem Matches.refl (v : Value) : v.Matches v :=
  Tensor.Matches.refl v.toTensor

theorem Matches.trans
    {u v w : Value}
    (first : u.Matches v)
    (next : v.Matches w) :
    u.Matches w :=
  Tensor.Matches.trans first next

theorem sameContents_eq (v w : Value) : v.sameContents w = (v.toTensor == w.toTensor) := by
  have scalars : ∀ x y : Float, (x == y) = (Tensor.scalar x == Tensor.scalar y) := by
    intro x y
    change (x == y) = (Shape.scalar == Shape.scalar && #[x] == #[y])
    rw [← Array.beq_toList]
    simp
  cases v <;> cases w <;> first | exact scalars _ _ | rfl

theorem Matches.of_sameContents
    {v w : Value}
    (same : v.sameContents w = true) :
    v.Matches w := by
  rw [sameContents_eq] at same
  exact .of_beq same

/-- Whether a value has the contents of another is the same for values that match. -/
theorem Matches.sameContents_congr
    {v w : Value}
    (matching : v.Matches w)
    (candidate : Value) :
    candidate.sameContents v = candidate.sameContents w := by
  rw [sameContents_eq, sameContents_eq]
  exact Tensor.Matches.beq_congr (.refl _) matching

end Value

/-- An operation on tensors takes matching tensors to matching tensors. -/
def KeepsMatching (operation : Tensor → Tensor → Except Error Tensor) : Prop :=
  ∀ a a' b b' c, a.Matches a' → b.Matches b' → operation a b = .ok c →
    ∃ c', operation a' b' = .ok c' ∧ c.Matches c'

theorem BinaryOp.eq_index_of_arithmetic_eq_none
    {op : BinaryOp}
    (noArithmetic : op.arithmetic? = none) :
    op = .index := by
  cases op with
  | index => rfl
  | _ => cases noArithmetic

/-- What arithmetic gives has an element for every place. -/
theorem BinaryOp.isComplete_of_arithmetic
    {power : Float → Float → Float} {op : BinaryOp}
    {operation : Tensor → Tensor → Except Error Tensor} {a b c : Tensor}
    (arithmetic : op.arithmeticWith? power = some operation)
    (combined : operation a b = .ok c) :
    c.IsComplete := by
  cases op with
  | index => cases arithmetic
  | matrixMultiplication =>
      cases arithmetic
      exact Tensor.isComplete_of_matmul combined
  | _ =>
      cases arithmetic
      exact Tensor.isComplete_of_zipWith combined

/-- Sums, products and matrix products of matching tensors match. -/
theorem agree_of_arithmetic
    {power : Float → Float → Float} {op : BinaryOp}
    {operation : Tensor → Tensor → Except Error Tensor} {a a' b b' : Tensor}
    (notDivision : op ≠ .division)
    (notPower : op ≠ .power)
    (arithmetic : op.arithmeticWith? power = some operation)
    (left : a.Matches a')
    (right : b.Matches b') :
    Outcome.Agree Tensor.Matches (operation a b) (operation a' b') := by
  cases op with
  | addition =>
      cases arithmetic
      exact left.zipWith (fun _ _ _ _ => RealMatches.add) right
  | multiplication =>
      cases arithmetic
      exact left.zipWith (fun _ _ _ _ => RealMatches.mul) right
  | matrixMultiplication =>
      cases arithmetic
      exact left.matmul right
  | division => exact absurd rfl notDivision
  | power => exact absurd rfl notPower
  | index => cases arithmetic

theorem keepsMatching_of_arithmetic
    {op : BinaryOp} {operation : Tensor → Tensor → Except Error Tensor}
    (notDivision : op ≠ .division)
    (notPower : op ≠ .power)
    (arithmetic : op.arithmetic? = some operation) :
    KeepsMatching operation :=
  fun _ _ _ _ _ left right combined =>
    (agree_of_arithmetic notDivision notPower arithmetic left right).exists_of_ok combined

/-- The opposite of a truth value is taken as that of the number it stands for. -/
theorem toTensor_of_not_eq_ok
    {v r : Value}
    (applied : UnaryOp.not.apply v = .ok r) :
    r.toTensor = v.toTensor.map negation := by
  cases v with
  | boolean b =>
      cases applied
      have negated : negation (if b then 1.0 else 0.0) = if !b then 1.0 else 0.0 := by
        cases b <;> rfl
      simp [Value.toTensor, Tensor.map, Tensor.scalar, negated]
  | _ =>
      cases applied
      rfl

/-- A function on reals takes matching reals to matching reals. -/
def KeepsRealMatching (f : Float → Float) : Prop :=
  ∀ x y, RealMatches x y → RealMatches (f x) (f y)

/-- What an operation on values needs of the transcendental function it computes, if any. -/
def UnaryOp.Respectful : UnaryOp → Prop
  | .exp => KeepsRealMatching Float.exp
  | .log => KeepsRealMatching Float.log
  | _ => True

/-- Applied to matching values, an operation gives matching values or is refused alike. -/
theorem UnaryOp.Respectful.apply_agree
    {op : UnaryOp} {v w : Value}
    (respectful : op.Respectful)
    (matching : v.Matches w) :
    Outcome.Agree Value.Matches (op.apply v) (op.apply w) := by
  cases op with
  | exp => exact .ok (Tensor.Matches.map respectful matching)
  | log => exact .ok (Tensor.Matches.map respectful matching)
  | negate => exact .ok (Tensor.Matches.map (fun _ _ => RealMatches.neg) matching)
  | not =>
      have answers : ∀ u : Value, ∃ r, UnaryOp.not.apply u = .ok r := by
        rintro (_ | _ | _ | _ | _ | _) <;> exact ⟨_, rfl⟩
      obtain ⟨r, applied⟩ := answers v
      obtain ⟨r', applied'⟩ := answers w
      rw [applied, applied']
      refine .ok ?_
      unfold Value.Matches
      rw [toTensor_of_not_eq_ok applied, toTensor_of_not_eq_ok applied']
      exact Tensor.Matches.map (fun _ _ => RealMatches.negation) matching
  | toReal => exact (Tensor.Matches.item matching).bind fun _ _ similar => .ok (.scalar similar)
  | toTensor => exact .ok matching

end ModelGraph
