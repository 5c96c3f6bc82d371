import ModelGraph.Proofs.Enumeration.Matching
import ModelGraph.Proofs.Enumeration.SignedZeros

/-!
# Operations on representatives

Of several values with equal contents a set of values keeps the first, and operations are
applied to that one instead of the others.  The results match, or both are refused for one
reason, as long as no quotient and no power meets zeros of opposite sign.  Where one does, it
is known which elements of the result differ.
-/

namespace ModelGraph

/-- What is relied on of the transcendental function that an operation computes, if any: its
values at the two zeros. -/
def UnaryOp.Lawful : UnaryOp → Prop
  | .exp => Float.exp 0.0 = 1.0 ∧ Float.exp (-0.0) = 1.0
  | .log => Float.log 0.0 = -infinity ∧ Float.log (-0.0) = -infinity
  | _ => True

/-- What is relied on of the powers that an operation computes, if any. -/
def BinaryOp.Lawful (power : Float → Float → Float) : BinaryOp → Prop
  | .power => PowerLaws power
  | _ => True

/-- A function respects matching reals if it does not tell the two zeros apart. -/
theorem keepsRealMatching_of_zeros
    {f : Float → Float}
    (zeros : f 0.0 = f (-0.0)) :
    KeepsRealMatching f := by
  intro x y matching
  rcases matching.eq_or_oppositeZeros with rfl | opposite
  · exact .refl _
  · rcases opposite.cases with ⟨rfl, rfl⟩ | ⟨rfl, rfl⟩ <;> rw [zeros] <;> exact .refl _

theorem UnaryOp.Lawful.respectful
    {op : UnaryOp}
    (lawful : op.Lawful) :
    op.Respectful := by
  cases op with
  | exp => exact keepsRealMatching_of_zeros (lawful.1.trans lawful.2.symm)
  | log => exact keepsRealMatching_of_zeros (lawful.1.trans lawful.2.symm)
  | negate | not | toReal | toTensor => exact trivial

/-- Whether an operation tells two pairs of matching reals apart: a quotient does if a number
other than zero is divided by zeros of opposite sign, and a power if zeros of opposite sign are
raised to a negative odd number. -/
def BinaryOp.Separates (op : BinaryOp) (x x' y y' : Float) : Prop :=
  match op with
  | .division => OppositeZeros y y' ∧ (x == 0.0) = false ∧ x.isNaN = false
  | .power => OppositeZeros x x' ∧ y < 0.0 ∧ IsOddNumber y
  | _ => False

/-- An operation tells apart what it reads of two pairs of tensors at a multi-index. -/
def BinaryOp.SeparatesAt (op : BinaryOp) (a a' b b' : Tensor) (index : List Nat) : Prop :=
  ∃ x x' y y', a.get index = .ok x ∧ a'.get index = .ok x' ∧ b.get index = .ok y ∧
    b'.get index = .ok y' ∧ op.Separates x x' y y'

/-- Two results of an operation have one shape and an element for each of its places.  The elements
match exactly where the operation does not tell apart what it reads of the operands. -/
structure BinaryOp.MatchUnlessSeparated (op : BinaryOp) (a a' b b' c c' : Tensor) : Prop where
  shape_eq : c.shape = c'.shape
  complete : c.IsComplete
  complete' : c'.IsComplete
  element_iff : ∀ index (inside : Shape.InBounds c.shape.dims index)
    (inside' : Shape.InBounds c'.shape.dims index),
    RealMatches (c.element complete index inside) (c'.element complete' index inside') ↔
      ¬op.SeparatesAt a a' b b' index

/-- Elementwise operations tell tensors apart where they tell their elements apart. -/
theorem Tensor.Matches.zipWith_separates
    {op : BinaryOp} {f : Float → Float → Float} {a a' b b' : Tensor}
    (left : a.Matches a')
    (right : b.Matches b')
    (elements : ∀ x x' y y', RealMatches x x' → RealMatches y y' →
      (RealMatches (f x y) (f x' y') ↔ ¬op.Separates x x' y y')) :
    Outcome.Agree (op.MatchUnlessSeparated a a' b b') (a.zipWith f b) (a'.zipWith f b') := by
  refine Tensor.zipWith_agree left.shape_eq right.shape_eq fun shape => ?_
  have read : ∀ index, Outcome.Agree (fun _ _ => True)
      (do return f (← a.get index) (← b.get index) : Except Error Float)
      (do return f (← a'.get index) (← b'.get index)) := fun index =>
    (left.get index).bind fun _ _ _ => (right.get index).bind fun _ _ _ => .ok trivial
  refine (Tensor.generate_agree read).imp_of_eq_ok fun c c' formed formed' _ => ?_
  have shapes := (Tensor.generate_eq_ok_iff.mp formed).1
  have shapes' := (Tensor.generate_eq_ok_iff.mp formed').1
  refine ⟨shapes.trans shapes'.symm, Tensor.isComplete_of_generate formed,
    Tensor.isComplete_of_generate formed', fun index inside inside' => ?_⟩
  have combined := Tensor.element_of_generate formed inside
  have combined' := Tensor.element_of_generate formed' inside'
  obtain ⟨x, first, combined⟩ := Outcome.bind_eq_ok_iff.mp combined
  obtain ⟨y, next, combined⟩ := Outcome.bind_eq_ok_iff.mp combined
  obtain ⟨x', first', combined'⟩ := Outcome.bind_eq_ok_iff.mp combined'
  obtain ⟨y', next', combined'⟩ := Outcome.bind_eq_ok_iff.mp combined'
  have lefts : RealMatches x x' := (left.get index).of_eq_ok first first'
  have rights : RealMatches y y' := (right.get index).of_eq_ok next next'
  rw [← Except.ok.inj combined, ← Except.ok.inj combined', elements x x' y y' lefts rights,
    not_iff_not]
  constructor
  · exact fun apart => ⟨x, x', y, y', first, first', next, next', apart⟩
  · rintro ⟨_, _, _, _, isX, isX', isY, isY', apart⟩
    cases first.symm.trans isX
    cases first'.symm.trans isX'
    cases next.symm.trans isY
    cases next'.symm.trans isY'
    exact apart

theorem BinaryOp.Lawful.agree
    {power : Float → Float → Float} {op : BinaryOp}
    {operation : Tensor → Tensor → Except Error Tensor} {a a' b b' : Tensor}
    (lawful : op.Lawful power)
    (arithmetic : op.arithmeticWith? power = some operation)
    (left : a.Matches a')
    (right : b.Matches b') :
    Outcome.Agree (op.MatchUnlessSeparated a a' b b') (operation a b) (operation a' b') := by
  cases op with
  | division =>
      cases arithmetic
      exact left.zipWith_separates right fun _ _ _ _ => RealMatches.div_iff
  | power =>
      cases arithmetic
      exact left.zipWith_separates right fun _ _ _ _ => RealMatches.pow_iff lawful
  | addition | multiplication | matrixMultiplication =>
      refine (agree_of_arithmetic (by simp) (by simp) arithmetic left right).imp_of_eq_ok ?_
      intro c c' combined combined' matching
      have complete := isComplete_of_arithmetic arithmetic combined
      have complete' := isComplete_of_arithmetic arithmetic combined'
      refine ⟨matching.shape_eq, complete, complete', fun index inside inside' => ?_⟩
      refine iff_of_true (matching.element complete complete' inside inside') ?_
      rintro ⟨_, _, _, _, -, -, -, -, apart⟩
      exact apart
  | index => cases arithmetic

/-- Operations on values with equal contents are refused for one reason or give results of one
shape.  The results of an operation on one value match, and those of an operation on two
values match except for the elements that the operation tells apart.  Of the function that powers
are computed with, nothing is relied on but its laws. -/
theorem operations_on_equal_contents :
    (∀ (op : UnaryOp) (v v' : Value),
      op.Lawful → v.sameContents v' = true →
        Outcome.Agree Value.Matches (op.apply v) (op.apply v')) ∧
    ∀ (power : Float → Float → Float) (op : BinaryOp)
      (operation : Tensor → Tensor → Except Error Tensor) (a a' b b' : Value),
      op.Lawful power → op.arithmeticWith? power = some operation →
        a.sameContents a' = true → b.sameContents b' = true →
          Outcome.Agree
            (op.MatchUnlessSeparated a.toTensor a'.toTensor b.toTensor b'.toTensor)
            (operation a.toTensor b.toTensor) (operation a'.toTensor b'.toTensor) := by
  constructor
  · intro op v v' lawful same
    exact lawful.respectful.apply_agree (.of_sameContents same)
  · intro power op operation a a' b b' lawful arithmetic left right
    exact lawful.agree arithmetic
      (Value.Matches.of_sameContents left) (Value.Matches.of_sameContents right)

/-- The opposites of the number zero and of the truth value false match; the quotients of one
by the two zeros do not, nor do the inverses of the two zeros as powers, as they are told apart. -/
theorem operations_on_equal_contents_zeros :
    (UnaryOp.not.Lawful ∧ (Value.real 0.0).sameContents (.boolean false) = true ∧
      Outcome.Agree Value.Matches
        (UnaryOp.not.apply (.real 0.0)) (UnaryOp.not.apply (.boolean false))) ∧
    (BinaryOp.division.Lawful Float.pow ∧
      BinaryOp.division.arithmetic? = some (Tensor.zipWith (· / ·)) ∧
      (Value.real 1.0).sameContents (.natural 1) = true ∧
      (Value.real 0.0).sameContents (.real (-0.0)) = true ∧
      Outcome.Agree
        (BinaryOp.division.MatchUnlessSeparated
          (.scalar 1.0) (.scalar (1 : UInt64).toFloat) (.scalar 0.0) (.scalar (-0.0)))
        (Tensor.zipWith (· / ·) (.scalar 1.0) (.scalar 0.0))
        (Tensor.zipWith (· / ·) (.scalar (1 : UInt64).toFloat) (.scalar (-0.0)))) ∧
    (BinaryOp.power.Lawful zeroPower ∧
      BinaryOp.power.arithmeticWith? zeroPower = some (Tensor.zipWith zeroPower) ∧
      (Value.real (-1.0)).sameContents (.real (-1.0)) = true ∧
      Outcome.Agree
        (BinaryOp.power.MatchUnlessSeparated
          (.scalar 0.0) (.scalar (-0.0)) (.scalar (-1.0)) (.scalar (-1.0)))
        (Tensor.zipWith zeroPower (.scalar 0.0) (.scalar (-1.0)))
        (Tensor.zipWith zeroPower (.scalar (-0.0)) (.scalar (-1.0)))) := by
  have zeros : (Value.real 0.0).sameContents (.boolean false) = true := by decide
  have ones : (Value.real 1.0).sameContents (.natural 1) = true := by decide
  have opposite : (Value.real 0.0).sameContents (.real (-0.0)) = true := by decide
  have exponents : (Value.real (-1.0)).sameContents (.real (-1.0)) = true := by decide
  refine ⟨⟨trivial, zeros, ?_⟩, ⟨trivial, rfl, ones, opposite, ?_⟩,
    ⟨powerLaws_zeroPower, rfl, exponents, ?_⟩⟩
  · exact operations_on_equal_contents.1 .not _ _ trivial zeros
  · exact operations_on_equal_contents.2 Float.pow .division _ (.real 1.0) (.natural 1) (.real 0.0)
      (.real (-0.0)) trivial rfl ones opposite
  · exact operations_on_equal_contents.2 zeroPower .power _ (.real 0.0) (.real (-0.0))
      (.real (-1.0)) (.real (-1.0)) powerLaws_zeroPower rfl opposite exponents

/-- The two zeros have equal contents, and the quotients of one by them do not match. -/
theorem quotients_by_zeros_differ :
    (Value.real 1.0).sameContents (.real 1.0) = true ∧
    (Value.real 0.0).sameContents (.real (-0.0)) = true ∧
    BinaryOp.division.arithmetic? = some (Tensor.zipWith (· / ·)) ∧
    ¬Outcome.Agree Tensor.Matches
      (Tensor.zipWith (· / ·) (Value.real 1.0).toTensor (Value.real 0.0).toTensor)
      (Tensor.zipWith (· / ·) (Value.real 1.0).toTensor (Value.real (-0.0)).toTensor) := by
  refine ⟨by decide, by decide, rfl, fun agree => ?_⟩
  obtain ⟨c, combined, matching⟩ := agree.exists_of_ok (a := .scalar infinity) rfl
  have negative : c = .scalar (-infinity) := by
    cases combined
    rfl
  subst negative
  exact not_realMatches_infinity ((matching.get []).of_eq_ok rfl rfl)

end ModelGraph
