import Mathlib.Tactic.NormNum
import ModelGraph.Proofs.Enumeration.ShapeSoundness
import ModelGraph.Proofs.Enumeration.WholeNumbers
import ModelGraph.Proofs.Shape.Digits

/-!
# Outcomes are counted like numerals

The support of a distribution over finitely many outcomes holds an array for each choice of one
outcome at each place.  None is left out and none is repeated: the arrays are listed as the
numerals of a fixed length are counted, with the outcomes as digits.  This covers the arrays
without places, of which there is one, and distributions without outcomes.  The length is the number
of elements, which is computed in words: an array with more places than words can count gets fewer
digits than it has places.
-/

namespace ModelGraph

/-- A value is an array of whole numbers, in reals that stand for just these numbers. -/
structure Value.Holds (v : Value) (shape : Shape) (numbers : List Nat) : Prop where
  elements : ∃ t : Tensor, v = .tensor t ∧ t.shape = shape ∧
    t.data.toList = numbers.map Float.ofNat
  faithful : ∀ n ∈ numbers, number? (Float.ofNat n) = some (n : ℚ)

theorem Value.Holds.map_number?_elements
    {v : Value} {shape : Shape} {numbers : List Nat}
    (holds : v.Holds shape numbers) :
    v.elements.map number? = numbers.map fun n : Nat => some (n : ℚ) := by
  obtain ⟨⟨t, rfl, _, elements⟩, faithful⟩ := holds
  change t.data.toList.map number? = _
  rw [elements, List.map_map]
  exact List.map_congr_left faithful

/-- Different numbers are held by values whose elements stand for different numbers. -/
theorem Value.Holds.unique
    {v w : Value} {shape : Shape} {numbers numbers' : List Nat}
    (holds : v.Holds shape numbers)
    (holds' : w.Holds shape numbers')
    (alike : v.elements.map number? = w.elements.map number?) :
    numbers = numbers' := by
  rw [holds.map_number?_elements, holds'.map_number?_elements] at alike
  exact List.map_injective_iff.mpr
    (fun n n' same => Nat.cast_injective (Option.some.inj same)) alike

namespace Support

/-- A choice of one outcome for each place of an array. -/
def IsChoice (bound : Nat) (shape : Shape) (choice : List Nat) : Prop :=
  choice.length = shape.elementCount ∧ ∀ n ∈ choice, n < bound

section Outcomes

variable {bound : Nat} {shape : Shape} {choice : List Nat}

theorem isChoice_iff_inBounds :
    IsChoice bound shape choice ↔ Shape.InBounds (choices bound shape).dims choice :=
  Shape.inBounds_replicate_iff.symm

/-- A choice of representable outcomes gives an array of them. -/
theorem outcome_eq_some
    (isChoice : IsChoice bound shape choice)
    (representable : bound ≤ 2 ^ 53) :
    ∃ v, outcome shape choice = some v ∧ v.Holds shape choice := by
  have fits : Shape.wrap (choice.map Float.ofNat).toArray.size = shape.elementCount := by
    rw [List.size_toArray, List.length_map, isChoice.1, Shape.elementCount_eq, Shape.wrap_wrap]
  refine ⟨.tensor ⟨shape, (choice.map Float.ofNat).toArray, fits⟩, ?_, ⟨_, rfl, rfl, rfl⟩, ?_⟩
  · unfold outcome Tensor.ofArray
    rw [dif_pos fits]
    rfl
  · intro n present
    exact number?_ofNat (Nat.lt_of_lt_of_le (isChoice.2 n present) representable)

/-- Each choice is listed. -/
theorem map_some_toList
    (representable : bound ≤ 2 ^ 53)
    (shape : Shape) :
    (outcomes bound shape).toList.map some =
      (choices bound shape).indexList.map (outcome shape) := by
  unfold toList
  rw [List.map_filterMap_some_eq_filter_map_isSome]
  refine List.filter_eq_self.mpr fun value present => ?_
  obtain ⟨choice, visited, rfl⟩ := List.mem_map.mp present
  obtain ⟨k, visit⟩ := List.mem_iff_getElem?.mp visited
  have isChoice := isChoice_iff_inBounds.mpr (Shape.getElem?_indexList visit).1
  obtain ⟨v, isSome, _⟩ := outcome_eq_some isChoice representable
  rw [isSome, Option.isSome_some]

example : (outcomes 0 ⟨[2, 0]⟩).toList.length = 1 := rfl

example : (outcomes 0 ⟨[2]⟩).toList.length = 0 := rfl

/-- The place of a choice among all of them. -/
abbrev placeOf (bound : Nat) (shape : Shape) (choice : List Nat) : Nat :=
  Shape.position (choices bound shape).dims choice

/-- The array that is listed at a place holds the choice with that place. -/
theorem exists_choice_of_getElem?_outcomes
    {k : Nat} {v : Value}
    (representable : bound ≤ 2 ^ 53)
    (listed : (outcomes bound shape).toList[k]? = some v) :
    ∃ choice, IsChoice bound shape choice ∧ placeOf bound shape choice = k ∧
      v.Holds shape choice := by
  have visited : ((choices bound shape).indexList.map (outcome shape))[k]? = some (some v) := by
    rw [← map_some_toList representable shape, List.getElem?_map, listed, Option.map_some]
  rw [List.getElem?_map] at visited
  obtain ⟨choice, visit, isOutcome⟩ := Option.map_eq_some_iff.mp visited
  obtain ⟨inside, place⟩ := Shape.getElem?_indexList visit
  have isChoice := isChoice_iff_inBounds.mpr inside
  obtain ⟨w, isSome, holds⟩ := outcome_eq_some isChoice representable
  cases isOutcome.symm.trans isSome
  exact ⟨choice, isChoice, place, holds⟩

end Outcomes

end Support

namespace Graph

/-- A distribution has `bound` outcomes at each place of an array. -/
inductive HasOutcomes (g : Graph) : Distribution → (bound : Nat) → (shape : Shape) → Prop where
  | bernoulli {probability : NodeId} {logits : Bool} {shape : Shape}
      (shaped : g.shapeOf probability = .ok shape) :
      HasOutcomes g ⟨.bernoulli probability logits, false⟩ 2 shape
  | categorical {probability : NodeId} {logits fixed : Bool} {bound : Nat} {shape : Shape}
      (shaped : g.shapeOf probability = .ok ⟨shape.dims ++ [bound]⟩)
      (representable : bound ≤ 2 ^ 53) :
      HasOutcomes g ⟨.categorical probability logits, fixed⟩ bound shape

section Distributions

variable {g : Graph} {id : NodeId} {d : Distribution} {bound : Nat} {shape : Shape}

theorem HasOutcomes.representable
    (hasOutcomes : g.HasOutcomes d bound shape) :
    bound ≤ 2 ^ 53 := by
  cases hasOutcomes with
  | bernoulli => norm_num
  | categorical _ representable => exact representable

theorem HasOutcomes.distributionSupport_eq
    (hasOutcomes : g.HasOutcomes d bound shape)
    (id : NodeId) :
    g.distributionSupport id d = .ok (.outcomes bound shape) := by
  cases hasOutcomes with
  | bernoulli shaped => simp only [distributionSupport, shaped, Outcome.ok_bind, Outcome.pure_eq]
  | categorical shaped _ =>
      have innermost : (Shape.mk (shape.dims ++ [bound])).last? = some bound :=
        List.getLast?_concat
      have leading : (Shape.mk (shape.dims ++ [bound])).withoutLast? = some shape := by
        simp [Shape.withoutLast?]
      rw [distributionSupport_categorical]
      simp only [shaped, innermost, leading, Outcome.ok_bind, Outcome.pure_eq]

end Distributions

end Graph

end ModelGraph
