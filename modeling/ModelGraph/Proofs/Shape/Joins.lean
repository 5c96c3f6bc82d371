import Mathlib.Order.BoundedOrder.Basic
import ModelGraph.Proofs.Outcome
import ModelGraph.Proofs.Shape.Stretching

/-!
# Common shapes are joins

Shapes are ordered by stretching, with the shape of a single number as the least.  The common shape
of two shapes is the least one that both can be stretched to, and it exists if there is any.  So
the shape of several arrays that are combined element by element is told by where all of them can
be stretched to, in whatever order they are combined.
-/

namespace ModelGraph

namespace Shape

/-! ## The order -/

/-- A shape is known by its number of axes and their sizes. -/
theorem eq_iff_axis_eq {s t : Shape} : s = t ↔ t.rank = s.rank ∧ ∀ k, s.axis k = t.axis k := by
  have reversed : s = t ↔ s.dims.reverse = t.dims.reverse := by
    rw [List.reverse_inj, mk.injEq]
  rw [reversed, eq_iff_getD_eq, List.length_reverse, List.length_reverse]
  rfl

/-- A shape is below every shape that it can be stretched to. -/
instance : PartialOrder Shape where
  le := StretchesTo
  le_refl s := ⟨Nat.le_refl _, fun _ => .inr rfl⟩
  le_trans s t u first next := by
    refine ⟨Nat.le_trans first.rank_le next.rank_le, fun k => ?_⟩
    rcases first.sizes k with one | same
    · exact .inl one
    · rw [same]
      exact next.sizes k
  le_antisymm s t upward downward := by
    apply eq_iff_axis_eq.mpr
    refine ⟨Nat.le_antisymm downward.rank_le upward.rank_le, fun k => ?_⟩
    rcases upward.sizes k with one | same
    · rcases downward.sizes k with one' | same
      · exact one.trans one'.symm
      · exact same.symm
    · exact same

/-- A single number can be stretched to every shape. -/
instance : OrderBot Shape where
  bot := scalar
  bot_le _ := ⟨Nat.zero_le _, fun _ => .inl rfl⟩

/-! ## Joins -/

/-- There is a shape, and it can be stretched to the given one. -/
def Fits (x : Except Error Shape) (d : Shape) : Prop :=
  ∃ s, x = .ok s ∧ s ≤ d

section Fits

variable {x y : Except Error Shape} {s t c d : Shape}

@[simp] theorem fits_ok : Fits (.ok s) d ↔ s ≤ d := by
  simp [Fits]

@[simp] theorem not_fits_error {e : Error} : ¬Fits (.error e) d := by
  simp [Fits]

/-- A shape is known by where it can be stretched to. -/
theorem eq_ok_iff_of_fits_iff
    (same : ∀ d, Fits x d ↔ Fits y d) :
    x = .ok c ↔ y = .ok c := by
  have forward : ∀ {x y : Except Error Shape}, (∀ d, Fits x d ↔ Fits y d) →
      x = .ok c → y = .ok c := by
    rintro x y same rfl
    obtain ⟨c', found, below⟩ := (same c).mp (fits_ok.mpr le_rfl)
    have above : c ≤ c' := fits_ok.mp ((same c').mpr ⟨c', found, le_rfl⟩)
    rw [found, le_antisymm below above]
  exact ⟨forward same, forward fun d => (same d).symm⟩

/-- The common shape of two shapes can be stretched to what both can be stretched to, and there is
one as soon as both can be stretched to anything. -/
@[simp] theorem fits_broadcast : Fits (s.broadcast t) d ↔ s ≤ d ∧ t ≤ d := by
  constructor
  · rintro ⟨c, common, below⟩
    obtain ⟨ofLeft, ofRight⟩ := stretchesTo_of_broadcast common
    exact ⟨le_trans ofLeft below, le_trans ofRight below⟩
  · rintro ⟨ofLeft, ofRight⟩
    cases common : s.broadcast t with
    | error e =>
        obtain ⟨_, k, differ, left, right⟩ := broadcast_eq_error_iff.mp common
        have sameLeft := (ofLeft.sizes k).resolve_left left
        have sameRight := (ofRight.sizes k).resolve_left right
        exact absurd (sameLeft.trans sameRight.symm) differ
    | ok c =>
        obtain ⟨rank, sizes⟩ := broadcast_eq_ok_iff.mp common
        refine fits_ok.mpr ⟨?_, fun k => ?_⟩
        · rw [rank]
          exact Nat.max_le.mpr ⟨ofLeft.rank_le, ofRight.rank_le⟩
        · rw [(stretch?_eq_some_iff.mp (sizes k)).2]
          split
          · exact ofRight.sizes k
          · exact ofLeft.sizes k

/-- The common shape of two arrays that may be refused. -/
theorem fits_bind_broadcast :
    Fits (do (← x).broadcast (← y)) d ↔ Fits x d ∧ Fits y d := by
  cases x with
  | error e => simp
  | ok s =>
      cases y with
      | error e => simp
      | ok t => simp

end Fits

/-! ## Laws -/

theorem broadcast_self (s : Shape) : s.broadcast s = .ok s :=
  (eq_ok_iff_of_fits_iff fun d => by simp).mpr rfl

theorem broadcast_scalar (s : Shape) : s.broadcast .scalar = .ok s := by
  apply (eq_ok_iff_of_fits_iff fun d => ?_).mpr rfl
  rw [fits_broadcast, fits_ok]
  exact and_iff_left bot_le

theorem broadcast_comm {s t c : Shape} : s.broadcast t = .ok c ↔ t.broadcast s = .ok c := by
  apply eq_ok_iff_of_fits_iff
  intro d
  rw [fits_broadcast, fits_broadcast, and_comm]

theorem broadcast_assoc {s t u c : Shape} :
    (do (← s.broadcast t).broadcast u) = .ok c ↔
      (do s.broadcast (← t.broadcast u)) = .ok c := by
  apply eq_ok_iff_of_fits_iff
  intro d
  have fromLeft := fits_bind_broadcast (x := s.broadcast t) (y := .ok u) (d := d)
  have fromRight := fits_bind_broadcast (x := .ok s) (y := t.broadcast u) (d := d)
  simp only [Outcome.ok_bind, fits_broadcast, fits_ok] at fromLeft fromRight
  rw [fromLeft, fromRight, and_assoc]

end Shape

end ModelGraph
