import Mathlib.Data.List.Forall2
import ModelGraph.Error
import ModelGraph.Proofs.Shape.Walk

/-!
# Stretching, axis by axis

Two shapes are combined axis by axis, counted from the innermost one, where an axis that a shape
lacks counts as one of size one.  So the common shape is known from its number of axes and from
their sizes.  An array of either shape can be read at every multi-index of the common one.
-/

namespace ModelGraph

namespace Shape

/-! ## Axes -/

/-- The size of the axis with `k` axes inside it, if there is one, and one otherwise. -/
def axis (s : Shape) (k : Nat) : Nat :=
  s.dims.reverse.getD k 1

/-- Two aligned axes have different sizes, and neither can be stretched. -/
def Clashes (s t : Shape) : Prop :=
  ∃ k, s.axis k ≠ t.axis k ∧ s.axis k ≠ 1 ∧ t.axis k ≠ 1

theorem stretch?_eq_none_iff {a b : Nat} : stretch? a b = none ↔ a ≠ b ∧ a ≠ 1 ∧ b ≠ 1 := by
  unfold stretch?
  split_ifs <;> simp [*]

theorem stretch?_eq_some_iff {a b d : Nat} :
    stretch? a b = some d ↔ (a = 1 ∨ b = 1 ∨ a = b) ∧ d = if a = 1 then b else a := by
  unfold stretch?
  split_ifs <;> simp only [Option.some.injEq, false_iff] <;> omega

@[simp] theorem stretch?_one_left (b : Nat) : stretch? 1 b = some b := by
  simp [stretch?_eq_some_iff]

@[simp] theorem stretch?_one_right (a : Nat) : stretch? a 1 = some a := by
  rw [stretch?_eq_some_iff]
  split <;> simp [*]

/-- Lists of axes are equal if they have the same sizes in the same places. -/
theorem eq_iff_getD_eq {as bs : List Nat} :
    as = bs ↔ bs.length = as.length ∧ ∀ k, as.getD k 1 = bs.getD k 1 := by
  constructor
  · rintro rfl
    exact ⟨rfl, fun _ => rfl⟩
  · rintro ⟨lengths, sizes⟩
    refine List.ext_getElem lengths.symm fun k inside inside' => ?_
    simpa [List.getD_eq_getElem?_getD, inside, inside'] using sizes k

@[simp] theorem stretchAll?_nil_right (as : List Nat) : stretchAll? as [] = some as := by
  cases as <;> rfl

theorem stretchAll?_cons_eq_some_iff {a b : Nat} {as bs cs : List Nat} :
    stretchAll? (a :: as) (b :: bs) = some cs ↔
      ∃ d ds, cs = d :: ds ∧ stretch? a b = some d ∧ stretchAll? as bs = some ds := by
  rw [stretchAll?]
  cases stretch? a b <;> cases stretchAll? as bs <;> simp [eq_comm]

theorem stretchAll?_cons_eq_none_iff {a b : Nat} {as bs : List Nat} :
    stretchAll? (a :: as) (b :: bs) = none ↔
      stretch? a b = none ∨ stretchAll? as bs = none := by
  rw [stretchAll?]
  cases stretch? a b <;> cases stretchAll? as bs <;> simp

/-- Two lists of axes are stretched to a list with as many axes as the longer one, each of the size
to which the axes in its place are stretched. -/
theorem stretchAll?_eq_some_iff {as bs cs : List Nat} :
    stretchAll? as bs = some cs ↔
      cs.length = max as.length bs.length ∧
        ∀ k, stretch? (as.getD k 1) (bs.getD k 1) = some (cs.getD k 1) := by
  induction as generalizing bs cs with
  | nil => simp [stretchAll?, eq_iff_getD_eq]
  | cons a as ih =>
      cases bs with
      | nil => simp [eq_iff_getD_eq]
      | cons b bs =>
          rw [stretchAll?_cons_eq_some_iff]
          constructor
          · rintro ⟨d, ds, rfl, here, rest⟩
            obtain ⟨lengths, sizes⟩ := ih.mp rest
            refine ⟨by simp [lengths], fun k => ?_⟩
            cases k with
            | zero => exact here
            | succ k => exact sizes k
          · rintro ⟨lengths, sizes⟩
            cases cs with
            | nil => simp at lengths
            | cons d ds =>
                have rest := ih.mpr ⟨by simpa using lengths, fun k => sizes (k + 1)⟩
                exact ⟨d, ds, rfl, sizes 0, rest⟩

/-- Two lists of axes are not stretched to any list if some axes in one place are not. -/
theorem stretchAll?_eq_none_iff {as bs : List Nat} :
    stretchAll? as bs = none ↔ ∃ k, stretch? (as.getD k 1) (bs.getD k 1) = none := by
  induction as generalizing bs with
  | nil => simp [stretchAll?]
  | cons a as ih =>
      cases bs with
      | nil => simp
      | cons b bs =>
          rw [stretchAll?_cons_eq_none_iff, ih]
          exact Nat.or_exists_add_one
            (p := fun k => stretch? ((a :: as).getD k 1) ((b :: bs).getD k 1) = none)

section Broadcast

variable {s t c : Shape}

/-- A common shape is known by its number of axes and their sizes. -/
theorem broadcast?_eq_some_iff :
    s.broadcast? t = some c ↔
      c.rank = max s.rank t.rank ∧ ∀ k, stretch? (s.axis k) (t.axis k) = some (c.axis k) := by
  have reversed : s.broadcast? t = some c ↔
      stretchAll? s.dims.reverse t.dims.reverse = some c.dims.reverse := by
    obtain ⟨dims⟩ := c
    simp only [broadcast?, Option.map_eq_some_iff, Shape.mk.injEq]
    constructor
    · rintro ⟨ds, stretched, rfl⟩
      rw [stretched, List.reverse_reverse]
    · intro stretched
      exact ⟨_, stretched, List.reverse_reverse _⟩
  rw [reversed, stretchAll?_eq_some_iff]
  simp only [List.length_reverse]
  rfl

example : (Shape.mk [0]).broadcast? ⟨[2, 1]⟩ = some ⟨[2, 0]⟩ := rfl

theorem broadcast?_eq_none_iff : s.broadcast? t = none ↔ s.Clashes t := by
  rw [broadcast?, Option.map_eq_none_iff, stretchAll?_eq_none_iff]
  simp only [stretch?_eq_none_iff]
  rfl

theorem broadcast_eq_ok_iff :
    s.broadcast t = .ok c ↔
      c.rank = max s.rank t.rank ∧ ∀ k, stretch? (s.axis k) (t.axis k) = some (c.axis k) := by
  rw [← broadcast?_eq_some_iff, broadcast]
  cases s.broadcast? t <;> simp

theorem broadcast_eq_error_iff {e : Error} :
    s.broadcast t = .error e ↔ e = .shapeMismatch s t ∧ s.Clashes t := by
  rw [← broadcast?_eq_none_iff, broadcast]
  cases s.broadcast? t <;> simp [eq_comm]

end Broadcast

/-! ## Reading a stretched array -/

/-- Each axis of a shape has the size of the axis of the wider shape in its place, or size one. -/
structure StretchesTo (s c : Shape) : Prop where
  rank_le : s.rank ≤ c.rank
  sizes : ∀ k, s.axis k = 1 ∨ s.axis k = c.axis k

theorem stretchesTo_of_broadcast
    {s t c : Shape}
    (common : s.broadcast t = .ok c) :
    s.StretchesTo c ∧ t.StretchesTo c := by
  obtain ⟨rank, sizes⟩ := broadcast_eq_ok_iff.mp common
  refine ⟨⟨by omega, fun k => ?_⟩, ⟨by omega, fun k => ?_⟩⟩
  · obtain ⟨_, size⟩ := stretch?_eq_some_iff.mp (sizes k)
    split at size <;> omega
  · obtain ⟨_, size⟩ := stretch?_eq_some_iff.mp (sizes k)
    split at size <;> omega

theorem inBounds_iff_forall₂ {dims index : List Nat} :
    InBounds dims index ↔ List.Forall₂ (fun i size => i < size) index dims := by
  induction dims generalizing index with
  | nil => cases index <;> simp [InBounds]
  | cons size sizes ih => cases index <;> simp [InBounds, ih]

theorem InBounds.drop
    {dims index : List Nat}
    (inside : InBounds dims index)
    (count : Nat) :
    InBounds (dims.drop count) (index.drop count) := by
  rw [inBounds_iff_forall₂] at inside ⊢
  exact List.forall₂_drop count inside

theorem getElem_dims (s : Shape) (i : Nat) (inside : i < s.dims.length) :
    s.dims[i] = s.axis (s.rank - 1 - i) := by
  have outer : s.dims.length - 1 - i < s.dims.length := by omega
  have counted : s.dims.length - 1 - (s.dims.length - 1 - i) = i := by omega
  unfold axis rank
  simp [List.getD_eq_getElem?_getD, List.getElem?_reverse outer, counted, inside]

/-- The innermost axes of the wider shape are those to which the shape is stretched. -/
theorem StretchesTo.forall₂
    {s c : Shape}
    (stretches : s.StretchesTo c) :
    List.Forall₂ (fun size wide => size = 1 ∨ size = wide) s.dims
      (c.dims.drop (c.rank - s.rank)) := by
  have narrower : s.dims.length ≤ c.dims.length := stretches.rank_le
  refine List.forall₂_iff_get.mpr ⟨?_, fun i inside inside' => ?_⟩
  · rw [List.length_drop, rank, rank]
    omega
  · have aligned : c.rank - 1 - (c.rank - s.rank + i) = s.rank - 1 - i := by
      unfold rank
      omega
    rw [List.get_eq_getElem, List.get_eq_getElem, List.getElem_drop, getElem_dims, getElem_dims,
      aligned]
    exact stretches.sizes _

/-- What is read at zero is there, and what is not has the size of the wider axis. -/
theorem inBounds_clamp
    {dims wide index : List Nat}
    (stretches : List.Forall₂ (fun size wide => size = 1 ∨ size = wide) dims wide)
    (inside : InBounds wide index) :
    InBounds dims (clamp dims index) := by
  induction stretches generalizing index with
  | nil => trivial
  | cons fits _ ih =>
      cases index with
      | nil => exact inside.elim
      | cons i rest =>
          obtain ⟨bounded, inner⟩ := inside
          refine ⟨?_, ih inner⟩
          change (if _ = 1 then 0 else i) < _
          split <;> omega

/-- A stretched array can be read at each multi-index of the wider shape. -/
theorem StretchesTo.inBounds_reading
    {s c : Shape} {index : List Nat}
    (stretches : s.StretchesTo c)
    (inside : InBounds c.dims index) :
    InBounds s.dims (s.reading index) := by
  unfold reading
  rw [inside.length_eq]
  exact inBounds_clamp stretches.forall₂ (inside.drop _)

end Shape

end ModelGraph
