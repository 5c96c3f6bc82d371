import Mathlib.Order.Bounds.Basic
import Mathlib.Order.Lattice
import ModelGraph.NodeType

/-!
# Parts of types

A malformed type keeps all the types that should have agreed.  What they can be coerced to depends
on these parts only, and not on how they are nested: unifying types puts their parts together, and
the repair of a type is the join of its parts in the order of kinds.
-/

namespace ModelGraph

namespace Refinement

instance : PartialOrder Refinement where
  le_refl a := by cases a <;> decide
  le_trans a b c first next := by revert first next; cases a <;> cases b <;> cases c <;> decide
  le_antisymm a b upward downward := by revert upward downward; cases a <;> cases b <;> decide

/-- The first common upper bound of two kinds is the least. -/
instance : SemilatticeSup Refinement where
  sup := sup
  le_sup_left a b := by cases a <;> cases b <;> decide
  le_sup_right a b := by cases a <;> cases b <;> decide
  sup_le a b c left right := by revert left right; cases a <;> cases b <;> cases c <;> decide

theorem sup_eq (a b : Refinement) : a.sup b = a ⊔ b := rfl

/-- Every value can be made a tensor. -/
instance : OrderTop Refinement where
  top := .tensor
  le_top a := by cases a <;> decide

end Refinement

namespace NodeType

/-- The types that are found inside a type and are not malformed themselves. -/
def parts : NodeType → List NodeType
  | .malformed left right => left.parts ++ right.parts
  | type => [type]

/-- All parts of a type are kinds of values, and values of these kinds can be made values of the
given one. -/
def CoercesTo (type : NodeType) (kind : Refinement) : Prop :=
  ∀ part ∈ type.parts, ∃ own, part = .value own ∧ own ≤ kind

theorem malformed_not_mem_parts (type left right : NodeType) :
    .malformed left right ∉ type.parts := by
  induction type with
  | malformed left' right' ihLeft ihRight =>
      rw [parts, List.mem_append, not_or]
      exact ⟨ihLeft, ihRight⟩
  | _ => simp [parts]

/-- The kinds that are above the repair of a type are those to which it can be coerced. -/
theorem exists_repairTarget?_le_iff {type : NodeType} {kind : Refinement} :
    (∃ repair, type.repairTarget? = some repair ∧ repair ≤ kind) ↔ type.CoercesTo kind := by
  unfold CoercesTo
  induction type with
  | value own => simp [repairTarget?, parts]
  | distribution family => simp [repairTarget?, parts]
  | map => simp [repairTarget?, parts]
  | malformed left right ihLeft ihRight =>
      rw [parts, List.forall_mem_append, ← ihLeft, ← ihRight, repairTarget?]
      cases left.repairTarget? with
      | none => simp
      | some a =>
          cases right.repairTarget? with
          | none => simp
          | some b => simp [Refinement.sup_eq]

theorem repairTarget?_eq_some_iff {type : NodeType} {repair : Refinement} :
    type.repairTarget? = some repair ↔ ∀ kind, repair ≤ kind ↔ type.CoercesTo kind := by
  constructor
  · intro repaired kind
    rw [← exists_repairTarget?_le_iff, repaired]
    simp
  · intro above
    obtain ⟨repair', repaired, below⟩ :=
      exists_repairTarget?_le_iff.mpr ((above repair).mp le_rfl)
    have coerces := exists_repairTarget?_le_iff.mp ⟨repair', repaired, le_rfl⟩
    rw [repaired, le_antisymm below ((above repair').mpr coerces)]

/-- Types with the same parts are repaired alike. -/
theorem repairTarget?_eq_of_parts
    {type type' : NodeType}
    (same : ∀ part, part ∈ type.parts ↔ part ∈ type'.parts) :
    type.repairTarget? = type'.repairTarget? := by
  apply Option.ext
  intro repair
  rw [repairTarget?_eq_some_iff, repairTarget?_eq_some_iff]
  unfold CoercesTo
  simp only [same]

/-- A type without distributions can be repaired unless a map is among its parts. -/
theorem repairTarget?_eq_none_iff
    {type : NodeType}
    (noDistribution : ∀ family, .distribution family ∉ type.parts) :
    type.repairTarget? = none ↔ .map ∈ type.parts := by
  have repaired : type.repairTarget? ≠ none ↔ type.CoercesTo ⊤ := by
    rw [← exists_repairTarget?_le_iff, Option.ne_none_iff_exists']
    simp
  rw [← not_iff_not, ← ne_eq, repaired]
  constructor
  · intro coerces present
    obtain ⟨own, equal, _⟩ := coerces .map present
    cases equal
  · intro noMap part present
    cases part with
    | value own => exact ⟨own, rfl, le_top⟩
    | distribution family => exact absurd present (noDistribution family)
    | map => exact absurd present noMap
    | malformed left right => exact absurd present (malformed_not_mem_parts type left right)

/-- The repair of a type is the least upper bound of the kinds that are among its parts. -/
theorem isLUB_repairTarget?
    {type : NodeType} {repair : Refinement}
    (repaired : type.repairTarget? = some repair) :
    IsLUB {kind | .value kind ∈ type.parts} repair := by
  have above := repairTarget?_eq_some_iff.mp repaired
  rw [isLUB_iff_le_iff]
  intro kind
  rw [above]
  constructor
  · intro coerces own present
    obtain ⟨own', equal, below⟩ := coerces _ present
    cases equal
    exact below
  · intro bounds part present
    obtain ⟨own, rfl, _⟩ := (above repair).mp le_rfl part present
    exact ⟨own, rfl, bounds present⟩

/-! ## Unifying types -/

theorem mem_parts_unify {left right part : NodeType} :
    part ∈ (unify left right).parts ↔ part ∈ left.parts ∨ part ∈ right.parts := by
  unfold unify
  split
  · next same => rw [same, or_self]
  · rw [parts, List.mem_append]

/-- Types that are unified one after the other put all their parts together. -/
theorem mem_parts_foldl_unify {first part : NodeType} {types : List NodeType} :
    part ∈ (types.foldl unify first).parts ↔ ∃ type ∈ first :: types, part ∈ type.parts := by
  induction types generalizing first with
  | nil => simp
  | cons type types ih =>
      rw [List.foldl_cons, ih]
      simp [mem_parts_unify, or_assoc]

/-- Once a type differs from those before it, the disagreement stays. -/
theorem isMalformed_foldl_unify {first : NodeType} {types : List NodeType} :
    (types.foldl unify first).isMalformed = true ↔
      first.isMalformed = true ∨ ∃ type ∈ types, type ≠ first := by
  induction types generalizing first with
  | nil => simp
  | cons type types ih =>
      rw [List.foldl_cons, ih, unify]
      split
      · next same => simp [same]
      · next differ => simp [isMalformed, Ne.symm differ]

/-- Unified types are malformed if two of them differ or one of them is malformed. -/
theorem isMalformed_foldl_unify_iff {first : NodeType} {types : List NodeType} :
    (types.foldl unify first).isMalformed = true ↔
      (∃ type ∈ first :: types, ∃ other ∈ first :: types, type ≠ other) ∨
        ∃ type ∈ first :: types, type.isMalformed = true := by
  have later : ∀ type ∈ first :: types, type ≠ first → ∃ other ∈ types, other ≠ first := by
    intro type present differs
    exact ⟨type, List.mem_of_ne_of_mem differs present, differs⟩
  rw [isMalformed_foldl_unify]
  constructor
  · rintro (malformed | ⟨type, present, differs⟩)
    · exact .inr ⟨first, List.mem_cons_self, malformed⟩
    · exact .inl ⟨type, List.mem_cons_of_mem _ present, first, List.mem_cons_self, differs⟩
  · rintro (⟨type, present, other, present', differ⟩ | ⟨type, present, malformed⟩)
    · by_cases isFirst : type = first
      · exact .inr (later other present' fun same => differ (isFirst.trans same.symm))
      · exact .inr (later type present isFirst)
    · by_cases isFirst : type = first
      · exact .inl (isFirst ▸ malformed)
      · exact .inr (later type present isFirst)

end NodeType

end ModelGraph
