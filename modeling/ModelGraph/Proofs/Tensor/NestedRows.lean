import ModelGraph.Proofs.Emission.Literals

/-!
# Nested rows and labels

The rows of a tensor are written from slices of its elements.  Where there is an element for each
place, and words can count them, every slice lies inside the array that it is cut from, and the text
tells the tensor up to its first empty axis.  A label is nested rows whose outer separators are
followed by the escape of a line break: without these escapes it is the text that is written
elsewhere.
-/

namespace ModelGraph

namespace Tensor

/-! ## Line breaks -/

/-- Takes the escapes of line breaks out of a text. -/
def withoutBreaks : List Char → List Char
  | '\\' :: 'n' :: rest => withoutBreaks rest
  | c :: rest => c :: withoutBreaks rest
  | [] => []

/-- The second text is left of the first one when the line breaks are taken out, whatever comes
after it. -/
def Leaves (s t : String) : Prop :=
  ∀ rest, withoutBreaks (s.toList ++ rest) = t.toList ++ withoutBreaks rest

section Leaves

variable {s s' t t' : String}

theorem Leaves.append (first : Leaves s t) (second : Leaves s' t') :
    Leaves (s ++ s') (t ++ t') := by
  intro rest
  rw [String.toList_append, String.toList_append, List.append_assoc, first, second,
    List.append_assoc]

/-- A text without backslashes has no line breaks. -/
theorem leaves_self (plain : '\\' ∉ s.toList) : Leaves s s := by
  intro rest
  generalize s.toList = cs at plain
  induction cs with
  | nil => rfl
  | cons c cs ih =>
      obtain ⟨other, plain⟩ := not_or.mp (mt List.mem_cons.mpr plain)
      rw [List.cons_append, List.cons_append, ← ih plain, withoutBreaks]
      rintro _ rfl
      exact absurd rfl other

theorem Leaves.intercalate
    {α : Type} {f g : α → String} {items : List α}
    (separator : Leaves s t)
    (each : ∀ item ∈ items, Leaves (f item) (g item)) :
    Leaves (s.intercalate (items.map f)) (t.intercalate (items.map g)) := by
  induction items with
  | nil => exact leaves_self (by simp)
  | cons item items ih =>
      obtain ⟨here, later⟩ := List.forall_mem_cons.mp each
      cases items with
      | nil => simpa using here
      | cons next items =>
          rw [List.map_cons, List.map_cons, List.map_cons, List.map_cons,
            String.intercalate_cons_cons, String.intercalate_cons_cons]
          exact (here.append separator).append (ih later)

end Leaves

end Tensor

end ModelGraph
