import Mathlib.Data.List.Basic

/-!
# Reading texts apart

A text that was put together from parts can be taken apart again where a separator occurs in
none of the parts.
-/

namespace ModelGraph

namespace Text

/-- Two lists are read apart from what comes after them where it starts with something that
neither has inside. -/
theorem eq_of_append_of_stops
    {α : Type} {stops : α → Prop} {xs xs' ys ys' : List α}
    (inside : ∀ c ∈ xs, ¬stops c)
    (inside' : ∀ c ∈ xs', ¬stops c)
    (after : ∀ c ∈ ys.head?, stops c)
    (after' : ∀ c ∈ ys'.head?, stops c)
    (equal : xs ++ ys = xs' ++ ys') :
    xs = xs' ∧ ys = ys' := by
  induction xs generalizing xs' with
  | nil =>
      cases xs' with
      | nil => exact ⟨rfl, equal⟩
      | cons c xs' =>
          have start : c ∈ ys.head? := by
            rw [List.nil_append] at equal
            simp [equal]
          exact absurd (after c start) (inside' c List.mem_cons_self)
  | cons c xs ih =>
      cases xs' with
      | nil =>
          have start : c ∈ ys'.head? := by
            rw [List.nil_append] at equal
            simp [← equal]
          exact absurd (after' c start) (inside c List.mem_cons_self)
      | cons c' xs' =>
          obtain ⟨rfl, later⟩ := List.cons.inj equal
          obtain ⟨rfl, same⟩ := ih (List.forall_mem_cons.mp inside).2
            (List.forall_mem_cons.mp inside').2 later
          exact ⟨rfl, same⟩

/-- Texts are read apart at the first separator. -/
theorem eq_of_append
    {s s' separator t t' : String} {d : Char} {tail : List Char}
    (starts : separator.toList = d :: tail)
    (absent : d ∉ s.toList)
    (absent' : d ∉ s'.toList)
    (equal : s ++ separator ++ t = s' ++ separator ++ t') :
    s = s' ∧ t = t' := by
  have lists : s.toList ++ d :: (tail ++ t.toList) = s'.toList ++ d :: (tail ++ t'.toList) := by
    simpa [starts] using congrArg String.toList equal
  have inside : ∀ {u : String}, d ∉ u.toList → ∀ c ∈ u.toList, ¬c = d := by
    rintro u without c present rfl
    exact without present
  obtain ⟨first, rest⟩ :=
    eq_of_append_of_stops (inside absent) (inside absent') (by simp) (by simp) lists
  have later := List.append_cancel_left (List.cons.inj rest).2
  exact ⟨String.toList_inj.mp first, String.toList_inj.mp later⟩

/-- A part of a text that is put together with a separator: it is not empty, and the separator
does not start inside it. -/
def IsPart (d : Char) (s : String) : Prop :=
  s ≠ "" ∧ d ∉ s.toList

theorem intercalate_ne_empty
    {d : Char} {separator first : String} {rest : List String}
    (isPart : IsPart d first) :
    separator.intercalate (first :: rest) ≠ "" := by
  cases rest <;> simp [isPart.1]

theorem mem_append_separator
    {s separator t : String} {d : Char} {tail : List Char}
    (starts : separator.toList = d :: tail) :
    d ∈ (s ++ separator ++ t).toList := by
  simp [starts]

/-- Parts are read off the text that they were put together to. -/
theorem intercalate_injective
    {separator : String} {d : Char} {tail : List Char} {parts parts' : List String}
    (starts : separator.toList = d :: tail)
    (areParts : ∀ s ∈ parts, IsPart d s)
    (areParts' : ∀ s ∈ parts', IsPart d s)
    (equal : separator.intercalate parts = separator.intercalate parts') :
    parts = parts' := by
  induction parts generalizing parts' with
  | nil =>
      cases parts' with
      | nil => rfl
      | cons first' rest' =>
          rw [String.intercalate_nil] at equal
          exact absurd equal.symm (intercalate_ne_empty (areParts' _ List.mem_cons_self))
  | cons first rest ih =>
      obtain ⟨isPart, laterParts⟩ := List.forall_mem_cons.mp areParts
      cases parts' with
      | nil =>
          rw [String.intercalate_nil] at equal
          exact absurd equal (intercalate_ne_empty isPart)
      | cons first' rest' =>
          obtain ⟨isPart', laterParts'⟩ := List.forall_mem_cons.mp areParts'
          cases rest with
          | nil =>
              cases rest' with
              | nil => simpa using equal
              | cons second' rest' =>
                  rw [String.intercalate_singleton, String.intercalate_cons_cons] at equal
                  exact absurd (equal ▸ mem_append_separator starts) isPart.2
          | cons second rest =>
              cases rest' with
              | nil =>
                  rw [String.intercalate_singleton, String.intercalate_cons_cons] at equal
                  exact absurd (equal ▸ mem_append_separator starts) isPart'.2
              | cons second' rest' =>
                  rw [String.intercalate_cons_cons, String.intercalate_cons_cons] at equal
                  obtain ⟨rfl, later⟩ := eq_of_append starts isPart.2 isPart'.2 equal
                  rw [ih laterParts laterParts' later]

theorem not_mem_intercalate
    {separator : String} {d : Char} {parts : List String}
    (outside : d ∉ separator.toList)
    (absent : ∀ s ∈ parts, d ∉ s.toList) :
    d ∉ (separator.intercalate parts).toList := by
  induction parts with
  | nil => simp
  | cons first rest ih =>
      obtain ⟨here, later⟩ := List.forall_mem_cons.mp absent
      cases rest with
      | nil => simpa using here
      | cons second rest =>
          rw [String.intercalate_cons_cons, String.toList_append, String.toList_append]
          simp only [List.mem_append, not_or]
          exact ⟨⟨here, outside⟩, ih later⟩

/-! ## Lines -/

/-- The lines of a text. -/
def lines (s : String) : List (List Char) :=
  s.toList.splitOn '\n'

/-- What stands before the first line end is the first line. -/
theorem lines_append
    {first : String}
    (isLine : '\n' ∉ first.toList)
    (rest : String) :
    lines (first ++ "\n" ++ rest) = first.toList :: lines rest := by
  have starts : (first ++ "\n" ++ rest).toList = first.toList ++ '\n' :: rest.toList := by simp
  rw [lines, starts, List.splitOn_append_cons_self_of_not_mem isLine, lines]

end Text

end ModelGraph
