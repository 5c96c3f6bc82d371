import ModelGraph.Proofs.Tensor.Elementwise
import ModelGraph.Proofs.Tensor.Slices
import ModelGraph.Proofs.Text

/-!
# Reading nested rows

A tensor is written as nested rows.  The text shows the size of every axis up to the first empty
one, and the text of every element; the axes inside an empty one leave no trace.  Nothing else
is lost: a text is read from the left, and as the text of an element has no brackets and no
commas, each character tells what comes next.
-/

namespace ModelGraph

namespace Shape

/-- The axes that nested rows show: those up to the first empty one. -/
def visible : (dims : List Nat) → List Nat
  | [] => []
  | 0 :: _ => [0]
  | (size + 1) :: sizes => (size + 1) :: visible sizes

@[simp] theorem places_visible (dims : List Nat) : places (visible dims) = places dims := by
  induction dims with
  | nil => rfl
  | cons size sizes ih =>
      cases size with
      | zero => simp [visible, places]
      | succ size => simp [visible, places, ih]

/-- Axes are hidden by an empty one outside them. -/
theorem visible_eq_self
    {dims : List Nat}
    (nonempty : 0 ∉ dims.dropLast) :
    visible dims = dims := by
  induction dims with
  | nil => rfl
  | cons size sizes ih =>
      cases sizes with
      | nil => cases size <;> rfl
      | cons next sizes =>
          rw [List.dropLast_cons_cons, List.mem_cons, not_or] at nonempty
          cases size with
          | zero => exact absurd rfl nonempty.1
          | succ size => rw [visible, ih nonempty.2]

end Shape

namespace Tensor

/-- Cuts the leading pieces of a common length off a list. -/
def pieces (length : Nat) : (count : Nat) → List Float → List (List Float)
  | 0, _ => []
  | count + 1, data => data.take length :: pieces length count (data.drop length)

theorem map_range_eq_map_pieces
    {β : Type} (f : List Float → β) (length count : Nat) (data : List Float) :
    ((List.range count).map fun i => f ((data.drop (i * length)).take length)) =
      (pieces length count data).map f := by
  induction count generalizing data with
  | zero => rfl
  | succ count ih =>
      rw [List.range_succ_eq_map, pieces, List.map_cons, List.map_cons, List.map_map, ← ih]
      simp [Function.comp_def, Nat.add_mul, Nat.add_comm]

theorem length_of_mem_pieces
    {length count : Nat} {data piece : List Float}
    (fits : data.length = count * length)
    (present : piece ∈ pieces length count data) :
    piece.length = length := by
  induction count generalizing data with
  | zero => cases present
  | succ count ih =>
      rw [Nat.add_one_mul] at fits
      cases present with
      | head => rw [List.length_take, Nat.min_eq_left (by omega)]
      | tail _ later => exact ih (by rw [List.length_drop]; omega) later

theorem flatten_pieces
    {length count : Nat} {data : List Float}
    (fits : data.length = count * length) :
    (pieces length count data).flatten = data := by
  induction count generalizing data with
  | zero =>
      rw [Nat.zero_mul, List.length_eq_zero_iff] at fits
      rw [fits]
      rfl
  | succ count ih =>
      rw [Nat.add_one_mul] at fits
      rw [pieces, List.flatten_cons, ih (by rw [List.length_drop]; omega), List.take_append_drop]

@[simp] theorem length_pieces (length count : Nat) (data : List Float) :
    (pieces length count data).length = count := by
  induction count generalizing data with
  | zero => rfl
  | succ count ih => rw [pieces, List.length_cons, ih]

/-! ## Rows -/

/-- The text of nested rows whose elements are written by a function. -/
abbrev rows (element : Float → String) : List Nat → List Float → String :=
  nested (fun _ => ",") element

section Rows

variable {element : Float → String}

theorem rows_cons (size : Nat) (sizes : List Nat) (data : List Float) :
    rows element (size :: sizes) data =
      "[" ++ ",".intercalate
        ((pieces (Shape.places sizes) size data).map (rows element sizes)) ++ "]" := by
  rw [rows, nested, map_range_eq_map_pieces (rows element sizes)]

/-- What nested rows show does not depend on the axes inside an empty one. -/
theorem rows_visible (dims : List Nat) (data : List Float) :
    rows element (Shape.visible dims) data = rows element dims data := by
  induction dims generalizing data with
  | nil => rfl
  | cons size sizes ih =>
      cases size with
      | zero => rw [Shape.visible, rows_cons, rows_cons, pieces, pieces, List.map_nil, List.map_nil]
      | succ size =>
          rw [Shape.visible, rows_cons, rows_cons, Shape.places_visible, funext ih]

theorem rows_congr
    {element' : Float → String} {data data' : List Float}
    (same : data.map element = data'.map element')
    (dims : List Nat) :
    rows element dims data = rows element' dims data' := by
  induction dims generalizing data data' with
  | nil =>
      change (data.head?.map element).getD "" = (data'.head?.map element').getD ""
      rw [← List.head?_map, ← List.head?_map, same]
  | cons size sizes ih =>
      rw [rows_cons, rows_cons]
      congr 3
      induction size generalizing data data' with
      | zero => rfl
      | succ size ihSize =>
          rw [pieces, pieces, List.map_cons, List.map_cons]
          congr 1
          · exact ih (by rw [List.map_take, List.map_take, same])
          · exact ihSize (by rw [List.map_drop, List.map_drop, same])

/-! ## Reading -/

/-- The text of an element: it is not empty and has neither brackets nor commas. -/
structure IsElementText (s : String) : Prop where
  nonempty : s ≠ ""
  bare : ∀ c ∈ s.toList, c ≠ '[' ∧ c ≠ ']' ∧ c ≠ ','

/-- What may come after a row: nothing, the next row or the end of the rows. -/
def Follows (rest : List Char) : Prop :=
  ∀ c ∈ rest.head?, c = ',' ∨ c = ']'

/-- Two arrays show the same axes and the same elements. -/
structure ShowSame (element : Float → String) (dims : List Nat) (data : List Float)
    (dims' : List Nat) (data' : List Float) : Prop where
  visible_eq : Shape.visible dims = Shape.visible dims'
  elements_eq : data.map element = data'.map element

/-- The text of an element ends before what follows. -/
theorem IsElementText.eq_of_append
    {s s' : String} {rest rest' : List Char}
    (isElement : IsElementText s)
    (isElement' : IsElementText s')
    (follows : Follows rest)
    (follows' : Follows rest')
    (equal : s.toList ++ rest = s'.toList ++ rest') :
    s = s' ∧ rest = rest' := by
  have inside : ∀ {t : String}, IsElementText t → ∀ c ∈ t.toList, ¬(c = ',' ∨ c = ']') := by
    intro t isText c present
    obtain ⟨-, noBracket, noComma⟩ := isText.bare c present
    exact not_or.mpr ⟨noComma, noBracket⟩
  obtain ⟨same, ends⟩ := Text.eq_of_append_of_stops (inside isElement) (inside isElement')
    follows follows' equal
  exact ⟨String.toList_inj.mp same, ends⟩

/-- What comes after a row: the other rows, each after a comma, and the bracket that ends them. -/
def afterRow (texts : List String) (rest : List Char) : List Char :=
  match texts with
  | [] => ']' :: rest
  | text :: texts => ',' :: text.toList ++ afterRow texts rest

theorem follows_afterRow (texts : List String) (rest : List Char) :
    Follows (afterRow texts rest) := by
  cases texts <;> simp [Follows, afterRow]

theorem intercalate_append_afterRow (text : String) (texts : List String) (rest : List Char) :
    (",".intercalate (text :: texts)).toList ++ ']' :: rest =
      text.toList ++ afterRow texts rest := by
  induction texts generalizing text with
  | nil => simp [afterRow]
  | cons next texts ih =>
      rw [String.intercalate_cons_cons, String.toList_append, String.toList_append,
        List.append_assoc, ih]
      simp [afterRow]

theorem rows_succ_append (size : Nat) (sizes : List Nat) (data : List Float) (rest : List Char) :
    (rows element ((size + 1) :: sizes) data).toList ++ rest =
      '[' :: (rows element sizes (data.take (Shape.places sizes))).toList ++
        afterRow ((pieces (Shape.places sizes) size (data.drop (Shape.places sizes))).map
          (rows element sizes)) rest := by
  rw [rows_cons, pieces, List.map_cons]
  simp only [String.toList_append, List.append_assoc]
  change '[' :: _ = _
  rw [List.cons_append, ← intercalate_append_afterRow]
  rfl

theorem rows_zero_append (sizes : List Nat) (data : List Float) (rest : List Char) :
    (rows element (0 :: sizes) data).toList ++ rest = '[' :: ']' :: rest := by
  simp [rows_cons, pieces]

/-- The elements of equally many rows are read off what comes after the first. -/
theorem eq_of_afterRow
    {texts : List Float → String} {texts' : List Float → String}
    {pieces pieces' : List (List Float)} {rest rest' : List Char}
    (reads : ∀ piece ∈ pieces, ∀ piece' ∈ pieces', ∀ rest rest', Follows rest → Follows rest' →
      (texts piece).toList ++ rest = (texts' piece').toList ++ rest' →
        piece.map element = piece'.map element ∧ rest = rest')
    (equal : afterRow (pieces.map texts) rest = afterRow (pieces'.map texts') rest') :
    pieces.length = pieces'.length ∧
      pieces.flatten.map element = pieces'.flatten.map element ∧ rest = rest' := by
  -- a comma tells that there is one more row, and a bracket that there is none
  induction pieces generalizing pieces' with
  | nil =>
      cases pieces' with
      | nil => simpa [afterRow] using equal
      | cons piece' pieces' => simp [afterRow] at equal
  | cons piece pieces ih =>
      cases pieces' with
      | nil => simp [afterRow] at equal
      | cons piece' pieces' =>
          simp only [List.map_cons, afterRow, List.cons_append, List.cons.injEq, true_and] at equal
          obtain ⟨same, later⟩ := reads piece List.mem_cons_self piece' List.mem_cons_self _ _
            (follows_afterRow _ _) (follows_afterRow _ _) equal
          obtain ⟨counted, elements, ends⟩ := ih
            (fun p here p' here' => reads p (List.mem_cons_of_mem _ here) p'
              (List.mem_cons_of_mem _ here')) later
          refine ⟨by simp [counted], ?_, ends⟩
          rw [List.flatten_cons, List.flatten_cons, List.map_append, List.map_append, same,
            elements]

/-- The text of an element does not start with a bracket, nor is it empty. -/
theorem IsElementText.append_ne
    {s : String} {c : Char} {rest after : List Char}
    (isElement : IsElementText s)
    (punctuation : c = '[' ∨ c = ']' ∨ c = ',') :
    s.toList ++ rest ≠ c :: after := by
  cases text : s.toList with
  | nil => exact absurd (String.toList_eq_nil_iff.mp text) isElement.nonempty
  | cons first others =>
      obtain ⟨noOpening, noClosing, noComma⟩ := isElement.bare first (text ▸ List.mem_cons_self)
      intro equal
      obtain ⟨rfl, -⟩ := List.cons.inj equal
      rcases punctuation with rfl | rfl | rfl <;> contradiction

theorem exists_rows_cons (size : Nat) (sizes : List Nat) (data : List Float) (rest : List Char) :
    ∃ after, (rows element (size :: sizes) data).toList ++ rest = '[' :: after := by
  cases size with
  | zero => exact ⟨_, rows_zero_append sizes data rest⟩
  | succ size => exact ⟨_, rows_succ_append size sizes data rest⟩

/-- No row starts with the bracket that ends the rows. -/
theorem rows_append_ne
    {dims : List Nat} {data : List Float} {rest after : List Char}
    (isText : ∀ x, IsElementText (element x))
    (fits : data.length = Shape.places dims) :
    (rows element dims data).toList ++ rest ≠ ']' :: after := by
  cases dims with
  | nil =>
      obtain ⟨x, rfl⟩ := List.length_eq_one_iff.mp fits
      exact (isText x).append_ne (.inr (.inl rfl))
  | cons size sizes =>
      obtain ⟨inside, starts⟩ := exists_rows_cons size sizes data rest
      rw [starts]
      simp

theorem length_first_piece
    {size : Nat} {sizes : List Nat} {data : List Float}
    (fits : data.length = Shape.places ((size + 1) :: sizes)) :
    (data.take (Shape.places sizes)).length = Shape.places sizes ∧
      (data.drop (Shape.places sizes)).length = size * Shape.places sizes := by
  rw [Shape.places, Nat.add_one_mul] at fits
  rw [List.length_take, List.length_drop]
  omega

/-- Rows are read one after the other if the arrays in them are. -/
theorem showSame_of_rows_succ
    {size size' : Nat} {sizes sizes' : List Nat} {data data' : List Float}
    {rest rest' : List Char}
    (reads : ∀ {piece piece' : List Float} {rest rest' : List Char},
      piece.length = Shape.places sizes → piece'.length = Shape.places sizes' →
        Follows rest → Follows rest' →
          (rows element sizes piece).toList ++ rest = (rows element sizes' piece').toList ++ rest' →
            ShowSame element sizes piece sizes' piece' ∧ rest = rest')
    (fits : data.length = Shape.places ((size + 1) :: sizes))
    (fits' : data'.length = Shape.places ((size' + 1) :: sizes'))
    (equal : (rows element ((size + 1) :: sizes) data).toList ++ rest =
      (rows element ((size' + 1) :: sizes') data').toList ++ rest') :
    ShowSame element ((size + 1) :: sizes) data ((size' + 1) :: sizes') data' ∧ rest = rest' := by
  obtain ⟨first, others⟩ := length_first_piece fits
  obtain ⟨first', others'⟩ := length_first_piece fits'
  rw [rows_succ_append, rows_succ_append] at equal
  obtain ⟨same, later⟩ :=
    reads first first' (follows_afterRow _ _) (follows_afterRow _ _) (List.cons.inj equal).2
  obtain ⟨counted, elements, ends⟩ := eq_of_afterRow (fun piece here piece' here' _ _ => by
    intro follows follows' equal
    obtain ⟨same, ends⟩ := reads (length_of_mem_pieces others here)
      (length_of_mem_pieces others' here') follows follows' equal
    exact ⟨same.elements_eq, ends⟩) later
  rw [length_pieces, length_pieces] at counted
  rw [flatten_pieces others, flatten_pieces others'] at elements
  refine ⟨⟨?_, ?_⟩, ends⟩
  · rw [Shape.visible, Shape.visible, counted, same.visible_eq]
  · rw [← data.take_append_drop (Shape.places sizes), ← data'.take_append_drop
      (Shape.places sizes'), List.map_append, List.map_append, same.elements_eq, elements]

/-- Nested rows are read from the left: where two arrays are written alike up to what follows,
they show the same, and so does what follows. -/
theorem showSame_of_append
    {dims dims' : List Nat} {data data' : List Float} {rest rest' : List Char}
    (isText : ∀ x, IsElementText (element x))
    (fits : data.length = Shape.places dims)
    (fits' : data'.length = Shape.places dims')
    (follows : Follows rest)
    (follows' : Follows rest')
    (equal : (rows element dims data).toList ++ rest = (rows element dims' data').toList ++ rest') :
    ShowSame element dims data dims' data' ∧ rest = rest' := by
  -- on the axes of one array; the first character tells whether the other has as many
  induction dims generalizing dims' data data' rest rest' with
  | nil =>
      obtain ⟨x, rfl⟩ := List.length_eq_one_iff.mp fits
      cases dims' with
      | nil =>
          obtain ⟨y, rfl⟩ := List.length_eq_one_iff.mp fits'
          obtain ⟨same, ends⟩ := (isText x).eq_of_append (isText y) follows follows' equal
          exact ⟨⟨rfl, by simp [same]⟩, ends⟩
      | cons size' sizes' =>
          obtain ⟨inside, starts⟩ := exists_rows_cons size' sizes' data' rest'
          exact absurd (equal.trans starts) ((isText x).append_ne (.inl rfl))
  | cons size sizes ih =>
      cases dims' with
      | nil =>
          obtain ⟨y, rfl⟩ := List.length_eq_one_iff.mp fits'
          obtain ⟨inside, starts⟩ := exists_rows_cons size sizes data rest
          exact absurd (equal.symm.trans starts) ((isText y).append_ne (.inl rfl))
      | cons size' sizes' =>
          cases size with
          | zero =>
              rw [rows_zero_append] at equal
              cases size' with
              | zero =>
                  rw [rows_zero_append] at equal
                  rw [Shape.places, Nat.zero_mul, List.length_eq_zero_iff] at fits fits'
                  exact ⟨⟨rfl, by rw [fits, fits']⟩, by simpa using equal⟩
              | succ size' =>
                  rw [rows_succ_append] at equal
                  have first' := (length_first_piece fits').1
                  exact absurd (List.cons.inj equal).2.symm (rows_append_ne isText first')
          | succ size =>
              cases size' with
              | zero =>
                  rw [rows_zero_append, rows_succ_append] at equal
                  have first := (length_first_piece fits).1
                  exact absurd (List.cons.inj equal).2 (rows_append_ne isText first)
              | succ size' => exact showSame_of_rows_succ ih fits fits' equal

/-- Two tensors are written alike if and only if they show the same. -/
theorem rendering_eq_rendering_iff
    {t u : Tensor}
    (isText : ∀ x, IsElementText (element x))
    (complete : t.IsComplete)
    (complete' : u.IsComplete) :
    t.rendering element = u.rendering element ↔
      ShowSame element t.shape.dims t.data.toList u.shape.dims u.data.toList := by
  constructor
  · intro equal
    have ends : Follows [] := nofun
    refine (showSame_of_append isText complete complete' ends ends ?_).1
    exact congrArg (·.toList ++ []) equal
  · intro same
    change rows element t.shape.dims _ = rows element u.shape.dims _
    rw [← rows_visible, same.visible_eq, rows_congr same.elements_eq, rows_visible]

end Rows

end Tensor

end ModelGraph
