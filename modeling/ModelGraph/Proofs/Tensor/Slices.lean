import ModelGraph.Proofs.Crashes
import ModelGraph.Tensor.Text

/-!
# Slices of nested rows

Rows are cut out of the elements of a tensor by places that are computed in words.  Where words can
count the places of the tensor, every row is cut where it lies, and the text is that of the rows.
Where they cannot, a place is cut short, some row ends before it starts or after the elements do,
and nothing is written: `render_answersIf` and `label_answersIf`.
-/

namespace ModelGraph

namespace Tensor

section Slice

variable {data : List Float} {start stop size length : Nat}

theorem slice_eq_ok_iff {part : List Float} :
    slice data start stop = .ok part ↔
      start ≤ stop ∧ stop ≤ data.length ∧ part = (data.drop start).take (stop - start) := by
  unfold slice
  split
  · next reversed => exact iff_of_false nofun fun cut => by omega
  · next ordered =>
      split
      · next overrun => exact iff_of_false nofun fun cut => by omega
      · next within =>
          rw [Except.ok.injEq, eq_comm]
          exact ⟨fun same => ⟨by omega, by omega, same⟩, fun cut => cut.2.2⟩

theorem isCrash_of_slice_eq_error
    {e : Error}
    (failed : slice data start stop = .error e) :
    e.IsCrash := by
  unfold slice at failed
  split at failed
  · exact ⟨_, (Except.error.inj failed).symm⟩
  · split at failed
    · exact ⟨_, (Except.error.inj failed).symm⟩
    · cases failed

/-- Where words can count the elements of all rows, a row is cut where it lies. -/
theorem slice_row
    {i : Nat}
    (small : size * length < UInt64.size)
    (stored : size * length ≤ data.length)
    (isRow : i < size) :
    slice data (Shape.wrap (i * length)) (Shape.wrap ((i + 1) * length)) =
        .ok ((data.drop (i * length)).take length) ∧
      ((data.drop (i * length)).take length).length = length := by
  have room : (i + 1) * length ≤ size * length := Nat.mul_le_mul_right _ isRow
  have wide : (i + 1) * length = i * length + length := Nat.succ_mul i length
  constructor
  · rw [Shape.wrap_eq_self (by omega), Shape.wrap_eq_self (by omega), slice_eq_ok_iff]
    have width : (i + 1) * length - i * length = length := by omega
    exact ⟨by omega, by omega, by rw [width]⟩
  · rw [List.length_take, List.length_drop]
    omega

/-- Where every row can be cut, words can count the elements of all rows, and they are there. -/
theorem stored_of_slices
    (small : length < UInt64.size)
    (cuts : ∀ i < size, ∃ row,
      slice data (Shape.wrap (i * length)) (Shape.wrap ((i + 1) * length)) = .ok row) :
    size * length < UInt64.size ∧ size * length ≤ data.length := by
  induction size with
  | zero => simp
  | succ size ih =>
      obtain ⟨within, there⟩ := ih fun i isRow => cuts i (by omega)
      obtain ⟨row, cut⟩ := cuts size (Nat.lt_succ_self size)
      obtain ⟨ordered, stops, -⟩ := slice_eq_ok_iff.mp cut
      -- the end of a row beyond what words count would lie before its start
      rw [Shape.wrap_eq_self within] at ordered
      unfold Shape.wrap at ordered stops
      rw [Nat.succ_mul] at ordered stops ⊢
      unfold UInt64.size at *
      omega

end Slice

/-! ## Rows -/

/-- The text of nested rows that are all there. -/
def nested (separator : Nat → String) (element : Float → String) :
    (dims : List Nat) → List Float → String
  | [], data => (data.head?.map element).getD ""
  | size :: sizes, data =>
    let length := Shape.places sizes
    let rows := (List.range size).map fun i =>
      nested separator element sizes ((data.drop (i * length)).take length)
    "[" ++ (separator (sizes.length + 1)).intercalate rows ++ "]"

section Nest

variable {separator : Nat → String} {element : Float → String} {dims : List Nat}
  {data : List Float}

theorem nest_cons (size : Nat) (sizes : List Nat) :
    nest separator element (size :: sizes) data =
      (do
        let rows ← (List.range size).mapM fun i => do
          nest separator element sizes
            (← slice data (Shape.wrap (i * Shape.count sizes))
              (Shape.wrap ((i + 1) * Shape.count sizes)))
        return "[" ++ (separator (sizes.length + 1)).intercalate rows ++ "]") := by
  rw [← Steps.run_zero_eq]
  rfl

/-- Where words can count the places, and there is an element for each, nested rows are written. -/
theorem nest_eq_ok
    (small : Shape.places dims < UInt64.size)
    (stored : Shape.places dims ≤ data.length) :
    nest separator element dims data = .ok (nested separator element dims data) := by
  induction dims generalizing data with
  | nil => rfl
  | cons size sizes ih =>
      rw [nest_cons]
      refine Outcome.bind_eq_ok_iff.mpr ⟨_, Outcome.mapM_eq_ok_map fun i present => ?_, rfl⟩
      have isRow := List.mem_range.mp present
      have inner : Shape.places sizes ≤ size * Shape.places sizes :=
        Nat.le_mul_of_pos_left _ (Nat.zero_lt_of_lt isRow)
      have small' : Shape.places sizes < UInt64.size := Nat.lt_of_le_of_lt inner small
      obtain ⟨cut, whole⟩ := slice_row small stored isRow
      rw [Shape.count_eq, Shape.wrap_eq_self small', cut]
      exact ih small' (Nat.le_of_eq whole.symm)

/-- Where nested rows are written, words can count the places, and there is an element for each. -/
theorem stored_of_nest_eq_ok
    {text : String}
    (written : nest separator element dims data = .ok text) :
    Shape.places dims < UInt64.size ∧ (dims ≠ [] → Shape.places dims ≤ data.length) := by
  induction dims generalizing data text with
  | nil => exact ⟨by decide, fun nonempty => absurd rfl nonempty⟩
  | cons size sizes ih =>
      rw [nest_cons] at written
      obtain ⟨rows, mapped, -⟩ := Outcome.bind_eq_ok_iff.mp written
      have answered : ∀ i < size, ∃ part, slice data (Shape.wrap (i * Shape.count sizes))
          (Shape.wrap ((i + 1) * Shape.count sizes)) = .ok part ∧
            ∃ row, nest separator element sizes part = .ok row := by
        intro i isRow
        obtain ⟨row, answer⟩ := Outcome.exists_of_mapM_eq_ok mapped (List.mem_range.mpr isRow)
        obtain ⟨part, cut, nested⟩ := Outcome.bind_eq_ok_iff.mp answer
        exact ⟨part, cut, row, nested⟩
      cases size with
      | zero => simp [Shape.places]
      | succ size =>
          obtain ⟨_, -, _, first⟩ := answered 0 (Nat.succ_pos size)
          have small := (ih first).1
          rw [Shape.count_eq, Shape.wrap_eq_self small] at answered
          obtain ⟨within, there⟩ := stored_of_slices small fun i isRow =>
            (answered i isRow).imp fun _ both => both.1
          exact ⟨within, fun _ => there⟩

theorem isCrash_of_nest_eq_error
    {e : Error}
    (failed : nest separator element dims data = .error e) :
    e.IsCrash := by
  have crashes : Outcome.RefusedFor (nest separator element dims data) Error.IsCrash := by
    clear failed
    induction dims generalizing data with
    | nil => trivial
    | cons size sizes ih =>
        rw [nest_cons]
        refine (Outcome.RefusedFor.mapM fun i _ => ?_).bind fun _ _ => trivial
        cases cut : slice data (Shape.wrap (i * Shape.count sizes))
            (Shape.wrap ((i + 1) * Shape.count sizes)) with
        | ok part => exact ih
        | error e => exact isCrash_of_slice_eq_error cut
  exact crashes.of_error failed

end Nest

/-! ## Tensors -/

section Text

variable (t : Tensor)

/-- Nested rows of a tensor are written where words can count its places; otherwise a row is cut
out beyond the elements. -/
theorem nest_answersIf (separator : Nat → String) (element : Float → String) :
    Outcome.AnswersIf (nest separator element t.shape.dims t.data.toList) t.shape.IsCounted
      (nested separator element t.shape.dims t.data.toList) where
  answers := fun counted => nest_eq_ok counted (t.places_le_size counted)
  crashes := fun uncounted => by
    cases written : nest separator element t.shape.dims t.data.toList with
    | ok text => exact absurd (stored_of_nest_eq_ok written).1 uncounted
    | error e => exact ⟨e, rfl, isCrash_of_nest_eq_error written⟩

/-- The text of the rows of a tensor. -/
abbrev rendering (element : Float → String) : String :=
  nested (fun _ => ",") element t.shape.dims t.data.toList

/-- The text of the rows of a tensor in a label. -/
abbrev labelling : String :=
  nested (fun rank => if rank < 2 then "," else ",\\n") Decimal.ofReal t.shape.dims t.data.toList

theorem render_answersIf (element : Float → String) :
    Outcome.AnswersIf (t.render element) t.shape.IsCounted (t.rendering element) :=
  t.nest_answersIf _ _

theorem label_answersIf : Outcome.AnswersIf t.label t.shape.IsCounted t.labelling :=
  t.nest_answersIf _ _

theorem text_answersIf :
    Outcome.AnswersIf t.text t.shape.IsCounted
      ("tensor(" ++ t.rendering Decimal.ofReal ++ ")") :=
  (t.render_answersIf Decimal.ofReal).map fun rows => "tensor(" ++ rows ++ ")"

end Text

end Tensor

end ModelGraph
