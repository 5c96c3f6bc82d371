import Mathlib.Data.List.Basic
import ModelGraph.Emission.Statement
import ModelGraph.Proofs.Decimal.Characters
import ModelGraph.Proofs.Tensor.Text

/-!
# Literals in both languages

Both languages write truth values, numbers and tensors so that their texts are told apart.  They
differ in what is left of a tensor: one language writes its dimensions after its elements, the
other writes nested rows, which do not show the axes inside an empty one, and which cannot be
written where words cannot count the places.
-/

namespace ModelGraph

/-- The tensor with only those axes that nested rows show. -/
def Tensor.shown (t : Tensor) : Tensor :=
  ⟨⟨Shape.visible t.shape.dims⟩, t.data, by
    rw [t.size_data, Shape.elementCount_eq, Shape.elementCount_eq, Shape.places_visible]⟩

/-- The value with only those axes that nested rows show. -/
def Value.shown : Value → Value
  | .tensor t => .tensor t.shown
  | v => v

/-- The dimensions of a tensor; other values have none. -/
def Value.dims? : Value → Option (List Nat)
  | .tensor t => some t.shape.dims
  | _ => none

theorem Decimal.IsNumber.isPart
    {s : String}
    (isNumber : IsNumber s)
    (d : Char)
    (other : isNumberChar d = false) :
    Text.IsPart d s :=
  ⟨isNumber.1, isNumber.2.not_mem other⟩

/-- The text of a real can be an element of nested rows. -/
theorem isElementText_ofReal (x : Float) : Tensor.IsElementText (Decimal.ofReal x) := by
  obtain ⟨nonempty, numeric⟩ := Decimal.isNumber_ofReal x
  refine ⟨nonempty, fun c present => ?_⟩
  have isChar := numeric c present
  refine ⟨?_, ?_, ?_⟩ <;> rintro rfl <;> cases isChar

namespace Target

/-! ## Values that can be written -/

/-- The text of a value, if it can be written. -/
def literal : Target → Value → String
  | .python, .boolean b => if b then "True" else "False"
  | .cpp, .boolean b => if b then "true" else "false"
  | _, .natural n => toString n.toNat
  | _, .positiveReal x | _, .probability x | _, .real x => Decimal.ofReal x
  | .python, .tensor t => "tensor(" ++ t.rendering Decimal.ofReal ++ ")"
  | .cpp, .tensor t =>
    "torch::from_blob((float[])" ++ braced (t.data.toList.map Decimal.ofReal) ++ ", "
      ++ braced (t.shape.dims.map toString) ++ ")"

/-- A language can write a value: Python needs words to count its places. -/
def CanWrite (target : Target) (v : Value) : Prop :=
  target = .python → v.shape.IsCounted

theorem canWrite_cpp (v : Value) : cpp.CanWrite v := nofun

/-- A value is written in a language that can write it, and none that cannot comes to an end. -/
theorem value_answersIf (target : Target) (v : Value) :
    Outcome.AnswersIf (target.value v) (target.CanWrite v) (target.literal v) := by
  have number : ∀ {v : Value}, v.shape = .scalar → (True ↔ target.CanWrite v) := by
    intro v isScalar
    exact iff_of_true trivial fun _ => isScalar ▸ Shape.isCounted_scalar
  cases v with
  | tensor t =>
      cases target with
      | python => exact t.text_answersIf.of_iff ⟨fun counted _ => counted, fun writes => writes rfl⟩
      | cpp => exact (Outcome.AnswersIf.ok _).of_iff (iff_of_true trivial (canWrite_cpp _))
  | _ => cases target <;> exact (Outcome.AnswersIf.ok _).of_iff (number rfl)

/-! ## Tensors -/

/-- A list of numbers in braces ends at its brace, and the numbers are read off it. -/
theorem braced_append_injective
    {items items' : List String} {rest rest' : String}
    (numbers : ∀ s ∈ items, Decimal.IsNumber s)
    (numbers' : ∀ s ∈ items', Decimal.IsNumber s)
    (equal : braced items ++ rest = braced items' ++ rest') :
    items = items' ∧ rest = rest' := by
  have inside : ∀ {items : List String}, (∀ s ∈ items, Decimal.IsNumber s) →
      '\x7d' ∉ (",".intercalate items).toList := fun numbers =>
    Text.not_mem_intercalate (by decide) fun s present => (numbers s present).2.not_mem rfl
  have comma : ∀ {items : List String}, (∀ s ∈ items, Decimal.IsNumber s) →
      ∀ s ∈ items, Text.IsPart ',' s := fun numbers s present => (numbers s present).isPart ',' rfl
  unfold braced at equal
  simp only [String.append_assoc, String.append_right_inj] at equal
  simp only [← String.append_assoc] at equal
  obtain ⟨joined, ends⟩ := Text.eq_of_append rfl (inside numbers) (inside numbers') equal
  exact ⟨Text.intercalate_injective rfl (comma numbers) (comma numbers') joined, ends⟩

theorem isNumber_of_mem_map_ofReal
    {data : List Float} {s : String}
    (present : s ∈ data.map Decimal.ofReal) :
    Decimal.IsNumber s := by
  obtain ⟨x, -, rfl⟩ := List.mem_map.mp present
  exact Decimal.isNumber_ofReal x

theorem isNumber_of_mem_map_toString
    {dims : List Nat} {s : String}
    (present : s ∈ dims.map toString) :
    Decimal.IsNumber s := by
  obtain ⟨n, -, rfl⟩ := List.mem_map.mp present
  exact Decimal.isNumber_repr n

theorem literal_cpp_tensor (t : Tensor) :
    cpp.literal (.tensor t) =
      "torch::from_blob((float[])" ++ braced (t.data.toList.map Decimal.ofReal) ++ ", " ++
        braced (t.shape.dims.map toString) ++ ")" := rfl

theorem cpp_tensor_eq_iff {t u : Tensor} :
    cpp.literal (.tensor t) = cpp.literal (.tensor u) ↔
      t.shape.dims = u.shape.dims ∧
        t.data.toList.map Decimal.ofReal = u.data.toList.map Decimal.ofReal := by
  constructor
  · intro equal
    rw [literal_cpp_tensor, literal_cpp_tensor] at equal
    simp only [String.append_assoc, String.append_right_inj] at equal
    obtain ⟨elements, rest⟩ := braced_append_injective
      (fun _ => isNumber_of_mem_map_ofReal) (fun _ => isNumber_of_mem_map_ofReal) equal
    rw [String.append_right_inj] at rest
    obtain ⟨dims, -⟩ := braced_append_injective
      (fun _ => isNumber_of_mem_map_toString) (fun _ => isNumber_of_mem_map_toString) rest
    exact ⟨List.map_injective_iff.mpr (fun _ _ => Decimal.eq_of_repr_eq) dims, elements⟩
  · rintro ⟨dims, elements⟩
    rw [literal_cpp_tensor, literal_cpp_tensor, dims, elements]

theorem python_tensor_eq_iff
    {t u : Tensor}
    (complete : t.IsComplete)
    (complete' : u.IsComplete) :
    python.literal (.tensor t) = python.literal (.tensor u) ↔
      Tensor.ShowSame Decimal.ofReal t.shape.dims t.data.toList u.shape.dims u.data.toList := by
  rw [← Tensor.rendering_eq_rendering_iff isElementText_ofReal complete complete']
  change "tensor(" ++ t.rendering Decimal.ofReal ++ ")" =
    "tensor(" ++ u.rendering Decimal.ofReal ++ ")" ↔ _
  rw [String.append_left_inj, String.append_right_inj]

end Target

/-! ## All values -/

/-- What a literal stands for, as its text tells. -/
inductive LiteralKind where
  | truth
  | number
  | array
  deriving DecidableEq

/-- Texts of numbers have characters of numbers only, and texts of tensors have a parenthesis. -/
def LiteralKind.ofText (text : String) : LiteralKind :=
  if Decimal.Numeric text then .number else if '(' ∈ text.toList then .array else .truth

/-- What the literal of a value stands for. -/
def Value.literalKind : Value → LiteralKind
  | .boolean _ => .truth
  | .tensor _ => .array
  | .natural _ | .positiveReal _ | .probability _ | .real _ => .number

namespace LiteralKind

theorem ofText_of_isNumber
    {text : String}
    (isNumber : Decimal.IsNumber text) :
    ofText text = .number :=
  if_pos isNumber.2

theorem ofText_of_parenthesis
    {text : String}
    (parenthesis : '(' ∈ text.toList) :
    ofText text = .array := by
  have notNumeric : ¬Decimal.Numeric text := fun numeric => numeric.not_mem rfl parenthesis
  rw [ofText, if_neg notNumeric, if_pos parenthesis]

end LiteralKind

namespace Target

/-- The kind of a literal can be told from its text. -/
theorem ofText_literal (target : Target) (v : Value) :
    LiteralKind.ofText (target.literal v) = v.literalKind := by
  cases v with
  | boolean b => cases target <;> cases b <;> decide
  | natural n =>
      cases target <;> exact LiteralKind.ofText_of_isNumber (Decimal.isNumber_repr n.toNat)
  | positiveReal x | probability x | real x =>
      cases target <;> exact LiteralKind.ofText_of_isNumber (Decimal.isNumber_ofReal _)
  | tensor t =>
      refine LiteralKind.ofText_of_parenthesis ?_
      cases target with
      | python =>
          change '(' ∈ ("tensor(" ++ t.rendering Decimal.ofReal ++ ")").toList
          simp
      | cpp =>
          rw [literal_cpp_tensor]
          simp

theorem kind_eq_of_literal_eq
    {target : Target} {v w : Value}
    (equal : target.literal v = target.literal w) :
    v.literalKind = w.literalKind := by
  rw [← ofText_literal target, equal, ofText_literal]

end Target

namespace Value

@[simp] theorem literalKind_shown (v : Value) : v.shown.literalKind = v.literalKind := by
  cases v <;> rfl

theorem exists_boolean {v : Value} (kind : v.literalKind = .truth) : ∃ b, v = .boolean b := by
  cases v with
  | boolean b => exact ⟨b, rfl⟩
  | _ => cases kind

theorem exists_tensor {v : Value} (kind : v.literalKind = .array) : ∃ t, v = .tensor t := by
  cases v with
  | tensor t => exact ⟨t, rfl⟩
  | _ => cases kind

/-- Numbers have one text in both languages, and no axes. -/
theorem number_literal {v : Value} (kind : v.literalKind = .number) :
    Target.python.literal v = Target.cpp.literal v ∧ v.shown = v ∧ v.dims? = none := by
  cases v with
  | boolean | tensor => cases kind
  | _ => exact ⟨rfl, rfl, rfl⟩

end Value

namespace Target

/-- Python literals are alike where the C++ literals are that show no more axes. -/
theorem python_literal_eq_iff
    {v w : Value}
    (complete : v.toTensor.IsComplete)
    (complete' : w.toTensor.IsComplete) :
    python.literal v = python.literal w ↔ cpp.literal v.shown = cpp.literal w.shown := by
  by_cases sameKind : v.literalKind = w.literalKind
  · cases kind : v.literalKind with
    | truth =>
        obtain ⟨b, rfl⟩ := Value.exists_boolean kind
        obtain ⟨b', rfl⟩ := Value.exists_boolean (sameKind.symm.trans kind)
        cases b <;> cases b' <;> decide
    | number =>
        obtain ⟨text, shown, -⟩ := Value.number_literal kind
        obtain ⟨text', shown', -⟩ := Value.number_literal (sameKind.symm.trans kind)
        rw [text, text', shown, shown']
    | array =>
        obtain ⟨t, rfl⟩ := Value.exists_tensor kind
        obtain ⟨u, rfl⟩ := Value.exists_tensor (sameKind.symm.trans kind)
        refine (python_tensor_eq_iff complete complete').trans ?_
        refine Iff.trans ?_ cpp_tensor_eq_iff.symm
        exact ⟨fun same => ⟨same.visible_eq, same.elements_eq⟩, fun ⟨dims, elements⟩ =>
          ⟨dims, elements⟩⟩
  · refine iff_of_false (fun equal => sameKind (kind_eq_of_literal_eq equal)) fun equal => ?_
    simpa [sameKind] using kind_eq_of_literal_eq equal

/-- C++ literals also tell the dimensions of tensors apart, and nothing else. -/
theorem cpp_literal_eq_iff
    {v w : Value}
    (complete : v.toTensor.IsComplete)
    (complete' : w.toTensor.IsComplete) :
    cpp.literal v = cpp.literal w ↔ python.literal v = python.literal w ∧ v.dims? = w.dims? := by
  by_cases sameKind : v.literalKind = w.literalKind
  · cases kind : v.literalKind with
    | truth =>
        obtain ⟨b, rfl⟩ := Value.exists_boolean kind
        obtain ⟨b', rfl⟩ := Value.exists_boolean (sameKind.symm.trans kind)
        cases b <;> cases b' <;> decide
    | number =>
        obtain ⟨text, -, noDims⟩ := Value.number_literal kind
        obtain ⟨text', -, noDims'⟩ := Value.number_literal (sameKind.symm.trans kind)
        rw [text, text', noDims, noDims']
        exact (and_iff_left rfl).symm
    | array =>
        obtain ⟨t, rfl⟩ := Value.exists_tensor kind
        obtain ⟨u, rfl⟩ := Value.exists_tensor (sameKind.symm.trans kind)
        refine cpp_tensor_eq_iff.trans (Iff.trans ?_
          (and_congr_left fun _ => (python_tensor_eq_iff complete complete').symm))
        constructor
        · rintro ⟨dims, elements⟩
          exact ⟨⟨congrArg Shape.visible dims, elements⟩, congrArg some dims⟩
        · rintro ⟨same, dims⟩
          exact ⟨Option.some.inj dims, same.elements_eq⟩
  · exact iff_of_false (fun equal => sameKind (kind_eq_of_literal_eq equal))
      fun both => sameKind (kind_eq_of_literal_eq both.1)

end Target

end ModelGraph
