import ModelGraph.Decimal.Layout

/-!
# The characters of numbers

The text of a number is not empty, and consists of digits, points, signs and the letters of
exponents and of the numbers that are none or infinite.  So it never runs into the punctuation
of the lists that it stands in.
-/

namespace ModelGraph

namespace Decimal

/-- The characters that numbers are written with. -/
def isNumberChar (c : Char) : Bool :=
  c.isDigit || "-.eNainf".toList.contains c

/-- A text consists of characters that numbers are written with. -/
def Numeric (s : String) : Prop :=
  ∀ c ∈ s.toList, isNumberChar c = true

instance (s : String) : Decidable (Numeric s) :=
  decidable_of_iff (s.toList.all isNumberChar = true) List.all_eq_true

/-- A text that could be the one of a number. -/
def IsNumber (s : String) : Prop :=
  s ≠ "" ∧ Numeric s

@[simp] theorem numeric_append {s t : String} : Numeric (s ++ t) ↔ Numeric s ∧ Numeric t := by
  simp only [Numeric, String.toList_append, List.forall_mem_append]

@[simp] theorem numeric_empty : Numeric "" := by
  simp [Numeric]

theorem Numeric.not_mem
    {s : String} {c : Char}
    (numeric : Numeric s)
    (other : isNumberChar c = false) :
    c ∉ s.toList := by
  intro present
  rw [numeric c present] at other
  cases other

theorem isNumberChar_of_isDigit
    {c : Char}
    (isDigit : c.isDigit = true) :
    isNumberChar c = true := by
  simp [isNumberChar, isDigit]

/-- Texts of digits are numeric, and so are their pieces. -/
theorem numeric_ofList_of_digits
    {cs : List Char}
    (digits : ∀ c ∈ cs, c.isDigit = true) :
    Numeric (String.ofList cs) := by
  intro c present
  rw [String.toList_ofList] at present
  exact isNumberChar_of_isDigit (digits c present)

theorem isDigit_of_mem_repr {n : Nat} {c : Char} (present : c ∈ n.repr.toList) :
    c.isDigit = true := by
  rw [Nat.toList_repr] at present
  exact Nat.isDigit_of_mem_toDigits (by decide) (by decide) present

/-- The digits of a number tell it. -/
theorem eq_of_repr_eq
    {m n : Nat}
    (equal : m.repr = n.repr) :
    m = n := by
  have digits : Nat.toDigits 10 m = Nat.toDigits 10 n := by
    rw [← Nat.toList_repr, equal, Nat.toList_repr]
  have read := congrArg (Nat.ofDigitChars 10 · 0) digits
  simpa only [Nat.ofDigitChars_ten_toDigits] using read

theorem isNumber_repr (n : Nat) : IsNumber n.repr :=
  ⟨Nat.repr_ne_empty, fun _ present => isNumberChar_of_isDigit (isDigit_of_mem_repr present)⟩

theorem numeric_toString_int (i : Int) : Numeric (toString i) := by
  cases i with
  | ofNat n => exact (isNumber_repr n).2
  | negSucc n =>
      change Numeric ("-" ++ (n + 1).repr)
      exact numeric_append.mpr ⟨by decide, (isNumber_repr _).2⟩

theorem isNumber_positional (d : Decimal) : IsNumber d.positional := by
  have digits : ∀ c ∈ (toString d.digits).toList, c.isDigit = true :=
    fun _ => isDigit_of_mem_repr
  have zeros : ∀ n, ∀ c ∈ List.replicate n '0', c.isDigit = true := by
    intro n c present
    rw [List.eq_of_mem_replicate present]
    rfl
  unfold positional
  dsimp only
  split
  · refine ⟨by simp, numeric_append.mpr ⟨numeric_ofList_of_digits ?_, by decide⟩⟩
    exact List.forall_mem_append.mpr ⟨digits, zeros _⟩
  · split
    · refine ⟨by simp, ?_⟩
      simp only [numeric_append]
      refine ⟨⟨numeric_ofList_of_digits ?_, by decide⟩, numeric_ofList_of_digits ?_⟩
      · exact fun c present => digits c (List.mem_of_mem_take present)
      · exact fun c present => digits c (List.mem_of_mem_drop present)
    · refine ⟨by simp, numeric_append.mpr ⟨by decide, numeric_ofList_of_digits ?_⟩⟩
      exact List.forall_mem_append.mpr ⟨zeros _, digits⟩

theorem isNumber_scientific (d : Decimal) : IsNumber (d.scientific "e") := by
  have digits : ∀ c ∈ (toString d.digits).toList, c.isDigit = true :=
    fun _ => isDigit_of_mem_repr
  unfold scientific
  dsimp only
  refine ⟨by simp, ?_⟩
  simp only [numeric_append]
  refine ⟨⟨⟨⟨numeric_ofList_of_digits ?_, ?_⟩, numeric_ofList_of_digits ?_⟩, by decide⟩,
    numeric_toString_int _⟩
  · exact fun c present => digits c (List.mem_of_mem_take present)
  · split <;> decide
  · exact fun c present => digits c (List.mem_of_mem_drop present)

theorem isNumber_text (d : Decimal) : IsNumber (d.text .standard) := by
  unfold text
  split
  · exact isNumber_positional d
  · exact isNumber_scientific d

theorem IsNumber.append
    {s t : String}
    (numeric : Numeric s)
    (isNumber : IsNumber t) :
    IsNumber (s ++ t) :=
  ⟨by simp [isNumber.1], numeric_append.mpr ⟨numeric, isNumber.2⟩⟩

/-- The text of a real is that of a number. -/
theorem isNumber_ofReal (x : Float) : IsNumber (ofReal x) := by
  have sign : Numeric (if x.toBits >>> 63 = 0 then "" else "-") := by
    split <;> decide
  unfold ofReal ofRealIn
  split
  · exact ⟨by decide, by decide⟩
  · dsimp only
    split
    · exact .append sign ⟨by decide, by decide⟩
    · split
      · exact .append sign ⟨by decide, by decide⟩
      · exact .append sign (isNumber_text _)

end Decimal

end ModelGraph
