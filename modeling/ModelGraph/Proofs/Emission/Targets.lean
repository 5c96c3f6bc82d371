import ModelGraph.Proofs.Emission.Calls

/-!
# What the two languages tell

A statement tells its instruction up to reals with one text and, in one of the languages, up to
the axes that nested rows do not show: C++ statements tell all dimensions of a tensor, Python
statements only those up to the first empty axis.  Everything else the two tell alike, as long as
there is a Python statement at all.
-/

namespace ModelGraph

namespace Instruction

variable {i j : Instruction} {related : Value → Value → Prop}

/-- The instruction with only those axes in its tensor that nested rows show. -/
def shown : Instruction → Instruction
  | .add (.constant v) => .add (.constant v.shown)
  | .observe vertex v => .observe vertex v.shown
  | i => i

/-- The dimensions of the tensor in an instruction, if there is one. -/
def dims? : Instruction → Option (List Nat)
  | .add (.constant v) | .observe _ v => v.dims?
  | _ => none

/-- Every place of the tensor in an instruction has an element, and words can count them. -/
def Filled (i : Instruction) : Prop :=
  ∀ v ∈ i.value?, v.toTensor.Filled

theorem Filled.canState (filled : i.Filled) (target : Target) : target.CanState i :=
  fun v mentions _ => (filled v mentions).counted

theorem Alike.imp_of_mem
    {related' : Value → Value → Prop}
    (alike : i.Alike related j)
    (weaker : ∀ v ∈ i.value?, ∀ w ∈ j.value?, related v w → related' v w) :
    i.Alike related' j := by
  cases alike with
  | constant holds => exact .constant (weaker _ rfl _ rfl holds)
  | positiveReal same => exact .positiveReal same
  | probability same => exact .probability same
  | distribution => exact .distribution _ _ _
  | operator => exact .operator _ _
  | observe _ holds => exact .observe _ (weaker _ rfl _ rfl holds)
  | query => exact .query _

theorem assigned_shown (i : Instruction) (own : Option Handle) :
    i.shown.assigned own = i.assigned own := by
  cases i with
  | add vertex => cases vertex <;> rfl
  | observe | query => rfl

theorem alike_shown_iff :
    i.shown.Alike related j.shown ↔ i.Alike (fun v w => related v.shown w.shown) j := by
  constructor
  · intro alike
    -- instructions of different forms are never alike
    rcases i with (_ | _ | _ | _ | _) | _ | _ <;> rcases j with (_ | _ | _ | _ | _) | _ | _ <;>
      cases alike <;> constructor <;> assumption
  · intro alike
    cases alike with
    | constant holds => exact .constant holds
    | positiveReal same => exact .positiveReal same
    | probability same => exact .probability same
    | distribution => exact .distribution _ _ _
    | operator => exact .operator _ _
    | observe _ holds => exact .observe _ holds
    | query => exact .query _

theorem alike_and_iff :
    i.Alike (fun v w => related v w ∧ v.dims? = w.dims?) j ↔
      i.Alike related j ∧ i.dims? = j.dims? := by
  constructor
  · intro alike
    refine ⟨alike.imp_of_mem fun _ _ _ _ both => both.1, ?_⟩
    cases alike with
    | constant both | observe _ both => exact both.2
    | positiveReal | probability | distribution | operator | query => rfl
  · rintro ⟨alike, dims⟩
    cases alike with
    | constant holds => exact .constant ⟨holds, dims⟩
    | positiveReal same => exact .positiveReal same
    | probability same => exact .probability same
    | distribution => exact .distribution _ _ _
    | operator => exact .operator _ _
    | observe _ holds => exact .observe _ ⟨holds, dims⟩
    | query => exact .query _

/-- Where no axis is hidden, the whole instruction is shown. -/
theorem shown_eq_self
    (nonempty : ∀ dims ∈ i.dims?, 0 ∉ dims.dropLast) :
    i.shown = i := by
  have value : ∀ v : Value, (∀ dims ∈ v.dims?, 0 ∉ dims.dropLast) → v.shown = v := by
    intro v nonempty
    cases v with
    | tensor t =>
        have dims := Shape.visible_eq_self (nonempty t.shape.dims rfl)
        simp only [Value.shown, Tensor.shown, dims]
    | _ => rfl
  cases i with
  | add vertex =>
      cases vertex with
      | constant v => exact congrArg (fun v => add (.constant v)) (value v nonempty)
      | _ => rfl
  | observe vertex v => exact congrArg (observe vertex) (value v nonempty)
  | query => rfl

end Instruction

namespace Target

variable {i j : Instruction} {own own' : Option Handle}

/-- Python sentences are equal where the C++ sentences are that show no more axes. -/
theorem python_sentence_eq_iff
    (filled : i.Filled)
    (filled' : j.Filled) :
    python.sentence i own = python.sentence j own' ↔
      cpp.sentence i.shown own = cpp.sentence j.shown own' := by
  rw [sentence_eq_sentence_iff, sentence_eq_sentence_iff, Instruction.assigned_shown,
    Instruction.assigned_shown]
  refine and_congr_right fun _ => Iff.trans ⟨fun alike => ?_, fun alike => ?_⟩
    Instruction.alike_shown_iff.symm
  · exact alike.imp_of_mem fun v isLeft w isRight =>
      (python_literal_eq_iff (filled v isLeft).complete (filled' w isRight).complete).mp
  · exact alike.imp_of_mem fun v isLeft w isRight =>
      (python_literal_eq_iff (filled v isLeft).complete (filled' w isRight).complete).mpr

/-- C++ sentences are equal where the Python sentences are, if the dimensions are, too. -/
theorem cpp_sentence_eq_iff
    (filled : i.Filled)
    (filled' : j.Filled) :
    cpp.sentence i own = cpp.sentence j own' ↔
      python.sentence i own = python.sentence j own' ∧ i.dims? = j.dims? := by
  rw [sentence_eq_sentence_iff, sentence_eq_sentence_iff, and_assoc, ← Instruction.alike_and_iff]
  refine and_congr_right fun _ => ⟨fun alike => ?_, fun alike => ?_⟩
  · exact alike.imp_of_mem fun v isLeft w isRight =>
      (cpp_literal_eq_iff (filled v isLeft).complete (filled' w isRight).complete).mp
  · exact alike.imp_of_mem fun v isLeft w isRight =>
      (cpp_literal_eq_iff (filled v isLeft).complete (filled' w isRight).complete).mpr

theorem statement_eq_statement_iff
    {target : Target}
    (writes : target.CanState i)
    (writes' : target.CanState j)
    (own own' : Option Handle) :
    target.statement i own = target.statement j own' ↔
      target.sentence i own = target.sentence j own' := by
  rw [(target.statement_answersIf i own).answers writes,
    (target.statement_answersIf j own').answers writes', Except.ok.injEq]

/-- An instruction has a C++ statement, and a Python statement if words can count the places of its
tensor.  Where every place has an element, Python statements are equal where the C++ statements are
that show no more axes, and C++ statements where the Python statements and the dimensions are.  So
the languages tell the same of instructions whose tensors have no axes inside an empty one. -/
theorem statements_equal_in_both_languages (i j : Instruction) (own own' : Option Handle) :
    (∀ target : Target, (∃ text, target.statement i own = .ok text) ↔
      (target = .python → ∀ v ∈ i.value?, v.shape.IsCounted)) ∧
    (i.Filled → j.Filled →
      (python.statement i own = python.statement j own' ↔
        cpp.statement i.shown own = cpp.statement j.shown own') ∧
      (cpp.statement i own = cpp.statement j own' ↔
        python.statement i own = python.statement j own' ∧ i.dims? = j.dims?) ∧
      ((∀ dims ∈ i.dims?, 0 ∉ dims.dropLast) → (∀ dims ∈ j.dims?, 0 ∉ dims.dropLast) →
        (python.statement i own = python.statement j own' ↔
          cpp.statement i own = cpp.statement j own'))) := by
  refine ⟨fun target => ?_, fun filled filled' => ?_⟩
  · rw [(target.statement_answersIf i own).exists_eq_ok_iff]
    exact ⟨fun writes isPython v mentions => writes v mentions isPython,
      fun writes v mentions isPython => writes isPython v mentions⟩
  · rw [statement_eq_statement_iff (filled.canState python) (filled'.canState python),
      statement_eq_statement_iff (canState_cpp i) (canState_cpp j),
      statement_eq_statement_iff (canState_cpp i.shown) (canState_cpp j.shown)]
    refine ⟨python_sentence_eq_iff filled filled', cpp_sentence_eq_iff filled filled',
      fun nonempty nonempty' => ?_⟩
    rw [python_sentence_eq_iff filled filled', Instruction.shown_eq_self nonempty,
      Instruction.shown_eq_self nonempty']

/-- The instruction that adds an array without elements. -/
def addEmpty (dims : List Nat) (empty : Shape.count dims = 0) : Instruction :=
  .add (.constant (.tensor ⟨⟨dims⟩, #[], empty.symm⟩))

/-- The array of no elements and the array of one empty row hide no axis, so that both
languages tell them apart or neither does. -/
theorem statements_equal_in_both_languages_emptyRow :
    (addEmpty [0] rfl).Filled ∧ (addEmpty [1, 0] rfl).Filled ∧
    (∀ dims ∈ (addEmpty [0] rfl).dims?, 0 ∉ dims.dropLast) ∧
    (∀ dims ∈ (addEmpty [1, 0] rfl).dims?, 0 ∉ dims.dropLast) ∧
    (python.statement (addEmpty [0] rfl) none = python.statement (addEmpty [1, 0] rfl) none ↔
      cpp.statement (addEmpty [0] rfl) none = cpp.statement (addEmpty [1, 0] rfl) none) := by
  have filled : (addEmpty [0] rfl).Filled := by
    rintro _ ⟨⟩
    exact ⟨rfl, by decide⟩
  have filled' : (addEmpty [1, 0] rfl).Filled := by
    rintro _ ⟨⟩
    exact ⟨rfl, by decide⟩
  have shown : ∀ dims ∈ (addEmpty [0] rfl).dims?, 0 ∉ dims.dropLast := by
    rintro _ ⟨⟩
    decide
  have shown' : ∀ dims ∈ (addEmpty [1, 0] rfl).dims?, 0 ∉ dims.dropLast := by
    rintro _ ⟨⟩
    decide
  have both := (statements_equal_in_both_languages _ _ none none).2 filled filled'
  exact ⟨filled, filled', shown, shown', both.2.2 shown shown'⟩

/-- Arrays of no rows have one Python statement, but their C++ statements tell them apart. -/
theorem statements_of_no_rows :
    python.statement (addEmpty [0, 2] rfl) (some ⟨0⟩) =
        python.statement (addEmpty [0, 3] rfl) (some ⟨0⟩) ∧
      cpp.statement (addEmpty [0, 2] rfl) (some ⟨0⟩) ≠
        cpp.statement (addEmpty [0, 3] rfl) (some ⟨0⟩) := by
  constructor
  · decide
  · decide

end Target

end ModelGraph
