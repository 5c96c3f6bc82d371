import ModelGraph.NamedGraph.Agreement
import ModelGraph.Proofs.Emission.Literals

/-!
# Reading statements

The statement of an instruction can be written where its value can.  It is read from the left: the
handle that is assigned, the name of the call, and what the call is given.  Where two instructions
have one statement, they are the same up to the values and reals in them, whose texts are equal.
-/

namespace ModelGraph

/-! ## Names -/

theorem Handle.toString_eq (h : Handle) : toString h = "n" ++ h.toNat.repr := rfl

theorem Handle.toString_injective {h h' : Handle} (equal : toString h = toString h') : h = h' := by
  rw [toString_eq, toString_eq, String.append_right_inj] at equal
  obtain ⟨word⟩ := h
  obtain ⟨word'⟩ := h'
  exact congrArg Handle.mk (UInt32.toNat_inj.mp (Decimal.eq_of_repr_eq equal))

/-- The name of a handle has no punctuation. -/
theorem Handle.not_mem_toString
    {c : Char}
    (notLetter : c ≠ 'n')
    (notDigit : c.isDigit = false)
    (h : Handle) :
    c ∉ (toString h).toList := by
  rw [toString_eq, String.toList_append]
  intro present
  rcases List.mem_append.mp present with letter | digit
  · exact notLetter (by simpa using letter)
  · rw [Decimal.isDigit_of_mem_repr digit] at notDigit
    cases notDigit

theorem Handle.isPart_toString (h : Handle) : Text.IsPart ',' (toString h) :=
  ⟨by rw [toString_eq]; simp, h.not_mem_toString (by decide) rfl⟩

theorem DistributionTag.word_injective
    {tag tag' : DistributionTag}
    (equal : tag.word = tag'.word) :
    tag = tag' := by
  cases tag <;> cases tag' <;> first | rfl | simp [word] at equal

theorem Refinement.word_injective
    {kind kind' : Refinement}
    (equal : kind.word = kind'.word) :
    kind = kind' := by
  cases kind <;> cases kind' <;> first | rfl | simp [word] at equal

theorem DistributionTag.comma_not_mem_word (tag : DistributionTag) : ',' ∉ tag.word.toList := by
  cases tag <;> decide

theorem OperatorTag.comma_not_mem_word (tag : OperatorTag) : ',' ∉ tag.word.toList := by
  cases tag <;> decide

theorem Refinement.comma_not_mem_word (kind : Refinement) : ',' ∉ kind.word.toList := by
  cases kind <;> decide

namespace Target

variable {target : Target}

theorem handleList_injective
    {handles handles' : List Handle}
    (equal : target.handleList handles = target.handleList handles') :
    handles = handles' := by
  have names : ", ".intercalate (handles.map toString) =
      ", ".intercalate (handles'.map toString) := by
    -- what stands around the names
    cases target with
    | python => exact (String.append_right_inj "[").mp ((String.append_left_inj "]").mp equal)
    | cpp =>
        exact (String.append_right_inj "std::vector<uint>(\x7b").mp
          ((String.append_left_inj "\x7d)").mp equal)
  have areParts : ∀ {handles : List Handle}, ∀ s ∈ handles.map toString, Text.IsPart ',' s := by
    intro handles s present
    obtain ⟨h, -, rfl⟩ := List.mem_map.mp present
    exact h.isPart_toString
  exact List.map_injective_iff.mpr (fun _ _ => Handle.toString_injective)
    (Text.intercalate_injective rfl areParts areParts names)

theorem qualified_injective
    {enumeration word word' : String}
    (equal : target.qualified enumeration word = target.qualified enumeration word') :
    word = word' := by
  cases target with
  | python => simpa [qualified] using equal
  | cpp => simpa [qualified] using equal

theorem comma_not_mem_qualified
    {enumeration word : String}
    (outside : ',' ∉ enumeration.toList)
    (absent : ',' ∉ word.toList) :
    ',' ∉ (target.qualified enumeration word).toList := by
  cases target <;> simp [qualified, outside, absent]

/-! ## Calls -/

/-- What a call that adds a vertex is given. -/
def arguments (target : Target) : Vertex → String
  | .constant v => target.literal v
  | .positiveReal x | .probability x => Decimal.ofReal x
  | .distribution tag kind inputs =>
    "\n  " ++ target.qualified "DistributionType" tag.word
      ++ ",\n  " ++ target.qualified "AtomicType" kind.word
      ++ ",\n  " ++ target.handleList inputs
  | .operator tag inputs =>
    (target.operatorBreaks tag).1 ++ target.qualified "OperatorType" tag.word
      ++ (target.operatorBreaks tag).2 ++ target.handleList inputs

/-- A comma stands before the inputs of an operator, whether they stand on its line or not. -/
theorem exists_operatorBreaks (target : Target) (tag : OperatorTag) :
    ∃ gap, (target.operatorBreaks tag).2 = "," ++ gap := by
  cases tag with
  | ifThenElse => cases target <;> exact ⟨"\n  ", by decide⟩
  | _ => cases target <;> exact ⟨" ", by decide⟩

theorem comma_not_mem_operatorBreaks (target : Target) (tag : OperatorTag) :
    ',' ∉ (target.operatorBreaks tag).1.toList := by
  cases target <;> cases tag <;> decide

/-- The name of an operator tells it, whether it stands on the line of the call or not. -/
theorem eq_of_operator_name
    {target : Target} {tag tag' : OperatorTag}
    (equal : (target.operatorBreaks tag).1 ++ target.qualified "OperatorType" tag.word =
      (target.operatorBreaks tag').1 ++ target.qualified "OperatorType" tag'.word) :
    tag = tag' := by
  revert equal
  cases target <;> cases tag <;> cases tag' <;> decide

section Arguments

variable {target : Target} {inputs inputs' : List Handle}

/-- What a call for an operator is given tells the operator and its inputs. -/
theorem operator_arguments_injective
    {tag tag' : OperatorTag}
    (equal : target.arguments (.operator tag inputs) = target.arguments (.operator tag' inputs')) :
    tag = tag' ∧ inputs = inputs' := by
  have text : ∀ (tag : OperatorTag) (inputs : List Handle) (gap : String),
      (target.operatorBreaks tag).2 = "," ++ gap →
        target.arguments (.operator tag inputs) =
          (target.operatorBreaks tag).1 ++ target.qualified "OperatorType" tag.word ++ "," ++
            (gap ++ target.handleList inputs) := by
    intro tag inputs gap breaks
    simp only [arguments, breaks, String.append_assoc]
  have named : ∀ tag : OperatorTag, ',' ∉
      ((target.operatorBreaks tag).1 ++ target.qualified "OperatorType" tag.word).toList := by
    intro tag
    rw [String.toList_append, List.mem_append, not_or]
    exact ⟨target.comma_not_mem_operatorBreaks tag,
      comma_not_mem_qualified (by decide) tag.comma_not_mem_word⟩
  obtain ⟨gap, breaks⟩ := target.exists_operatorBreaks tag
  obtain ⟨gap', breaks'⟩ := target.exists_operatorBreaks tag'
  rw [text tag inputs gap breaks, text tag' inputs' gap' breaks'] at equal
  obtain ⟨name, lists⟩ := Text.eq_of_append rfl (named tag) (named tag') equal
  obtain rfl := eq_of_operator_name name
  obtain rfl := (String.append_right_inj ",").mp (breaks.symm.trans breaks')
  exact ⟨rfl, handleList_injective ((String.append_right_inj gap).mp lists)⟩

/-- What a call for a distribution is given tells the family, the kind of its samples and its
inputs. -/
theorem distribution_arguments_injective
    {tag tag' : DistributionTag} {kind kind' : Refinement}
    (equal : target.arguments (.distribution tag kind inputs) =
      target.arguments (.distribution tag' kind' inputs')) :
    tag = tag' ∧ kind = kind' ∧ inputs = inputs' := by
  have text : ∀ (tag : DistributionTag) (kind : Refinement) (inputs : List Handle),
      target.arguments (.distribution tag kind inputs) =
        "\n  " ++ (target.qualified "DistributionType" tag.word ++ ",\n  " ++
          (target.qualified "AtomicType" kind.word ++ ",\n  " ++ target.handleList inputs)) := by
    intro tag kind inputs
    simp only [arguments, String.append_assoc]
  rw [text, text, String.append_right_inj] at equal
  obtain ⟨family, rest⟩ := Text.eq_of_append rfl
    (comma_not_mem_qualified (by decide) tag.comma_not_mem_word)
    (comma_not_mem_qualified (by decide) tag'.comma_not_mem_word) equal
  obtain ⟨sample, lists⟩ := Text.eq_of_append rfl
    (comma_not_mem_qualified (by decide) kind.comma_not_mem_word)
    (comma_not_mem_qualified (by decide) kind'.comma_not_mem_word) rest
  exact ⟨DistributionTag.word_injective (qualified_injective family),
    Refinement.word_injective (qualified_injective sample), handleList_injective lists⟩

end Arguments

end Target

/-! ## Instructions -/

/-- The name of the call that an instruction stands for. -/
def Instruction.callName : Instruction → String
  | .add vertex => vertex.callName
  | .observe .. => "observe"
  | .query _ => "query"

/-- The value that an instruction mentions. -/
def Instruction.value? : Instruction → Option Value
  | .add (.constant v) | .observe _ v => some v
  | _ => none

/-- The handle that the statement of an instruction assigns. -/
def Instruction.assigned (instruction : Instruction) (own : Option Handle) : Option Handle :=
  if instruction.addsVertex then own else none

/-- Two instructions are the same, up to values that are related and reals with one text. -/
inductive Instruction.Alike (related : Value → Value → Prop) : Instruction → Instruction → Prop
    where
  | constant {v w : Value} (holds : related v w) :
      Alike related (.add (.constant v)) (.add (.constant w))
  | positiveReal {x y : Float} (sameText : Decimal.ofReal x = Decimal.ofReal y) :
      Alike related (.add (.positiveReal x)) (.add (.positiveReal y))
  | probability {x y : Float} (sameText : Decimal.ofReal x = Decimal.ofReal y) :
      Alike related (.add (.probability x)) (.add (.probability y))
  | distribution (tag : DistributionTag) (kind : Refinement) (inputs : List Handle) :
      Alike related (.add (.distribution tag kind inputs)) (.add (.distribution tag kind inputs))
  | operator (tag : OperatorTag) (inputs : List Handle) :
      Alike related (.add (.operator tag inputs)) (.add (.operator tag inputs))
  | observe (vertex : Handle) {v w : Value} (holds : related v w) :
      Alike related (.observe vertex v) (.observe vertex w)
  | query (vertex : Handle) : Alike related (.query vertex) (.query vertex)

/-- Two instructions are the same, up to values and reals with one text in a language. -/
abbrev Instruction.AlikeIn (target : Target) (i j : Instruction) : Prop :=
  i.Alike (fun v w => target.literal v = target.literal w) j

namespace Target

/-- What the call of an instruction is given. -/
def given (target : Target) : Instruction → String
  | .add vertex => target.arguments vertex
  | .observe vertex v => toString vertex ++ ", " ++ target.literal v
  | .query vertex => toString vertex

/-- The text of the value that an instruction mentions, if there is one. -/
def mentioned (target : Target) (i : Instruction) : String :=
  (i.value?.map target.literal).getD ""

/-- A language can state an instruction if it can write the value. -/
def CanState (target : Target) (i : Instruction) : Prop :=
  ∀ v ∈ i.value?, target.CanWrite v

theorem canState_cpp (i : Instruction) : cpp.CanState i :=
  fun v _ => canWrite_cpp v

theorem mention_answersIf (target : Target) (i : Instruction) :
    Outcome.AnswersIf (target.mention i) (target.CanState i) (target.mentioned i) := by
  have value : ∀ {i : Instruction} {v : Value}, i.value? = some v →
      (target.CanWrite v ↔ target.CanState i) := by
    intro i v mentions
    simp [CanState, mentions]
  have none : ∀ {i : Instruction}, i.value? = none → (True ↔ target.CanState i) := by
    intro i mentions
    simp [CanState, mentions]
  cases i with
  | add vertex =>
      cases vertex with
      | constant v => exact (target.value_answersIf v).of_iff (value rfl)
      | _ => exact (Outcome.AnswersIf.ok "").of_iff (none rfl)
  | observe vertex v => exact (target.value_answersIf v).of_iff (value rfl)
  | query => exact (Outcome.AnswersIf.ok "").of_iff (none rfl)

/-- The text of a statement whose value can be written. -/
def sentence (target : Target) (i : Instruction) (own : Option Handle) : String :=
  target.assignment (i.assigned own) ++ target.call (target.mentioned i) i ++ target.ending

/-- A statement is written in a language that can write its value, and none that cannot comes to an
end. -/
theorem statement_answersIf (target : Target) (i : Instruction) (own : Option Handle) :
    Outcome.AnswersIf (target.statement i own) (target.CanState i) (target.sentence i own) :=
  (target.mention_answersIf i).map fun value =>
    target.assignment (i.assigned own) ++ target.call value i ++ target.ending

theorem call_mentioned (target : Target) (i : Instruction) :
    target.call (target.mentioned i) i =
      "g." ++ i.callName ++ "(" ++ target.given i ++ ")" := by
  refine String.toList_inj.mp ?_
  -- not by its equations, which take long to make
  unfold call
  rcases i with vertex | _ | _
  · cases vertex <;>
      simp [mentioned, Instruction.value?, given, arguments, Instruction.callName, Vertex.callName]
  · simp [mentioned, Instruction.value?, given, Instruction.callName]
  · simp [given, Instruction.callName]

variable {target : Target} {i j : Instruction}

theorem assignment_injective
    {own own' : Option Handle}
    (equal : target.assignment own = target.assignment own') :
    own = own' := by
  have nonempty : ∀ h : Handle, target.assignment (some h) ≠ "" := by
    intro h
    cases target <;> simp [assignment]
  cases own with
  | none =>
      cases own' with
      | none => rfl
      | some h' => exact absurd equal.symm (nonempty h')
  | some h =>
      cases own' with
      | none => exact absurd equal (nonempty h)
      | some h' =>
          refine congrArg some (Handle.toString_injective ?_)
          cases target with
          | python => exact (String.append_left_inj " = ").mp equal
          | cpp =>
              exact (String.append_right_inj "uint ").mp ((String.append_left_inj " = ").mp equal)

theorem alike_of_given_add
    {vertex vertex' : Vertex}
    (names : vertex.callName = vertex'.callName)
    (equal : target.arguments vertex = target.arguments vertex') :
    Instruction.AlikeIn target (.add vertex) (.add vertex') := by
  cases vertex with
  | constant v =>
      cases vertex' with
      | constant w => exact .constant equal
      | _ => simp [Vertex.callName] at names
  | positiveReal x =>
      cases vertex' with
      | positiveReal y => exact .positiveReal equal
      | _ => simp [Vertex.callName] at names
  | probability x =>
      cases vertex' with
      | probability y => exact .probability equal
      | _ => simp [Vertex.callName] at names
  | distribution tag kind inputs =>
      cases vertex' with
      | distribution tag' kind' inputs' =>
          obtain ⟨rfl, rfl, rfl⟩ := distribution_arguments_injective equal
          exact .distribution _ _ _
      | _ => simp [Vertex.callName] at names
  | operator tag inputs =>
      cases vertex' with
      | operator tag' inputs' =>
          obtain ⟨rfl, rfl⟩ := operator_arguments_injective equal
          exact .operator _ _
      | _ => simp [Vertex.callName] at names

/-- What calls of one name are given tells the instructions apart. -/
theorem alike_of_given
    (names : i.callName = j.callName)
    (equal : target.given i = target.given j) :
    i.AlikeIn target j := by
  have added : ∀ vertex : Vertex, vertex.callName ≠ "observe" ∧ vertex.callName ≠ "query" := by
    intro vertex
    cases vertex <;> simp [Vertex.callName]
  cases i with
  | add vertex =>
      cases j with
      | add vertex' => exact alike_of_given_add names equal
      | observe => exact absurd names (added vertex).1
      | query => exact absurd names (added vertex).2
  | observe vertex v =>
      cases j with
      | add vertex' => exact absurd names.symm (added vertex').1
      | observe vertex' w =>
          have name : ∀ h : Handle, ',' ∉ (toString h).toList :=
            fun h => h.isPart_toString.2
          obtain ⟨observed, values⟩ := Text.eq_of_append rfl (name vertex) (name vertex') equal
          obtain rfl := Handle.toString_injective observed
          exact .observe _ values
      | query => simp [Instruction.callName] at names
  | query vertex =>
      cases j with
      | add vertex' => exact absurd names.symm (added vertex').2
      | observe => simp [Instruction.callName] at names
      | query vertex' =>
          obtain rfl := Handle.toString_injective equal
          exact .query _

theorem given_eq_of_alike
    (alike : i.AlikeIn target j) :
    i.callName = j.callName ∧ target.given i = target.given j := by
  cases alike with
  | constant same => exact ⟨rfl, same⟩
  | positiveReal same => exact ⟨rfl, same⟩
  | probability same => exact ⟨rfl, same⟩
  | distribution | operator | query => exact ⟨rfl, rfl⟩
  | observe vertex same => exact ⟨rfl, congrArg (toString vertex ++ ", " ++ ·) same⟩

/-- A statement up to the first point, the name of its call, and what comes after it. -/
theorem sentence_eq_append (target : Target) (i : Instruction) (own : Option Handle) :
    target.sentence i own =
      target.assignment (i.assigned own) ++ "g" ++ "." ++
        (i.callName ++ "(" ++ (target.given i ++ (")" ++ target.ending))) := by
  rw [sentence, call_mentioned]
  refine String.toList_inj.mp ?_
  simp

/-- Two statements are equal if and only if they assign the same handle and their instructions
are the same up to values and reals with one text. -/
theorem sentence_eq_sentence_iff {own own' : Option Handle} :
    target.sentence i own = target.sentence j own' ↔
      i.assigned own = j.assigned own' ∧ i.AlikeIn target j := by
  constructor
  · have noPoint : ∀ own : Option Handle, '.' ∉ (target.assignment own ++ "g").toList := by
      rintro (_ | h)
      · simp [assignment]
      · have name := h.not_mem_toString (c := '.') (by decide) rfl
        cases target <;> simp [assignment, name]
    have noParenthesis : ∀ i : Instruction, '(' ∉ i.callName.toList := by
      rintro (vertex | _ | _)
      · cases vertex <;> simp [Instruction.callName, Vertex.callName]
      · simp [Instruction.callName]
      · simp [Instruction.callName]
    intro equal
    rw [sentence_eq_append, sentence_eq_append] at equal
    -- the first point ends what is assigned, the first parenthesis after it the name
    obtain ⟨start, call⟩ := Text.eq_of_append rfl (noPoint _) (noPoint _) equal
    obtain ⟨names, rest⟩ := Text.eq_of_append rfl (noParenthesis i) (noParenthesis j) call
    exact ⟨assignment_injective ((String.append_left_inj "g").mp start),
      alike_of_given names ((String.append_left_inj _).mp rest)⟩
  · rintro ⟨assigns, alike⟩
    obtain ⟨names, given⟩ := given_eq_of_alike alike
    rw [sentence_eq_append, sentence_eq_append, assigns, names, given]

end Target

end ModelGraph
