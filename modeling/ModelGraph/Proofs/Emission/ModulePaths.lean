import ModelGraph.Emission.Program
import ModelGraph.Proofs.Outcome
import ModelGraph.Proofs.Text

/-!
# Module paths

The name of a module goes into the first line of a Python program as it is.  The names that are
accepted are the dotted paths of identifiers, so that the line is the import that it looks like,
and the name has no influence on any other line.
-/

namespace ModelGraph

namespace Config

/-! ## Paths -/

/-- An ASCII letter or an underscore. -/
def IsLetter (c : Char) : Prop :=
  ('a' ≤ c ∧ c ≤ 'z') ∨ ('A' ≤ c ∧ c ≤ 'Z') ∨ c = '_'

/-- Also an ASCII digit. -/
def IsLetterOrDigit (c : Char) : Prop :=
  IsLetter c ∨ ('0' ≤ c ∧ c ≤ '9')

/-- A letter, and any number of letters and digits after it. -/
def IsName (s : String) : Prop :=
  ∃ first rest, s.toList = first :: rest ∧ IsLetter first ∧ ∀ c ∈ rest, IsLetterOrDigit c

/-- One or more names, joined by single dots. -/
def IsModulePath (path : String) : Prop :=
  ∃ names : List String, names ≠ [] ∧ (∀ name ∈ names, IsName name) ∧
    path = ".".intercalate names

theorem isIdentifierStart_iff {c : Char} : isIdentifierStart c = true ↔ IsLetter c := by
  unfold isIdentifierStart IsLetter Char.isAlpha Char.isUpper Char.isLower
  simp only [Bool.or_eq_true, Bool.and_eq_true, decide_eq_true_eq, Char.le_def, ge_iff_le]
  tauto

theorem isIdentifierRest_iff {c : Char} : isIdentifierRest c = true ↔ IsLetterOrDigit c := by
  unfold IsLetterOrDigit
  rw [← isIdentifierStart_iff]
  unfold isIdentifierRest isIdentifierStart Char.isAlphanum Char.isDigit
  simp only [Bool.or_eq_true, Bool.and_eq_true, decide_eq_true_eq, Char.le_def, ge_iff_le]
  tauto

theorem isIdentifier_iff {s : String} : isIdentifier s.toList = true ↔ IsName s := by
  unfold IsName
  cases s.toList with
  | nil => simp [isIdentifier]
  | cons first rest =>
      simp only [isIdentifier, Bool.and_eq_true, List.all_eq_true, isIdentifierStart_iff,
        isIdentifierRest_iff]
      constructor
      · rintro ⟨starts, goesOn⟩
        exact ⟨first, rest, rfl, starts, goesOn⟩
      · rintro ⟨_, _, ⟨⟩, starts, goesOn⟩
        exact ⟨starts, goesOn⟩

theorem segments_eq_splitOn (cs : List Char) : segments cs = cs.splitOn '.' := by
  induction cs with
  | nil => rfl
  | cons c cs ih =>
      rw [segments, List.splitOn_cons_eq_if_modifyHead, ih]
      by_cases isDot : c = '.'
      · simp [isDot]
      · obtain ⟨segment, more, parts⟩ :=
          List.exists_cons_of_ne_nil (List.splitOn_ne_nil '.' cs)
        simp [isDot, parts]

theorem IsName.dot_not_mem {s : String} (isName : IsName s) : '.' ∉ s.toList := by
  obtain ⟨first, rest, chars, starts, goesOn⟩ := isName
  have other : ¬IsLetterOrDigit '.' := by
    rw [← isIdentifierRest_iff]
    decide
  rw [chars]
  intro present
  rcases List.mem_cons.mp present with rfl | later
  · exact other (.inl starts)
  · exact other (goesOn _ later)

/-- The segments of a text are names if and only if it is a path of names. -/
theorem isIdentifier_segments_iff {path : String} :
    (∀ segment ∈ segments path.toList, isIdentifier segment = true) ↔ IsModulePath path := by
  rw [segments_eq_splitOn]
  constructor
  · intro identifiers
    refine ⟨(path.toList.splitOn '.').map String.ofList, by simp, ?_, ?_⟩
    · intro name present
      obtain ⟨segment, isSegment, rfl⟩ := List.mem_map.mp present
      rw [← isIdentifier_iff, String.toList_ofList]
      exact identifiers segment isSegment
    · rw [← String.toList_inj, String.toList_intercalate, List.map_map]
      simp
  · rintro ⟨names, nonempty, areNames, rfl⟩
    have split : (".".intercalate names).toList.splitOn '.' = names.map String.toList := by
      rw [String.toList_intercalate]
      refine List.splitOn_intercalate '.' ?_ (by simpa using nonempty)
      intro cs present
      obtain ⟨name, isName, rfl⟩ := List.mem_map.mp present
      exact (areNames name isName).dot_not_mem
    rw [split]
    intro segment present
    obtain ⟨name, isName, rfl⟩ := List.mem_map.mp present
    exact isIdentifier_iff.mpr (areNames name isName)

/-- Exactly the paths of names are accepted. -/
theorem validate_eq_ok_iff {config : Config} :
    config.validate = .ok () ↔ IsModulePath config.pythonModule := by
  rw [← isIdentifier_segments_iff]
  unfold validate
  dsimp only
  cases name : config.pythonModule.toList with
  | nil => simp [segments, isIdentifier]
  | cons c cs =>
      rw [← List.all_eq_true]
      simp

/-- A path has no characters but those of names and dots. -/
theorem IsModulePath.chars
    {path : String}
    (isPath : IsModulePath path) :
    ∀ c ∈ path.toList, IsLetterOrDigit c ∨ c = '.' := by
  obtain ⟨names, -, areNames, rfl⟩ := isPath
  intro c present
  by_contra other
  obtain ⟨noChar, noDot⟩ := not_or.mp other
  refine Text.not_mem_intercalate (by simpa using noDot) (fun name isName here => ?_) present
  obtain ⟨first, rest, chars, starts, goesOn⟩ := areNames name isName
  rw [chars] at here
  rcases List.mem_cons.mp here with rfl | later
  · exact noChar (.inl starts)
  · exact noChar (goesOn c later)

/-! ## Programs -/

/-- The line that imports the graph builder from a module. -/
def importLine (name : String) : String :=
  "from " ++ name ++ " import graph"

theorem IsModulePath.importLine_isLine
    {path : String}
    (isPath : IsModulePath path) :
    '\n' ∉ (importLine path).toList := by
  have absent : '\n' ∉ path.toList := by
    intro present
    have other : ¬(IsLetterOrDigit '\n' ∨ '\n' = '.') := by
      rw [← isIdentifierRest_iff]
      decide
    exact other (isPath.chars _ present)
  simpa [importLine] using absent

theorem python_header_eq (config : Config) :
    Target.python.header config =
      importLine config.pythonModule ++ "\n" ++
        "from torch import tensor\ng = graph.Graph()\n" := by
  simp [Target.header, importLine, String.append_assoc]

/-- The first line of a Python program is its import, and the others do not depend on it. -/
theorem lines_python_program
    {path : String}
    (isPath : IsModulePath path)
    (text : String) :
    Text.lines (Target.python.header ⟨path, true⟩ ++ text) =
      (importLine path).toList ::
        Text.lines ("from torch import tensor\ng = graph.Graph()\n" ++ text) := by
  rw [python_header_eq, String.append_assoc, Text.lines_append isPath.importLine_isLine]

end Config

namespace Graph

open Config

/-- The statements of a program, without a header. -/
def body (g : Graph) (target : Target) : Except Error String := do
  let statements ← g.statements target 0 ∅ (← g.topologicalOrder)
  return String.join (statements.map fun statement => statement ++ "\n")

/-- A program is written if its module is accepted, and is then the body after the header. -/
theorem program_eq_ok_iff
    {g : Graph} {target : Target} {config : Config} {program : String} :
    g.program target config = .ok program ↔
      IsModulePath config.pythonModule ∧ ∃ text, g.body target = .ok text ∧
        program = (if config.includeHeader then target.header config else "") ++ text := by
  unfold Graph.program body
  dsimp only
  rw [Outcome.seq_eq_ok_iff, validate_eq_ok_iff]
  simp only [Outcome.bind_eq_ok_iff, Outcome.pure_eq, Except.ok.injEq]
  constructor
  · rintro ⟨isPath, order, ordered, statements, written, rfl⟩
    exact ⟨isPath, _, ⟨order, ordered, statements, written, rfl⟩, rfl⟩
  · rintro ⟨isPath, _, ⟨order, ordered, statements, written, rfl⟩, rfl⟩
    exact ⟨isPath, order, ordered, statements, written, rfl⟩

/-- With another module a program keeps all lines after its first one. -/
theorem exists_program_of_isModulePath
    {g : Graph} {target : Target} {header : Bool} {name other program : String}
    (written : g.program target ⟨name, header⟩ = .ok program)
    (isPath : IsModulePath other) :
    ∃ program', g.program target ⟨other, header⟩ = .ok program' ∧
      (Text.lines program').tail = (Text.lines program).tail := by
  obtain ⟨(wasPath : IsModulePath name), text, isBody, rfl⟩ := program_eq_ok_iff.mp written
  refine ⟨_, program_eq_ok_iff.mpr ⟨isPath, text, isBody, rfl⟩, ?_⟩
  cases header with
  | false => rfl
  | true =>
      cases target with
      | python =>
          dsimp only
          rw [if_pos rfl, if_pos rfl, lines_python_program isPath, lines_python_program wasPath,
            List.tail_cons, List.tail_cons]
      | cpp => rfl

/-- Exactly the dotted paths of names are accepted as modules.  A Python program with a header
starts with the line that imports from such a path, and its other lines are the same whatever path
is imported.  Since a path has no characters but those of names and dots, the import is all that
its line says. -/
theorem header_imports_module_path (g : Graph) :
    (∀ config : Config, config.validate = .ok () ↔ IsModulePath config.pythonModule) ∧
      (∀ (config : Config) (program : String), config.includeHeader = true →
        g.program .python config = .ok program →
          IsModulePath config.pythonModule ∧
            (Text.lines program).head? = some (importLine config.pythonModule).toList) ∧
      (∀ path, IsModulePath path → ∀ c ∈ path.toList, IsLetterOrDigit c ∨ c = '.') ∧
      ∀ (target : Target) (header : Bool) (name other program : String),
        g.program target ⟨name, header⟩ = .ok program → IsModulePath other →
          ∃ program', g.program target ⟨other, header⟩ = .ok program' ∧
            (Text.lines program').tail = (Text.lines program).tail := by
  refine ⟨fun _ => validate_eq_ok_iff, ?_, fun _ isPath => isPath.chars,
    fun _ _ _ _ _ written isPath => exists_program_of_isModulePath written isPath⟩
  rintro ⟨name, header⟩ program (rfl : header = true) written
  obtain ⟨isPath, text, -, rfl⟩ := program_eq_ok_iff.mp written
  refine ⟨isPath, ?_⟩
  rw [if_pos rfl, lines_python_program isPath, List.head?_cons]

/-- Two numbers. -/
def twoNumbers : Graph where
  nodes := #[.constant (.real 1.0), .constant (.probability 0.5)]

theorem header_imports_module_path_twoNumbers :
    ∃ program, twoNumbers.program .python ⟨"beanmachine.ppl", true⟩ = .ok program ∧
      IsModulePath "beanmachine.ppl" ∧
      (Text.lines program).head? = some "from beanmachine.ppl import graph".toList := by
  have accepted : Config.validate ⟨"beanmachine.ppl", true⟩ = .ok () := by decide +kernel
  have ordered : twoNumbers.topologicalOrder = .ok [⟨0⟩, ⟨1⟩] := by decide +kernel
  obtain ⟨program, written⟩ : ∃ program,
      twoNumbers.program .python ⟨"beanmachine.ppl", true⟩ = .ok program := by
    unfold Graph.program
    rw [accepted, ordered]
    exact ⟨_, rfl⟩
  exact ⟨program, written, (header_imports_module_path twoNumbers).2.1 _ program rfl written⟩

end Graph

end ModelGraph
