import ModelGraph.Emission.Config
import ModelGraph.Emission.Instruction

/-!
# Statements

The text of an instruction in the two languages that engines are driven from.  Both call
the same builder; they differ in how they write values, lists, qualified names and ends of
statements.
-/

namespace ModelGraph

/-- A language that programs are written in. -/
inductive Target where
  | python
  | cpp
  deriving DecidableEq, Repr

namespace Target

/-- What a program starts with. -/
def header : Target → Config → String
  | .python, config =>
    "from " ++ config.pythonModule ++ " import graph\nfrom torch import tensor\n"
      ++ "g = graph.Graph()\n"
  | .cpp, _ => "graph::Graph g;\n"

/-- A list of items in braces. -/
def braced (items : List String) : String :=
  "\x7b" ++ ",".intercalate items ++ "\x7d"

/-- The text of a value. -/
def value : Target → Value → Except Error String
  | .python, .boolean b => .ok (if b then "True" else "False")
  | .cpp, .boolean b => .ok (if b then "true" else "false")
  | _, .natural n => .ok (toString n.toNat)
  | _, .positiveReal x | _, .probability x | _, .real x => .ok (Decimal.ofReal x)
  | .python, .tensor t => t.text
  | .cpp, .tensor t =>
    let data := braced (t.data.toList.map Decimal.ofReal)
    let dims := braced (t.shape.dims.map toString)
    .ok ("torch::from_blob((float[])" ++ data ++ ", " ++ dims ++ ")")

/-- The text of a list of handles. -/
def handleList (target : Target) (handles : List Handle) : String :=
  let names := ", ".intercalate (handles.map toString)
  match target with
  | .python => "[" ++ names ++ "]"
  | .cpp => "std::vector<uint>(\x7b" ++ names ++ "\x7d)"

/-- The qualified name of a word of the builder. -/
def qualified (target : Target) (enumeration word : String) : String :=
  match target with
  | .python => "graph." ++ enumeration ++ "." ++ word
  | .cpp => "graph::" ++ enumeration ++ "::" ++ word

/-- The end of a statement. -/
def ending : Target → String
  | .python => ""
  | .cpp => ";"

/-- The start of a statement whose result is given a name. -/
def assignment : Target → Option Handle → String
  | _, none => ""
  | .python, some own => toString own ++ " = "
  | .cpp, some own => "uint " ++ toString own ++ " = "

/-- What stands between the name of an operator and the parenthesis before it, and what
between it and the inputs. -/
def operatorBreaks : Target → OperatorTag → String × String
  | _, .ifThenElse => ("\n  ", ",\n  ")
  | .python, _ => ("", ", ")
  | .cpp, _ => ("\n  ", ", ")

/-- The text of the value that an instruction mentions; none is mentioned by most. -/
def mention (target : Target) : Instruction → Except Error String
  | .add (.constant v) | .observe _ v => target.value v
  | _ => .ok ""

/-- The call of the builder that an instruction stands for, without its end, given the text of
the value that it mentions. -/
def call (target : Target) (value : String) : Instruction → String
  | .add (.constant _) => "g.add_constant(" ++ value ++ ")"
  | .add (.positiveReal x) => "g.add_constant_pos_real(" ++ Decimal.ofReal x ++ ")"
  | .add (.probability x) => "g.add_constant_probability(" ++ Decimal.ofReal x ++ ")"
  | .add (.distribution tag kind inputs) =>
    "g.add_distribution(\n  " ++ target.qualified "DistributionType" tag.word
      ++ ",\n  " ++ target.qualified "AtomicType" kind.word
      ++ ",\n  " ++ target.handleList inputs ++ ")"
  | .add (.operator tag inputs) =>
    let (before, after) := target.operatorBreaks tag
    "g.add_operator(" ++ before ++ target.qualified "OperatorType" tag.word
      ++ after ++ target.handleList inputs ++ ")"
  | .observe vertex _ => "g.observe(" ++ toString vertex ++ ", " ++ value ++ ")"
  | .query vertex => "g.query(" ++ toString vertex ++ ")"

/-- The statement of an instruction.  If it adds a vertex, the vertex is given the name of
its own handle. -/
def statement (target : Target) (instruction : Instruction) (own : Option Handle) :
    Except Error String := do
  let value ← target.mention instruction
  return target.assignment (if instruction.addsVertex then own else none)
    ++ target.call value instruction ++ target.ending

end Target

end ModelGraph
