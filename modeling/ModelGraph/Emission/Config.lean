import ModelGraph.Error

/-!
# Configuration of programs

A program may start with a header, which in Python imports a module.  The name of the module
goes into the text of the program as it is, so it has to be a path of identifiers.
-/

namespace ModelGraph

/-- How programs are written. -/
structure Config where
  /-- The Python module that the graph builder comes from. -/
  pythonModule : String := "beanmachine"
  /-- Whether a program starts with a header. -/
  includeHeader : Bool := true
  deriving DecidableEq, Repr

namespace Config

/-- The parts of a text between dots. -/
def segments : List Char → List (List Char)
  | [] => [[]]
  | c :: rest =>
    if c = '.' then
      [] :: segments rest
    else
      match segments rest with
      | [] => [[c]]
      | segment :: more => (c :: segment) :: more

/-- Whether a character can start an identifier: an ASCII letter or an underscore. -/
def isIdentifierStart (c : Char) : Bool :=
  c.isAlpha || c = '_'

/-- Whether a character can go on an identifier: also an ASCII digit. -/
def isIdentifierRest (c : Char) : Bool :=
  c.isAlphanum || c = '_'

/-- Whether a text is an identifier. -/
def isIdentifier : List Char → Bool
  | [] => false
  | c :: rest => isIdentifierStart c && rest.all isIdentifierRest

/-- Insists that the module has the name of one. -/
def validate (config : Config) : Except Error Unit :=
  let name := config.pythonModule.toList
  if name.isEmpty then
    .error (.invalidConfig .empty)
  else if (segments name).all isIdentifier then
    .ok ()
  else
    .error (.invalidConfig (.notAPath config.pythonModule))

end Config

end ModelGraph
