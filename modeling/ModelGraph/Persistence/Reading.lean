import ModelGraph.Error
import ModelGraph.Json.Basic

/-!
# Reading persisted data

A tree of data either has the form of the type that is read from it or it has not; a value
of the right form may still be refused by the library's own checks.

A record is an object with a field for each part, or an array of the parts in order.  A
choice is an object whose only field is named for the alternative; an alternative without
content may also stand as a bare name.
-/

namespace ModelGraph

/-- Why data cannot be read. -/
inductive ReadError where
  /-- The data does not have the form of the type. -/
  | form
  /-- The data has the right form and is refused for a reason of its own. -/
  | invalid (cause : Error)
  deriving DecidableEq, Repr

/-- The outcome of reading data. -/
abbrev Read (α : Type) :=
  Except ReadError α

namespace Json

/-- Reads a truth value. -/
def toBool : Json → Read Bool
  | .bool b => .ok b
  | _ => .error .form

/-- Reads a piece of text. -/
def toText : Json → Read String
  | .text s => .ok s
  | _ => .error .form

/-- Reads a count. -/
def toCount : Json → Read Nat
  | .integer (.ofNat n) => .ok n
  | _ => .error .form

/-- Reads a count that a 64-bit word can hold. -/
def toWord (json : Json) : Read UInt64 := do
  let n ← json.toCount
  if n < UInt64.size then return UInt64.ofNat n else throw .form

/-- Reads a real from any number. -/
def toReal : Json → Read Float
  | .integer (.ofNat n) => .ok (Float.ofNat n)
  | .integer (.negSucc n) => .ok (-Float.ofNat (n + 1))
  | .decimal x => .ok x
  | _ => .error .form

/-- Reads an array item by item. -/
def toList {α : Type} (item : Json → Read α) : Json → Read (List α)
  | .array items => items.mapM item
  | _ => .error .form

/-- Reads an array of two. -/
def toPair {α β : Type} (first : Json → Read α) (second : Json → Read β) : Json → Read (α × β)
  | .array [a, b] => do return (← first a, ← second b)
  | _ => .error .form

/-- The parts of a record by name. -/
abbrev Parts :=
  List (String × Json)

/-- Reads a part of a record, if it is there. -/
def Parts.read? {α : Type} (parts : Parts) (name : String) (part : Json → Read α) :
    Read (Option α) :=
  match parts.lookup name with
  | some json => some <$> part json
  | none => .ok none

/-- Insists that a part was there. -/
def Parts.need {α : Type} : Option α → Read α
  | some part => .ok part
  | none => .error .form

/-- Reads a part of a record. -/
def Parts.read {α : Type} (parts : Parts) (name : String) (part : Json → Read α) : Read α := do
  Parts.need (← parts.read? name part)

/-- Reads a record whose parts have the given names. -/
def toRecord {α : Type} (names : List String) (record : Parts → Read α) : Json → Read α
  | .object fields => record fields
  | .array items => do
    let value ← record (names.zip items)
    if items.length ≤ names.length then .ok value else .error .form
  | _ => .error .form

/-- The alternative that a choice is for, and its content. -/
structure Choice where
  /-- The name of the alternative. -/
  name : String
  /-- The content, if there is any. -/
  content : Option Json

/-- Reads a choice. -/
def toChoice : Json → Read Choice
  | .text name => .ok ⟨name, none⟩
  | .object [(name, content)] => .ok ⟨name, some content⟩
  | _ => .error .form

/-- Reads the content of an alternative. -/
def Choice.read {α : Type} (choice : Choice) (content : Json → Read α) : Read α :=
  match choice.content with
  | some json => content json
  | none => .error .form

/-- Reads the content of an alternative as an object with named parts. -/
def Choice.parts {α : Type} (choice : Choice) (content : Parts → Read α) : Read α :=
  match choice.content with
  | some (.object fields) => content fields
  | _ => .error .form

/-- Reads the name of an alternative without content. -/
def toName : Json → Read String
  | .text name => .ok name
  | .object [(name, .null)] => .ok name
  | _ => .error .form

end Json

end ModelGraph
