/-!
# Data as text trees

The trees that persisted data is made of.  Integers are kept apart from other numbers, and
the fields of an object keep their order.
-/

namespace ModelGraph

/-- A tree of persisted data. -/
inductive Json where
  | null
  | bool (b : Bool)
  /-- A number written without fraction and exponent that a 64-bit word can hold. -/
  | integer (n : Int)
  /-- Any other number. -/
  | decimal (x : Float)
  | text (s : String)
  | array (items : List Json)
  | object (fields : List (String × Json))

namespace Json

instance : Inhabited Json :=
  ⟨.null⟩

/-- A count as a number. -/
def ofNat (n : Nat) : Json :=
  .integer n

/-- A real as a number; what is no finite number is written as nothing. -/
def ofReal (x : Float) : Json :=
  if x.isFinite then .decimal x else .null

/-- The value of a field of an object. -/
def field? (name : String) : Json → Option Json
  | .object fields => fields.lookup name
  | _ => none

end Json

end ModelGraph
