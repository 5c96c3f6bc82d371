import ModelGraph.Decimal.Layout
import ModelGraph.Json.Token

/-!
# Data text

Reading a tree from text and writing it without spaces.
-/

namespace ModelGraph

namespace Json

mutual

/-- Reads a tree off the front of a list of tokens, taking at most `limit` steps. -/
def read? : (limit : Nat) → List Token → Option (Json × List Token)
  | _, .scalar value :: rest => some (value, rest)
  | _, .openArray :: .closeArray :: rest => some (.array [], rest)
  | _, .openObject :: .closeObject :: rest => some (.object [], rest)
  | limit + 1, .openArray :: rest => do
    let (items, rest) ← readItems? limit rest
    return (.array items, rest)
  | limit + 1, .openObject :: rest => do
    let (fields, rest) ← readFields? limit rest
    return (.object fields, rest)
  | _, _ => none

/-- Reads the items of an array and the bracket after them. -/
def readItems? : (limit : Nat) → List Token → Option (List Json × List Token)
  | 0, _ => none
  | limit + 1, tokens => do
    let (item, rest) ← read? limit tokens
    match rest with
    | .comma :: rest => do
      let (items, rest) ← readItems? limit rest
      return (item :: items, rest)
    | .closeArray :: rest => return ([item], rest)
    | _ => none

/-- Reads the fields of an object and the brace after them. -/
def readFields? : (limit : Nat) → List Token → Option (List (String × Json) × List Token)
  | limit + 1, .scalar (.text name) :: .colon :: tokens => do
    let (value, rest) ← read? limit tokens
    match rest with
    | .comma :: rest => do
      let (fields, rest) ← readFields? limit rest
      return ((name, value) :: fields, rest)
    | .closeObject :: rest => return ([(name, value)], rest)
    | _ => none
  | _, _ => none

end

/-- Reads a text that holds one tree and nothing else. -/
def parse? (text : String) : Option Json := do
  let tokens ← Token.scan? text
  match ← read? tokens.length tokens with
  | (tree, []) => some tree
  | _ => none

/-- The escape of a character inside quotes, where one is needed. -/
def escapeChar (c : Char) : List Char :=
  match c with
  | '"' => ['\\', '"']
  | '\\' => ['\\', '\\']
  | '\n' => ['\\', 'n']
  | '\r' => ['\\', 'r']
  | '\t' => ['\\', 't']
  | c =>
    if c.toNat < 32 then
      "\\u00".toList ++ [Nat.digitChar (c.toNat / 16), Nat.digitChar (c.toNat % 16)]
    else
      [c]

/-- A text in quotes. -/
def quote (s : String) : String :=
  String.ofList ('"' :: s.toList.flatMap escapeChar ++ ['"'])

mutual

/-- Writes a tree without spaces. -/
def render : Json → String
  | .null => "null"
  | .bool b => if b then "true" else "false"
  | .integer n => toString n
  | .decimal x => Decimal.ofReal x
  | .text s => quote s
  | .array items => "[" ++ ",".intercalate (renderItems items) ++ "]"
  | .object fields => "\x7b" ++ ",".intercalate (renderFields fields) ++ "\x7d"

/-- Writes each item of an array. -/
def renderItems : List Json → List String
  | [] => []
  | item :: items => render item :: renderItems items

/-- Writes each field of an object. -/
def renderFields : List (String × Json) → List String
  | [] => []
  | (name, value) :: fields => (quote name ++ ":" ++ render value) :: renderFields fields

end

end Json

end ModelGraph
