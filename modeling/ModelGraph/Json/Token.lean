import ModelGraph.Json.Basic
import ModelGraph.Numeral

/-!
# Tokens of data text

Text is cut into punctuation and scalars by a machine that takes one character at a time:
`Scanner.step` says what a character does to the machine, and `Token.scan` runs it.
-/

namespace ModelGraph

namespace Json

/-- A piece of data text. -/
inductive Token where
  | openArray
  | closeArray
  | openObject
  | closeObject
  | colon
  | comma
  /-- A number, a piece of text or one of the three words. -/
  | scalar (value : Json)

/-- Where the scanner stands; texts and words hold what was read of them, latest first. -/
inductive Scanner.Mode where
  /-- Between tokens. -/
  | between
  /-- In a number or a word. -/
  | word (read : List Char)
  /-- In quotes. -/
  | quoted (units : List Nat)
  /-- After a backslash in quotes. -/
  | escape (units : List Nat)
  /-- In the four hexadecimal digits of a character number. -/
  | number (units : List Nat) (missing code : Nat)

/-- The tokens read so far, latest first, and where the scanner stands. -/
structure Scanner where
  /-- The tokens read so far, latest first. -/
  tokens : List Token
  /-- Where the scanner stands. -/
  mode : Scanner.Mode

/-- The number of a hexadecimal digit. -/
def hexDigit? (c : Char) : Option Nat :=
  if c.isDigit then some (c.toNat - '0'.toNat)
  else if 'a' ≤ c ∧ c ≤ 'f' then some (c.toNat - 'a'.toNat + 10)
  else if 'A' ≤ c ∧ c ≤ 'F' then some (c.toNat - 'A'.toNat + 10)
  else none

/-- The magnitude of a decimal with the point `places` digits from the right, times a power
of ten; `none` if it exceeds every finite number. -/
def magnitude? (digits : Nat) (exponent : Int) : Option Float :=
  if digits = 0 ∨ exponent < -2000000 then
    some 0.0
  else if 400 < exponent then
    none
  else
    let x := Float.ofScientific digits (exponent < 0) exponent.natAbs
    if x.isFinite then some x else none

/-- The exponent at the end of a number; no exponent counts as zero. -/
def exponent? : List Char → Option Int
  | [] => some 0
  | mark :: rest =>
    if mark = 'e' ∨ mark = 'E' then
      let (negative, digits) := match rest with
        | '-' :: digits => (true, digits)
        | '+' :: digits => (false, digits)
        | digits => (false, digits)
      (Numeral.read? digits).map fun n => if negative then -(n : Int) else n
    else
      none

/-- Reads a number without its sign. -/
def unsigned? (negative : Bool) (s : List Char) : Option Json :=
  let (whole, rest) := Numeral.span s
  let sign (x : Float) : Json := .decimal (if negative then -x else x)
  if whole = [] ∨ (whole.head? = some '0' ∧ 1 < whole.length) then
    none
  else
    match rest with
    | [] =>
      let n : Int := if negative then -(Numeral.ofDigits whole : Int) else Numeral.ofDigits whole
      if n = 0 ∧ negative then some (.decimal (-0.0))
      else if Int64.minValue.toInt ≤ n ∧ n < UInt64.size then some (.integer n)
      else (magnitude? (Numeral.ofDigits whole) 0).map sign
    | '.' :: rest =>
      let (fraction, rest) := Numeral.span rest
      if fraction = [] then
        none
      else
        (exponent? rest).bind fun exponent =>
          (magnitude? (Numeral.ofDigits (whole ++ fraction)) (exponent - fraction.length)).map sign
    | rest =>
      (exponent? rest).bind fun exponent => (magnitude? (Numeral.ofDigits whole) exponent).map sign

/-- Reads a number or one of the three words. -/
def ofWord? (word : List Char) : Option Json :=
  if word = "null".toList then some .null
  else if word = "true".toList then some (.bool true)
  else if word = "false".toList then some (.bool false)
  else
    match word with
    | '-' :: rest => unsigned? true rest
    | word => unsigned? false word

/-- Whether a 16-bit unit opens a pair that stands for one character. -/
def opensPair (unit : Nat) : Bool :=
  0xd800 ≤ unit && unit < 0xdc00

/-- Whether a 16-bit unit closes a pair. -/
def closesPair (unit : Nat) : Bool :=
  0xdc00 ≤ unit && unit < 0xe000

/-- Appends a character number; two halves of a pair become one character. -/
def pushUnit (unit : Nat) : List Nat → List Nat
  | last :: units =>
    if opensPair last && closesPair unit then
      (0x10000 + (last - 0xd800) * 0x400 + (unit - 0xdc00)) :: units
    else
      unit :: last :: units
  | [] => [unit]

/-- The text of character numbers, latest first; a half of a pair on its own is no text. -/
def ofUnits? (units : List Nat) : Option String :=
  let chars := units.reverse.mapM fun unit =>
    if opensPair unit || closesPair unit then none else some (Char.ofNat unit)
  chars.map String.ofList

/-- The character that an escape of one letter stands for. -/
def unescape? : Char → Option Char
  | '"' => some '"'
  | '\\' => some '\\'
  | '/' => some '/'
  | 'b' => some '\x08'
  | 'f' => some '\x0c'
  | 'n' => some '\n'
  | 'r' => some '\r'
  | 't' => some '\t'
  | _ => none

/-- The token that a punctuation character is. -/
def punctuation? : Char → Option Token
  | '[' => some .openArray
  | ']' => some .closeArray
  | '{' => some .openObject
  | '}' => some .closeObject
  | ':' => some .colon
  | ',' => some .comma
  | _ => none

/-- Whether a character separates tokens and is none. -/
def isBlank (c : Char) : Bool :=
  c = ' ' || c = '\n' || c = '\r' || c = '\t'

/-- Takes a character between tokens. -/
def Scanner.start (tokens : List Token) (c : Char) : Scanner :=
  if isBlank c then ⟨tokens, .between⟩
  else if c = '"' then ⟨tokens, .quoted []⟩
  else
    match punctuation? c with
    | some token => ⟨token :: tokens, .between⟩
    | none => ⟨tokens, .word [c]⟩

/-- Takes one character. -/
def Scanner.step (s : Scanner) (c : Char) : Option Scanner :=
  match s.mode with
  | .between => some (start s.tokens c)
  | .word read =>
    if isBlank c || (punctuation? c).isSome || c = '"' then
      (ofWord? read.reverse).map fun value => start (.scalar value :: s.tokens) c
    else
      some { s with mode := .word (c :: read) }
  | .quoted units =>
    if c = '"' then
      (ofUnits? units).map fun text => ⟨.scalar (.text text) :: s.tokens, .between⟩
    else if c = '\\' then
      some { s with mode := .escape units }
    else if c.toNat < 32 then
      none
    else
      some { s with mode := .quoted (c.toNat :: units) }
  | .escape units =>
    if c = 'u' then
      some { s with mode := .number units 4 0 }
    else
      (unescape? c).map fun c => { s with mode := .quoted (c.toNat :: units) }
  | .number units missing code =>
    (hexDigit? c).map fun digit =>
      let code := 16 * code + digit
      if missing ≤ 1 then
        { s with mode := .quoted (pushUnit code units) }
      else
        { s with mode := .number units (missing - 1) code }

/-- The tokens of a text. -/
def Token.scan? (text : String) : Option (List Token) := do
  let s ← text.toList.foldlM Scanner.step ⟨[], .between⟩
  match s.mode with
  | .between => some s.tokens.reverse
  | .word read => (ofWord? read.reverse).map fun value => (.scalar value :: s.tokens).reverse
  | _ => none

end Json

end ModelGraph
