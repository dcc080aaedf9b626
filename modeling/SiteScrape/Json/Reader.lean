import SiteScrape.Json.Basic
import SiteScrape.Decimal.Reading

/-!
# Reading JSON text

A text is cut into tokens, and the tokens drive a stack of open arrays and
objects. Both passes go once over their input. Nesting deeper than 127 levels
is refused.
-/

namespace SiteScrape.Json

/-- A lexical unit. -/
inductive Token where
  | openArray
  | closeArray
  | openObject
  | closeObject
  | colon
  | comma
  | text (s : String)
  | value (v : Json)

/-- Reads digits off the front. -/
def takeDigits (cs : List Char) : List Char × List Char :=
  (cs.takeWhile Char.isDigit, cs.dropWhile Char.isDigit)

/-- Digits collected into 64 bits, and where the point then stands. -/
structure Significand where
  digits : Nat
  exponent : Int

/-- Adds digits as long as they fit 64 bits; from the first that does not, whole
digits only move the point and fraction digits are dropped. -/
def collectWhole (n : Nat) : List Char → Significand
  | [] => ⟨n, 0⟩
  | c :: rest =>
    let next := 10 * n + (c.toNat - '0'.toNat)
    if next < 0x10000000000000000 then collectWhole next rest else ⟨n, rest.length + 1⟩

def collectFraction (s : Significand) : List Char → Significand
  | [] => s
  | c :: rest =>
    let next := 10 * s.digits + (c.toNat - '0'.toNat)
    if next < 0x10000000000000000 then collectFraction ⟨next, s.exponent - 1⟩ rest else s

/-- The largest exponent that is told apart from infinity. -/
def exponentLimit : Nat := 0x7fffffff

/-- The number `± whole.fraction · 10^exponent`. -/
def decimalNumber (negative : Bool) (whole fraction : List Char) (exponentNegative : Bool)
    (exponent : List Char) : Option Number :=
  let s := collectFraction (collectWhole 0 whole) fraction
  let e := Decimal.natOf exponent
  let value? : Option Float :=
    if e > exponentLimit then
      if s.digits ≠ 0 && !exponentNegative then none else some 0.0
    else
      let shift : Int := if exponentNegative then -(e : Int) else e
      let shift := max (-0x80000000) (min 0x7fffffff (s.exponent + shift))
      Decimal.scaled (shift.natAbs / 308 + 1) (Float.ofNat s.digits)
        shift
  value?.map fun f => .float (if negative then -f else f)

/-- A whole number if 64 bits hold it, else a double; minus zero is a double. -/
def wholeNumber (negative : Bool) (whole : List Char) : Option Number :=
  let n := Decimal.natOf whole
  if negative then
    if h : 0 < n ∧ n ≤ 0x8000000000000000 then some (.int (-(n : Int)) (by omega) (by omega))
    else decimalNumber true whole [] false []
  else if h : n < 0x10000000000000000 then some (.int n (by omega) (by omega))
  else decimalNumber false whole [] false []

/-- Reads a minus sign off the front. -/
def takeMinus : List Char → Bool × List Char
  | '-' :: rest => (true, rest)
  | cs => (false, cs)

/-- Reads the sign of an exponent off the front; true for a minus. -/
def takeSign : List Char → Bool × List Char
  | '-' :: rest => (true, rest)
  | '+' :: rest => (false, rest)
  | cs => (false, cs)

/-- Reads a number off its whole text. -/
def number? (cs : List Char) : Option Number :=
  let (negative, cs) := takeMinus cs
  let (whole, rest) := takeDigits cs
  if whole.isEmpty || (whole.head? == some '0' && whole.length ≠ 1) then none
  else
    match rest with
    | [] => wholeNumber negative whole
    | '.' :: rest =>
      let (fraction, rest) := takeDigits rest
      if fraction.isEmpty then none
      else
        match rest with
        | [] => decimalNumber negative whole fraction false []
        | e :: rest => exponentPart negative whole fraction e rest
    | e :: rest => exponentPart negative whole [] e rest
where
  /-- The exponent that `e` opens. -/
  exponentPart (negative : Bool) (whole fraction : List Char) (e : Char) (rest : List Char) :
      Option Number :=
    if e = 'e' || e = 'E' then
      let (exponentNegative, rest) := takeSign rest
      let (exponent, rest) := takeDigits rest
      if exponent.isEmpty || !rest.isEmpty then none
      else decimalNumber negative whole fraction exponentNegative exponent
    else none

/-- A bare word or a number. -/
def bareValue? (cs : List Char) : Option Json :=
  if cs = ['n', 'u', 'l', 'l'] then some .null
  else if cs = ['t', 'r', 'u', 'e'] then some (.bool true)
  else if cs = ['f', 'a', 'l', 's', 'e'] then some (.bool false)
  else (number? cs).map .num

/-- The value of a hexadecimal digit. -/
def hexValue? (c : Char) : Option Nat :=
  if '0' ≤ c && c ≤ '9' then some (c.toNat - '0'.toNat)
  else if 'a' ≤ c && c ≤ 'f' then some (c.toNat - 'a'.toNat + 10)
  else if 'A' ≤ c && c ≤ 'F' then some (c.toNat - 'A'.toNat + 10)
  else none

/-- Where the lexer stands. Texts and words are collected in reverse. -/
inductive LexState where
  | between
  | bare (word : List Char)
  | text (soFar : List Char)
  | escape (soFar : List Char)
  /-- Inside `\u`: a leading surrogate already read, the value and the number of digits. -/
  | hex (soFar : List Char) (leading : Option Nat) (value digits : Nat)
  /-- A leading surrogate has been read; a backslash must follow. -/
  | pairBackslash (soFar : List Char) (leading : Nat)
  | pairLetter (soFar : List Char) (leading : Nat)

/-- A character of its own token, or the start of a longer one. -/
def startToken (c : Char) (tokens : List Token) : Option (LexState × List Token) :=
  match c with
  | ' ' | '\n' | '\r' | '\t' => some (.between, tokens)
  | '[' => some (.between, .openArray :: tokens)
  | ']' => some (.between, .closeArray :: tokens)
  | '\x7b' => some (.between, .openObject :: tokens)
  | '\x7d' => some (.between, .closeObject :: tokens)
  | ':' => some (.between, .colon :: tokens)
  | ',' => some (.between, .comma :: tokens)
  | '"' => some (.text [], tokens)
  | c => if c.isAlphanum || c = '-' then some (.bare [c], tokens) else none

/-- A character that may stand in a number or a bare word. -/
def isBareChar (c : Char) : Bool :=
  c.isAlphanum || c = '-' || c = '+' || c = '.'

/-- The character of a short escape. -/
def shortEscape? (c : Char) : Option Char :=
  match c with
  | '"' => some '"'
  | '\\' => some '\\'
  | '/' => some '/'
  | 'b' => some '\x08'
  | 'f' => some '\x0c'
  | 'n' => some '\n'
  | 'r' => some '\r'
  | 't' => some '\t'
  | _ => none

/-- The state after the four digits of an escape. -/
def finishHex (soFar : List Char) (leading : Option Nat) (value : Nat) : Option LexState :=
  match leading with
  | none =>
    if 0xDC00 ≤ value && value ≤ 0xDFFF then none
    else if 0xD800 ≤ value && value ≤ 0xDBFF then some (.pairBackslash soFar value)
    else some (.text (Char.ofNat value :: soFar))
  | some lead =>
    if 0xDC00 ≤ value && value ≤ 0xDFFF then
      some (.text (Char.ofNat ((lead - 0xD800) * 1024 + (value - 0xDC00) + 0x10000) :: soFar))
    else none

/-- One character of the lexer; the tokens are collected in reverse. -/
def lexStep (st : LexState × List Token) (c : Char) : Option (LexState × List Token) :=
  let tokens := st.2
  match st.1 with
  | .between => startToken c tokens
  | .bare word =>
    if isBareChar c then some (.bare (c :: word), tokens)
    else do
      let v ← bareValue? word.reverse
      startToken c (.value v :: tokens)
  | .text soFar =>
    if c = '"' then some (.between, .text (String.ofList soFar.reverse) :: tokens)
    else if c = '\\' then some (.escape soFar, tokens)
    else if c.toNat < 32 then none
    else some (.text (c :: soFar), tokens)
  | .escape soFar =>
    if c = 'u' then some (.hex soFar none 0 0, tokens)
    else (shortEscape? c).map fun e => (.text (e :: soFar), tokens)
  | .hex soFar leading value digits => do
    let value := value * 16 + (← hexValue? c)
    if digits = 3 then (finishHex soFar leading value).map (·, tokens)
    else some (.hex soFar leading value (digits + 1), tokens)
  | .pairBackslash soFar leading =>
    if c = '\\' then some (.pairLetter soFar leading, tokens) else none
  | .pairLetter soFar leading =>
    if c = 'u' then some (.hex soFar (some leading) 0 0, tokens) else none

/-- The tokens of a text. -/
def lex (cs : List Char) : Option (List Token) := do
  let (st, tokens) ← cs.foldlM lexStep (.between, [])
  match st with
  | .between => some tokens.reverse
  | .bare word => (bareValue? word.reverse).map fun v => (.value v :: tokens).reverse
  | _ => none

/-- An open array or object with what it holds so far, in reverse. -/
inductive Frame where
  | array (items : List Json)
  | object (fields : List (String × Json)) (key : String)

/-- What may come next. -/
inductive Expect where
  | value
  | valueOrClose
  | key (fields : List (String × Json))
  | keyOrClose
  | colon (fields : List (String × Json)) (key : String)
  | commaOrClose
  | done (v : Json)

/-- The open containers, innermost first, and what may come next. -/
structure ReadState where
  stack : List Frame
  expect : Expect

/-- The greatest number of containers inside one another. -/
def maxDepth : Nat := 127

/-- Puts a finished value into the innermost container. -/
def ReadState.finish (stack : List Frame) (v : Json) : ReadState :=
  match stack with
  | [] => ⟨[], .done v⟩
  | .array items :: rest => ⟨.array (v :: items) :: rest, .commaOrClose⟩
  | .object fields key :: rest => ⟨.object ((key, v) :: fields) key :: rest, .commaOrClose⟩

/-- A token where a value is expected. -/
def ReadState.readValue (stack : List Frame) : Token → Option ReadState
  | .openArray => if stack.length < maxDepth then some ⟨.array [] :: stack, .valueOrClose⟩ else none
  | .openObject =>
    if stack.length < maxDepth then some ⟨.object [] "" :: stack, .keyOrClose⟩ else none
  | .text s => some (.finish stack (.str s))
  | .value v => some (.finish stack v)
  | _ => none

/-- One token of the reader. -/
def ReadState.step (st : ReadState) (t : Token) : Option ReadState :=
  match st.expect, t, st.stack with
  | .valueOrClose, .closeArray, .array items :: rest => some (.finish rest (.arr items.reverse))
  | .valueOrClose, t, stack => ReadState.readValue stack t
  | .value, t, stack => ReadState.readValue stack t
  | .keyOrClose, .closeObject, .object fields _ :: rest =>
    some (.finish rest (.obj fields.reverse))
  | .keyOrClose, .text key, .object fields _ :: rest => some ⟨rest, .colon fields key⟩
  | .key fields, .text key, rest => some ⟨rest, .colon fields key⟩
  | .colon fields key, .colon, rest => some ⟨.object fields key :: rest, .value⟩
  | .commaOrClose, .comma, .array items :: rest => some ⟨.array items :: rest, .value⟩
  | .commaOrClose, .comma, .object fields _ :: rest => some ⟨rest, .key fields⟩
  | .commaOrClose, .closeArray, .array items :: rest => some (.finish rest (.arr items.reverse))
  | .commaOrClose, .closeObject, .object fields _ :: rest =>
    some (.finish rest (.obj fields.reverse))
  | _, _, _ => none

/-- The value of a text, with repeated keys kept. -/
def parseEntries (s : String) : Option Json := do
  let st ← (← lex s.toList).foldlM ReadState.step ⟨[], .value⟩
  match st.expect with
  | .done v => some v
  | _ => none

/-- The value of a text; a repeated key keeps its first place and its last value. -/
def parse (s : String) : Option Json :=
  (parseEntries s).map distinct

end SiteScrape.Json
