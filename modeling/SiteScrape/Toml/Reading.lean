import SiteScrape.Toml.Scalar
import SiteScrape.Toml.Table

/-!
# Reading TOML

A document is a list of statements, one a line: headers, and values at keys.
-/

namespace SiteScrape.Toml

/-- How deep arrays and tables in braces may be nested. -/
def maxDepth : Nat := 79

/-- A character of a key without quotes. -/
def isKeyChar (c : Char) : Bool := c.isAlphanum || c == '_' || c == '-'

/-- One part of a key. -/
def keyPart? (cs : List Char) : Option (String × List Char) :=
  match cs with
  | '"' :: _ | '\'' :: _ => (lineText? cs).map fun (s, rest) => (String.ofList s, rest)
  | _ =>
    let word := cs.takeWhile isKeyChar
    if word.isEmpty then none else some (String.ofList word, cs.dropWhile isKeyChar)

/-- A key: the way to it, and its last part. -/
def key? : Nat → List Char → Option ((List String × String) × List Char)
  | 0, _ => none
  | fuel + 1, cs => do
    let (part, rest) ← keyPart? (skipSpace cs)
    match skipSpace rest with
    | '.' :: rest =>
      let ((path, last), rest) ← key? fuel rest
      some ((part :: path, last), rest)
    | rest => some (([], part), rest)

/-- Blanks, line ends and comments. -/
def skipGap : Nat → List Char → List Char
  | 0, cs => cs
  | fuel + 1, cs =>
    let rest := afterComment cs
    match afterNewline? rest with
    | some rest => skipGap fuel rest
    | none => rest

mutual

/-- A value; `depth` is how deep values may still be nested. -/
def value? : Nat → Nat → List Char → Option (Json × List Char)
  | 0, _, _ => none
  | fuel + 1, depth, cs =>
    match cs with
    | '"' :: _ | '\'' :: _ => (text? cs).map fun (s, rest) => (.str (String.ofList s), rest)
    | '[' :: rest =>
      match depth with
      | 0 => none
      | depth + 1 => (items? fuel depth rest).map fun (vs, rest) => (.arr vs, rest)
    | '\x7b' :: rest =>
      match depth with
      | 0 => none
      | depth + 1 =>
        match skipSpace rest with
        | '\x7d' :: rest => some (.obj [], rest)
        | rest =>
          (pairs? fuel depth [] rest).map fun (es, rest) => (.obj (entriesToFields es), rest)
    | 't' :: 'r' :: 'u' :: 'e' :: rest => some (.bool true, rest)
    | 'f' :: 'a' :: 'l' :: 's' :: 'e' :: rest => some (.bool false, rest)
    | _ => (moment? cs).or (number? cs)

/-- The items of an array and its closing bracket. -/
def items? : Nat → Nat → List Char → Option (List Json × List Char)
  | 0, _, _ => none
  | fuel + 1, depth, cs =>
    match skipGap cs.length cs with
    | ']' :: rest => some ([], rest)
    | cs => do
      let (v, rest) ← value? fuel depth cs
      match skipGap rest.length rest with
      | ',' :: rest =>
        let (more, rest) ← items? fuel depth rest
        some (v :: more, rest)
      | ']' :: rest => some ([v], rest)
      | _ => none

/-- The pairs of a table in braces and its closing brace. -/
def pairs? : Nat → Nat → Entries → List Char → Option (Entries × List Char)
  | 0, _, _, _ => none
  | fuel + 1, depth, es, cs => do
    let ((path, key), rest) ← key? (cs.length + 1) cs
    let rest ← expect? '=' rest
    let (v, rest) ← value? fuel depth (skipSpace rest)
    let es ← es.addValue path key v
    match skipSpace rest with
    | ',' :: rest => pairs? fuel depth es rest
    | '\x7d' :: rest => some (es, rest)
    | _ => none

end

/-- A statement. -/
inductive Statement where
  | blank
  | pair (path : List String) (key : String) (v : Json)
  | table (path : List String) (key : String)
  /-- One more table of a list. -/
  | tableOf (path : List String) (key : String)

/-- The statement at the start of a text, and what follows on its line. -/
def statement? (cs : List Char) : Option (Statement × List Char) :=
  let fuel := cs.length + 1
  match skipSpace cs with
  | [] => some (.blank, [])
  | '[' :: '[' :: rest => do
    let ((path, key), rest) ← key? fuel rest
    some (.tableOf path key, ← expect? ']' (← expect? ']' rest))
  | '[' :: rest => do
    let ((path, key), rest) ← key? fuel rest
    some (.table path key, ← expect? ']' rest)
  | c :: rest =>
    if c == '#' || c == '\n' || c == '\r' then some (.blank, c :: rest)
    else do
      let ((path, key), rest) ← key? fuel (c :: rest)
      let (v, rest) ← value? fuel maxDepth (skipSpace (← expect? '=' rest))
      some (.pair path key v, rest)

/-- All statements of a text. -/
def statements? : Nat → List Char → Option (List Statement)
  | 0, _ => none
  | fuel + 1, cs => do
    let (s, rest) ← statement? cs
    match afterComment rest with
    | [] => some [s]
    | rest => do
      let more ← statements? fuel (← afterNewline? rest)
      some (s :: more)

/-- The values that follow a header. -/
def fill? (es : Entries) : List Statement → Option Entries
  | .blank :: rest => fill? es rest
  | .pair path key v :: rest => (es.addValue path key v).bind fun es => fill? es rest
  | _ => some es

/-- The tables that follow, each with its values. -/
def tables? (es : Entries) : List Statement → Option Entries
  | [] => some es
  | .table path key :: rest =>
    (es.addTable path key fun t => fill? t rest).bind fun es => tables? es rest
  | .tableOf path key :: rest =>
    (es.addToTables path key fun t => fill? t rest).bind fun es => tables? es rest
  | _ :: rest => tables? es rest

/-- The table that a document spells. Numbers in it need not be finite. -/
def read? (text : String) : Option Json := do
  let cs := match text.toList with
    | '\ufeff' :: rest => rest
    | cs => cs
  let all ← statements? (cs.length + 1) cs
  let es ← tables? (← fill? [] all) all
  some (.obj (entriesToFields es))

mutual

/-- A value with null for numbers that are not finite. -/
def finite : Json → Json
  | .num (.float f) => .ofFloat f
  | .arr items => .arr (finiteItems items)
  | .obj fields => .obj (finiteFields fields)
  | v => v

def finiteItems : List Json → List Json
  | [] => []
  | v :: rest => finite v :: finiteItems rest

def finiteFields : List (String × Json) → List (String × Json)
  | [] => []
  | (key, v) :: rest => (key, finite v) :: finiteFields rest

end

end SiteScrape.Toml
