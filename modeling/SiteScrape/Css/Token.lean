import SiteScrape.Text.Find

/-!
# Tokens of a selector

A selector text is cut into tokens, and the tokens into pieces: a piece is a
token or a bracketed block with the pieces inside. A block that is still open
at the end of the text is closed there. Comments leave nothing behind.
-/

namespace SiteScrape.Css

/-- The kinds of brackets; a call is a name directly followed by a bracket. -/
inductive Bracket where
  | paren
  | square
  | curly
  | call (name : String)
  deriving DecidableEq, Repr

/-- The closing character of a block. -/
def Bracket.closer : Bracket → Char
  | .paren => ')'
  | .square => ']'
  | .curly => '\x7d'
  | .call _ => ')'

inductive Token where
  | ident (name : String)
  /-- A hash whose name can be an identifier. -/
  | hash (name : String)
  | string (s : String)
  /-- A number; `whole` is its value if it is written without fraction and exponent. -/
  | number (signed : Bool) (whole : Option Int)
  | dimension (signed : Bool) (whole : Option Int) (unit : String)
  | blank
  | delim (c : Char)
  /-- One of the two-character operators that end in `=`, by its first character. -/
  | match_ (c : Char)
  | openBlock (b : Bracket)
  | closeBlock (c : Char)
  /-- Any other token. -/
  | other
  /-- A string that is broken off by a line end. -/
  | broken
  deriving DecidableEq, Repr

namespace Token

def isNewline (c : Char) : Bool := c == '\n' || c == '\r' || c == '\x0c'

def isSpace (c : Char) : Bool := c == ' ' || c == '\t' || isNewline c

/-- A character that a name can hold unescaped. -/
def isNameChar (c : Char) : Bool :=
  c.isAlphanum || c == '_' || c == '-' || c == '\x00' || c.toNat ≥ 128

/-- A character that a name can start with unescaped, the hyphen apart. -/
def isNameStart (c : Char) : Bool :=
  c.isAlpha || c == '_' || c == '\x00' || c.toNat ≥ 128

/-- A backslash before `rest` starts an escape. -/
def startsEscape (rest : List Char) : Bool := !(rest.head?.any isNewline)

/-- The text starts with an identifier. -/
def startsIdent : List Char → Bool
  | '-' :: '\\' :: rest => startsEscape rest
  | '-' :: c :: _ => isNameStart c || c == '-'
  | '\\' :: rest => startsEscape rest
  | c :: _ => c != '-' && isNameStart c
  | [] => false

/-- The text starts with a digit, or with a point and a digit. -/
def startsDigits : List Char → Bool
  | '.' :: c :: _ => c.isDigit
  | c :: _ => c.isDigit
  | [] => false

def hexValue (c : Char) : Nat :=
  if c.isDigit then c.toNat - 48 else if 'a' ≤ c && c ≤ 'f' then c.toNat - 87 else c.toNat - 55

def isHex (c : Char) : Bool := c.isDigit || ('a' ≤ c && c ≤ 'f') || ('A' ≤ c && c ≤ 'F')

/-- A character that stands for a missing or impossible one. -/
def replacement : Char := '\ufffd'

/-- What stands for a character of a name. -/
def kept (c : Char) : Char := if c == '\x00' then replacement else c

/-- The character of an escape, and the text behind it; the backslash has been
taken. -/
def escaped (cs : List Char) : Char × List Char :=
  match cs with
  | [] => (replacement, [])
  | c :: rest =>
    if isHex c then
      let digits := (cs.take 6).takeWhile isHex
      let rest := cs.drop digits.length
      let value := digits.foldl (fun n d => n * 16 + hexValue d) 0
      let char := if value = 0 || value > 0x10ffff || (0xd800 ≤ value && value ≤ 0xdfff)
        then replacement else Char.ofNat value
      let rest := match rest with
        | '\r' :: '\n' :: tail => tail
        | d :: tail => if isSpace d then tail else rest
        | [] => []
      (char, rest)
    else (kept c, rest)

/-- The longest name at the start of the text, and what follows. -/
def name : Nat → List Char → List Char × List Char
  | 0, cs => ([], cs)
  | fuel + 1, '\\' :: rest =>
    if startsEscape rest then
      let (c, rest) := escaped rest
      let (cs, rest) := name fuel rest
      (c :: cs, rest)
    else ([], '\\' :: rest)
  | fuel + 1, c :: rest =>
    if isNameChar c then
      let (cs, rest) := name fuel rest
      (kept c :: cs, rest)
    else ([], c :: rest)
  | _ + 1, [] => ([], [])

def nameAt (cs : List Char) : String × List Char :=
  let (n, rest) := name cs.length cs
  (String.ofList n, rest)

/-- The characters of a string up to `quote`; the opening quote has been
taken. A line end breaks the string off. -/
def stringBody (quote : Char) : Nat → List Char → Option (List Char) × List Char
  | 0, cs => (some [], cs)
  | _ + 1, [] => (some [], [])
  | fuel + 1, '\\' :: rest =>
    match rest with
    | [] => (some [], [])
    | '\r' :: '\n' :: tail => stringBody quote fuel tail
    | c :: tail =>
      if isNewline c then stringBody quote fuel tail
      else
        let (d, tail) := escaped (c :: tail)
        let (cs, tail) := stringBody quote fuel tail
        (cs.map (d :: ·), tail)
  | fuel + 1, c :: rest =>
    if c == quote then (some [], rest)
    else if isNewline c then (none, c :: rest)
    else
      let (cs, rest) := stringBody quote fuel rest
      (cs.map (kept c :: ·), rest)

/-- The greatest size of a whole number. -/
def clampWhole (n : Int) : Int := max (-2147483648) (min 2147483647 n)

/-- A number, percentage or dimension at the start of the text. -/
def numeric (cs : List Char) : Token × List Char :=
  let (signed, negative, rest) := match cs with
    | '+' :: rest => (true, false, rest)
    | '-' :: rest => (true, true, rest)
    | _ => (false, false, cs)
  let digits := rest.takeWhile Char.isDigit
  let rest := rest.dropWhile Char.isDigit
  let (fraction, rest) := match rest with
    | '.' :: c :: tail => if c.isDigit then (true, tail.dropWhile Char.isDigit) else (false, rest)
    | _ => (false, rest)
  let (exponent, rest) := match rest with
    | e :: '+' :: c :: tail =>
      if (e == 'e' || e == 'E') && c.isDigit then (true, tail.dropWhile Char.isDigit)
      else (false, rest)
    | e :: '-' :: c :: tail =>
      if (e == 'e' || e == 'E') && c.isDigit then (true, tail.dropWhile Char.isDigit)
      else (false, rest)
    | e :: c :: tail =>
      if (e == 'e' || e == 'E') && c.isDigit then (true, tail.dropWhile Char.isDigit)
      else (false, rest)
    | _ => (false, rest)
  let size : Int := digits.foldl (fun n d => n * 10 + (hexValue d : Int)) 0
  let whole := if fraction || exponent then none
    else some (clampWhole (if negative then -size else size))
  match rest with
  | '%' :: tail => (.other, tail)
  | _ =>
    if startsIdent rest then
      let (unit, rest) := nameAt rest
      (.dimension signed whole unit, rest)
    else (.number signed whole, rest)

/-- The text behind a comment; its opening has been taken. -/
def afterComment : List Char → List Char
  | '*' :: '/' :: rest => rest
  | _ :: rest => afterComment rest
  | [] => []

/-- A name, a call or an address at the start of the text. -/
def identLike (cs : List Char) : Token × List Char :=
  let (n, rest) := nameAt cs
  match rest with
  | '(' :: tail =>
    let quoted := (tail.dropWhile isSpace).head?.any fun c => c == '"' || c == '\''
    if n.toLower == "url" && !quoted then (.other, (tail.dropWhile (· != ')')).drop 1)
    else (.openBlock (.call n), tail)
  | _ => (.ident n, rest)

/-- The first token of the text, if it is not a comment, and what follows. -/
def first (c : Char) (rest : List Char) : Option Token × List Char :=
  let cs := c :: rest
  let operator := fun (c : Char) =>
    match rest with
    | '=' :: tail => (some (Token.match_ c), tail)
    | _ => (some (Token.delim c), rest)
  let take := fun (r : Token × List Char) => (some r.1, r.2)
  if isSpace c then (some .blank, rest.dropWhile isSpace)
  else if c == '"' || c == '\'' then
    let (body, rest) := stringBody c rest.length rest
    (some ((body.map fun s => Token.string (String.ofList s)).getD .broken), rest)
  else if c == '#' then
    if startsIdent rest then
      let (n, rest) := nameAt rest
      (some (.hash n), rest)
    else if rest.head?.any fun d => d.isDigit || d == '-' then (some .other, (nameAt rest).2)
    else (some (.delim '#'), rest)
  else if c == '$' || c == '*' || c == '^' || c == '|' || c == '~' then operator c
  else if c == '(' then (some (.openBlock .paren), rest)
  else if c == '[' then (some (.openBlock .square), rest)
  else if c == '\x7b' then (some (.openBlock .curly), rest)
  else if c == ')' || c == ']' || c == '\x7d' then (some (.closeBlock c), rest)
  else if c == '+' then
    if startsDigits rest then take (numeric cs) else (some (.delim '+'), rest)
  else if c == '-' then
    if startsDigits rest then take (numeric cs)
    else if "->".toList.isPrefixOf rest then (some .other, rest.drop 2)
    else if startsIdent cs then take (identLike cs)
    else (some (.delim '-'), rest)
  else if c == '.' then
    if startsDigits cs then take (numeric cs) else (some (.delim '.'), rest)
  else if c == '/' then
    match rest with
    | '*' :: tail => (none, afterComment tail)
    | _ => (some (.delim '/'), rest)
  else if c.isDigit then take (numeric cs)
  else if c == '<' then
    if "!--".toList.isPrefixOf rest then (some .other, rest.drop 3) else (some (.delim '<'), rest)
  else if c == '@' then
    if startsIdent rest then (some .other, (nameAt rest).2) else (some (.delim '@'), rest)
  else if c == '\\' then
    if startsEscape rest then take (identLike cs) else (some (.delim '\\'), rest)
  else if isNameStart c then take (identLike cs)
  else (some (.delim c), rest)

/-- All tokens of a text. -/
def scan : Nat → List Char → List Token
  | 0, _ => []
  | _ + 1, [] => []
  | fuel + 1, c :: rest =>
    let (token, rest) := first c rest
    match token with
    | some t => t :: scan fuel rest
    | none => scan fuel rest

def ofText (s : String) : List Token := scan s.length s.toList

end Token

/-- A token, or a block with what stands in it. -/
inductive Piece where
  | token (t : Token)
  | block (b : Bracket) (inside : List Piece)

namespace Piece

/-- Pieces that are being gathered: those read so far in the innermost open
block, the last first, and the blocks that are open around them. -/
structure Gathering where
  current : List Piece := []
  outer : List (Bracket × List Piece) := []

/-- One more token. A closing bracket that does not fit the innermost open
block is a token like any other. -/
def Gathering.add (g : Gathering) (t : Token) : Gathering :=
  match t, g.outer with
  | .openBlock b, outer => ⟨[], (b, g.current) :: outer⟩
  | .closeBlock c, (b, before) :: outer =>
    if b.closer == c then ⟨.block b g.current.reverse :: before, outer⟩
    else ⟨.token t :: g.current, g.outer⟩
  | t, outer => ⟨.token t :: g.current, outer⟩

/-- The pieces, with all open blocks closed around `current`. -/
def closeAll (current : List Piece) : List (Bracket × List Piece) → List Piece
  | [] => current.reverse
  | (b, before) :: outer => closeAll (.block b current.reverse :: before) outer

/-- The pieces of a text. -/
def ofText (s : String) : List Piece :=
  let g := (Token.ofText s).foldl Gathering.add {}
  closeAll g.current g.outer

def isBlank : Piece → Bool
  | .token .blank => true
  | _ => false

def isComma : Piece → Bool
  | .token (.delim ',') => true
  | _ => false

mutual

/-- How deep blocks are nested. -/
def depth : Piece → Nat
  | .token _ => 0
  | .block _ inside => depthOf inside + 1

def depthOf : List Piece → Nat
  | [] => 0
  | p :: rest => max p.depth (depthOf rest)

end

mutual

/-- A piece that no reading gets over, such as a stray closing bracket. -/
def isBroken : Piece → Bool
  | .token .broken => true
  | .token (.closeBlock _) => true
  | .token _ => false
  | .block _ inside => hasBroken inside

def hasBroken : List Piece → Bool
  | [] => false
  | p :: rest => p.isBroken || hasBroken rest

end

end Piece

/-- The parts of a list between commas. -/
def splitAtCommas (pieces : List Piece) : List (List Piece) :=
  pieces.foldr (fun p parts =>
    match parts with
    | [] => [[p]]
    | part :: rest => if p.isComma then [] :: part :: rest else (p :: part) :: rest) [[]]

end SiteScrape.Css
