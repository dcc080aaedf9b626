import SiteScrape.Pattern.Syntax
import SiteScrape.Text.Blank
import SiteScrape.Text.Find
import SiteScrape.Decimal.Reading

/-!
# Reading patterns

The usual syntax of regular expressions without look-around, back references,
nested classes or Unicode properties; a pattern that uses one is refused. The
reader keeps the terms of every open group on a stack and goes once over the
pattern.
-/

namespace SiteScrape.Pattern

/-- The settings that `(?...)` changes. -/
structure Settings where
  ignoreCase : Bool := false
  multiLine : Bool := false
  dotAll : Bool := false
  swapGreed : Bool := false
  crlf : Bool := false
  verbose : Bool := false
  deriving DecidableEq, Repr

/-- An open group: its number if it captures, the settings to go back to, the
finished alternatives and the terms of the current one, both in reverse. -/
structure OpenGroup where
  index : Option Nat
  outer : Settings
  alternatives : List Node
  terms : List Node

/-- What has been read: the open groups, innermost first, the settings, the
number of capturing groups and their names. -/
structure ReadState where
  groups : List OpenGroup
  settings : Settings
  captures : Nat
  names : List String

/-- Skips blanks and comments where the settings say so. -/
def skipSpace (verbose : Bool) (comment : Bool) : List Char → List Char
  | [] => []
  | c :: rest =>
    if !verbose then c :: rest
    else if comment then skipSpace verbose (c ≠ '\n') rest
    else if Text.isBlank c then skipSpace verbose false rest
    else if c = '#' then skipSpace verbose true rest
    else c :: rest

/-- Digits, letters and blanks of the classes `\d`, `\s` and `\w`. -/
def digitRanges : List (Char × Char) := [('0', '9')]

def spaceRanges : List (Char × Char) := [('\t', '\r'), (' ', ' ')]

def wordRanges : List (Char × Char) := [('0', '9'), ('A', 'Z'), ('_', '_'), ('a', 'z')]

/-- The ranges of a named class. -/
def namedRanges? (name : String) : Option (List (Char × Char)) :=
  match name with
  | "alnum" => some [('0', '9'), ('A', 'Z'), ('a', 'z')]
  | "alpha" => some [('A', 'Z'), ('a', 'z')]
  | "ascii" => some [('\x00', '\x7f')]
  | "blank" => some [('\t', '\t'), (' ', ' ')]
  | "cntrl" => some [('\x00', '\x1f'), ('\x7f', '\x7f')]
  | "digit" => some digitRanges
  | "graph" => some [('!', '~')]
  | "lower" => some [('a', 'z')]
  | "print" => some [(' ', '~')]
  | "punct" => some [('!', '/'), (':', '@'), ('[', '\x60'), ('\x7b', '~')]
  | "space" => some spaceRanges
  | "upper" => some [('A', 'Z')]
  | "word" => some wordRanges
  | "xdigit" => some [('0', '9'), ('A', 'F'), ('a', 'f')]
  | _ => none

/-- The characters between the given ranges, in order. -/
def complement (ranges : List (Char × Char)) : List (Char × Char) :=
  let sorted := ranges.mergeSort fun a b => a.1 ≤ b.1
  let step (acc : Nat × List (Nat × Nat)) (r : Char × Char) : Nat × List (Nat × Nat) :=
    let gap := if acc.1 < r.1.toNat then [(acc.1, r.1.toNat - 1)] else []
    (max acc.1 (r.2.toNat + 1), acc.2 ++ gap)
  let (next, gaps) := sorted.foldl step (0, [])
  let gaps := if next ≤ 0x10FFFF then gaps ++ [(next, 0x10FFFF)] else gaps
  gaps.flatMap fun (a, b) =>
    -- the gap of the surrogates has no characters
    if a < 0xD800 && b > 0xDFFF then
      [(Char.ofNat a, Char.ofNat 0xD7FF), (Char.ofNat 0xE000, Char.ofNat b)]
    else [(Char.ofNat a, Char.ofNat b)]

/-- What an escape stands for. -/
inductive Escape where
  | char (c : Char)
  | ranges (rs : List (Char × Char))
  | look (l : Look)

/-- Punctuation that a backslash makes plain. -/
def isEscapable (c : Char) : Bool :=
  c.toNat < 128 && !c.isAlphanum && c ≠ '<' && c ≠ '>'

/-- The value of a hexadecimal digit. -/
def hexValue? (c : Char) : Option Nat :=
  if '0' ≤ c && c ≤ '9' then some (c.toNat - '0'.toNat)
  else if 'a' ≤ c && c ≤ 'f' then some (c.toNat - 'a'.toNat + 10)
  else if 'A' ≤ c && c ≤ 'F' then some (c.toNat - 'A'.toNat + 10)
  else none

/-- The character with the code that the digits spell. -/
def hexChar? (digits : List Char) : Option Char := do
  if digits.isEmpty then none
  let n ← digits.foldlM (fun n c => (hexValue? c).map (n * 16 + ·)) 0
  if n < 0xD800 || (0xDFFF < n && n ≤ 0x10FFFF) then some (Char.ofNat n) else none

/-- The character behind `\x`, `\u` or `\U`: a fixed number of digits, or any
number between braces. -/
def hexEscape? (verbose : Bool) (count : Nat) (cs : List Char) : Option (Escape × List Char) :=
  match skipSpace verbose false cs with
  | '\x7b' :: rest =>
    let digits := rest.takeWhile (· ≠ '\x7d')
    match rest.dropWhile (· ≠ '\x7d') with
    | _ :: rest =>
      let digits := if verbose then digits.filter (!Text.isBlank ·) else digits
      (hexChar? digits).map (.char ·, rest)
    | [] => none
  | cs =>
    if cs.length < count then none
    else (hexChar? (cs.take count)).map (.char ·, cs.drop count)

/-- A named kind of word boundary between braces. -/
def namedBoundary? (name : String) : Option Look :=
  match name with
  | "start" => some .wordStart
  | "end" => some .wordEnd
  | "start-half" => some .wordStartHalf
  | "end-half" => some .wordEndHalf
  | _ => none

/-- The boundary behind `\b`. A brace opens a kind only if letters follow it. -/
def boundary? (cs : List Char) : Option (Escape × List Char) :=
  match cs with
  | '\x7b' :: rest =>
    let name := rest.takeWhile fun c => c.isAlpha || c = '-'
    if name.isEmpty then some (.look .wordBoundary, cs)
    else
      match rest.drop name.length with
      | '\x7d' :: rest => (namedBoundary? (String.ofList name)).map (.look ·, rest)
      | _ => none
  | cs => some (.look .wordBoundary, cs)

/-- What follows a backslash. -/
def escape? (verbose : Bool) (cs : List Char) : Option (Escape × List Char) :=
  match cs with
  | [] => none
  | c :: rest =>
    match c with
    | 'x' => hexEscape? verbose 2 rest
    | 'u' => hexEscape? verbose 4 rest
    | 'U' => hexEscape? verbose 8 rest
    | 'd' => some (.ranges digitRanges, rest)
    | 's' => some (.ranges spaceRanges, rest)
    | 'w' => some (.ranges wordRanges, rest)
    | 'D' => some (.ranges (complement digitRanges), rest)
    | 'S' => some (.ranges (complement spaceRanges), rest)
    | 'W' => some (.ranges (complement wordRanges), rest)
    | 'a' => some (.char '\x07', rest)
    | 'f' => some (.char '\x0c', rest)
    | 't' => some (.char '\t', rest)
    | 'n' => some (.char '\n', rest)
    | 'r' => some (.char '\r', rest)
    | 'v' => some (.char '\x0b', rest)
    | 'A' => some (.look .start, rest)
    | 'z' => some (.look .finish, rest)
    | 'b' => boundary? rest
    | 'B' => some (.look .notWordBoundary, rest)
    | '<' => some (.look .wordStart, rest)
    | '>' => some (.look .wordEnd, rest)
    | c => if isEscapable c then some (.char c, rest) else none

/-- A character or a set inside a class. -/
def classItem? (verbose : Bool) : List Char → Option (Escape × List Char)
  | [] => none
  | '\\' :: rest => escape? verbose rest
  | c :: rest => some (.char c, rest)

/-- A class such as `[:alpha:]` or `[:^alpha:]` behind its first bracket. -/
def posixClass? (cs : List Char) : Option (List (Char × Char) × List Char) := do
  let (body, rest) ← Text.cut [':', ']'] (← Text.afterLead [':'] cs)
  match body with
  | '^' :: name => some (complement (← namedRanges? (String.ofList name)), rest)
  | name => some (← namedRanges? (String.ofList name), rest)

/-- The ranges of a class item. -/
def Escape.asRanges? : Escape → Option (List (Char × Char))
  | .char c => some [(c, c)]
  | .ranges rs => some rs
  | .look _ => none

/-- The items of a class up to its closing bracket. -/
def classItems (fuel : Nat) (verbose : Bool) (ranges : List (Char × Char)) (cs : List Char) :
    Option (List (Char × Char) × List Char) :=
  match fuel with
  | 0 => none
  | fuel + 1 =>
    match skipSpace verbose false cs with
    | [] => none
    | ']' :: rest => some (ranges, rest)
    | '[' :: rest => do
      let (rs, rest) ← posixClass? rest
      classItems fuel verbose (ranges ++ rs) rest
    | '&' :: '&' :: _ => none
    | '-' :: '-' :: _ => none
    | '~' :: '~' :: _ => none
    | cs => do
      let (first, rest) ← classItem? verbose cs
      let alone (rest : List Char) : Option (List (Char × Char) × List Char) := do
        classItems fuel verbose (ranges ++ (← first.asRanges?)) rest
      match skipSpace verbose false rest with
      | [] => none
      | '-' :: behind =>
        match skipSpace verbose false behind with
        | [] => none
        | c :: behind =>
          if c = ']' || c = '-' then alone rest
          else do
            let (last, rest) ← classItem? verbose (c :: behind)
            match first, last with
            | .char a, .char b =>
              if a ≤ b then classItems fuel verbose (ranges ++ [(a, b)]) rest else none
            | _, _ => none
      | rest => alone rest

/-- Hyphens at the start of a class. -/
def leadingHyphens (verbose : Bool) (ranges : List (Char × Char)) :
    List Char → List (Char × Char) × List Char
  | '-' :: rest => leadingHyphens verbose (ranges ++ [('-', '-')]) rest
  | cs => (ranges, cs)

/-- A class behind its opening bracket. -/
def class? (s : Settings) (cs : List Char) : Option (Node × List Char) := do
  let cs := skipSpace s.verbose false cs
  let (negated, cs) := match cs with
    | '^' :: rest => (true, skipSpace s.verbose false rest)
    | cs => (false, cs)
  let (ranges, cs) := leadingHyphens s.verbose [] cs
  let (ranges, cs) := match ranges, cs with
    | [], ']' :: rest => ([(']', ']')], rest)
    | ranges, cs => (ranges, cs)
  let (ranges, rest) ← classItems (cs.length + 1) s.verbose ranges cs
  let set : CharSet := ⟨ranges, negated⟩
  some (.chars (if s.ignoreCase then set.foldCase else set), rest)

/-- A literal character. -/
def literal (s : Settings) (c : Char) : Node :=
  .chars (if s.ignoreCase then .bothCases c else .single c)

/-- Digits with blanks around them. -/
def count? (verbose : Bool) (cs : List Char) : Option (Nat × List Char) :=
  let cs := skipSpace verbose false (cs.dropWhile Text.isBlank)
  let digits := cs.takeWhile Char.isDigit
  let n := Decimal.natOf digits
  if digits.isEmpty || n ≥ 0x100000000 then none
  else some (n, skipSpace verbose false ((cs.drop digits.length).dropWhile Text.isBlank))

/-- The bounds of a counted repetition behind its opening brace. -/
def bounds? (verbose : Bool) (cs : List Char) : Option (Nat × Option Nat × List Char) := do
  let (min, rest) ← count? verbose cs
  match rest with
  | '\x7d' :: rest => some (min, some min, rest)
  | ',' :: rest =>
    match skipSpace verbose false rest with
    | '\x7d' :: rest => some (min, none, rest)
    | rest =>
      let (max, rest) ← count? verbose rest
      match rest with
      | '\x7d' :: rest => if min ≤ max then some (min, some max, rest) else none
      | _ => none
  | _ => none

/-- Puts a term into the current alternative. -/
def ReadState.push (st : ReadState) (n : Node) : ReadState :=
  match st.groups with
  | g :: rest => { st with groups := { g with terms := n :: g.terms } :: rest }
  | [] => st

/-- Repeats the last term. -/
def ReadState.repeatLast (st : ReadState) (min : Nat) (max : Option Nat) (rest : List Char) :
    Option (ReadState × List Char) :=
  let cs := skipSpace st.settings.verbose false rest
  let (lazy, rest) := match cs with
    | '?' :: rest => (true, rest)
    | cs => (false, cs)
  match st.groups with
  | g :: outer =>
    match g.terms with
    | t :: terms =>
      let term := Node.repetition min max (lazy == st.settings.swapGreed) t
      some ({ st with groups := { g with terms := term :: terms } :: outer }, rest)
    | [] => none
  | [] => none

/-- The alternatives of a group as one term. -/
def OpenGroup.close (g : OpenGroup) : Node :=
  let last := Node.sequence g.terms.reverse
  match g.alternatives with
  | [] => last
  | alternatives => .choice (last :: alternatives).reverse

/-- Whether a flag is known, and the settings with it. -/
def flag? (s : Settings) (c : Char) (on : Bool) : Option Settings :=
  match c with
  | 'i' => some { s with ignoreCase := on }
  | 'm' => some { s with multiLine := on }
  | 's' => some { s with dotAll := on }
  | 'U' => some { s with swapGreed := on }
  | 'R' => some { s with crlf := on }
  | 'x' => some { s with verbose := on }
  | 'u' => some s
  | _ => none

/-- Flags up to a colon or closing bracket, each at most once. -/
def flags? (s : Settings) (seen : List Char) : List Char → Option (Settings × Char × List Char)
  | [] => none
  | c :: rest =>
    if c = ':' then if seen.head? = some '-' then none else some (s, ':', rest)
    else if c = ')' then
      if seen.head? = some '-' || seen.isEmpty then none else some (s, ')', rest)
    else if seen.contains c then none
    else if c = '-' then flags? s (c :: seen) rest
    else
      match flag? s c (!seen.contains '-') with
      | some s => flags? s (c :: seen) rest
      | none => none

/-- A character of a group name. -/
def isNameChar (first : Bool) (c : Char) : Bool :=
  c = '_' || c.isAlpha || c.toNat ≥ 128 ||
  (!first && (c.isDigit || c = '.' || c = '[' || c = ']'))

/-- A group name and what follows its closing bracket. -/
def groupName? (cs : List Char) : Option (String × List Char) :=
  let name := cs.takeWhile (· ≠ '>')
  match name, cs.drop name.length with
  | c :: more, _ :: rest =>
    if isNameChar true c && more.all (isNameChar false) then some (String.ofList name, rest)
    else none
  | _, _ => none

/-- The greatest depth of groups. -/
def maxDepth : Nat := 50

/-- Opens a capturing group. -/
def ReadState.openCapture (st : ReadState) (rest : List Char) : ReadState × List Char :=
  let index := st.captures + 1
  ({ st with groups := ⟨some index, st.settings, [], []⟩ :: st.groups, captures := index }, rest)

/-- What an opening bracket begins. -/
def ReadState.openGroup (st : ReadState) (cs : List Char) : Option (ReadState × List Char) := do
  if st.groups.length > maxDepth then none
  let cs := skipSpace st.settings.verbose false cs
  let named (rest : List Char) : Option (ReadState × List Char) := do
    let (name, rest) ← groupName? rest
    if st.names.contains name then none
    some (({ st with names := name :: st.names }).openCapture rest)
  match cs with
  | '?' :: '=' :: _ => none
  | '?' :: '!' :: _ => none
  | '?' :: '<' :: '=' :: _ => none
  | '?' :: '<' :: '!' :: _ => none
  | '?' :: 'P' :: '<' :: rest => named rest
  | '?' :: '<' :: rest => named rest
  | '?' :: rest =>
    let (settings, stop, rest) ← flags? st.settings [] rest
    if stop = ')' then some ({ st with settings }, rest)
    else some ({ st with groups := ⟨none, st.settings, [], []⟩ :: st.groups, settings }, rest)
  | cs => some (st.openCapture cs)

/-- Closes the innermost group. -/
def ReadState.closeGroup (st : ReadState) (rest : List Char) : Option (ReadState × List Char) :=
  match st.groups with
  | g :: outer :: groups =>
    let body := g.close
    let term := match g.index with
      | some i => Node.group i body
      | none => body
    some (({ st with groups := outer :: groups, settings := g.outer }).push term, rest)
  | _ => none

/-- The position that `^` names. -/
def anchorStart (s : Settings) : Look :=
  if s.multiLine then if s.crlf then .lineStartCrlf else .lineStart else .start

/-- The position that `$` names. -/
def anchorEnd (s : Settings) : Look :=
  if s.multiLine then if s.crlf then .lineEndCrlf else .lineEnd else .finish

/-- The characters that a dot stands for. -/
def dotSet (s : Settings) : CharSet :=
  if s.dotAll then ⟨[], true⟩
  else if s.crlf then ⟨[('\n', '\n'), ('\r', '\r')], true⟩
  else ⟨[('\n', '\n')], true⟩

/-- Reads one term, or one mark between terms. -/
def ReadState.readOne (st : ReadState) (c : Char) (rest : List Char) :
    Option (ReadState × List Char) :=
  let s := st.settings
  match c with
  | '(' => st.openGroup rest
  | ')' => st.closeGroup rest
  | '|' =>
    match st.groups with
    | g :: outer =>
      let g := { g with alternatives := .sequence g.terms.reverse :: g.alternatives, terms := [] }
      some ({ st with groups := g :: outer }, rest)
    | [] => none
  | '[' => (class? s rest).map fun (n, rest) => (st.push n, rest)
  | '?' => st.repeatLast 0 (some 1) rest
  | '*' => st.repeatLast 0 none rest
  | '+' => st.repeatLast 1 none rest
  | '\x7b' => (bounds? s.verbose (skipSpace s.verbose false rest)).bind fun (min, max, rest) =>
      st.repeatLast min max rest
  | '.' => some (st.push (.chars (dotSet s)), rest)
  | '^' => some (st.push (.look (anchorStart s)), rest)
  | '$' => some (st.push (.look (anchorEnd s)), rest)
  | '\\' => (escape? s.verbose rest).map fun (e, rest) =>
      match e with
      | .char c => (st.push (literal s c), rest)
      | .ranges rs =>
        let set : CharSet := ⟨rs, false⟩
        (st.push (.chars (if s.ignoreCase then set.foldCase else set)), rest)
      | .look l => (st.push (.look l), rest)
  | c => some (st.push (literal s c), rest)

/-- Reads all terms; every step takes at least one character. -/
def ReadState.readAll (fuel : Nat) (st : ReadState) (cs : List Char) : Option ReadState :=
  match fuel with
  | 0 => none
  | fuel + 1 =>
    match skipSpace st.settings.verbose false cs with
    | [] => some st
    | c :: rest => do
      let (st, rest) ← st.readOne c rest
      st.readAll fuel rest

/-- A pattern with the number of its capturing groups. -/
structure Source where
  root : Node
  captures : Nat

/-- The pattern that a text spells. -/
def read? (s : String) : Option Source := do
  let cs := s.toList
  let st ← ReadState.readAll (cs.length + 1) ⟨[⟨none, {}, [], []⟩], {}, 0, []⟩ cs
  match st.groups with
  | [g] => some ⟨g.close, st.captures⟩
  | _ => none

end SiteScrape.Pattern
