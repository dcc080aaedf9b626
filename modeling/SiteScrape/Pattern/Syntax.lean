/-!
# Patterns

The terms of regular expressions: character sets, positions, repetitions,
groups. Classes such as `\d` cover ASCII only, and so does the setting that
ignores case.
-/

namespace SiteScrape.Pattern

/-- A set of characters: those in one of the ranges, or all others. -/
structure CharSet where
  ranges : List (Char × Char)
  negated : Bool
  deriving DecidableEq, Repr

namespace CharSet

def has (s : CharSet) (c : Char) : Bool :=
  (s.ranges.any fun (lo, hi) => lo ≤ c && c ≤ hi) != s.negated

/-- One character alone. -/
def single (c : Char) : CharSet := ⟨[(c, c)], false⟩

/-- The other case of an ASCII letter, and the letter itself. -/
def bothCases (c : Char) : CharSet :=
  if c.isAlpha then ⟨[(c.toLower, c.toLower), (c.toUpper, c.toUpper)], false⟩ else single c

/-- The part of a range inside `lo` to `hi`, moved by `shift`. -/
def shifted (range : Char × Char) (lo hi : Char) (shift : Int) : List (Char × Char) :=
  let a := max range.1.toNat lo.toNat
  let b := min range.2.toNat hi.toNat
  if a ≤ b then
    [(Char.ofNat ((a : Int) + shift).toNat, Char.ofNat ((b : Int) + shift).toNat)]
  else []

/-- The set with the other case of every ASCII letter. -/
def foldCase (s : CharSet) : CharSet :=
  { s with ranges := s.ranges.flatMap fun r =>
      r :: shifted r 'a' 'z' (-32) ++ shifted r 'A' 'Z' 32 }

end CharSet

/-- A condition on a position. -/
inductive Look where
  | start
  | finish
  | lineStart
  | lineEnd
  | lineStartCrlf
  | lineEndCrlf
  | wordBoundary
  | notWordBoundary
  | wordStart
  | wordEnd
  | wordStartHalf
  | wordEndHalf
  deriving DecidableEq, Repr

/-- A regular expression. -/
inductive Node where
  | empty
  | chars (s : CharSet)
  | look (l : Look)
  | sequence (parts : List Node)
  | choice (parts : List Node)
  | repetition (min : Nat) (max : Option Nat) (greedy : Bool) (body : Node)
  | group (index : Nat) (body : Node)

mutual

/-- Some text of no length fits. -/
def Node.fitsEmpty : Node → Bool
  | .empty => true
  | .chars _ => false
  | .look _ => true
  | .sequence parts => allFitEmpty parts
  | .choice parts => anyFitsEmpty parts
  | .repetition min _ _ body => min == 0 || body.fitsEmpty
  | .group _ body => body.fitsEmpty

def allFitEmpty : List Node → Bool
  | [] => true
  | p :: rest => p.fitsEmpty && allFitEmpty rest

def anyFitsEmpty : List Node → Bool
  | [] => false
  | p :: rest => p.fitsEmpty || anyFitsEmpty rest

end

/-- A letter, digit or underscore of ASCII. -/
def isWordChar (c : Char) : Bool := c.isAlphanum || c = '_'

/-- The condition holds between the two neighbouring characters. -/
def Look.holds (l : Look) (before after : Option Char) : Bool :=
  let word (c : Option Char) : Bool := (c.map isWordChar).getD false
  match l with
  | .start => before.isNone
  | .finish => after.isNone
  | .lineStart => before.isNone || before == some '\n'
  | .lineEnd => after.isNone || after == some '\n'
  | .lineStartCrlf =>
    before.isNone || before == some '\n' || (before == some '\r' && after != some '\n')
  | .lineEndCrlf =>
    after.isNone || after == some '\r' || (after == some '\n' && before != some '\r')
  | .wordBoundary => word before != word after
  | .notWordBoundary => word before == word after
  | .wordStart => !word before && word after
  | .wordEnd => word before && !word after
  | .wordStartHalf => !word before
  | .wordEndHalf => !word after

end SiteScrape.Pattern
