/-!
# Blank characters

`isBlank` is the Unicode property White_Space. Trimming and splitting into
words follow it, so a no-break space or an ideographic space counts as blank,
a zero-width space does not.
-/

namespace SiteScrape.Text

/-- The Unicode property White_Space. -/
def isBlank (c : Char) : Bool :=
  ('\t' ≤ c && c ≤ '\r') || c == ' ' || c == '\u0085' || c == '\u00a0' || c == '\u1680' ||
  ('\u2000' ≤ c && c ≤ '\u200a') || c == '\u2028' || c == '\u2029' || c == '\u202f' ||
  c == '\u205f' || c == '\u3000'

/-- Every blank of the core library is a blank. -/
theorem isBlank_of_isWhitespace {c : Char} (h : c.isWhitespace = true) : isBlank c = true := by
  simp only [Char.isWhitespace, Bool.or_eq_true, decide_eq_true_eq] at h
  rcases h with ((rfl | rfl) | rfl) | rfl <;> decide

/-- The blanks below U+0080 that a written pattern class `\s` stands for. -/
def isAsciiBlank (c : Char) : Bool :=
  ('\t' ≤ c && c ≤ '\r') || c == ' '

/-- `cs` without the leading characters that satisfy `p`. -/
def trimLeft (p : Char → Bool) (cs : List Char) : List Char :=
  cs.dropWhile p

/-- `cs` without the trailing characters that satisfy `p`. -/
def trimRight (p : Char → Bool) (cs : List Char) : List Char :=
  (cs.reverse.dropWhile p).reverse

/-- `cs` without the characters at both ends that satisfy `p`. -/
def trimBoth (p : Char → Bool) (cs : List Char) : List Char :=
  trimRight p (trimLeft p cs)

/-- `s` without blanks at both ends. -/
def trim (s : String) : String :=
  String.ofList (trimBoth isBlank s.toList)

/-- `s` without blanks at its start. -/
def trimStart (s : String) : String :=
  String.ofList (trimLeft isBlank s.toList)

/-- Nothing but blanks. -/
def isBlankText (s : String) : Bool :=
  s.toList.all isBlank

/-- The maximal runs of characters outside `p`. -/
def fieldsBy (p : Char → Bool) (cs : List Char) : List (List Char) :=
  go [] cs
where
  /-- `word` holds, in reverse, the run being read. -/
  go (word : List Char) : List Char → List (List Char)
    | [] => if word.isEmpty then [] else [word.reverse]
    | c :: rest =>
      if p c then
        if word.isEmpty then go [] rest else word.reverse :: go [] rest
      else go (c :: word) rest

/-- The words of `s`, joined by single spaces. -/
def collapse (s : String) : String :=
  " ".intercalate ((fieldsBy isBlank s.toList).map String.ofList)

end SiteScrape.Text
