import SiteScrape.Text.CaseTable

/-!
# Small letters and capitals

Case conversion of whole texts by the full Unicode mappings: some letters have
a capital form of several letters, and a capital sigma at the end of a word
becomes a final sigma.
-/

namespace SiteScrape.Text

/-- The small form of a letter, away from the final sigma. -/
def lowerChar (c : Char) : List Char :=
  if c.toNat < 0x80 then [c.toLower]
  else if c = '\u0130' then ['i', '\u0307']
  else [((shiftIn lowerRuns c.toNat).map Char.ofNat).getD c]

/-- The capital form of a letter. -/
def upperChar (c : Char) : List Char :=
  if c.toNat < 0x80 then [c.toUpper]
  else
    match upperSequences.find? (·.1 == c.toNat) with
    | some (_, form) => form.map Char.ofNat
    | none => [((shiftIn upperRuns c.toNat).map Char.ofNat).getD c]

/-- Behind the marks that do not count, `cs` goes on with a letter that has case. -/
def startsCased (cs : List Char) : Bool :=
  match cs.dropWhile fun c => inRanges caseIgnorableRanges c.toNat with
  | c :: _ => inRanges casedRanges c.toNat
  | [] => false

/-- The small form of `cs`, where `before` holds, in reverse, what precedes it. -/
def lowerFrom (before : List Char) : List Char → List Char
  | [] => []
  | c :: rest =>
    let form :=
      if c = '\u03a3' then
        if startsCased before && !startsCased rest then ['\u03c2'] else ['\u03c3']
      else lowerChar c
    form ++ lowerFrom (c :: before) rest

/-- `s` in small letters. -/
def lower (s : String) : String := String.ofList (lowerFrom [] s.toList)

/-- `s` in capitals. -/
def upper (s : String) : String := String.ofList (s.toList.flatMap upperChar)

end SiteScrape.Text
