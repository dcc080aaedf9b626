import SiteScrape.Field.Resolve
import SiteScrape.Time.Age

/-!
# Labelled statistics

Profile pages list statistics behind labels, either one in an element, as in
`Uploaded: 1.5 GiB`, or several in one line. A label is looked for at the start
of an element first and anywhere on the page then.
-/

namespace SiteScrape.Labels

open SiteScrape.Html (Spot)

/-- Elements that hold one labelled statistic each. -/
def containers : String := "li, tr, dt, dd, p"

/-- The elements below `e` that a selector text selects. -/
def select (e : Spot) (selector : String) : List Spot :=
  ((Css.Selector.read? selector).map fun css => css.below e).getD []

/-- The text without a label at its start, in any case of letters. -/
def afterLabel? (text : List Char) (label : String) : Option (List Char) :=
  (Text.afterLead (Text.asciiLower label).toList (text.map Char.toLower)).map fun _ =>
    text.drop label.length

/-- What follows the first of the labels that the text starts with. -/
def afterLabels? (text : List Char) (labels : List String) : Option (List Char) :=
  labels.findSome? (afterLabel? text)

/-- The element as far inside as the following ones lead. -/
def innermost (found : Spot) : List Spot → Spot
  | [] => found
  | hit :: rest =>
    if hit.ancestors.any fun a => a.tag.number == found.tag.number then innermost hit rest
    else found

/-- The first statistic with one of the labels. -/
def element? (source : Source) (labels : List String) : Option Spot := do
  let root ← source.element?
  let hits := (select root containers).filter fun e =>
    (afterLabels? (Text.trimLeft Text.isBlank e.text.toList) labels).isSome
  match hits with
  | [] => none
  | hit :: rest => some (innermost hit rest)

/-- A text without the colon in front of it. -/
def behindColon (cs : List Char) : List Char :=
  Text.trimBoth Text.isBlank
    ((Text.trimLeft Text.isBlank cs).dropWhile fun c => c == ':' || c == '：')

/-- A text, unless it is empty. -/
def nonEmpty? (cs : List Char) : Option String :=
  if cs.isEmpty then none else some (String.ofList cs)

/-- What stands behind the label of a statistic. -/
def text? (source : Source) (labels : List String) : Option String := do
  let e ← element? source labels
  let rest ← afterLabels? (Text.collapse e.text).toList labels
  nonEmpty? (behindColon rest)

/-- All that follows a label anywhere on the page. -/
def inline? (source : Source) (labels : List String) : Option String := do
  let root ← source.element?
  let text := (Text.collapse root.text).toList
  labels.findSome? fun label => do
    let (_, rest) ← Text.cut label.toList text
    nonEmpty? (behindColon rest)

/-- What follows a label, in an element of its own or anywhere. -/
def reading? (source : Source) (labels : List String) : Option String :=
  (text? source labels).or (inline? source labels)

/-- The size behind a label; null if there is none. -/
def size (source : Source) (labels : List String) : Json :=
  ((reading? source labels).map fun s => Json.ofAmount (Filter.sizeIn s)).getD .null

/-- The number behind a label; null if there is none. -/
def number (source : Source) (labels : List String) : Json :=
  ((reading? source labels).map fun s => Json.ofAmount (Filter.numberIn s)).getD .null

/-- The text behind a label; null if there is none. -/
def text (source : Source) (labels : List String) : Json :=
  ((text? source labels).map Json.str).getD .null

/-- `count` digits, and what follows. -/
def digits? (count : Nat) (cs : List Char) : Option (List Char × List Char) :=
  let ds := cs.take count
  if ds.length = count && ds.all Char.isDigit then some (ds, cs.drop count) else none

/-- One of some characters, and what follows. -/
def oneOf? (allowed : List Char) : List Char → Option (List Char × List Char)
  | c :: rest => if allowed.contains c then some ([c], rest) else none
  | [] => none

/-- Parts one after the other. -/
def parts? : List (List Char → Option (List Char × List Char)) → List Char →
    Option (List Char × List Char)
  | [], cs => some ([], cs)
  | part :: more, cs => do
    let (got, cs) ← part cs
    let (others, cs) ← parts? more cs
    some (got ++ others, cs)

/-- A part that may be missing. -/
def optional (part : List Char → Option (List Char × List Char)) (cs : List Char) :
    Option (List Char × List Char) :=
  (part cs).or (some ([], cs))

/-- A date, maybe with a time of day. -/
def date? : List Char → Option (List Char × List Char) :=
  parts? [digits? 4, oneOf? ['-', '/'], digits? 2, oneOf? ['-', '/'], digits? 2,
    optional (parts? [oneOf? [' ', 'T'], digits? 2, oneOf? [':'], digits? 2,
      optional (parts? [oneOf? [':'], digits? 2])])]

/-- The first date in a text. -/
def firstDate? : List Char → Option (List Char)
  | [] => none
  | c :: rest =>
    match date? (c :: rest) with
    | some (date, _) => some date
    | none => firstDate? rest

/-- The moment that a text or the first date in it names. -/
def moment? (offset : Int) (text : String) : Option Int :=
  (Time.parse? Time.defaultPatterns offset text).or
    ((firstDate? text.toList).bind fun date =>
      Time.parse? Time.defaultPatterns offset (String.ofList date))

/-- The moment in the title of an element below. -/
def titleMoment? (offset : Int) (e : Spot) : Option Int :=
  ((select e "[title]").head?.bind fun t => t.attr? "title").bind (moment? offset)

/-- The moment behind a label, as a date or else as an age; null if there is
no such label. -/
def time (offset now : Int) (source : Source) (labels : List String) : Json :=
  match element? source labels with
  | none => .null
  | some e =>
    match titleMoment? offset e, text? source labels with
    | some ms, _ => .ofInt ms
    | none, some s => .ofInt ((moment? offset s).getD (Age.parse s now))
    | none, none => .null

end SiteScrape.Labels
