import SiteScrape.Decimal.Reading
import SiteScrape.Text.Blank
import SiteScrape.Text.Case
import SiteScrape.Text.Find
import SiteScrape.Time.Moment

/-!
# Ages

An age such as `3 days 4 hours ago` or `5分钟前` is a row of amounts, each with a
unit. It is counted back from a moment: whole months on the calendar, all else
in milliseconds.
-/

namespace SiteScrape.Age

/-- What one of a unit amounts to. -/
inductive Extent where
  | months (n : Nat)
  | millis (n : Nat)
  deriving DecidableEq, Repr

/-- The spellings of each unit. -/
def units : List (Extent × List String) :=
  [ (.months 12, ["y", "yr", "yrs", "year", "years", "年"]),
    (.months 3, ["q", "quarter", "quarters", "季", "季度"]),
    (.months 1, ["mo", "mon", "mos", "month", "months", "月", "个月", "個月"]),
    (.millis 604800000, ["w", "wk", "wks", "week", "weeks", "周", "週", "星期"]),
    (.millis 86400000, ["d", "day", "days", "天", "日"]),
    (.millis 3600000, ["h", "hr", "hrs", "hour", "hours", "时", "小时", "時", "小時"]),
    (.millis 60000, ["m", "min", "mins", "minute", "minutes", "分", "分钟", "分鐘"]),
    (.millis 1000, ["s", "sec", "secs", "second", "seconds", "秒"]) ]

/-- What a unit amounts to, in any case and with or without a word for the past. -/
def extent? (word : String) : Option Extent :=
  let lower := Text.lower word
  let name := ((Text.stripTail "ago" lower).or (Text.stripTail "前" lower)).getD lower
  (units.find? fun unit => unit.2.contains name).map (·.1)

/-- An amount and its unit, as written. -/
structure Entry where
  whole : List Char
  fraction : List Char
  unit : List Char
  deriving DecidableEq, Repr

/-- Characters that may spell a unit. -/
def isUnitChar (c : Char) : Bool :=
  !(c.isDigit || Text.isAsciiBlank c || c = '.' || c = ',' || c = ':' || c = ';')

/-- The digits behind a point, and the rest. -/
def fractionPart (cs : List Char) : List Char × List Char :=
  match cs with
  | '.' :: rest => (rest.takeWhile Char.isDigit, rest.dropWhile Char.isDigit)
  | _ => ([], cs)

theorem length_dropWhile_le (p : Char → Bool) (cs : List Char) :
    (cs.dropWhile p).length ≤ cs.length :=
  (List.dropWhile_sublist p).length_le

theorem length_fractionPart_le (cs : List Char) : (fractionPart cs).2.length ≤ cs.length := by
  unfold fractionPart
  split
  · have := length_dropWhile_le Char.isDigit (by assumption)
    simp only [List.length_cons]; omega
  · exact Nat.le_refl _

/-- The entry that `cs` starts with, if it does, and where the reading goes on. -/
def takeEntry (cs : List Char) : Option Entry × List Char :=
  let whole := cs.takeWhile Char.isDigit
  let behind := cs.dropWhile Char.isDigit
  let (fraction, rest) := fractionPart behind
  let (fraction, rest) := if fraction.isEmpty then ([], behind) else (fraction, rest)
  let unit := (rest.dropWhile Text.isAsciiBlank).takeWhile isUnitChar
  if unit.isEmpty then (none, behind)
  else (some ⟨whole, fraction, unit⟩, (rest.dropWhile Text.isAsciiBlank).dropWhile isUnitChar)

theorem length_takeEntry_le (cs : List Char) :
    (takeEntry cs).2.length ≤ (cs.dropWhile Char.isDigit).length := by
  have h := length_fractionPart_le (cs.dropWhile Char.isDigit)
  have hd := length_dropWhile_le
  simp only [takeEntry]
  split
  · split
    · exact Nat.le_refl _
    · exact Nat.le_trans (hd _ _) (hd _ _)
  · split
    · exact Nat.le_refl _
    · exact Nat.le_trans (hd _ _) (Nat.le_trans (hd _ _) h)

theorem length_takeEntry_lt {c : Char} (rest : List Char) (h : c.isDigit) :
    (takeEntry (c :: rest)).2.length < (c :: rest).length := by
  have le := length_takeEntry_le (c :: rest)
  rw [List.dropWhile_cons_of_pos h] at le
  have := length_dropWhile_le Char.isDigit rest
  rw [List.length_cons]; omega

/-- All entries of a text, from left to right. -/
def entries (cs : List Char) : List Entry :=
  match cs with
  | [] => []
  | c :: rest =>
    if _h : c.isDigit then
      match (takeEntry (c :: rest)).1 with
      | some e => e :: entries (takeEntry (c :: rest)).2
      | none => entries (takeEntry (c :: rest)).2
    else entries rest
termination_by cs.length
decreasing_by
  · exact length_takeEntry_lt rest _h
  · exact length_takeEntry_lt rest _h
  · exact Nat.lt_succ_self _

/-- An age in months and milliseconds. -/
structure Total where
  months : Float
  millis : Float

/-- Adds an entry; a unit that is not known adds nothing. -/
def Total.add (t : Total) (e : Entry) : Total :=
  let amount := Decimal.nearest e.whole e.fraction
  match extent? (String.ofList e.unit) with
  | some (.months n) => { t with months := t.months + amount * Double.ofInt n }
  | some (.millis n) => { t with millis := t.millis + amount * Double.ofInt n }
  | none => t

/-- The whole age of a text. -/
def total (text : String) : Total :=
  (entries text.toList).foldl Total.add ⟨0.0, 0.0⟩

/-- The moment that lies an age before `now`; the part of a month beyond whole
months counts as thirty days. Nothing when it lies outside the calendar. -/
def before? (now : Int) (age : Total) : Option Int := do
  let months := min (Double.truncate age.months) 0xffffffff
  let millis := age.millis + Double.fraction age.months * 30.0 * 86400000.0
  if 0x7fffffff < months then none
  else
    let shifted ← Moment.monthsBefore? now months.toNat
    Moment.within? (shifted - min (Double.truncate millis) 0x7fffffffffffffff)

/-- The moment that a text names as an age before `now`; zero when that lies
outside the calendar. -/
def parse (text : String) (now : Int) : Int :=
  (before? now (total text)).getD 0

/-- The text holds an amount with a known unit. -/
def hasKnownUnit (text : String) : Bool :=
  (entries text.toList).any fun e => (extent? (String.ofList e.unit)).isSome

end SiteScrape.Age
