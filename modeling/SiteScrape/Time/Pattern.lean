import SiteScrape.Text.Blank

/-!
# Date patterns

A pattern such as `%Y-%m-%d %H:%M` is a list of items: literal text, blanks,
and the parts of a date and time that `%` and a letter stand for.
-/

namespace SiteScrape.Time

/-- A part that is read as a number. -/
inductive NumberPart where
  | year
  | century
  | yearOfCentury
  | isoYear
  | isoYearOfCentury
  | quarter
  | month
  | day
  | weekFromSunday
  | weekFromMonday
  | isoWeek
  | weekdayFromSunday
  | weekdayFromMonday
  | dayOfYear
  | hour
  | hourOfHalf
  | minute
  | second
  | nanosecond
  | epochSecond
  deriving DecidableEq, Repr

/-- One item of a date pattern. -/
inductive Item where
  | literal (text : List Char)
  | blanks
  | number (part : NumberPart)
  | monthName (long : Bool)
  | weekdayName (long : Bool)
  | halfOfDay
  /-- A point and digits, or nothing; `digits` fixes how many. -/
  | fraction (digits : Option Nat)
  /-- Exactly this many digits of a fraction, without a point. -/
  | bareFraction (digits : Nat)
  | zoneName
  | offset (minutesOptional : Bool)
  | fullMoment
  deriving DecidableEq, Repr

namespace Item

/-- Items with single literals between them. -/
def joined (separator : Char) (parts : List NumberPart) : List Item :=
  (parts.map Item.number).intersperse (.literal [separator])

/-- The time of day down to the second. -/
def clockTime : List Item := joined ':' [.hour, .minute, .second]

/-- What a letter behind `%` stands for. -/
def ofLetter? (c : Char) : Option (List Item) :=
  match c with
  | 'A' => some [.weekdayName true]
  | 'a' => some [.weekdayName false]
  | 'B' => some [.monthName true]
  | 'b' | 'h' => some [.monthName false]
  | 'C' => some [.number .century]
  | 'D' | 'x' => some (joined '/' [.month, .day, .yearOfCentury])
  | 'F' => some (joined '-' [.year, .month, .day])
  | 'G' => some [.number .isoYear]
  | 'g' => some [.number .isoYearOfCentury]
  | 'H' | 'k' => some [.number .hour]
  | 'I' | 'l' => some [.number .hourOfHalf]
  | 'M' => some [.number .minute]
  | 'P' | 'p' => some [.halfOfDay]
  | 'R' => some (joined ':' [.hour, .minute])
  | 'S' => some [.number .second]
  | 'T' | 'X' => some clockTime
  | 'U' => some [.number .weekFromSunday]
  | 'V' => some [.number .isoWeek]
  | 'W' => some [.number .weekFromMonday]
  | 'Y' => some [.number .year]
  | 'Z' => some [.zoneName]
  | 'c' =>
    some ([.weekdayName false, .blanks, .monthName false, .blanks, .number .day, .blanks] ++
      clockTime ++ [.blanks, .number .year])
  | 'd' | 'e' => some [.number .day]
  | 'f' => some [.number .nanosecond]
  | 'j' => some [.number .dayOfYear]
  | 'm' => some [.number .month]
  | 'n' | 't' => some [.blanks]
  | 'q' => some [.number .quarter]
  | 'r' => some (joined ':' [.hourOfHalf, .minute, .second] ++ [.blanks, .halfOfDay])
  | 's' => some [.number .epochSecond]
  | 'u' => some [.number .weekdayFromMonday]
  | 'v' => some [.number .day, .literal ['-'], .monthName false, .literal ['-'], .number .year]
  | 'w' => some [.number .weekdayFromSunday]
  | 'y' => some [.number .yearOfCentury]
  | 'z' => some [.offset false]
  | '+' => some [.fullMoment]
  | '%' => some [.literal ['%']]
  | _ => none

/-- The items that a specifier behind `%` stands for, and the rest. -/
def specifier? (cs : List Char) : Option (List Item × List Char) :=
  match cs with
  | '-' :: c :: rest | '0' :: c :: rest | '_' :: c :: rest =>
    match ofLetter? c with
    | some [.number part] => some ([.number part], rest)
    | _ => none
  | '#' :: 'z' :: rest => some ([.offset true], rest)
  | ':' :: ':' :: ':' :: 'z' :: rest => some ([.offset false], rest)
  | ':' :: ':' :: 'z' :: rest => some ([.offset false], rest)
  | ':' :: 'z' :: rest => some ([.offset false], rest)
  | '.' :: 'f' :: rest => some ([.fraction none], rest)
  | '.' :: '3' :: 'f' :: rest => some ([.fraction (some 3)], rest)
  | '.' :: '6' :: 'f' :: rest => some ([.fraction (some 6)], rest)
  | '.' :: '9' :: 'f' :: rest => some ([.fraction (some 9)], rest)
  | '3' :: 'f' :: rest => some ([.bareFraction 3], rest)
  | '6' :: 'f' :: rest => some ([.bareFraction 6], rest)
  | '9' :: 'f' :: rest => some ([.bareFraction 9], rest)
  | c :: rest => (ofLetter? c).map (·, rest)
  | [] => none

theorem length_of_specifier {cs rest : List Char} {items : List Item}
    (h : specifier? cs = some (items, rest)) : rest.length < cs.length := by
  unfold specifier? at h
  split at h
  case h_1 | h_2 | h_3 =>
    split at h
    · simp only [Option.some.injEq, Prod.mk.injEq] at h
      obtain ⟨_, rfl⟩ := h
      simp only [List.length_cons]; omega
    · cases h
  case h_16 => cases h
  case h_15 =>
    simp only [Option.map_eq_some_iff, Prod.mk.injEq] at h
    obtain ⟨_, _, _, rfl⟩ := h
    simp
  all_goals
    simp only [Option.some.injEq, Prod.mk.injEq] at h
    obtain ⟨_, rfl⟩ := h
    simp only [List.length_cons]; omega

end Item

/-- The items of a date pattern; nothing when a specifier is not known. -/
def items? (cs : List Char) : Option (List Item) :=
  match cs with
  | [] => some []
  | '%' :: rest =>
    match h : Item.specifier? rest with
    | none => none
    | some (items, rest') =>
      have := Item.length_of_specifier h
      (items? rest').map (items ++ ·)
  | c :: rest =>
    if Text.isBlank c then (items? rest).map (.blanks :: ·)
    else (items? rest).map (.literal [c] :: ·)
termination_by cs.length

end SiteScrape.Time
