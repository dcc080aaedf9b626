import SiteScrape.Proofs.CalendarDays
import SiteScrape.Proofs.Coercions
import SiteScrape.Time.Reading

/-!
# Written times

A local time is written under a pattern item by item, each number with all its
digits. An item reads back just what it writes, whatever follows
(`exists_readItem?`), so the parts that are collected are those of the time
(`Holds`), and they make the time again as far as the pattern shows it
(`local?_written`).
-/

namespace SiteScrape

namespace Decimal

variable {k n : Nat}

/-- The last `k` digits of a number, with zeros in front. -/
def padded : Nat → Nat → List Char
  | 0, _ => []
  | k + 1, n => padded k (n / 10) ++ [Nat.digitChar (n % 10)]

theorem length_padded (k n : Nat) : (padded k n).length = k := by
  induction k generalizing n with
  | zero => rfl
  | succ k ih => rw [padded, List.length_append, ih, List.length_singleton]

theorem digitChar_spells : ∀ d, d < 10 →
    (Nat.digitChar d).isDigit = true ∧ (Nat.digitChar d).toNat - '0'.toNat = d := by decide

theorem isDigit_of_mem_padded {c : Char} (h : c ∈ padded k n) : c.isDigit = true := by
  induction k generalizing n with
  | zero => cases h
  | succ k ih =>
    rcases List.mem_append.mp h with h | h
    · exact ih h
    · rw [List.mem_singleton.mp h]
      exact (digitChar_spells _ (Nat.mod_lt n (by decide))).1

theorem natOf_padded (h : n < tenTo k) : natOf (padded k n) = n := by
  induction k generalizing n with
  | zero =>
    rw [tenTo_zero] at h
    obtain rfl : n = 0 := by omega
    rfl
  | succ k ih =>
    rw [tenTo_succ] at h
    have hlast := (digitChar_spells _ (Nat.mod_lt n (by decide))).2
    have hfront := ih (n := n / 10) (by omega)
    unfold natOf at hfront ⊢
    rw [padded, List.foldl_append, hfront, List.foldl_cons, List.foldl_nil, hlast]
    omega

end Decimal

namespace Time

/-- A local date and time of the years 0 to 9999, in whole seconds; the sixtieth
is a leap second. -/
structure LocalTime where
  date : Calendar.Date
  hour : Nat
  minute : Nat
  second : Nat
  isValid : date.IsValid
  year_mem : 0 ≤ date.year ∧ date.year ≤ 9999
  hour_lt : hour < 24
  minute_lt : minute < 60
  second_le : second ≤ 60

namespace LocalTime

/-- Milliseconds since 1970, by the clock that shows the time. -/
def millis (t : LocalTime) : Int :=
  t.date.number * Moment.day + t.hour * Moment.hour + t.minute * Moment.minute +
    t.second * Moment.second

/-- What is written for a part as a number. -/
def number? (t : LocalTime) : NumberPart → Option Nat
  | .year => some t.date.year.toNat
  | .month => some t.date.month
  | .day => some t.date.day
  | .hour => some t.hour
  | .minute => some t.minute
  | .second => some t.second
  | _ => none

/-- The names of the months as they are written. -/
def monthNames : List String :=
  ["Jan", "Feb", "Mar", "Apr", "May", "Jun", "Jul", "Aug", "Sep", "Oct", "Nov", "Dec"]

/-- What is written for an item, if it is one of those that dates are mostly
written with: the numbers of date and clock, names of months, and literal text. -/
def writeItem? (t : LocalTime) : Item → Option (List Char)
  | .literal text => some text
  | .blanks => some [' ']
  | .number part => (t.number? part).map (Decimal.padded (part.width.getD 0))
  | .monthName false => (monthNames[t.date.month - 1]?).map String.toList
  | _ => none

/-- What is written for items one after the other. -/
def writeItems? (t : LocalTime) : List Item → Option (List Char)
  | [] => some []
  | item :: rest => do some ((← t.writeItem? item) ++ (← t.writeItems? rest))

/-- The text of a time under a pattern. -/
def write? (t : LocalTime) (pattern : String) : Option String :=
  ((items? pattern.toList).bind t.writeItems?).map String.ofList

/-- The value of a part. -/
def part? (t : LocalTime) : Slot → Option Int
  | .year => some t.date.year
  | .month => some t.date.month
  | .day => some t.date.day
  | .half => some (t.hour / 12 : Nat)
  | .hourOfHalf => some (t.hour % 12 : Nat)
  | .minute => some t.minute
  | .second => some t.second
  | .nanosecond => some 0
  | _ => none

end LocalTime

variable {t : LocalTime} {s : Slot} {v : Int} {p : Parts} {held : List Slot} {cs rest : List Char}

/-- The numbers of a calendar and a clock. -/
theorem LocalTime.bounds (t : LocalTime) : (0 ≤ t.date.year ∧ t.date.year ≤ 9999) ∧
    (1 ≤ t.date.month ∧ t.date.month ≤ 12) ∧ (1 ≤ t.date.day ∧ t.date.day ≤ 31) ∧
    t.hour < 24 ∧ t.minute < 60 ∧ t.second ≤ 60 := by
  have hday := t.isValid.day
  have hlength := Calendar.daysInMonth_le t.date.year t.date.month
  exact ⟨t.year_mem, t.isValid.month, ⟨hday.1, hday.2.trans hlength⟩, t.hour_lt, t.minute_lt,
    t.second_le⟩

theorem LocalTime.part?_range (h : t.part? s = some v) : s.range.1 ≤ v ∧ v ≤ s.range.2 := by
  have hbounds := t.bounds
  cases s <;> cases h <;> simp only [Slot.range] <;> omega

/-- Just these parts of a time have been collected. -/
def Holds (t : LocalTime) (held : List Slot) (p : Parts) : Prop :=
  ∀ s, p.get? s = if s ∈ held then t.part? s else none

theorem Holds.nil : Holds t [] [] := fun _ => rfl

theorem Holds.congr {held' : List Slot} (h : Holds t held p) (hsame : ∀ s, s ∈ held ↔ s ∈ held') :
    Holds t held' p := fun s => by
  rw [h s]
  simp only [hsame]

theorem Holds.exists_put? (h : Holds t held p) (hv : t.part? s = some v) :
    ∃ p', p.put? s v = some p' ∧ Holds t (s :: held) p' := by
  obtain ⟨hlow, hhigh⟩ := LocalTime.part?_range hv
  have hs := h s
  unfold Parts.put?
  rw [if_pos (by simp [hlow, hhigh])]
  by_cases hmem : s ∈ held
  · rw [if_pos hmem, hv] at hs
    refine ⟨p, by rw [hs]; simp, h.congr fun s' => ?_⟩
    rw [List.mem_cons]
    exact ⟨.inr, fun h => h.elim (· ▸ hmem) id⟩
  · rw [if_neg hmem] at hs
    refine ⟨(s, v) :: p, by rw [hs], fun s' => ?_⟩
    rw [Parts.get?, List.lookup_cons]
    by_cases hs' : s' = s
    · subst hs'
      simp [hv]
    · have hbefore := h s'
      rw [Parts.get?] at hbefore
      simp only [beq_eq_false_iff_ne.mpr hs', hbefore, List.mem_cons, hs', false_or]

/-! ### Items -/

/-- The parts that an item is about. -/
def Item.slots : Item → List Slot
  | .number .year => [.year]
  | .number .month | .monthName _ => [.month]
  | .number .day => [.day]
  | .number .hour => [.half, .hourOfHalf]
  | .number .minute => [.minute]
  | .number .second => [.second]
  | _ => []

theorem nanosecond_not_mem_slots {items : List Item} : .nanosecond ∉ items.flatMap Item.slots := by
  rw [List.mem_flatMap]
  rintro ⟨item, -, h⟩
  unfold Item.slots at h
  split at h <;> simp at h

/-- The digits that a number is read from. -/
def leadingDigits (most : Option Nat) (cs : List Char) : List Char :=
  (match most with
    | some n => cs.take n
    | none => cs).takeWhile Char.isDigit

theorem number?_eq_some_iff {least : Nat} {most : Option Nat} {n : Int} :
    number? least most cs = some (n, rest) ↔ least ≤ (leadingDigits most cs).length ∧
      Decimal.natOf (leadingDigits most cs) < 0x8000000000000000 ∧
      n = Decimal.natOf (leadingDigits most cs) ∧
      rest = cs.drop (leadingDigits most cs).length := by
  have hread : number? least most cs =
      if (leadingDigits most cs).length < least ||
        0x8000000000000000 ≤ Decimal.natOf (leadingDigits most cs) then none
      else some ((Decimal.natOf (leadingDigits most cs) : Int),
        cs.drop (leadingDigits most cs).length) := rfl
  rw [hread]
  split
  · next h =>
    simp only [Bool.or_eq_true, decide_eq_true_eq] at h
    exact iff_of_false (by simp) (by omega)
  · next h =>
    simp only [Bool.or_eq_true, decide_eq_true_eq, not_or, Nat.not_lt, Nat.not_le] at h
    simp only [h, true_and, Option.some.injEq, Prod.mk.injEq, eq_comm]

theorem isDigit_of_mem_leadingDigits {most : Option Nat} {c : Char}
    (h : c ∈ leadingDigits most cs) : c.isDigit = true :=
  List.mem_takeWhile_imp h

theorem number?_padded {most n : Nat} (h : n < Decimal.tenTo most)
    (hsmall : n < 0x8000000000000000) {least : Nat} (hleast : least ≤ most) (rest : List Char) :
    number? least (some most) (Decimal.padded most n ++ rest) = some ((n : Int), rest) := by
  have hlength := Decimal.length_padded most n
  have hdigits : leadingDigits (some most) (Decimal.padded most n ++ rest) =
      Decimal.padded most n := by
    rw [leadingDigits, List.take_left' hlength, List.takeWhile_eq_self_iff]
    exact fun c => Decimal.isDigit_of_mem_padded
  rw [number?_eq_some_iff, hdigits, Decimal.natOf_padded h, hlength]
  exact ⟨hleast, hsmall, rfl, (List.drop_left' hlength).symm⟩

theorem plain_of_isDigit {c : Char} (h : c.isDigit = true) :
    Text.isBlank c = false ∧ c ≠ '-' ∧ c ≠ '+' := by
  refine ⟨Text.isBlank_of_isDigit h, ?_, ?_⟩
  · rintro rfl
    exact absurd h (by decide)
  · rintro rfl
    exact absurd h (by decide)

theorem exists_padded_eq_cons (k n : Nat) :
    ∃ c cs, Decimal.padded (k + 1) n = c :: cs ∧ c.isDigit = true := by
  cases hcs : Decimal.padded (k + 1) n with
  | nil =>
    have := Decimal.length_padded (k + 1) n
    rw [hcs] at this
    cases this
  | cons c cs =>
    exact ⟨c, cs, rfl, Decimal.isDigit_of_mem_padded (hcs ▸ List.mem_cons_self)⟩

theorem numberFor?_padded {part : NumberPart} {k n : Nat} (hwidth : part.width = some (k + 1))
    (h : n < Decimal.tenTo (k + 1)) (hsmall : n < 0x8000000000000000) (rest : List Char) :
    numberFor? part (Decimal.padded (k + 1) n ++ rest) = some ((n : Int), rest) := by
  have hnumber := number?_padded h hsmall (Nat.le_add_left 1 k) rest
  obtain ⟨c, cs, hcs, hdigit⟩ := exists_padded_eq_cons k n
  obtain ⟨hblank, hminus, hplus⟩ := plain_of_isDigit hdigit
  rw [hcs, List.cons_append] at hnumber ⊢
  have htrim : Text.trimLeft Text.isBlank (c :: (cs ++ rest)) = c :: (cs ++ rest) :=
    List.dropWhile_cons_of_neg (by simp [hblank])
  simp only [numberFor?, htrim]
  split
  · next heq => exact absurd (List.cons.inj heq).1 hminus
  · next heq => exact absurd (List.cons.inj heq).1 hplus
  · rw [hwidth, hnumber]

/-- What is written for a part as a number fits its width. -/
theorem LocalTime.number?_width {part : NumberPart} {n : Nat} (h : t.number? part = some n) :
    ∃ k, part.width = some (k + 1) ∧ n < Decimal.tenTo (k + 1) ∧ n < 0x8000000000000000 := by
  have hbounds := t.bounds
  have htwo : Decimal.tenTo (1 + 1) = 100 := by decide
  have hfour : Decimal.tenTo (3 + 1) = 10000 := by decide
  cases part with
  | year => cases h; exact ⟨3, rfl, by omega, by omega⟩
  | month | day | hour | minute | second => cases h; exact ⟨1, rfl, by omega, by omega⟩
  | _ => cases h

theorem exists_putNumber? (part : NumberPart) {n : Nat} (h : Holds t held p)
    (hn : t.number? part = some n) :
    ∃ p', p.putNumber? part n = some p' ∧ Holds t ((Item.number part).slots ++ held) p' := by
  cases part with
  | year =>
    cases hn
    rw [Int.toNat_of_nonneg t.year_mem.1]
    exact h.exists_put? (s := .year) rfl
  | month => cases hn; exact h.exists_put? (s := .month) rfl
  | day => cases hn; exact h.exists_put? (s := .day) rfl
  | minute => cases hn; exact h.exists_put? (s := .minute) rfl
  | second => cases hn; exact h.exists_put? (s := .second) rfl
  | hour =>
    cases hn
    obtain ⟨q, hhalf, hq⟩ := h.exists_put? (s := .half) rfl
    obtain ⟨p', hhour, hp'⟩ := hq.exists_put? (s := .hourOfHalf) rfl
    refine ⟨p', ?_, hp'.congr fun s => ?_⟩
    · show (p.put? .half (t.hour / 12 : Nat)).bind
        (fun q => q.put? .hourOfHalf (t.hour % 12 : Nat)) = some p'
      rw [hhalf, Option.bind_some, hhour]
    · simp only [Item.slots, List.cons_append, List.nil_append, List.mem_cons]
      exact or_left_comm
  | _ => cases hn

/-- The short names of the months, in small letters, are found one by one. -/
theorem name?_monthNames (rest : List Char) : ∀ i name, LocalTime.monthNames[i]? = some name →
    name? monthNames false (name.toList ++ rest) = some (i, rest) := by
  intro i name h
  match i with
  | 0 | 1 | 2 | 3 | 4 | 5 | 6 | 7 | 8 | 9 | 10 | 11 => cases h; rfl
  | i + 12 => cases h

/-- An item that has been written is read again, and the rest is left. -/
theorem exists_readItem? {item : Item} {text rest : List Char} (h : Holds t held p)
    (htext : t.writeItem? item = some text)
    (hrest : item = .blanks → ∀ c, rest.head? = some c → Text.isBlank c = false) :
    ∃ p', readItem? item p (text ++ rest) = some (p', rest) ∧ Holds t (item.slots ++ held) p' := by
  cases item with
  | literal literal =>
    obtain rfl := Option.some.inj htext
    refine ⟨p, ?_, h⟩
    have hlead : Text.afterLead literal (literal ++ rest) = some rest :=
      Text.afterLead_eq_some.mpr rfl
    simp only [readItem?, readSimple?, hlead, Option.bind_eq_bind, Option.bind_some]
  | blanks =>
    obtain rfl := Option.some.inj htext
    refine ⟨p, ?_, h⟩
    have htrim : Text.trimLeft Text.isBlank (' ' :: rest) = rest :=
      (List.dropWhile_cons_of_pos (by decide)).trans (Text.dropWhile_eq_self (hrest rfl))
    simp only [readItem?, readSimple?, List.cons_append, List.nil_append, htrim]
  | number part =>
    obtain ⟨n, hn, rfl⟩ := Option.map_eq_some_iff.mp htext
    obtain ⟨k, hwidth, hlt, hsmall⟩ := LocalTime.number?_width hn
    obtain ⟨p', hput, hp'⟩ := exists_putNumber? part h hn
    refine ⟨p', ?_, hp'⟩
    simp only [readItem?, readSimple?, hwidth, Option.getD_some,
      numberFor?_padded hwidth hlt hsmall, hput, Option.bind_eq_bind, Option.bind_some]
  | monthName long =>
    cases long with
    | true => cases htext
    | false =>
      obtain ⟨name, hname, rfl⟩ := Option.map_eq_some_iff.mp htext
      have hmonth := t.isValid.month
      obtain ⟨p', hput, hp'⟩ := h.exists_put? (s := .month) rfl
      refine ⟨p', ?_, hp'⟩
      have hindex : ((t.date.month - 1 : Nat) : Int) + 1 = t.date.month := by omega
      simp only [readItem?, readSimple?, name?_monthNames rest _ name hname, hindex, hput,
        Option.bind_eq_bind, Option.bind_some]
  | _ => cases htext

/-! ### Patterns -/

/-- The items of a pattern of at most `fuel` characters. -/
def itemsWithin : Nat → List Char → Option (List Item)
  | _, [] => some []
  | 0, _ => none
  | fuel + 1, '%' :: rest =>
    match Item.specifier? rest with
    | none => none
    | some (items, behind) => (itemsWithin fuel behind).map (items ++ ·)
  | fuel + 1, c :: rest =>
    if Text.isBlank c then (itemsWithin fuel rest).map (.blanks :: ·)
    else (itemsWithin fuel rest).map (.literal [c] :: ·)

theorem itemsWithin_plain {c : Char} (hc : c ≠ '%') (fuel : Nat) (rest : List Char) :
    itemsWithin (fuel + 1) (c :: rest) =
      if Text.isBlank c then (itemsWithin fuel rest).map (.blanks :: ·)
      else (itemsWithin fuel rest).map (.literal [c] :: ·) := by
  rw [itemsWithin.eq_def]
  split
  · next heq => cases heq
  · next hfuel heq => cases hfuel
  · next heq => exact absurd (List.cons.inj heq).1 hc
  · next hfuel heq =>
    obtain ⟨rfl, rfl⟩ := List.cons.inj heq
    obtain rfl := Nat.succ.inj hfuel
    rfl

/-- Reading a pattern uses up a character with each step. -/
theorem items?_eq_itemsWithin {fuel : Nat} (h : cs.length ≤ fuel) :
    items? cs = itemsWithin fuel cs := by
  induction fuel generalizing cs with
  | zero =>
    obtain rfl := List.length_eq_zero_iff.mp (Nat.le_zero.mp h)
    unfold items?
    rfl
  | succ fuel ih =>
    unfold items?
    split
    · rfl
    · next rest =>
      rw [List.length_cons] at h
      unfold itemsWithin
      split
      · next hnone => simp only [hnone]
      · next items behind hsome =>
        have hbehind := Item.length_of_specifier hsome
        simp only [hsome, ih (show behind.length ≤ fuel by omega)]
    · next c rest hplain =>
      rw [List.length_cons] at h
      rw [itemsWithin_plain hplain, ih (by omega)]

/-- The items of a pattern, off its characters. -/
theorem items?_of_chars {pattern : String} {items : List Item} (hchars : pattern = String.ofList cs)
    (h : itemsWithin cs.length cs = some items) : items? pattern.toList = some items := by
  rw [hchars, String.toList_ofList, items?_eq_itemsWithin (Nat.le_refl _), h]

/-- What is written for the item does not begin with a blank. -/
def Item.isVisible : Item → Bool
  | .number _ | .monthName _ => true
  | _ => false

/-- A time has something written for the item. -/
def Item.isWritten : Item → Bool
  | .literal _ | .blanks | .monthName false => true
  | .number part => [.year, .month, .day, .hour, .minute, .second].contains part
  | _ => false

theorem exists_writeItem? (t : LocalTime) {item : Item} (h : item.isWritten = true) :
    ∃ text, t.writeItem? item = some text := by
  cases item with
  | literal text => exact ⟨text, rfl⟩
  | blanks => exact ⟨_, rfl⟩
  | number part =>
    cases part with
    | year | month | day | hour | minute | second => exact ⟨_, rfl⟩
    | _ => cases h
  | monthName long =>
    cases long with
    | true => cases h
    | false =>
      have hmonth := t.isValid.month
      have hlt : t.date.month - 1 < LocalTime.monthNames.length := by
        show _ < 12
        omega
      exact ⟨_, congrArg (Option.map String.toList) (List.getElem?_eq_getElem hlt)⟩
  | _ => cases h

theorem exists_writeItems? (t : LocalTime) {items : List Item}
    (h : ∀ item ∈ items, item.isWritten = true) : ∃ text, t.writeItems? items = some text := by
  induction items with
  | nil => exact ⟨[], rfl⟩
  | cons item items ih =>
    rw [List.forall_mem_cons] at h
    obtain ⟨first, hfirst⟩ := exists_writeItem? t h.1
    obtain ⟨rest, hrest⟩ := ih h.2
    refine ⟨first ++ rest, ?_⟩
    simp only [LocalTime.writeItems?, hfirst, hrest, Option.bind_eq_bind, Option.bind_some]

/-- Behind each blank stands something visible. -/
def wellSpaced : List Item → Bool
  | [] => true
  | .blanks :: rest => (rest.head?.any Item.isVisible) && wellSpaced rest
  | _ :: rest => wellSpaced rest

theorem wellSpaced_tail {item : Item} {items : List Item} (h : wellSpaced (item :: items) = true) :
    wellSpaced items = true := by
  cases item with
  | blanks => exact (Bool.and_eq_true_iff.mp h).2
  | _ => exact h

theorem head_of_isVisible {item : Item} {text : List Char} (h : item.isVisible = true)
    (htext : t.writeItem? item = some text) :
    ∃ c, text.head? = some c ∧ Text.isBlank c = false := by
  cases item with
  | number part =>
    obtain ⟨n, hn, rfl⟩ := Option.map_eq_some_iff.mp htext
    obtain ⟨k, hwidth, -⟩ := LocalTime.number?_width hn
    obtain ⟨c, cs, hcs, hdigit⟩ := exists_padded_eq_cons k n
    rw [hwidth, Option.getD_some, hcs]
    exact ⟨c, rfl, (plain_of_isDigit hdigit).1⟩
  | monthName long =>
    cases long with
    | true => cases htext
    | false =>
      obtain ⟨name, hname, rfl⟩ := Option.map_eq_some_iff.mp htext
      have hnames : ∀ name ∈ LocalTime.monthNames,
          name.toList.head?.any (fun c => !Text.isBlank c) = true := by decide
      have hname := hnames name (List.mem_of_getElem? hname)
      cases hc : name.toList.head? with
      | none => rw [hc] at hname; cases hname
      | some c => rw [hc] at hname; exact ⟨c, rfl, by simpa using hname⟩
  | _ => cases h

theorem writeItems?_cons {item : Item} {items : List Item} {text : List Char}
    (h : t.writeItems? (item :: items) = some text) :
    ∃ first rest, t.writeItem? item = some first ∧ t.writeItems? items = some rest ∧
      text = first ++ rest := by
  obtain ⟨first, hfirst, h⟩ := Option.bind_eq_some_iff.mp h
  obtain ⟨rest, hrest, h⟩ := Option.bind_eq_some_iff.mp h
  exact ⟨first, rest, hfirst, hrest, (Option.some.inj h).symm⟩

/-- In a pattern that is well spaced, no blanks follow where blanks are read. -/
theorem not_blank_of_wellSpaced {item : Item} {items : List Item} {rest : List Char}
    (h : wellSpaced (item :: items) = true) (hrest : t.writeItems? items = some rest) :
    item = .blanks → ∀ c, rest.head? = some c → Text.isBlank c = false := by
  rintro rfl c hc
  have hhead := (Bool.and_eq_true_iff.mp h).1
  cases items with
  | nil => cases hhead
  | cons next items =>
    obtain ⟨shown, behind, hshown, -, rfl⟩ := writeItems?_cons hrest
    obtain ⟨d, hd, hblank⟩ := head_of_isVisible hhead hshown
    rw [List.head?_append, hd, Option.some_or] at hc
    exact Option.some.inj hc ▸ hblank

/-- Items that have been written are read again, one after the other. -/
theorem exists_readItems? {items : List Item} {text : List Char} (h : Holds t held p)
    (htext : t.writeItems? items = some text) (hspaced : wellSpaced items = true) :
    ∃ p', items.foldlM (fun (p, cs) item => readItem? item p cs) (p, text) = some (p', []) ∧
      Holds t (items.flatMap Item.slots ++ held) p' := by
  induction items generalizing p held text with
  | nil =>
    cases htext
    exact ⟨p, rfl, h⟩
  | cons item items ih =>
    obtain ⟨first, rest, hfirst, hrest, rfl⟩ := writeItems?_cons htext
    obtain ⟨q, hread, hq⟩ := exists_readItem? h hfirst (not_blank_of_wellSpaced hspaced hrest)
    obtain ⟨p', hreads, hp'⟩ := ih hq hrest (wellSpaced_tail hspaced)
    refine ⟨p', ?_, hp'.congr fun s => ?_⟩
    · simp only [List.foldlM_cons, hread, Option.bind_eq_bind, Option.bind_some]
      exact hreads
    · simp only [List.flatMap_cons, List.mem_append, or_assoc]
      exact or_left_comm

/-! ### Dates and times of parts -/

theorem Holds.of_mem (h : Holds t held p) (hs : s ∈ held) : p.get? s = t.part? s := by
  rw [h s, if_pos hs]

theorem Holds.of_not_mem (h : Holds t held p) (hs : s ∉ held) : p.get? s = none := by
  rw [h s, if_neg hs]

/-- A part that a written time does not have is not collected. -/
theorem Holds.of_part?_eq_none (h : Holds t held p) (hs : t.part? s = none) : p.get? s = none := by
  rw [h s, hs, ite_self]

theorem Holds.agreesWithDate (h : Holds t held p) (hyear : .year ∈ held) (hmonth : .month ∈ held)
    (hday : .day ∈ held) : p.agreesWithDate t.date.number = true := by
  have hwritten := Calendar.dateOf_number t.isValid
  have gyear : p.get? .year = some t.date.year := h.of_mem hyear
  have gmonth : p.get? .month = some (t.date.month : Int) := h.of_mem hmonth
  have gday : p.get? .day = some (t.date.day : Int) := h.of_mem hday
  have gcentury : p.get? .century = none := h.of_part?_eq_none rfl
  have gshort : p.get? .yearOfCentury = none := h.of_part?_eq_none rfl
  simp only [Parts.agreesWithDate, Parts.agrees, Parts.agreesIfAny, hwritten, gyear, gmonth, gday,
    gcentury, gshort]
  simp

/-- No written time has parts of a week or counts its day in the year. -/
theorem Holds.agreesWithWeek (h : Holds t held p) (n : Int) : p.agreesWithWeek n = true := by
  have gnone : ∀ s, t.part? s = none → p.get? s = none := fun s => h.of_part?_eq_none
  simp only [Parts.agreesWithWeek, Parts.agrees, Parts.agreesIfAny, gnone .isoYear rfl,
    gnone .isoYearOfCentury rfl, gnone .isoWeek rfl, gnone .weekday rfl]
  simp

theorem Holds.agreesWithOrdinal (h : Holds t held p) (n : Int) : p.agreesWithOrdinal n = true := by
  have gnone : ∀ s, t.part? s = none → p.get? s = none := fun s => h.of_part?_eq_none
  simp only [Parts.agreesWithOrdinal, Parts.agrees, gnone .dayOfYear rfl,
    gnone .weekFromSunday rfl, gnone .weekFromMonday rfl]
  simp

/-- The parts of a date make the date. -/
theorem Holds.day (h : Holds t held p) (hyear : .year ∈ held) (hmonth : .month ∈ held)
    (hday : .day ∈ held) : p.day = .ok t.date.number := by
  have hrange : Calendar.inRange t.date.year = true := by
    have := t.year_mem
    simp only [Calendar.inRange, Bool.and_eq_true, decide_eq_true_eq]
    unfold Calendar.minYear Calendar.maxYear
    omega
  have hdate : Calendar.ofDate? ⟨t.date.year, (t.date.month : Int).toNat, (t.date.day : Int).toNat⟩ =
      some t.date.number := Calendar.ofDate?_number t.isValid hrange
  have gyear : p.get? .year = some t.date.year := h.of_mem hyear
  have gmonth : p.get? .month = some (t.date.month : Int) := h.of_mem hmonth
  have gday : p.get? .day = some (t.date.day : Int) := h.of_mem hday
  have gnone : ∀ s, t.part? s = none → p.get? s = none := fun s => h.of_part?_eq_none
  have hquarter : p.agrees .quarter (((Calendar.dateOf t.date.number).month + 2) / 3 : Nat) = true := by
    simp [Parts.agrees, gnone .quarter rfl]
  have gfull : Parts.year (p.get? .year) (p.get? .century) (p.get? .yearOfCentury) =
      .ok (some t.date.year) := by
    rw [gyear, gnone .century rfl, gnone .yearOfCentury rfl]
    rfl
  have giso : Parts.year (p.get? .isoYear) none (p.get? .isoYearOfCentury) = .ok none := by
    rw [gnone .isoYear rfl, gnone .isoYearOfCentury rfl]
    rfl
  simp only [Parts.day, gfull, giso, gmonth, gday, bind, Except.bind, hdate,
    h.agreesWithDate hyear hmonth hday, h.agreesWithWeek, h.agreesWithOrdinal, hquarter,
    Bool.and_self, if_true]

/-- The parts of a time of day make the time, without seconds if none were read. -/
theorem Holds.time (h : Holds t held p) (hhalf : .half ∈ held) (hhour : .hourOfHalf ∈ held)
    (hminute : .minute ∈ held) (hnano : .nanosecond ∈ held → .second ∈ held) : p.time =
      .ok (((t.hour * 60 + t.minute) * 60 + if .second ∈ held then t.second else 0 : Nat) *
        1000000000) := by
  have ghalf : p.get? .half = some ((t.hour / 12 : Nat) : Int) := h.of_mem hhalf
  have ghour : p.get? .hourOfHalf = some ((t.hour % 12 : Nat) : Int) := h.of_mem hhour
  have gminute : p.get? .minute = some (t.minute : Int) := h.of_mem hminute
  have gnano : (p.get? .nanosecond).getD 0 = 0 := by
    rw [h .nanosecond]
    split <;> rfl
  have gsecond : (p.get? .second).getD 0 = ((if .second ∈ held then t.second else 0 : Nat) : Int) := by
    rw [h .second]
    split <;> rfl
  have genough : ((p.get? .nanosecond).isSome && (p.get? .second).isNone) = false := by
    rw [h .nanosecond, h .second]
    by_cases hfraction : .nanosecond ∈ held
    · rw [if_pos (hnano hfraction), LocalTime.part?, Option.isNone_some, Bool.and_false]
    · rw [if_neg hfraction, Option.isSome_none, Bool.false_and]
  simp only [Parts.time, ghalf, ghour, gminute, gnano, gsecond, genough, bind, Except.bind, pure,
    Except.pure, Bool.false_eq_true, if_false]
  refine congrArg Except.ok ?_
  generalize (if Slot.second ∈ held then t.second else 0) = second
  omega

/-- Without an hour there is no time of day. -/
theorem Holds.time_of_no_hour (h : Holds t held p) (hhalf : .half ∉ held) :
    p.time = .error .notEnough := by
  simp only [Parts.time, h.of_not_mem hhalf, throw, throwThe, MonadExceptOf.throw]

/-- The parts of a date and a time of day make the local time. -/
theorem Holds.localMillis? (h : Holds t held p) (hdate : ∀ s ∈ [Slot.year, .month, .day], s ∈ held)
    (hclock : ∀ s ∈ [Slot.half, .hourOfHalf, .minute], s ∈ held)
    (hnano : .nanosecond ∈ held → .second ∈ held) : p.localMillis? =
      some (t.date.number * Moment.day + t.hour * Moment.hour + t.minute * Moment.minute +
        (if .second ∈ held then t.second else 0 : Nat) * Moment.second) := by
  simp only [List.forall_mem_cons] at hdate hclock
  obtain ⟨hyear, hmonth, hday, -⟩ := hdate
  obtain ⟨hhalf, hhour, hminute, -⟩ := hclock
  have hepoch : p.get? .epochSecond = none := h.of_part?_eq_none rfl
  simp only [Parts.localMillis?, h.day hyear hmonth hday, h.time hhalf hhour hminute hnano, hepoch,
    Parts.epochMillis]
  refine congrArg some ?_
  generalize (if Slot.second ∈ held then t.second else 0) = second
  unfold Moment.hour Moment.minute Moment.second
  omega

/-- The parts of a date alone make its midnight. -/
theorem Holds.localMillis?_of_no_hour (h : Holds t held p)
    (hdate : ∀ s ∈ [Slot.year, .month, .day], s ∈ held) (hhalf : .half ∉ held) :
    p.localMillis?.or (p.day.toOption.map (· * Moment.day)) =
      some (t.date.number * Moment.day) := by
  simp only [List.forall_mem_cons] at hdate
  obtain ⟨hyear, hmonth, hday, -⟩ := hdate
  have hepoch : p.get? .epochSecond = none := h.of_part?_eq_none rfl
  simp only [Parts.localMillis?, h.day hyear hmonth hday, h.time_of_no_hour hhalf, hepoch,
    Option.none_or, Except.toOption, Option.map_some]

/-! ### Texts of a pattern -/

/-- The parts that a pattern is about. -/
def shownParts (pattern : String) : List Slot :=
  ((items? pattern.toList).getD []).flatMap Item.slots

/-- The time as far as a pattern shows it: what it does not show of the clock is zero. -/
def LocalTime.shownIn (t : LocalTime) (pattern : String) : LocalTime :=
  let shown (s : Slot) (n : Nat) : Nat := if s ∈ shownParts pattern then n else 0
  { t with
    hour := shown .hourOfHalf t.hour
    minute := shown .minute t.minute
    second := shown .second t.second
    hour_lt := Nat.lt_of_le_of_lt (by dsimp only [shown]; split <;> simp) t.hour_lt
    minute_lt := Nat.lt_of_le_of_lt (by dsimp only [shown]; split <;> simp) t.minute_lt
    second_le := Nat.le_trans (by dsimp only [shown]; split <;> simp) t.second_le }

/-- Items of a whole date, with or without a time of day down to the minute,
that are written so that they can be read again. -/
def isDatePattern (items : List Item) : Bool :=
  let shown := items.flatMap Item.slots
  items.all Item.isWritten && wellSpaced items &&
    [Slot.year, .month, .day].all (· ∈ shown) &&
    ([Slot.half, .hourOfHalf, .minute].all (· ∈ shown) ||
      [Slot.half, .hourOfHalf, .minute, .second].all (· ∉ shown))

/-- A time that is written under a pattern is read under it as far as it is shown. -/
theorem local?_written {pattern : String} {items : List Item} (t : LocalTime)
    (hitems : items? pattern.toList = some items) (hpattern : isDatePattern items = true) :
    ∃ text, t.writeItems? items = some text ∧
      local? pattern text = some (t.shownIn pattern).millis := by
  simp only [isDatePattern, Bool.and_eq_true, Bool.or_eq_true, List.all_eq_true,
    decide_eq_true_eq] at hpattern
  obtain ⟨⟨⟨hwritten, hspaced⟩, hdate⟩, hclock⟩ := hpattern
  obtain ⟨text, htext⟩ := exists_writeItems? t hwritten
  obtain ⟨p, hread, hp⟩ := exists_readItems? Holds.nil htext hspaced
  rw [List.append_nil] at hp
  refine ⟨text, htext, ?_⟩
  have hparts : parts? pattern text = some p := by
    simp only [parts?, hitems, hread, Option.bind_eq_bind, Option.bind_some, List.isEmpty_nil,
      if_true]
  have hshown : shownParts pattern = items.flatMap Item.slots := by
    rw [shownParts, hitems, Option.getD_some]
  simp only [local?, hparts, Option.bind_eq_bind, Option.bind_some]
  rcases hclock with hclock | hclock
  · rw [hp.localMillis? hdate hclock (absurd · nanosecond_not_mem_slots), Option.some_or]
    simp only [List.forall_mem_cons] at hclock
    simp only [LocalTime.millis, LocalTime.shownIn, hshown, hclock, if_true]
  · simp only [List.forall_mem_cons] at hclock
    rw [hp.localMillis?_of_no_hour hdate hclock.1]
    simp only [LocalTime.millis, LocalTime.shownIn, hshown, hclock, if_false]
    refine congrArg some ?_
    omega

end Time

end SiteScrape
