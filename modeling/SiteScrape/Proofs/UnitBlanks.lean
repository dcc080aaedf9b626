import Mathlib
import SiteScrape.Filter.Number
import SiteScrape.Proofs.Occurrences
import SiteScrape.Time.Age

/-!
# Blanks between an amount and its unit

A size is read off the first decimal of a text and what follows it
(`sizeIn_append`), an age off all amounts, each with the unit behind it
(`exists_entries_append`). Between the two, blanks of ASCII are skipped. Any
other blank counts as part of the text that should spell a unit, so no unit is
read there (`blanks_before_unit`).
-/

namespace SiteScrape

namespace Text

/-- The code points of the blanks. -/
def blankCodes : List Nat :=
  [0x9, 0xa, 0xb, 0xc, 0xd, 0x20, 0x85, 0xa0, 0x1680, 0x2000, 0x2001, 0x2002, 0x2003, 0x2004,
    0x2005, 0x2006, 0x2007, 0x2008, 0x2009, 0x200a, 0x2028, 0x2029, 0x202f, 0x205f, 0x3000]

theorem exists_of_isBlank {c : Char} (h : isBlank c = true) :
    ∃ n ∈ blankCodes, c = Char.ofNat n := by
  refine ⟨c.toNat, ?_, (Char.ofNat_toNat c).symm⟩
  have hval : c.val.toNat = c.toNat := rfl
  simp only [isBlank, Bool.or_eq_true, Bool.and_eq_true, decide_eq_true_eq, beq_iff_eq,
    Char.le_def, UInt32.le_iff_toNat_le, ← Char.toNat_inj, hval] at h
  simp only [Char.reduceToNat, Char.reduceVal, UInt32.reduceToNat] at h
  simp only [blankCodes, List.mem_cons, List.not_mem_nil, or_false]
  omega

/-- What holds of all blanks can be checked one by one. -/
theorem forall_blank {p : Char → Prop} (h : ∀ n ∈ blankCodes, p (Char.ofNat n)) {c : Char}
    (hc : isBlank c = true) : p c := by
  obtain ⟨n, hn, rfl⟩ := exists_of_isBlank hc
  exact h n hn

theorem drop_length_takeWhile (p : Char → Bool) (cs : List Char) :
    cs.drop (cs.takeWhile p).length = cs.dropWhile p := by
  induction cs with
  | nil => rfl
  | cons c cs ih => cases hc : p c <;> simp [hc, ih]

theorem mem_lowerFrom {c : Char} {before cs : List Char} (h : lowerChar c = [c]) (hc : c ∈ cs)
    (hsigma : c ≠ '\u03a3') : c ∈ lowerFrom before cs := by
  induction cs generalizing before with
  | nil => cases hc
  | cons d cs ih =>
    rw [lowerFrom]
    rcases List.mem_cons.mp hc with rfl | hc
    · rw [if_neg hsigma, h]
      exact List.mem_append_left _ (List.mem_singleton_self c)
    · exact List.mem_append_right _ (ih hc)

end Text

namespace Filter

variable {n t cs : List Char} {c : Char}

/-! ### Sizes -/

/-- The spellings of byte units, in small letters. -/
def byteUnits : List String :=
  ["b", "byte", "bytes"] ++ unitLetters.flatMap fun letter =>
    [String.ofList [letter.toLower, 'b'], String.ofList [letter.toLower, 'i', 'b']]

/-- Digits with points and commas, with or without a sign in front. -/
structure IsNumber (n : String) : Prop where
  signed : ∃ sign digits, n.toList = sign ++ digits ∧ (sign = [] ∨ sign = ['-'] ∨ sign = ['+']) ∧
    ∀ c ∈ digits, c.isDigit = true ∨ c = '.' ∨ c = ','

/-- The digits behind a point in front. -/
def fractionOf : List Char → List Char
  | '.' :: rest => rest.takeWhile Char.isDigit
  | _ => []

theorem decimal?_eq (cs : List Char) : decimal? cs =
    let whole := cs.takeWhile Char.isDigit
    let behind := cs.dropWhile Char.isDigit
    if whole.isEmpty && (fractionOf behind).isEmpty then none
    else some (⟨whole, fractionOf behind⟩,
      if (fractionOf behind).isEmpty then behind
      else behind.drop ((fractionOf behind).length + 1)) := rfl

/-- A text that cannot go on with a decimal. -/
def Stops (t : List Char) : Prop := ∀ c, t.head? = some c → c.isDigit = false ∧ c ≠ '.'

theorem fractionOf_cases (cs : List Char) :
    (∃ rest, cs = '.' :: rest ∧ fractionOf cs = rest.takeWhile Char.isDigit) ∨
      cs.head? ≠ some '.' ∧ fractionOf cs = [] := by
  cases cs with
  | nil => exact .inr ⟨by simp, rfl⟩
  | cons d rest =>
    by_cases hd : d = '.'
    · exact .inl ⟨rest, by rw [hd], by rw [hd]; rfl⟩
    · refine .inr ⟨by simpa using hd, ?_⟩
      unfold fractionOf
      split
      · next h => exact absurd (List.cons.inj h).1 hd
      · rfl

theorem fractionOf_append (ht : Stops t) (cs : List Char) :
    fractionOf (cs ++ t) = fractionOf cs := by
  rcases fractionOf_cases cs with ⟨rest, rfl, hrest⟩ | ⟨hhead, hnone⟩
  · exact Text.takeWhile_append_stop (fun c hc => (ht c hc).1) rest
  · rw [hnone]
    rcases fractionOf_cases (cs ++ t) with ⟨rest, hrest, -⟩ | ⟨-, h⟩
    · cases cs with
      | nil => exact absurd rfl (ht '.' (by rw [← List.nil_append t, hrest]; rfl)).2
      | cons d cs => exact absurd (congrArg List.head? hrest) hhead
    · exact h

theorem length_fractionOf_le (cs : List Char) : (fractionOf cs).length ≤ cs.length - 1 := by
  rcases fractionOf_cases cs with ⟨rest, rfl, hrest⟩ | ⟨-, hnone⟩
  · rw [hrest]
    exact (List.takeWhile_sublist _).length_le
  · rw [hnone]
    exact Nat.zero_le _

/-- The decimal in front of a text does not depend on what cannot go on with it. -/
theorem decimal?_append (ht : Stops t) (cs : List Char) :
    decimal? (cs ++ t) = (decimal? cs).map fun p => (p.1, p.2 ++ t) := by
  have hdigit : ∀ c, t.head? = some c → c.isDigit = false := fun c hc => (ht c hc).1
  have hfraction := fractionOf_append ht (cs.dropWhile Char.isDigit)
  have hlength := length_fractionOf_le (cs.dropWhile Char.isDigit)
  rw [decimal?_eq, decimal?_eq]
  simp only [Text.takeWhile_append_stop hdigit, Text.dropWhile_append_stop hdigit, hfraction]
  cases hf : fractionOf (cs.dropWhile Char.isDigit) with
  | nil => cases cs.takeWhile Char.isDigit <;> rfl
  | cons d fraction =>
    rw [hf, List.length_cons] at hlength
    have hdrop : ((cs.dropWhile Char.isDigit) ++ t).drop (fraction.length + 1 + 1) =
        (cs.dropWhile Char.isDigit).drop (fraction.length + 1 + 1) ++ t :=
      List.drop_append_of_le_length (by omega)
    simp [hdrop]

theorem decimal?_eq_none (h : ∀ c ∈ cs, c.isDigit = false) : decimal? cs = none := by
  have htake (cs : List Char) (h : ∀ c ∈ cs, c.isDigit = false) :
      cs.takeWhile Char.isDigit = [] := by
    cases cs with
    | nil => rfl
    | cons c rest => rw [List.takeWhile_cons_of_neg (by simp [h c List.mem_cons_self])]
  have hfraction : fractionOf (cs.dropWhile Char.isDigit) = [] := by
    rcases fractionOf_cases (cs.dropWhile Char.isDigit) with ⟨rest, hbehind, hrest⟩ | ⟨-, hnone⟩
    · rw [hrest]
      exact htake rest fun c hc =>
        h c (List.dropWhile_subset _ (hbehind ▸ List.mem_cons_of_mem _ hc))
    · exact hnone
  simp [decimal?_eq, htake cs h, hfraction]

/-- Nor does the first decimal of a text depend on what follows without a digit. -/
theorem firstDecimal?_append (ht : Stops t) (hdigits : ∀ c ∈ t, c.isDigit = false)
    (cs : List Char) :
    firstDecimal? (cs ++ t) = (firstDecimal? cs).map fun p => (p.1, p.2 ++ t) := by
  induction cs with
  | nil =>
    rw [List.nil_append]
    clear ht
    induction t with
    | nil => rfl
    | cons c rest ih =>
      have hrest := ih fun d hd => hdigits d (List.mem_cons_of_mem _ hd)
      have hnone : firstDecimal? rest = none := hrest
      show firstDecimal? (c :: rest) = none
      rw [firstDecimal?, decimal?_eq_none hdigits, Option.none_or, hnone]
  | cons c cs ih =>
    rw [List.cons_append, firstDecimal?, firstDecimal?, ih, ← List.cons_append, decimal?_append ht]
    cases decimal? (c :: cs) <;> rfl

/-- What is left behind a decimal is no digit, and stood in the text. -/
theorem behind_decimal? {d : Digits} {rest : List Char} (h : decimal? cs = some (d, rest)) :
    (∀ c, rest.head? = some c → c.isDigit = false) ∧ rest <:+ cs := by
  have hbehind : cs.dropWhile Char.isDigit <:+ cs := List.dropWhile_suffix _
  have hhead (cs : List Char) :
      ∀ c, (cs.dropWhile Char.isDigit).head? = some c → c.isDigit = false := fun c hc => by
    simpa [hc] using List.head?_dropWhile_not Char.isDigit cs
  rw [decimal?_eq] at h
  dsimp only at h
  split at h
  · cases h
  · obtain ⟨-, rfl⟩ := Prod.mk.inj (Option.some.inj h)
    split
    · exact ⟨hhead cs, hbehind⟩
    · next hfraction =>
      refine ⟨?_, (List.drop_suffix _ _).trans hbehind⟩
      rcases fractionOf_cases (cs.dropWhile Char.isDigit) with ⟨rest, hpoint, hrest⟩ | ⟨-, hnone⟩
      · rw [hrest, hpoint, List.drop_succ_cons, Text.drop_length_takeWhile]
        exact hhead rest
      · exact absurd (by rw [hnone]; rfl) hfraction

theorem behind_firstDecimal? {d : Digits} {rest : List Char}
    (h : firstDecimal? cs = some (d, rest)) :
    (∀ c, rest.head? = some c → c.isDigit = false) ∧ rest <:+ cs := by
  induction cs with
  | nil => cases h
  | cons c cs ih =>
    rw [firstDecimal?, Option.or_eq_some_iff] at h
    rcases h with h | ⟨-, h⟩
    · exact behind_decimal? h
    · obtain ⟨hhead, hsuffix⟩ := ih h
      exact ⟨hhead, hsuffix.trans (List.suffix_cons c cs)⟩

/-- What stands behind a number: no digits, and nothing that it could go on with. -/
structure IsTail (t : List Char) : Prop where
  plain : ∀ c ∈ t, c.isDigit = false ∧ c ≠ ','
  head : t.head? ≠ some '.'

theorem IsTail.stops (h : IsTail t) : Stops t := fun c hc =>
  ⟨(h.plain c (List.mem_of_head? hc)).1, fun hpoint => h.head (hpoint ▸ hc)⟩

theorem isTail_nil : IsTail [] := ⟨by simp, by simp⟩

theorem unitExponent_of_not_mem (h : c.toUpper ∉ unitLetters) (cs : List Char) :
    unitExponent (c :: cs) = 0 := by
  have hnone : unitLetters.idxOf? c.toUpper = none := List.idxOf?_eq_none_iff.mpr h
  unfold unitExponent
  simp only [hnone]
  repeat' split
  all_goals rfl

/-- The unit that a text begins with behind ASCII's blanks. -/
def exponentAhead (t : List Char) : Nat := unitExponent (Text.trimLeft Text.isAsciiBlank t)

theorem exponentAhead_of_not_mem (hblank : Text.isAsciiBlank c = false)
    (h : c.toUpper ∉ unitLetters) (cs : List Char) : exponentAhead (c :: cs) = 0 := by
  rw [exponentAhead, Text.trimLeft, List.dropWhile_cons_of_neg (by simp [hblank]),
    unitExponent_of_not_mem h]

/-- Signs and points are all that is left of a number behind its first one. -/
theorem head_behind_firstDecimal? {n : String} {d : Digits} {rest : List Char} (hn : IsNumber n)
    (h : firstDecimal? (n.toList.filter (· != ',')) = some (d, c :: rest)) :
    c = '-' ∨ c = '+' ∨ c = '.' := by
  obtain ⟨sign, digits, hlist, hsign, hdigits⟩ := hn.signed
  obtain ⟨hhead, hsuffix⟩ := behind_firstDecimal? h
  have hfiltered := hsuffix.subset List.mem_cons_self
  have hmem : c ∈ n.toList := List.mem_of_mem_filter hfiltered
  rw [hlist] at hmem
  rcases List.mem_append.mp hmem with hmem | hmem
  · rcases hsign with rfl | rfl | rfl <;> simp_all
  · rcases hdigits c hmem with hdigit | hpoint | hcomma
    · rw [hhead c rfl] at hdigit
      cases hdigit
    · exact .inr (.inr hpoint)
    · have hkept := List.of_mem_filter hfiltered
      simp [hcomma] at hkept

/-- A size is the first number of a text, times the unit behind it. -/
theorem sizeIn_append {n t : String} (hn : IsNumber n) (ht : IsTail t.toList) :
    sizeIn (n ++ t) = match firstDecimal? (n.toList.filter (· != ',')) with
      | some (d, rest) =>
        d.value * Double.ofInt (1 <<< (10 * if rest = [] then exponentAhead t.toList else 0) : Nat)
      | none => 0.0 := by
  have hcommas : t.toList.filter (· != ',') = t.toList :=
    List.filter_eq_self.mpr fun c hc => by simpa using (ht.plain c hc).2
  unfold sizeIn
  rw [String.toList_append, List.filter_append, hcommas,
    firstDecimal?_append ht.stops fun c hc => (ht.plain c hc).1]
  cases hfirst : firstDecimal? (n.toList.filter (· != ',')) with
  | none => rfl
  | some p =>
    obtain ⟨d, rest⟩ := p
    have hexponent : unitExponent (Text.trimLeft Text.isAsciiBlank (rest ++ t.toList)) =
        if rest = [] then exponentAhead t.toList else 0 := by
      cases rest with
      | nil => rfl
      | cons c rest =>
        rw [if_neg (List.cons_ne_nil c rest), List.cons_append]
        rcases head_behind_firstDecimal? hn hfirst with rfl | rfl | rfl <;>
          exact exponentAhead_of_not_mem (by decide) (by decide) _
    simp only [Option.map_some, hexponent]

theorem sizeIn_congr {n t t' : String} (hn : IsNumber n) (ht : IsTail t.toList)
    (ht' : IsTail t'.toList) (h : exponentAhead t.toList = exponentAhead t'.toList) :
    sizeIn (n ++ t) = sizeIn (n ++ t') := by
  rw [sizeIn_append hn ht, sizeIn_append hn ht', h]

end Filter

namespace Age

open SiteScrape.Filter

variable {t cs digits : List Char} {c : Char} {unit : String}

/-! ### Ages -/

/-- The unit that a text begins with behind ASCII's blanks. -/
def unitAhead (t : List Char) : List Char :=
  (t.dropWhile Text.isAsciiBlank).takeWhile isUnitChar

def behindUnit (t : List Char) : List Char :=
  (t.dropWhile Text.isAsciiBlank).dropWhile isUnitChar

/-- An entry is a decimal with a unit behind it. -/
theorem takeEntry_eq {d : Digits} {rest : List Char} (h : decimal? cs = some (d, rest)) :
    takeEntry cs = if (unitAhead rest).isEmpty then (none, cs.dropWhile Char.isDigit)
      else (some ⟨d.whole, d.fraction, unitAhead rest⟩, behindUnit rest) := by
  rw [decimal?_eq] at h
  dsimp only at h
  split at h
  · cases h
  · cases h
    unfold takeEntry unitAhead behindUnit
    dsimp only
    rcases fractionOf_cases (cs.dropWhile Char.isDigit) with ⟨rest, hpoint, hrest⟩ | ⟨hhead, hnone⟩
    · have hpart : fractionPart ('.' :: rest) =
          (rest.takeWhile Char.isDigit, rest.dropWhile Char.isDigit) := rfl
      rw [hrest, hpoint, hpart, List.drop_succ_cons, Text.drop_length_takeWhile]
      cases rest.takeWhile Char.isDigit <;> rfl
    · have hpart : fractionPart (cs.dropWhile Char.isDigit) = ([], cs.dropWhile Char.isDigit) := by
        unfold fractionPart
        split
        · next hcons => exact absurd (congrArg List.head? hcons) hhead
        · rfl
      rw [hpart, hnone]
      rfl

theorem entries_eq_nil (h : ∀ c ∈ cs, c.isDigit = false) : entries cs = [] := by
  induction cs with
  | nil => rw [entries]
  | cons c cs ih =>
    rw [entries, dif_neg (by simp [h c List.mem_cons_self])]
    exact ih fun d hd => h d (List.mem_cons_of_mem _ hd)

/-- A text that begins with a digit begins with a decimal. -/
theorem exists_decimal? (hc : c.isDigit = true) (rest : List Char) :
    ∃ d behind, decimal? (c :: rest) = some (d, behind) := by
  rw [decimal?_eq, List.takeWhile_cons_of_pos hc]
  exact ⟨_, _, rfl⟩

theorem takeEntry_append {d : Digits} {behind : List Char}
    (h : decimal? cs = some (d, behind)) (ht : IsTail t) : takeEntry (cs ++ t) =
      if (unitAhead (behind ++ t)).isEmpty then (none, (cs ++ t).dropWhile Char.isDigit)
      else (some ⟨d.whole, d.fraction, unitAhead (behind ++ t)⟩, behindUnit (behind ++ t)) := by
  have happend := decimal?_append ht.stops cs
  rw [h] at happend
  exact takeEntry_eq happend

/-- Where the digits end with a decimal, the unit comes next. -/
theorem entries_append_of_end {rest : List Char} {d : Digits} (hc : c.isDigit = true)
    (h : decimal? (c :: rest) = some (d, [])) (ht : IsTail t) (hunit : unitAhead t ≠ []) :
    entries (c :: rest ++ t) = [⟨d.whole, d.fraction, unitAhead t⟩] := by
  have hentry := takeEntry_append h ht
  rw [List.nil_append, if_neg (by simpa using hunit)] at hentry
  have hnone : entries (behindUnit t) = [] := entries_eq_nil fun c hc =>
    (ht.plain c (List.dropWhile_subset _ (List.dropWhile_subset _ hc))).1
  rw [List.cons_append] at hentry ⊢
  rw [entries, dif_pos hc, hentry]
  simp [hnone]

/-- A decimal with no unit behind it is no amount; the digits behind its mark may be. -/
theorem entries_append_of_mark {rest behind : List Char} {d : Digits} {e : Char}
    (hc : c.isDigit = true) (h : decimal? (c :: rest) = some (d, e :: behind))
    (hblank : Text.isAsciiBlank e = false) (hunit : isUnitChar e = false) (ht : IsTail t) :
    entries (c :: rest ++ t) = entries ((c :: rest).dropWhile Char.isDigit ++ t) := by
  have hentry := takeEntry_append h ht
  have hnone : unitAhead (e :: behind ++ t) = [] := by
    rw [unitAhead, List.cons_append, List.dropWhile_cons_of_neg (by simp [hblank]),
      List.takeWhile_cons_of_neg (by simp [hunit])]
  rw [hnone, if_pos List.isEmpty_nil, Text.dropWhile_append_stop fun c hc =>
    (ht.stops c hc).1] at hentry
  rw [List.cons_append] at hentry ⊢
  rw [entries, dif_pos hc, hentry]

/-- Behind digits with points and commas, every amount that is read has the unit
that follows them; which amounts these are does not depend on it. -/
theorem exists_entries_append (hdigits : ∀ c ∈ digits, c.isDigit = true ∨ c = '.' ∨ c = ',') :
    ∃ amounts : List Digits, ∀ t, IsTail t → unitAhead t ≠ [] →
      entries (digits ++ t) = amounts.map fun d => ⟨d.whole, d.fraction, unitAhead t⟩ := by
  induction hlength : digits.length using Nat.strong_induction_on generalizing digits with
  | _ length ih =>
    cases digits with
    | nil => exact ⟨[], fun t ht _ => entries_eq_nil fun c hc => (ht.plain c hc).1⟩
    | cons c rest =>
      cases hc : c.isDigit with
      | false =>
        obtain ⟨amounts, hamounts⟩ := ih rest.length (by rw [← hlength]; simp)
          (fun d hd => hdigits d (List.mem_cons_of_mem _ hd)) rfl
        refine ⟨amounts, fun t ht hunit => ?_⟩
        rw [List.cons_append, entries, dif_neg (by simp [hc]), hamounts t ht hunit]
      | true =>
        obtain ⟨d, behind, hdecimal⟩ := exists_decimal? hc rest
        cases behind with
        | nil => exact ⟨[d], fun t ht hunit => entries_append_of_end hc hdecimal ht hunit⟩
        | cons e behind =>
          obtain ⟨hhead, hsuffix⟩ := behind_decimal? hdecimal
          -- what is behind a decimal is no digit, so it is a point or a comma
          have he : Text.isAsciiBlank e = false ∧ isUnitChar e = false := by
            rcases hdigits e (hsuffix.subset List.mem_cons_self) with hdigit | rfl | rfl
            · rw [hhead e rfl] at hdigit
              cases hdigit
            · decide
            · decide
          have hmore : ((c :: rest).dropWhile Char.isDigit).length < length := by
            rw [List.dropWhile_cons_of_pos hc, ← hlength]
            exact Nat.lt_succ_of_le (List.dropWhile_sublist _).length_le
          obtain ⟨amounts, hamounts⟩ := ih _ hmore
            (fun d hd => hdigits d (List.dropWhile_subset _ hd)) rfl
          refine ⟨amounts, fun t ht hunit => ?_⟩
          rw [entries_append_of_mark hc hdecimal he.1 he.2 ht, hamounts t ht hunit]

/-- The amounts of a number, each with the unit that follows it. -/
theorem exists_entries_of_isNumber {n : String} (hn : IsNumber n) :
    ∃ amounts : List Digits, ∀ t, IsTail t → unitAhead t ≠ [] →
      entries (n.toList ++ t) = amounts.map fun d => ⟨d.whole, d.fraction, unitAhead t⟩ := by
  obtain ⟨sign, digits, hlist, hsign, hdigits⟩ := hn.signed
  obtain ⟨amounts, hamounts⟩ := exists_entries_append hdigits
  refine ⟨amounts, fun t ht hunit => ?_⟩
  rw [hlist, ← hamounts t ht hunit]
  rcases hsign with rfl | rfl | rfl
  · rfl
  · simp only [List.cons_append, List.nil_append]
    rw [entries, dif_neg (by decide)]
  · simp only [List.cons_append, List.nil_append]
    rw [entries, dif_neg (by decide)]

theorem parse_congr {n t t' : String} (hn : IsNumber n) (ht : IsTail t.toList)
    (ht' : IsTail t'.toList) (hunit : unitAhead t.toList ≠ [])
    (h : unitAhead t.toList = unitAhead t'.toList) (now : Int) :
    parse (n ++ t) now = parse (n ++ t') now := by
  obtain ⟨amounts, hamounts⟩ := exists_entries_of_isNumber hn
  have hsame : entries (n ++ t).toList = entries (n ++ t').toList := by
    rw [String.toList_append, String.toList_append, hamounts _ ht hunit,
      hamounts _ ht' (h ▸ hunit), h]
  rw [parse, parse, total, total, hsame]

/-- Amounts without a known unit are no age. -/
theorem parse_of_unknown {n t : String} (hn : IsNumber n) (ht : IsTail t.toList)
    (hunit : unitAhead t.toList ≠ [])
    (h : extent? (String.ofList (unitAhead t.toList)) = none) (now : Int) :
    parse (n ++ t) now = parse "" now := by
  obtain ⟨amounts, hamounts⟩ := exists_entries_of_isNumber hn
  have hadd (age : Total) (d : Digits) :
      age.add ⟨d.whole, d.fraction, unitAhead t.toList⟩ = age := by
    unfold Total.add
    rw [h]
  have htotal : total (n ++ t) = total "" := by
    rw [total, String.toList_append, hamounts _ ht hunit, total]
    show List.foldl Total.add ⟨0.0, 0.0⟩ (amounts.map _) = List.foldl Total.add _ (entries [])
    rw [entries, List.foldl_map]
    simp only [hadd]
    exact List.foldl_fixed amounts
  rw [parse, parse, htotal]

/-! ### Known units -/

theorem eq_append_of_stripTail {tail s name : String} (h : Text.stripTail tail s = some name) :
    s.toList = name.toList ++ tail.toList := by
  obtain ⟨cs, hcs, rfl⟩ := Option.map_eq_some_iff.mp h
  have hreverse := congrArg List.reverse (Text.afterLead_eq_some.mp hcs)
  simpa using hreverse

/-- A character that units may be spelled with. -/
def spells (c : Char) : Bool := isUnitChar c && !Text.isBlank c

/-- A known unit has small letters, and they are letters of a spelling or of a
word for the past. -/
theorem lower_of_extent? (h : (extent? unit).isSome = true) :
    (Text.lower unit).toList ≠ [] ∧ (Text.lower unit).toList.all spells = true := by
  have hspelled : ∀ entry ∈ units, ∀ name ∈ entry.2,
      name.toList ≠ [] ∧ name.toList.all spells = true := by decide +kernel
  have hknown {name : String}
      (h : ((units.find? fun entry => entry.2.contains name).map (·.1)).isSome = true) :
      name.toList ≠ [] ∧ name.toList.all spells = true := by
    rw [Option.isSome_map] at h
    obtain ⟨entry, hentry⟩ := Option.isSome_iff_exists.mp h
    exact hspelled entry (List.mem_of_find?_eq_some hentry) name
      (by simpa using List.find?_some hentry)
  have hpast {name past : String} (hchars : past.toList.all spells = true)
      (hstrip : Text.stripTail past (Text.lower unit) = some name)
      (hname : name.toList ≠ [] ∧ name.toList.all spells = true) :
      (Text.lower unit).toList ≠ [] ∧ (Text.lower unit).toList.all spells = true := by
    rw [eq_append_of_stripTail hstrip, List.all_append, hname.2, hchars]
    exact ⟨by simp [hname.1], rfl⟩
  unfold extent? at h
  dsimp only at h
  cases hago : Text.stripTail "ago" (Text.lower unit) with
  | some name =>
    rw [hago] at h
    exact hpast (by decide) hago (hknown h)
  | none =>
    cases hqian : Text.stripTail "前" (Text.lower unit) with
    | some name =>
      rw [hago, hqian] at h
      exact hpast (by decide) hqian (hknown h)
    | none =>
      rw [hago, hqian] at h
      exact hknown h

theorem spells_of_mem (h : (extent? unit).isSome = true) (hc : c ∈ unit.toList)
    (hlower : Text.lowerChar c = [c]) (hsigma : c ≠ '\u03a3') : spells c = true := by
  refine List.all_eq_true.mp (lower_of_extent? h).2 c ?_
  rw [Text.lower, String.toList_ofList]
  exact Text.mem_lowerFrom hlower hc hsigma

theorem lowerChar_of_not_isUnitChar (h : isUnitChar c = false) :
    Text.lowerChar c = [c] ∧ c ≠ '\u03a3' := by
  have hnat : c.toNat < 0x80 ∧ ¬ c.isUpper = true := by
    have hval : c.val.toNat = c.toNat := rfl
    simp only [isUnitChar, Bool.not_eq_false', Bool.or_eq_true, Char.isDigit, Text.isAsciiBlank,
      Bool.and_eq_true, decide_eq_true_eq, beq_iff_eq, Char.isUpper, Char.le_def, ge_iff_le,
      UInt32.le_iff_toNat_le, ← Char.toNat_inj, hval] at h ⊢
    simp only [Char.reduceToNat, Char.reduceVal, UInt32.reduceToNat] at h ⊢
    omega
  refine ⟨?_, fun hsigma => ?_⟩
  · rw [Text.lowerChar, if_pos hnat.1, Char.toLower_eq_of_not_isUpper hnat.2]
  · rw [hsigma] at hnat
    exact absurd hnat.1 (by decide)

theorem lowerChar_of_isBlank (h : Text.isBlank c = true) :
    Text.lowerChar c = [c] ∧ c ≠ '\u03a3' :=
  Text.forall_blank (p := fun c => Text.lowerChar c = [c] ∧ c ≠ '\u03a3') (by decide) h

/-- A known unit holds nothing that ends a unit, and no blank. -/
theorem spells_of_extent? (h : (extent? unit).isSome = true) :
    unit.toList ≠ [] ∧ ∀ c ∈ unit.toList, isUnitChar c = true ∧ Text.isBlank c = false := by
  refine ⟨fun hnil => (lower_of_extent? h).1 ?_, fun c hc => ⟨?_, ?_⟩⟩
  · rw [Text.lower, String.toList_ofList, hnil]
    rfl
  · refine Bool.of_not_eq_false fun hunit => ?_
    obtain ⟨hlower, hsigma⟩ := lowerChar_of_not_isUnitChar hunit
    have hspells := spells_of_mem h hc hlower hsigma
    rw [spells, hunit] at hspells
    cases hspells
  · refine Bool.eq_false_iff.mpr fun hblank => ?_
    obtain ⟨hlower, hsigma⟩ := lowerChar_of_isBlank hblank
    have hspells := spells_of_mem h hc hlower hsigma
    rw [spells, hblank, Bool.not_true, Bool.and_false] at hspells
    cases hspells

end Age

/-! ### Blanks -/

namespace Text

/-- Blanks of ASCII only. -/
def isAsciiBlankText (blanks : String) : Bool := blanks.toList.all isAsciiBlank

variable {blanks : String} {t : List Char}

theorem dropWhile_asciiBlanks (h : isAsciiBlankText blanks = true) (t : List Char) :
    (blanks.toList ++ t).dropWhile isAsciiBlank = t.dropWhile isAsciiBlank :=
  List.dropWhile_append_of_pos (List.all_eq_true.mp h)

/-- Blanks that are not all of ASCII begin, behind those that are, with another one. -/
theorem exists_blank_beyond_ascii (h : isBlankText blanks = true)
    (hbeyond : isAsciiBlankText blanks = false) (t : List Char) :
    ∃ c rest, (blanks.toList ++ t).dropWhile isAsciiBlank = c :: rest ∧ isBlank c = true ∧
      isAsciiBlank c = false := by
  obtain ⟨c, hc, hascii⟩ : ∃ c ∈ blanks.toList, isAsciiBlank c = false := by
    simpa [isAsciiBlankText] using hbeyond
  have hblank : ∀ d ∈ blanks.toList, isBlank d = true := List.all_eq_true.mp h
  generalize blanks.toList = cs at hc hblank
  induction cs with
  | nil => cases hc
  | cons d cs ih =>
    rw [List.cons_append]
    cases hd : isAsciiBlank d with
    | false =>
      exact ⟨d, cs ++ t, List.dropWhile_cons_of_neg (by simp [hd]),
        hblank d List.mem_cons_self, hd⟩
    | true =>
      have hmem : c ∈ cs := (List.mem_cons.mp hc).resolve_left fun heq => by
        rw [heq, hd] at hascii
        cases hascii
      rw [List.dropWhile_cons_of_pos hd]
      exact ih hmem fun e he => hblank e (List.mem_cons_of_mem _ he)

end Text

namespace Filter

variable {blanks : String} {t : List Char} {c : Char}

theorem plain_of_isBlank (h : Text.isBlank c = true) :
    c.isDigit = false ∧ c ≠ ',' ∧ c ≠ '.' ∧ c.toUpper ∉ unitLetters :=
  Text.forall_blank (p := fun c => c.isDigit = false ∧ c ≠ ',' ∧ c ≠ '.' ∧ c.toUpper ∉ unitLetters)
    (by decide) h

theorem isTail_blanks_append (hblanks : Text.isBlankText blanks = true) (ht : IsTail t) :
    IsTail (blanks.toList ++ t) := by
  have hplain : ∀ c ∈ blanks.toList, c.isDigit = false ∧ c ≠ ',' ∧ c ≠ '.' ∧ _ :=
    fun c hc => plain_of_isBlank (List.all_eq_true.mp hblanks c hc)
  refine ⟨fun c hc => (List.mem_append.mp hc).elim
    (fun hc => ⟨(hplain c hc).1, (hplain c hc).2.1⟩) (ht.plain c), ?_⟩
  cases hcs : blanks.toList with
  | nil => exact ht.head
  | cons c cs =>
    have hc := hplain c (hcs ▸ List.mem_cons_self)
    simpa using hc.2.2.1

theorem not_isDigit_of_isAlpha (h : c.isAlpha = true) : c.isDigit = false := by
  refine Bool.eq_false_iff.mpr fun hdigit => ?_
  simp only [Char.isAlpha, Char.isUpper, Char.isLower, Char.isDigit, Bool.or_eq_true,
    Bool.and_eq_true, decide_eq_true_eq, ge_iff_le, UInt32.le_iff_toNat_le] at h hdigit
  simp only [Char.reduceVal, UInt32.reduceToNat] at h hdigit
  omega

theorem isTail_of_byteUnit {unit : String} (h : Text.asciiLower unit ∈ byteUnits) :
    IsTail unit.toList := by
  have hletters : ∀ name ∈ byteUnits, name.toList.all Char.isAlpha = true := by
    simp only [byteUnits, unitLetters, List.flatMap_cons, List.flatMap_nil, List.cons_append,
      List.nil_append, List.forall_mem_cons, String.toList_ofList]
    decide
  have halpha : ∀ c ∈ unit.toList, c.isAlpha = true := fun c hc => by
    rw [← Char.isAlpha_toLower_eq_isAlpha]
    refine List.all_eq_true.mp (hletters _ h) c.toLower ?_
    rw [Text.asciiLower, String.toList_ofList]
    exact List.mem_map_of_mem hc
  refine ⟨fun c hc => ⟨?_, fun hcomma => ?_⟩, fun hhead => ?_⟩
  · exact not_isDigit_of_isAlpha (halpha c hc)
  · exact absurd (hcomma ▸ halpha c hc) (by decide)
  · exact absurd (halpha '.' (List.mem_of_head? hhead)) (by decide)

theorem exponentAhead_asciiBlanks (h : Text.isAsciiBlankText blanks = true) (t : List Char) :
    exponentAhead (blanks.toList ++ t) = exponentAhead t := by
  unfold exponentAhead Text.trimLeft
  rw [Text.dropWhile_asciiBlanks h]

theorem exponentAhead_blanks_beyond (h : Text.isBlankText blanks = true)
    (hbeyond : Text.isAsciiBlankText blanks = false) (t : List Char) :
    exponentAhead (blanks.toList ++ t) = 0 := by
  obtain ⟨c, rest, hdrop, hblank, -⟩ := Text.exists_blank_beyond_ascii h hbeyond t
  rw [exponentAhead, Text.trimLeft, hdrop, unitExponent_of_not_mem (plain_of_isBlank hblank).2.2.2]

end Filter

namespace Age

variable {blanks unit : String} {t : List Char}

open SiteScrape.Filter

theorem isTail_of_extent? (h : (extent? unit).isSome = true) : IsTail unit.toList := by
  have hunit := (spells_of_extent? h).2
  have hnot {c : Char} (hc : isUnitChar c = true) : c.isDigit = false ∧ c ≠ ',' ∧ c ≠ '.' := by
    simp only [isUnitChar, Bool.not_eq_true', Bool.or_eq_false_iff, decide_eq_false_iff_not] at hc
    exact ⟨hc.1.1.1.1.1, hc.1.1.2, hc.1.1.1.2⟩
  exact ⟨fun c hc => ⟨(hnot (hunit c hc).1).1, (hnot (hunit c hc).1).2.1⟩,
    fun hhead => (hnot (hunit '.' (List.mem_of_head? hhead)).1).2.2 rfl⟩

theorem unitAhead_of_extent? (h : (extent? unit).isSome = true) :
    unitAhead unit.toList = unit.toList := by
  obtain ⟨hne, hchars⟩ := spells_of_extent? h
  have hhead : unit.toList.dropWhile Text.isAsciiBlank = unit.toList := by
    cases hcs : unit.toList with
    | nil => exact absurd hcs hne
    | cons c cs =>
      have hc := (hchars c (hcs ▸ List.mem_cons_self)).1
      simp only [isUnitChar, Bool.not_eq_true', Bool.or_eq_false_iff] at hc
      exact List.dropWhile_cons_of_neg (by simp [hc.1.1.1.1.2])
  rw [unitAhead, hhead]
  exact List.takeWhile_eq_self_iff.mpr fun c hc => (hchars c hc).1

theorem unitAhead_asciiBlanks (h : Text.isAsciiBlankText blanks = true) (t : List Char) :
    unitAhead (blanks.toList ++ t) = unitAhead t := by
  rw [unitAhead, Text.dropWhile_asciiBlanks h, unitAhead]

/-- Another blank is taken for the first letter of a unit, which is then unknown. -/
theorem unitAhead_blanks_beyond (h : Text.isBlankText blanks = true)
    (hbeyond : Text.isAsciiBlankText blanks = false) (t : List Char) :
    unitAhead (blanks.toList ++ t) ≠ [] ∧
      extent? (String.ofList (unitAhead (blanks.toList ++ t))) = none := by
  obtain ⟨c, rest, hdrop, hblank, hascii⟩ := Text.exists_blank_beyond_ascii h hbeyond t
  have hunit : isUnitChar c = true :=
    Text.forall_blank (p := fun c => Text.isAsciiBlank c = false → isUnitChar c = true)
      (by decide) hblank hascii
  have hahead : unitAhead (blanks.toList ++ t) = c :: rest.takeWhile isUnitChar := by
    rw [unitAhead, hdrop, List.takeWhile_cons_of_pos hunit]
  rw [hahead]
  refine ⟨List.cons_ne_nil _ _, Option.not_isSome_iff_eq_none.mp fun hsome => ?_⟩
  have hnot := ((spells_of_extent? hsome).2 c (by simp)).2
  rw [hblank] at hnot
  cases hnot

end Age

/-- Between a number and its unit, blanks of ASCII make no difference. With any
other blank there, the size is the number without a unit, and the age is that of
a text without amounts. -/
theorem blanks_before_unit {number blanks : String} (hnumber : Filter.IsNumber number)
    (hblanks : Text.isBlankText blanks = true) :
    (∀ unit, Text.asciiLower unit ∈ Filter.byteUnits →
      (Text.isAsciiBlankText blanks = true →
        Filter.sizeIn (number ++ (blanks ++ unit)) = Filter.sizeIn (number ++ unit)) ∧
      (Text.isAsciiBlankText blanks = false →
        Filter.sizeIn (number ++ (blanks ++ unit)) = Filter.sizeIn number)) ∧
    ∀ unit now, (Age.extent? unit).isSome = true →
      (Text.isAsciiBlankText blanks = true →
        Age.parse (number ++ (blanks ++ unit)) now = Age.parse (number ++ unit) now) ∧
      (Text.isAsciiBlankText blanks = false →
        Age.parse (number ++ (blanks ++ unit)) now = Age.parse "" now) := by
  constructor
  · intro unit hunit
    have htail := Filter.isTail_of_byteUnit hunit
    have htail' : Filter.IsTail (blanks ++ unit).toList := by
      rw [String.toList_append]
      exact Filter.isTail_blanks_append hblanks htail
    constructor
    · intro hascii
      refine Filter.sizeIn_congr hnumber htail' htail ?_
      rw [String.toList_append, Filter.exponentAhead_asciiBlanks hascii]
    · intro hbeyond
      have hnone :
          Filter.exponentAhead (blanks ++ unit).toList = Filter.exponentAhead "".toList := by
        rw [String.toList_append, Filter.exponentAhead_blanks_beyond hblanks hbeyond]
        rfl
      have hsize : Filter.sizeIn (number ++ (blanks ++ unit)) = Filter.sizeIn (number ++ "") :=
        Filter.sizeIn_congr hnumber htail' Filter.isTail_nil hnone
      rwa [String.append_empty] at hsize
  · intro unit now hunit
    have htail := Age.isTail_of_extent? hunit
    have htail' : Filter.IsTail (blanks ++ unit).toList := by
      rw [String.toList_append]
      exact Filter.isTail_blanks_append hblanks htail
    constructor
    · intro hascii
      have hahead : Age.unitAhead (blanks ++ unit).toList = Age.unitAhead unit.toList := by
        rw [String.toList_append, Age.unitAhead_asciiBlanks hascii]
      refine Age.parse_congr hnumber htail' htail ?_ hahead now
      rw [hahead, Age.unitAhead_of_extent? hunit]
      exact (Age.spells_of_extent? hunit).1
    · intro hbeyond
      have hahead := Age.unitAhead_blanks_beyond hblanks hbeyond unit.toList
      rw [← String.toList_append] at hahead
      exact Age.parse_of_unknown hnumber htail' hahead.1 hahead.2 now

/-- A no-break space in front of a unit hides it, a space of ASCII does not. -/
theorem blanks_before_unit_of_one_and_a_half :
    Filter.IsNumber "1.5" ∧ Text.isBlankText "\u00a0" = true ∧ Text.isBlankText " " = true ∧
      Filter.sizeIn ("1.5" ++ (" " ++ "GB")) = Filter.sizeIn ("1.5" ++ "GB") ∧
      Filter.sizeIn ("1.5" ++ ("\u00a0" ++ "GB")) = Filter.sizeIn "1.5" ∧
      Age.parse ("1.5" ++ (" " ++ "Days")) 0 = Age.parse ("1.5" ++ "Days") 0 ∧
      Age.parse ("1.5" ++ ("\u00a0" ++ "Days")) 0 = Age.parse "" 0 := by
  have hnumber : Filter.IsNumber "1.5" := ⟨[], ['1', '.', '5'], rfl, .inl rfl, by simp⟩
  have hascii : Text.isAsciiBlankText " " = true := by decide
  have hbeyond : Text.isAsciiBlankText "\u00a0" = false := by decide
  have hgigabyte : Text.asciiLower "GB" ∈ Filter.byteUnits := by decide +kernel
  have hday : (Age.extent? "Days").isSome = true := by decide +kernel
  have hspace : Text.isBlankText " " = true := by decide
  have hnoBreak : Text.isBlankText "\u00a0" = true := by decide
  obtain ⟨hsize, hage⟩ := blanks_before_unit hnumber hspace
  obtain ⟨hbare, hnow⟩ := blanks_before_unit hnumber hnoBreak
  exact ⟨hnumber, hnoBreak, hspace, (hsize "GB" hgigabyte).1 hascii,
    (hbare "GB" hgigabyte).2 hbeyond, (hage "Days" 0 hday).1 hascii,
    (hnow "Days" 0 hday).2 hbeyond⟩

/-- With a no-break space, a gigabyte and a half is one and a half bytes, and
three days ago is now. -/
theorem no_break_space_before_unit :
    Text.isBlankText "\u00a0" = true ∧
      Filter.sizeIn "1.5GB" = 1610612736.0 ∧ Filter.sizeIn "1.5\u00a0GB" = 1.5 ∧
      Age.parse "3days" 1000000000000 = 999740800000 ∧
      Age.parse "3\u00a0days" 1000000000000 = 1000000000000 := by
  decide +kernel

end SiteScrape
