import SiteScrape.Time.Moment

/-!
# Days and dates

Years, and the months of a year, follow each other without gaps
(`yearStart_succ`, `daysBeforeMonth_succ`), so every day lies in one year and
in one month of it: a day and the date written for it determine each other
(`dateOf_number`, `number_dateOf`). Days are numbered one after the other from
the beginning of 1970 (`number_next`).
-/

namespace SiteScrape.Calendar

variable {year day : Int}

/-! ### Years -/

theorem yearStart_succ (year : Int) : yearStart (year + 1) = yearStart year + daysInYear year := by
  simp only [yearStart, daysInYear, isLeap, Bool.and_eq_true, Bool.or_eq_true, beq_iff_eq,
    bne_iff_ne]
  split <;> omega

theorem yearStart_mono {a b : Int} (h : a ≤ b) : yearStart a ≤ yearStart b := by
  obtain ⟨n, rfl⟩ := Int.le.dest h
  clear h
  induction n with
  | zero => simp
  | succ n ih =>
    have hnext := yearStart_succ (a + n)
    have hone : a + (n + 1 : Nat) = a + n + 1 := by omega
    rw [hone]
    omega

/-- The first guess is off by one year at most. -/
theorem yearOf_spec (day : Int) : yearStart (yearOf day) ≤ day ∧ day < yearStart (yearOf day + 1) := by
  have hguess : yearStart (1970 + day * 400 / 146097 - 1) ≤ day ∧
      day < yearStart (1970 + day * 400 / 146097 + 1 + 1) := by
    simp only [yearStart]
    omega
  unfold yearOf
  dsimp only
  split
  · rw [Int.sub_add_cancel]
    omega
  · split <;> omega

theorem yearOf_eq (hstart : yearStart year ≤ day) (hend : day < yearStart (year + 1)) :
    yearOf day = year := by
  obtain ⟨hle, hlt⟩ := yearOf_spec day
  rcases Int.lt_trichotomy (yearOf day) year with h | h | h
  · have := yearStart_mono (Int.add_one_le_of_lt h)
    omega
  · exact h
  · have := yearStart_mono (Int.add_one_le_of_lt h)
    omega

/-! ### Months -/

theorem daysInMonth_pos (year : Int) (month : Nat) : 0 < daysInMonth year month := by
  unfold daysInMonth
  split
  · split <;> omega
  all_goals omega

theorem daysInMonth_le (year : Int) (month : Nat) : daysInMonth year month ≤ 31 := by
  unfold daysInMonth
  split
  · split <;> omega
  all_goals omega

theorem daysBeforeMonth_one (year : Int) : daysBeforeMonth year 1 = 0 := rfl

theorem daysBeforeMonth_succ (year : Int) (month : Nat) :
    daysBeforeMonth year (month + 1 + 1) =
      daysBeforeMonth year (month + 1) + daysInMonth year (month + 1) := by
  simp only [daysBeforeMonth, Nat.add_sub_cancel, List.range_succ, List.foldl_append,
    List.foldl_cons, List.foldl_nil]

theorem daysBeforeMonth_mono (year : Int) {a b : Nat} (h : a ≤ b) :
    daysBeforeMonth year (a + 1) ≤ daysBeforeMonth year (b + 1) := by
  induction h with
  | refl => exact Nat.le_refl _
  | step _ ih => exact Nat.le_trans ih (by rw [daysBeforeMonth_succ]; exact Nat.le_add_right _ _)

/-- Twelve months make a year. -/
theorem daysBeforeMonth_thirteen (year : Int) : daysBeforeMonth year 13 = daysInYear year := by
  simp only [daysBeforeMonth, daysInYear, List.range, List.range.loop, List.foldl, daysInMonth]
  split <;> rfl

/-- Walking over the months from `month + 1` on keeps the place in the year, and
ends in the month that the place lies in. -/
theorem monthAndDay_spec (later : Nat) {month ordinal : Nat} (hpos : 1 ≤ ordinal)
    (hle : daysBeforeMonth year (month + 1) + ordinal ≤
      daysBeforeMonth year (month + 1 + later + 1)) :
    ∃ m d, monthAndDay year (month + 1) ordinal later = (m + 1, d) ∧ m ≤ month + later ∧ 1 ≤ d ∧
      d ≤ daysInMonth year (m + 1) ∧
      daysBeforeMonth year (m + 1) + d = daysBeforeMonth year (month + 1) + ordinal := by
  induction later generalizing month ordinal with
  | zero =>
    rw [Nat.add_zero, daysBeforeMonth_succ] at hle
    exact ⟨month, ordinal, rfl, Nat.le_refl _, hpos, by omega, rfl⟩
  | succ later ih =>
    rw [monthAndDay]
    split
    · next hin => exact ⟨month, ordinal, rfl, by omega, hpos, hin, rfl⟩
    · next hout =>
      have hnext := daysBeforeMonth_succ year month
      have hbehind : daysBeforeMonth year (month + 1 + 1) + (ordinal - daysInMonth year (month + 1)) ≤
          daysBeforeMonth year (month + 1 + 1 + later + 1) := by
        rw [show month + 1 + 1 + later + 1 = month + 1 + (later + 1) + 1 by omega]
        omega
      obtain ⟨m, d, hwalk, hm, hd, hdays, hsum⟩ := ih (by omega) hbehind
      exact ⟨m, d, hwalk, by omega, hd, hdays, by omega⟩

theorem monthAndDay_year {ordinal : Nat} (hpos : 1 ≤ ordinal) (hle : ordinal ≤ daysInYear year) :
    ∃ m d, monthAndDay year 1 ordinal 11 = (m + 1, d) ∧ m + 1 ≤ 12 ∧ 1 ≤ d ∧
      d ≤ daysInMonth year (m + 1) ∧ daysBeforeMonth year (m + 1) + d = ordinal := by
  have hone := daysBeforeMonth_one year
  have hend : daysBeforeMonth year (0 + 1) + ordinal ≤ daysBeforeMonth year (0 + 1 + 11 + 1) := by
    rw [daysBeforeMonth_thirteen, Nat.zero_add]
    omega
  obtain ⟨m, d, hwalk, hm, hd, hlast, hsum⟩ := monthAndDay_spec 11 hpos hend
  rw [Nat.zero_add] at hsum hm
  exact ⟨m, d, hwalk, by omega, hd, hlast, by omega⟩

/-- A place in the year lies in one month only. -/
theorem month_unique {m n d e : Nat} (hd : 1 ≤ d ∧ d ≤ daysInMonth year (m + 1))
    (he : 1 ≤ e ∧ e ≤ daysInMonth year (n + 1))
    (h : daysBeforeMonth year (m + 1) + d = daysBeforeMonth year (n + 1) + e) : m = n ∧ d = e := by
  rcases Nat.lt_trichotomy m n with hlt | rfl | hlt
  · have := daysBeforeMonth_mono year hlt
    rw [Nat.succ_eq_add_one, daysBeforeMonth_succ] at this
    omega
  · exact ⟨rfl, by omega⟩
  · have := daysBeforeMonth_mono year hlt
    rw [Nat.succ_eq_add_one, daysBeforeMonth_succ] at this
    omega

/-! ### Dates -/

/-- The month and the day stand in the calendar. -/
structure Date.IsValid (d : Date) : Prop where
  month : 1 ≤ d.month ∧ d.month ≤ 12
  day : 1 ≤ d.day ∧ d.day ≤ daysInMonth d.year d.month

/-- The day of a valid date, counted from 1970-01-01. -/
def Date.number (d : Date) : Int := yearStart d.year + (daysBeforeMonth d.year d.month + d.day - 1 : Nat)

variable {d : Date}

theorem Date.IsValid.ordinal (h : d.IsValid) : 1 ≤ daysBeforeMonth d.year d.month + d.day ∧
    daysBeforeMonth d.year d.month + d.day ≤ daysInYear d.year := by
  obtain ⟨m, hm⟩ := Nat.exists_eq_add_of_le' h.month.1
  have hnext := daysBeforeMonth_succ d.year m
  have hyear := daysBeforeMonth_mono d.year (show m + 1 ≤ 12 by have := h.month.2; omega)
  rw [daysBeforeMonth_thirteen] at hyear
  have := h.day
  rw [hm] at this ⊢
  omega


theorem ofDate?_eq_some_iff : ofDate? d = some day ↔
    d.IsValid ∧ inRange d.year = true ∧ day = d.number := by
  simp only [ofDate?, ofOrdinal?, Bool.and_eq_true, decide_eq_true_eq]
  constructor
  · intro h
    split at h
    · next hdate =>
      split at h
      · next hrange =>
        exact ⟨⟨hdate.1.1, hdate.1.2, hdate.2⟩, hrange.1.1, (Option.some.inj h).symm⟩
      · cases h
    · cases h
  · rintro ⟨hvalid, hrange, rfl⟩
    rw [if_pos ⟨⟨hvalid.month, hvalid.day.1⟩, hvalid.day.2⟩,
      if_pos ⟨⟨hrange, hvalid.ordinal.1⟩, hvalid.ordinal.2⟩]
    rfl

/-- The day of a date is written as that date. -/
theorem dateOf_number (h : d.IsValid) : dateOf d.number = d := by
  obtain ⟨hpos, hlast⟩ := h.ordinal
  have hyear : yearOf d.number = d.year := by
    refine yearOf_eq ?_ ?_
    · unfold Date.number
      omega
    · rw [yearStart_succ]
      unfold Date.number
      omega
  have hplace : ordinalOf d.number = daysBeforeMonth d.year d.month + d.day := by
    rw [ordinalOf, hyear]
    unfold Date.number
    omega
  obtain ⟨m, e, hwalk, -, he, hin, hsum⟩ := monthAndDay_year hpos hlast
  obtain ⟨n, hn⟩ := Nat.exists_eq_add_of_le' h.month.1
  have hday := h.day
  rw [hn] at hsum hday
  obtain ⟨rfl, rfl⟩ := month_unique ⟨he, hin⟩ hday hsum
  rw [dateOf, hyear, hplace, hwalk, ← hn]

/-- A day is the day of the date that is written for it. -/
theorem number_dateOf (day : Int) : (dateOf day).IsValid ∧ (dateOf day).number = day := by
  obtain ⟨hstart, hend⟩ := yearOf_spec day
  rw [yearStart_succ] at hend
  have hplace : (ordinalOf day : Int) = day - yearStart (yearOf day) + 1 := by
    unfold ordinalOf
    omega
  obtain ⟨m, d, hwalk, hm, hd, hlast, hsum⟩ :=
    monthAndDay_year (show 1 ≤ ordinalOf day by omega)
      (show ordinalOf day ≤ daysInYear (yearOf day) by omega)
  have hdate : dateOf day = ⟨yearOf day, m + 1, d⟩ := by rw [dateOf, hwalk]
  rw [hdate]
  refine ⟨⟨⟨Nat.le_add_left 1 m, hm⟩, hd, hlast⟩, ?_⟩
  simp only [Date.number, hsum]
  omega

theorem ofDate?_dateOf (h : inRange (yearOf day) = true) : ofDate? (dateOf day) = some day :=
  ofDate?_eq_some_iff.mpr ⟨(number_dateOf day).1, h, (number_dateOf day).2.symm⟩

theorem ofDate?_number (h : d.IsValid) (hrange : inRange d.year = true) :
    ofDate? d = some d.number :=
  ofDate?_eq_some_iff.mpr ⟨h, hrange, rfl⟩

/-- The date of the next day. -/
def Date.next (d : Date) : Date :=
  if d.day < daysInMonth d.year d.month then { d with day := d.day + 1 }
  else if d.month < 12 then ⟨d.year, d.month + 1, 1⟩
  else ⟨d.year + 1, 1, 1⟩

/-- Days are numbered one after the other, from the beginning of 1970. -/
theorem number_next (h : d.IsValid) : d.next.IsValid ∧ d.next.number = d.number + 1 := by
  obtain ⟨m, hm⟩ := Nat.exists_eq_add_of_le' h.month.1
  have hday := h.day
  have hmonth := h.month
  unfold Date.next
  split
  · next hin =>
    refine ⟨⟨h.month, Nat.le_add_left _ _, hin⟩, ?_⟩
    simp only [Date.number]
    omega
  · next hlast =>
    have hsucc := daysBeforeMonth_succ d.year m
    rw [← hm] at hsucc
    split
    · next hbefore =>
      refine ⟨⟨⟨Nat.le_add_left _ _, hbefore⟩, Nat.le_refl 1, daysInMonth_pos _ _⟩, ?_⟩
      simp only [Date.number]
      omega
    · next hdecember =>
      have hmonths : d.month = 12 := by omega
      have hyear : daysBeforeMonth d.year (12 + 1) = _ := daysBeforeMonth_thirteen d.year
      refine ⟨⟨⟨Nat.le_refl 1, by simp⟩, Nat.le_refl 1, daysInMonth_pos _ _⟩, ?_⟩
      simp only [Date.number, daysBeforeMonth_one, yearStart_succ]
      rw [hmonths] at hsucc hday hlast ⊢
      omega

-- days are counted from the first one of 1970 on
example : Date.number ⟨1970, 1, 1⟩ = 0 := by decide

end SiteScrape.Calendar

/-! ### Moments -/

namespace SiteScrape.Moment

variable {ms : Int}

theorem inRange_yearOf (h : within? ms = some ms) :
    Calendar.inRange (Calendar.yearOf (dayOf ms)) = true := by
  obtain ⟨-, hearliest, hbound⟩ := within?_eq_some.mp h
  obtain ⟨hstart, hend⟩ := Calendar.yearOf_spec (dayOf ms)
  have hfirst : Calendar.yearStart Calendar.minYear ≤ dayOf ms :=
    Int.le_ediv_of_mul_le (by decide) hearliest
  have hlast : dayOf ms < Calendar.yearStart (Calendar.maxYear + 1) :=
    Int.ediv_lt_of_lt_mul (by decide) hbound
  simp only [Calendar.inRange, Bool.and_eq_true, decide_eq_true_eq]
  constructor
  · refine Int.le_of_not_gt fun hlt => ?_
    have := Calendar.yearStart_mono (Int.add_one_le_of_lt hlt)
    omega
  · refine Int.le_of_not_gt fun hlt => ?_
    have := Calendar.yearStart_mono (Int.add_one_le_of_lt hlt)
    omega

/-- No months earlier is the same moment. -/
theorem monthsBefore?_zero (h : within? ms = some ms) : monthsBefore? ms 0 = some ms := by
  have hvalid := (Calendar.number_dateOf (dayOf ms)).1
  have hmonth := hvalid.month
  have hsame : Calendar.monthsBefore? (dayOf ms) 0 = some (dayOf ms) := by
    have hdate := Calendar.ofDate?_dateOf (inRange_yearOf h)
    unfold Calendar.monthsBefore?
    generalize Calendar.dateOf (dayOf ms) = d at hdate hvalid hmonth
    have hyear : (d.year * 12 + (d.month : Int) - 1 - (0 : Nat)) / 12 = d.year := by omega
    have hplace : ((d.year * 12 + (d.month : Int) - 1 - (0 : Nat)) % 12).toNat + 1 = d.month := by
      omega
    simp only [hyear, hplace, Nat.min_eq_left hvalid.day.2, hdate]
  rw [monthsBefore?, hsame, Option.map_some, dayOf, timeOfDay, Int.ediv_mul_add_emod]

end SiteScrape.Moment
