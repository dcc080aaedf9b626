import SiteScrape.Proofs.WrittenTimes

/-!
# Full moments

A full moment is a date, a time of day and an offset, each of a fixed width, so
it is never shorter than twenty characters (`length_of_moment?`). It names its
offset itself: what is written for a local time with an offset is that many
seconds before the time (`moment?_written`).
-/

namespace SiteScrape

/-- Local times that are at least a day inside the calendar name a moment at every offset. -/
theorem Moment.ofLocal?_of_inside {offset ms : Int} (hoffset : offset.natAbs < 86400)
    (hearly : earliest + day ≤ ms) (hlate : ms < bound - day) :
    ofLocal? offset ms = some (ms - offset * second) := by
  unfold ofLocal?
  have hday : day = 86400000 := rfl
  have hinside : within? (ms / second * second - offset * second) =
      some (ms / second * second - offset * second) := by
    refine within?_eq_some.mpr ⟨rfl, ?_, ?_⟩ <;>
      · unfold second
        omega
  rw [hinside, Option.map_some]
  refine congrArg some ?_
  unfold second
  omega

namespace Time

variable {t : LocalTime} {cs rest : List Char}

/-- The years 0 to 9999 are more than a day inside the calendar. -/
theorem LocalTime.millis_inside (t : LocalTime) :
    Moment.earliest + Moment.day ≤ t.millis ∧ t.millis < Moment.bound - Moment.day := by
  obtain ⟨hfirst, hlast⟩ := t.isValid.ordinal
  have hnext := Calendar.yearStart_succ t.date.year
  have hlow := Calendar.yearStart_mono t.year_mem.1
  have hhigh := Calendar.yearStart_mono (Int.add_le_add_right t.year_mem.2 1)
  have hbounds : Moment.earliest + Moment.day ≤ Calendar.yearStart 0 * Moment.day ∧
      Calendar.yearStart (9999 + 1) * Moment.day + Moment.day ≤ Moment.bound - Moment.day := by
    decide
  have hhour := t.hour_lt
  have hminute := t.minute_lt
  have hsecond := t.second_le
  have hunits : Moment.second = 1000 ∧ Moment.minute = 60000 ∧ Moment.hour = 3600000 ∧
      Moment.day = 86400000 := by decide
  simp only [LocalTime.millis, Calendar.Date.number, hunits] at hbounds ⊢
  omega

/-! ### Widths -/

theorem length_of_number? {k : Nat} {n : Int} (h : number? k (some k) cs = some (n, rest)) :
    cs.length = rest.length + k := by
  obtain ⟨hleast, -, -, rfl⟩ := number?_eq_some_iff.mp h
  have hmost : (leadingDigits (some k) cs).length ≤ (cs.take k).length :=
    (List.takeWhile_sublist _).length_le
  rw [List.length_take] at hmost
  rw [List.length_drop]
  omega

theorem length_of_expect {c : Char} (h : expect c cs = some rest) :
    cs.length = rest.length + 1 := by
  unfold expect at h
  split at h
  · split at h
    · cases h
      rfl
    · cases h
  · cases h

theorem length_of_expectTime (h : expectTime cs = some rest) : cs.length = rest.length + 1 := by
  unfold expectTime at h
  split at h
  · cases h
    rfl
  · cases h
    rfl
  · cases h
    rfl
  · cases h

/-- A text that is a full moment is at least as long as one without a fraction in UTC. -/
theorem length_of_moment? {ms : Int} (h : moment? cs = some ms) : 20 ≤ cs.length := by
  obtain ⟨⟨year, cs₁⟩, hyear, h⟩ := Option.bind_eq_some_iff.mp h
  obtain ⟨cs₂, hdash, h⟩ := Option.bind_eq_some_iff.mp h
  obtain ⟨⟨month, cs₃⟩, hmonth, h⟩ := Option.bind_eq_some_iff.mp h
  obtain ⟨cs₄, hdash', h⟩ := Option.bind_eq_some_iff.mp h
  obtain ⟨⟨day, cs₅⟩, hday, h⟩ := Option.bind_eq_some_iff.mp h
  obtain ⟨cs₆, htime, h⟩ := Option.bind_eq_some_iff.mp h
  obtain ⟨⟨hour, cs₇⟩, hhour, h⟩ := Option.bind_eq_some_iff.mp h
  obtain ⟨cs₈, hcolon, h⟩ := Option.bind_eq_some_iff.mp h
  obtain ⟨⟨minute, cs₉⟩, hminute, h⟩ := Option.bind_eq_some_iff.mp h
  obtain ⟨cs₁₀, hcolon', h⟩ := Option.bind_eq_some_iff.mp h
  obtain ⟨⟨second, cs₁₁⟩, hsecond, h⟩ := Option.bind_eq_some_iff.mp h
  -- there is an offset behind the seconds
  have hend : cs₁₁ ≠ [] := by
    rintro rfl
    obtain ⟨⟨fraction, cs₁₂⟩, hfraction, h⟩ := Option.bind_eq_some_iff.mp h
    cases hfraction
    obtain ⟨⟨offset, cs₁₃⟩, hoffset, -⟩ := Option.bind_eq_some_iff.mp h
    cases hoffset
  have := List.length_pos_iff.mpr hend
  have := length_of_number? hyear
  have := length_of_expect hdash
  have := length_of_number? hmonth
  have := length_of_expect hdash'
  have := length_of_number? hday
  have := length_of_expectTime htime
  have := length_of_number? hhour
  have := length_of_expect hcolon
  have := length_of_number? hminute
  have := length_of_expect hcolon'
  have := length_of_number? hsecond
  omega

theorem moment?_eq_none (h : cs.length < 20) : moment? cs = none :=
  Option.eq_none_iff_forall_ne_some.mpr fun ms hms => by
    have := length_of_moment? hms
    omega

/-! ### Writing -/

/-- An offset as it is written: hours and minutes east or west of UTC. -/
structure Zone where
  isWest : Bool
  hours : Nat
  minutes : Nat
  hours_lt : hours < 24
  minutes_lt : minutes < 60

/-- Seconds east of UTC. -/
def Zone.seconds (zone : Zone) : Int :=
  (if zone.isWest then -1 else 1) * (zone.hours * 3600 + zone.minutes * 60 : Nat)

/-- The text of an offset; `Z` without one. -/
def writeZone : Option Zone → List Char
  | none => ['Z']
  | some zone => (if zone.isWest then '-' else '+') ::
      (Decimal.padded 2 zone.hours ++ ':' :: Decimal.padded 2 zone.minutes)

/-- The full moment of a local time with an offset. -/
def LocalTime.writeMoment (t : LocalTime) (zone : Option Zone) : List Char :=
  Decimal.padded 4 t.date.year.toNat ++ '-' :: (Decimal.padded 2 t.date.month ++ '-' ::
    (Decimal.padded 2 t.date.day ++ 'T' :: (Decimal.padded 2 t.hour ++ ':' ::
      (Decimal.padded 2 t.minute ++ ':' :: (Decimal.padded 2 t.second ++ writeZone zone)))))

theorem padded_two {n : Nat} (h : n < 100) : ∃ a b, Decimal.padded 2 n = [a, b] ∧
    (a.isDigit && b.isDigit) = true ∧ Decimal.natOf [a, b] = n := by
  have hdigits : ∀ n < 100, (Nat.digitChar (n / 10 % 10)).isDigit = true ∧
      (Nat.digitChar (n % 10)).isDigit = true := by decide
  refine ⟨_, _, rfl, Bool.and_eq_true_iff.mpr (hdigits n h), ?_⟩
  exact Decimal.natOf_padded (k := 2) h

theorem offset?_written (zone : Option Zone) :
    offset? (expect ':') true false (writeZone zone) =
      some (zone.elim 0 Zone.seconds, []) := by
  cases zone with
  | none => rfl
  | some zone =>
    have hlt := zone.hours_lt
    have hlt' := zone.minutes_lt
    obtain ⟨a, b, hhours, hdigits, hnumber⟩ := padded_two (show zone.hours < 100 by omega)
    obtain ⟨c, d, hminutes, hdigits', hnumber'⟩ := padded_two (show zone.minutes < 100 by omega)
    have hle : Decimal.natOf [c, d] ≤ 59 := by omega
    rw [writeZone, hhours, hminutes, Option.elim_some, Zone.seconds, ← hnumber, ← hnumber']
    -- east and west differ in the sign alone
    cases zone.isWest
    all_goals
      refine Option.bind_eq_some_iff.mpr ⟨_, if_pos hdigits, ?_⟩
      refine Option.bind_eq_some_iff.mpr ⟨_, rfl, ?_⟩
      refine Option.bind_eq_some_iff.mpr ⟨_, if_pos hdigits', ?_⟩
      exact if_pos hle

theorem writeZone_ne {zone : Option Zone} : writeZone zone ≠ '.' :: rest := by
  cases zone with
  | none => simp [writeZone]
  | some zone =>
    rw [writeZone]
    cases zone.isWest <;> simp

theorem zone_lt (zone : Option Zone) : (zone.elim 0 Zone.seconds).natAbs < 86400 := by
  cases zone with
  | none => decide
  | some zone =>
    have := zone.hours_lt
    have := zone.minutes_lt
    rw [Option.elim_some, Zone.seconds]
    split <;> omega

/-- The parts of a time, put one after the other, make the time. -/
theorem localMillis?_of_parts (t : LocalTime) (f : Int → Option Int) :
    (do
      let p ← Parts.put? [] .year t.date.year.toNat
      let p ← p.put? .month t.date.month
      let p ← p.put? .day t.date.day
      let p ← p.putHour? t.hour
      let p ← p.put? .minute t.minute
      let p ← p.put? .second t.second
      let p ← p.put? .nanosecond 0
      f (← p.localMillis?)) = f t.millis := by
  obtain ⟨p₁, hyear, h⟩ := exists_putNumber? .year (Holds.nil (t := t)) rfl
  obtain ⟨p₂, hmonth, h⟩ := exists_putNumber? .month h rfl
  obtain ⟨p₃, hday, h⟩ := exists_putNumber? .day h rfl
  obtain ⟨p₄, hhour, h⟩ := exists_putNumber? .hour h rfl
  obtain ⟨p₅, hminute, h⟩ := exists_putNumber? .minute h rfl
  obtain ⟨p₆, hsecond, h⟩ := exists_putNumber? .second h rfl
  obtain ⟨p₇, hnano, h⟩ := h.exists_put? (s := .nanosecond) rfl
  have hlocal : p₇.localMillis? = some t.millis := by
    rw [h.localMillis? (by simp [Item.slots]) (by simp [Item.slots]) (by simp [Item.slots]),
      if_pos (by simp [Item.slots]), LocalTime.millis]
  simp only [Parts.putNumber?] at hyear hmonth hday hhour hminute hsecond
  simp only [hyear, hmonth, hday, hhour, hminute, hsecond, hnano, hlocal, Option.bind_eq_bind,
    Option.bind_some]

theorem moment?_written (t : LocalTime) (zone : Option Zone) :
    moment? (t.writeMoment zone) = some (t.millis - zone.elim 0 Zone.seconds * Moment.second) := by
  have hbounds := t.bounds
  have hyear : ∀ rest, number? 4 (some 4) (Decimal.padded 4 t.date.year.toNat ++ rest) =
      some ((t.date.year.toNat : Int), rest) :=
    number?_padded (show _ < 10000 by omega) (by omega) (Nat.le_refl 4)
  have htwo : ∀ n, n < 100 → ∀ rest, number? 2 (some 2) (Decimal.padded 2 n ++ rest) =
      some ((n : Int), rest) := fun n hn =>
    number?_padded hn (by omega) (Nat.le_refl 2)
  obtain ⟨hearly, hlate⟩ := t.millis_inside
  have hzone := zone_lt zone
  have hnumbers : t.date.month < 100 ∧ t.date.day < 100 ∧ t.hour < 100 ∧ t.minute < 100 ∧
      t.second < 100 := by omega
  obtain ⟨hmonths, hdays, hhours, hminutes, hseconds⟩ := hnumbers
  unfold moment? LocalTime.writeMoment
  refine Option.bind_eq_some_iff.mpr ⟨_, hyear _, ?_⟩
  refine Option.bind_eq_some_iff.mpr ⟨_, rfl, ?_⟩
  refine Option.bind_eq_some_iff.mpr ⟨_, htwo _ hmonths _, ?_⟩
  refine Option.bind_eq_some_iff.mpr ⟨_, rfl, ?_⟩
  refine Option.bind_eq_some_iff.mpr ⟨_, htwo _ hdays _, ?_⟩
  refine Option.bind_eq_some_iff.mpr ⟨_, rfl, ?_⟩
  refine Option.bind_eq_some_iff.mpr ⟨_, htwo _ hhours _, ?_⟩
  refine Option.bind_eq_some_iff.mpr ⟨_, rfl, ?_⟩
  refine Option.bind_eq_some_iff.mpr ⟨_, htwo _ hminutes _, ?_⟩
  refine Option.bind_eq_some_iff.mpr ⟨_, rfl, ?_⟩
  refine Option.bind_eq_some_iff.mpr ⟨_, htwo _ hseconds _, ?_⟩
  dsimp only
  split
  · next heq => exact absurd heq writeZone_ne
  · refine Option.bind_eq_some_iff.mpr ⟨_, rfl, ?_⟩
    refine Option.bind_eq_some_iff.mpr ⟨_, offset?_written zone, ?_⟩
    dsimp only
    rw [if_neg (by simpa using hzone)]
    exact (localMillis?_of_parts t (Moment.ofLocal? (zone.elim 0 Zone.seconds))).trans
      (Moment.ofLocal?_of_inside hzone hearly hlate)

/-- No blanks are written for a full moment. -/
theorem ends_writeMoment (t : LocalTime) (zone : Option Zone) :
    Text.Ends Text.isBlank (t.writeMoment zone) := by
  have hdigits : ∀ k n, ∀ c ∈ Decimal.padded k n, Text.isBlank c = false :=
    fun k n c hc => (plain_of_isDigit (Decimal.isDigit_of_mem_padded hc)).1
  have hzone : ∀ c ∈ writeZone zone, Text.isBlank c = false := by
    cases zone with
    | none =>
      rw [writeZone, List.forall_mem_singleton]
      decide
    | some zone =>
      simp only [writeZone, List.forall_mem_cons, List.forall_mem_append]
      refine ⟨?_, hdigits 2 _, by decide, hdigits 2 _⟩
      cases zone.isWest <;> decide
  have hall : ∀ c ∈ t.writeMoment zone, Text.isBlank c = false := by
    simp only [LocalTime.writeMoment, List.forall_mem_cons, List.forall_mem_append]
    exact ⟨hdigits 4 _, by decide, hdigits 2 _, by decide, hdigits 2 _, by decide, hdigits 2 _,
      by decide, hdigits 2 _, by decide, hdigits 2 _, hzone⟩
  exact ⟨fun c hc => hall c (List.mem_of_head? hc), fun c hc => hall c (List.mem_of_getLast? hc)⟩

end Time

end SiteScrape
