import SiteScrape.Record.Level

/-!
# How long an account has existed

Whether a level is met is decided exactly if the calendar reaches back to the
day that the account would have to date from (`isMetAt?_isSome_iff`). Only the
age of the account depends on the time, and it grows, so a level that is met
stays met (`isMetAt?_later`).
-/

namespace SiteScrape.LevelRequirement

variable {r : LevelRequirement} {u : UserInfo} {now later : Int}

/-- The calendar reaches back to the day that the account would have to date from. -/
def ReachesBack (r : LevelRequirement) (u : UserInfo) (now : Int) : Prop :=
  ∀ weeks joined, r.interval = some weeks → u.joinTime = some joined →
    Moment.earliest ≤ now - weeks.toNat * week

theorem sub_weeks_le (weeks : UInt32) (now : Int) : now - weeks.toNat * week ≤ now := by
  have hweek : (0 : Int) ≤ week := by decide
  have := Int.mul_nonneg (Int.natCast_nonneg weeks.toNat) hweek
  omega

theorem meetsAge?_isSome_iff (h : now < Moment.bound) :
    (r.meetsAge? u now).isSome = true ↔ r.ReachesBack u now := by
  unfold meetsAge? ReachesBack
  split
  · next hnone => simp [hnone]
  · next hnone => simp [hnone]
  · next weeks joined hweeks hjoined =>
    have hle := sub_weeks_le weeks now
    have hbound : now - weeks.toNat * week < Moment.bound := by omega
    simp [hweeks, hjoined, Moment.within?, hbound]

theorem isMetAt?_isSome_iff (h : now < Moment.bound) :
    (r.isMetAt? u now).isSome = true ↔ r.ReachesBack u now := by
  rw [isMetAt?, Option.isSome_map, meetsAge?_isSome_iff h]

/-- An account that is old enough stays so. -/
theorem meetsAge?_later (hle : now ≤ later) (hlater : later < Moment.bound)
    (h : r.meetsAge? u now = some true) : r.meetsAge? u later = some true := by
  unfold meetsAge? at h ⊢
  split at h
  · rfl
  · cases h
  · next weeks joined _ _ =>
    obtain ⟨latest, hlatest, hold⟩ := Option.map_eq_some_iff.mp h
    obtain ⟨rfl, hearliest, -⟩ := Moment.within?_eq_some.mp hlatest
    have hbound := sub_weeks_le weeks later
    have hmoment : Moment.within? (later - weeks.toNat * week) = some (later - weeks.toNat * week) :=
      Moment.within?_eq_some.mpr ⟨rfl, by omega, by omega⟩
    have hjoined := of_decide_eq_true hold
    rw [hmoment, Option.map_some, decide_eq_true (by omega)]

theorem isMetAt?_later (hle : now ≤ later) (hlater : later < Moment.bound)
    (h : r.isMetAt? u now = some true) : r.isMetAt? u later = some true := by
  obtain ⟨old, hold, hmet⟩ := Option.map_eq_some_iff.mp h
  obtain ⟨rfl, hamounts⟩ := Bool.and_eq_true_iff.mp hmet
  rw [isMetAt?, meetsAge?_later hle hlater hold, hamounts]
  rfl

/-- At every moment of the calendar, whether a level is met is decided exactly if
the calendar reaches back to the day that the account would have to date from;
if it does not, every account that dates from the calendar is too young. A level
that is met is still met at every later moment. -/
theorem isMetAt?_decided_and_kept (r : LevelRequirement) (u : UserInfo) :
    (∀ now, now < Moment.bound → ((r.isMetAt? u now).isSome = true ↔ r.ReachesBack u now)) ∧
    (∀ now weeks joined, r.interval = some weeks → u.joinTime = some joined →
      ¬ r.ReachesBack u now → Moment.earliest ≤ joined.toInt →
      now - weeks.toNat * week < joined.toInt) ∧
    ∀ now later, now ≤ later → later < Moment.bound → r.isMetAt? u now = some true →
      r.isMetAt? u later = some true := by
  refine ⟨fun now => isMetAt?_isSome_iff, fun now weeks joined hweeks hjoined hback hdated => ?_,
    fun now later => isMetAt?_later⟩
  refine Int.lt_of_not_ge fun hold => hback fun weeks' joined' hweeks' _ => ?_
  obtain rfl := Option.some.inj (hweeks.symm.trans hweeks')
  exact Int.le_trans hdated hold

/-- Four weeks are enough after five, and then after six. Eighty million years
are not, and nothing is decided. -/
theorem isMetAt?_decided_and_kept_of_four_weeks :
    let r : LevelRequirement := { id := 1, name := "User", interval := some 4 }
    let elder : LevelRequirement := { id := 2, name := "Elder", interval := some 4294967295 }
    let u : UserInfo := { site := "demo", joinTime := some 0 }
    5 * week < Moment.bound ∧ r.ReachesBack u (5 * week) ∧
      (r.isMetAt? u (5 * week)).isSome = true ∧
      6 * week < Moment.bound ∧ r.isMetAt? u (5 * week) = some true ∧
      r.isMetAt? u (6 * week) = some true ∧
      ¬ elder.ReachesBack u (5 * week) ∧
      5 * week - (4294967295 : UInt32).toNat * week < (0 : Int64).toInt := by
  intro r elder u
  obtain ⟨hdecided, -, hkept⟩ := isMetAt?_decided_and_kept r u
  have hnow : 5 * week < Moment.bound := by decide
  have hlater : 6 * week < Moment.bound := by decide
  have hmet : r.isMetAt? u (5 * week) = some true := by decide +kernel
  have hsome : (r.isMetAt? u (5 * week)).isSome = true := by rw [hmet]; rfl
  have hback : ¬ elder.ReachesBack u (5 * week) := fun h => absurd (h _ _ rfl rfl) (by decide)
  exact ⟨hnow, (hdecided _ hnow).mp hsome, hsome, hlater, hmet,
    hkept _ _ (by decide) hlater hmet, hback,
    (isMetAt?_decided_and_kept elder u).2.1 _ 4294967295 0 rfl rfl hback (by decide)⟩

/-- No calendar reaches back four thousand million weeks. -/
theorem isMetAt?_of_longest_interval :
    (0 : Int) ≤ 1717200000000 ∧ 1717200000000 < Calendar.yearStart 10000 * Moment.day ∧
      isMetAt? { id := 1, name := "L1", interval := some 4294967295 }
        { site := "d", joinTime := some 0 } 1717200000000 = none := by
  decide +kernel

end SiteScrape.LevelRequirement
