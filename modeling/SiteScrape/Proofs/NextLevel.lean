import Mathlib.Data.List.Nodup
import SiteScrape.Proofs.AccountAge

/-!
# The next level

The requirements are sorted by number before they are asked one by one. A stable
sort changes nothing among those of one number (`filter_sorted`), so what is
found first is the lowest open level, and of several with one number the
earliest (`find?_sorted_eq_some_iff`). With numbers that differ there is one
sorted order only (`sorted_eq_of_perm`).
-/

namespace SiteScrape.LevelRequirement

variable {r : LevelRequirement} {rs rs' : List LevelRequirement} {u : UserInfo} {now : Int}

/-! ### Sorting by number -/

theorem id_le_trans (a b c : LevelRequirement) (hab : decide (a.id ≤ b.id) = true)
    (hbc : decide (b.id ≤ c.id) = true) : decide (a.id ≤ c.id) = true :=
  decide_eq_true (UInt32.le_trans (of_decide_eq_true hab) (of_decide_eq_true hbc))

theorem id_le_total (a b : LevelRequirement) :
    (decide (a.id ≤ b.id) || decide (b.id ≤ a.id)) = true := by
  simpa using UInt32.le_total a.id b.id

theorem sorted_perm (rs : List LevelRequirement) : (sorted rs).Perm rs := List.mergeSort_perm rs _

theorem mem_sorted : r ∈ sorted rs ↔ r ∈ rs := (sorted_perm rs).mem_iff

theorem pairwise_sorted (rs : List LevelRequirement) :
    (sorted rs).Pairwise fun a b => a.id ≤ b.id :=
  (List.pairwise_mergeSort id_le_trans id_le_total rs).imp of_decide_eq_true

/-- The requirements of one number keep their order. -/
theorem filter_sorted (rs : List LevelRequirement) (n : UInt32) :
    (sorted rs).filter (·.id == n) = rs.filter (·.id == n) := by
  have hsame : (rs.filter (·.id == n)).Pairwise fun a b => decide (a.id ≤ b.id) = true := by
    refine List.pairwise_of_forall_mem_list fun a ha b hb => decide_eq_true ?_
    have ha := (List.mem_filter.mp ha).2
    have hb := (List.mem_filter.mp hb).2
    rw [eq_of_beq ha, eq_of_beq hb]
    exact UInt32.le_refl n
  have hsub : (rs.filter (·.id == n)).Sublist (sorted rs) :=
    List.sublist_mergeSort id_le_trans id_le_total hsame List.filter_sublist
  have hfilter := hsub.filter (·.id == n)
  rw [List.filter_filter] at hfilter
  simp only [Bool.and_self] at hfilter
  exact (hfilter.eq_of_length ((sorted_perm rs).filter _).length_eq.symm).symm

/-- The first that `p` holds of, sorted by number, is the earliest of the least
number with one. -/
theorem find?_sorted_eq_some_iff {p : LevelRequirement → Bool} :
    (sorted rs).find? p = some r ↔
      (rs.filter (·.id == r.id)).find? p = some r ∧ ∀ q ∈ rs, p q → r.id ≤ q.id := by
  have least {r : LevelRequirement} (h : (sorted rs).find? p = some r) :
      (rs.filter (·.id == r.id)).find? p = some r ∧ ∀ q ∈ rs, p q → r.id ≤ q.id := by
    obtain ⟨hr, before, behind, hsorted, hbefore⟩ := List.find?_eq_some_iff_append.mp h
    refine ⟨?_, fun q hq hpq => ?_⟩
    · rw [← filter_sorted, hsorted, List.filter_append, List.find?_append,
        List.find?_eq_none.mpr fun q hq => by simpa using hbefore q (List.mem_of_mem_filter hq)]
      simp [hr]
    · have hordered := pairwise_sorted rs
      rw [← mem_sorted, hsorted] at hq
      rw [hsorted] at hordered
      rcases List.mem_append.mp hq with hq | hq
      · exact absurd hpq (by simpa using hbefore q hq)
      · rcases List.mem_cons.mp hq with rfl | hq
        · exact UInt32.le_refl _
        · exact (List.pairwise_cons.mp (List.pairwise_append.mp hordered).2.1).1 q hq
  refine ⟨least, fun ⟨hfirst, hleast⟩ => ?_⟩
  have hmem : r ∈ rs := List.mem_of_mem_filter (List.mem_of_find?_eq_some hfirst)
  have hr : p r = true := List.find?_some hfirst
  obtain ⟨r', hr'⟩ := Option.isSome_iff_exists.mp
    (List.find?_isSome.mpr ⟨r, mem_sorted.mpr hmem, hr⟩)
  obtain ⟨hfirst', hleast'⟩ := least hr'
  have hid : r'.id = r.id := by
    have hmem' : r' ∈ rs := mem_sorted.mp (List.mem_of_find?_eq_some hr')
    exact UInt32.le_antisymm (hleast' r hmem hr) (hleast r' hmem' (List.find?_some hr'))
  rw [hid, hfirst] at hfirst'
  rw [hr', hfirst']

/-- Where the numbers differ, only one order is sorted. -/
theorem sorted_eq_of_perm (hp : rs.Perm rs') (hids : (rs.map (·.id)).Nodup) :
    sorted rs = sorted rs' := by
  refine ((sorted_perm rs).trans (hp.trans (sorted_perm rs').symm)).eq_of_pairwise ?_
    (pairwise_sorted rs) (pairwise_sorted rs')
  intro a b ha hb hab hba
  have hb : b ∈ rs := hp.mem_iff.mpr (mem_sorted.mp hb)
  exact List.inj_on_of_nodup_map hids (mem_sorted.mp ha) hb (UInt32.le_antisymm hab hba)

/-! ### The lowest open level -/

/-- The requirement is for a level above the present one; above an unknown level
are all. -/
def IsAbove (u : UserInfo) (r : LevelRequirement) : Prop :=
  ∀ level, u.levelId = some level → level.toInt < r.id.toNat

/-- Of the levels above the present one all are met that are lower, and all of
the same number that stand before it. -/
structure IsReached (rs : List LevelRequirement) (u : UserInfo) (now : Int)
    (r : LevelRequirement) : Prop where
  above : r.IsAbove u
  lower : ∀ q ∈ rs, q.IsAbove u → q.id < r.id → q.isMetAt? u now = some true
  earlier : ∃ before behind, rs = before ++ r :: behind ∧
    ∀ q ∈ before, q.IsAbove u → q.id = r.id → q.isMetAt? u now = some true

/-- The requirement is above the present level and not known to be met. -/
def stops (u : UserInfo) (now : Int) (r : LevelRequirement) : Bool :=
  (match u.levelId with
    | some level => level.toInt < (r.id.toNat : Int)
    | none => true) && r.isMetAt? u now != some true

theorem stops_iff : stops u now r ↔ r.IsAbove u ∧ r.isMetAt? u now ≠ some true := by
  unfold stops IsAbove
  cases u.levelId <;> simp

theorem not_stops_iff : ¬ stops u now r ↔ (r.IsAbove u → r.isMetAt? u now = some true) := by
  rw [stops_iff]
  tauto

theorem firstOpen?_eq (u : UserInfo) (now : Int) (rs : List LevelRequirement) :
    firstOpen? u now rs =
      match rs.find? (·.isMetAt? u now != some true) with
      | none => some none
      | some r => (r.isMetAt? u now).map fun _ => some r := by
  induction rs with
  | nil => rfl
  | cons r rest ih =>
    cases h : r.isMetAt? u now with
    | none => simp [firstOpen?, h]
    | some met => cases met <;> simp [firstOpen?, h, ih]

/-- The search stops at the first requirement in sorted order that is not met, and
comes to nothing if that cannot be judged. -/
theorem next?_eq (rs : List LevelRequirement) (u : UserInfo) (now : Int) :
    next? rs u now =
      match (sorted rs).find? (stops u now) with
      | none => some none
      | some r => (r.isMetAt? u now).map fun _ => some r := by
  rw [next?, firstOpen?_eq, List.find?_filter]
  simp only [Bool.decide_and, Bool.decide_eq_true]
  rfl

theorem find?_stops_eq_none_iff : (sorted rs).find? (stops u now) = none ↔
    ∀ r ∈ rs, r.IsAbove u → r.isMetAt? u now = some true := by
  simp only [List.find?_eq_none, mem_sorted, not_stops_iff]

theorem find?_stops_eq_some_iff : (sorted rs).find? (stops u now) = some r ↔
    IsReached rs u now r ∧ r.isMetAt? u now ≠ some true := by
  rw [find?_sorted_eq_some_iff, List.find?_filter, List.find?_eq_some_iff_append]
  simp only [beq_iff_eq, true_and, decide_eq_true_eq, Bool.not_eq_true', decide_eq_false_iff_not,
    not_and, not_stops_iff]
  constructor
  · rintro ⟨⟨hr, before, behind, hrs, hbefore⟩, hleast⟩
    obtain ⟨habove, hmet⟩ := stops_iff.mp hr
    refine ⟨⟨habove, fun q hq hq' hlt => ?_, before, behind, hrs, fun q hq hq' hid => ?_⟩, hmet⟩
    · exact not_stops_iff.mp (fun hstops => UInt32.not_le.mpr hlt (hleast q hq hstops)) hq'
    · exact hbefore q hq hid hq'
  · rintro ⟨⟨habove, hlower, before, behind, hrs, hbefore⟩, hmet⟩
    refine ⟨⟨stops_iff.mpr ⟨habove, hmet⟩, before, behind, hrs,
      fun q hq hid habove' => hbefore q hq habove' hid⟩, fun q hq hstops => ?_⟩
    refine UInt32.not_lt.mp fun hlt => ?_
    obtain ⟨habove', hmet'⟩ := stops_iff.mp hstops
    exact hmet' (hlower q hq habove' hlt)

theorem next?_of_isReached (h : IsReached rs u now r) (hmet : r.isMetAt? u now ≠ some true) :
    next? rs u now = (r.isMetAt? u now).map fun _ => some r := by
  rw [next?_eq, find?_stops_eq_some_iff.mpr ⟨h, hmet⟩]

/-- Either all levels above the present one are met, or there is one that is
reached and not met, or one of which it cannot be judged. -/
theorem next?_cases (rs : List LevelRequirement) (u : UserInfo) (now : Int) :
    (next? rs u now = some none ∧ ∀ r ∈ rs, r.IsAbove u → r.isMetAt? u now = some true) ∨
    ∃ r, IsReached rs u now r ∧
      (next? rs u now = some (some r) ∧ r.isMetAt? u now = some false ∨
        next? rs u now = none ∧ r.isMetAt? u now = none) := by
  have hnext := next?_eq rs u now
  cases hfound : (sorted rs).find? (stops u now) with
  | none =>
    rw [hfound] at hnext
    exact .inl ⟨hnext, find?_stops_eq_none_iff.mp hfound⟩
  | some r =>
    obtain ⟨hreached, hmet⟩ := find?_stops_eq_some_iff.mp hfound
    rw [hfound] at hnext
    refine .inr ⟨r, hreached, ?_⟩
    cases hjudged : r.isMetAt? u now with
    | none => exact .inr ⟨hnext.trans (by simp only [hjudged, Option.map_none]), rfl⟩
    | some met =>
      cases met with
      | true => exact absurd hjudged hmet
      | false => exact .inl ⟨hnext.trans (by simp only [hjudged, Option.map_some]), rfl⟩

theorem next?_eq_some_none_iff :
    next? rs u now = some none ↔ ∀ r ∈ rs, r.IsAbove u → r.isMetAt? u now = some true := by
  constructor
  · intro h
    rcases next?_cases rs u now with ⟨-, hall⟩ | ⟨r, -, ⟨h', -⟩ | ⟨h', -⟩⟩
    · exact hall
    · rw [h] at h'; cases h'
    · rw [h] at h'; cases h'
  · intro hall
    rw [next?_eq, find?_stops_eq_none_iff.mpr hall]

theorem next?_eq_some_some_iff : next? rs u now = some (some r) ↔
    IsReached rs u now r ∧ r.isMetAt? u now = some false := by
  constructor
  · intro h
    rcases next?_cases rs u now with ⟨h', -⟩ | ⟨r', hreached, ⟨h', hopen⟩ | ⟨h', -⟩⟩
    · rw [h] at h'; cases h'
    · rw [h] at h'; cases h'; exact ⟨hreached, hopen⟩
    · rw [h] at h'; cases h'
  · rintro ⟨hreached, hopen⟩
    rw [next?_of_isReached hreached (by rw [hopen]; decide), hopen]
    rfl

theorem next?_eq_none_iff :
    next? rs u now = none ↔ ∃ r, IsReached rs u now r ∧ r.isMetAt? u now = none := by
  constructor
  · intro h
    rcases next?_cases rs u now with ⟨h', -⟩ | ⟨r, hreached, ⟨h', -⟩ | ⟨-, hjudged⟩⟩
    · rw [h] at h'; cases h'
    · rw [h] at h'; cases h'
    · exact ⟨r, hreached, hjudged⟩
  · rintro ⟨r, hreached, hjudged⟩
    rw [next?_of_isReached hreached (by rw [hjudged]; decide), hjudged]
    rfl

theorem IsReached.mem (h : IsReached rs u now r) : r ∈ rs := by
  obtain ⟨before, behind, rfl, -⟩ := h.earlier
  simp

/-- There is an answer where the calendar reaches back to all that is asked for. -/
theorem next?_ne_none (hnow : now < Moment.bound)
    (hback : ∀ r ∈ rs, r.IsAbove u → r.ReachesBack u now) : next? rs u now ≠ none := by
  intro h
  obtain ⟨r, hreached, hjudged⟩ := next?_eq_none_iff.mp h
  have hsome := (isMetAt?_isSome_iff hnow).mpr (hback r hreached.mem hreached.above)
  rw [hjudged] at hsome
  cases hsome

/-- The next level is none exactly if every level above the present one is met,
and a requirement exactly if that is not met while all lower ones above the
present level are, and all of its number that stand before it. There is no answer
exactly if such a requirement cannot be judged, which does not happen while the
calendar reaches back. The order of requirements whose numbers differ does not
matter. -/
theorem next?_lowest_open (rs : List LevelRequirement) (u : UserInfo) (now : Int) :
    (next? rs u now = some none ↔ ∀ r ∈ rs, r.IsAbove u → r.isMetAt? u now = some true) ∧
    (∀ r, next? rs u now = some (some r) ↔
      IsReached rs u now r ∧ r.isMetAt? u now = some false) ∧
    (next? rs u now = none ↔ ∃ r, IsReached rs u now r ∧ r.isMetAt? u now = none) ∧
    (now < Moment.bound → (∀ r ∈ rs, r.IsAbove u → r.ReachesBack u now) → next? rs u now ≠ none) ∧
    ∀ rs', rs.Perm rs' → (rs.map (·.id)).Nodup → next? rs' u now = next? rs u now := by
  refine ⟨next?_eq_some_none_iff, fun _ => next?_eq_some_some_iff, next?_eq_none_iff,
    next?_ne_none, fun rs' hp hids => ?_⟩
  rw [next?_eq, next?_eq, sorted_eq_of_perm hp hids]

/-- An account at its first level, which has uploaded a little. -/
def newcomer : UserInfo where
  site := "demo"
  levelId := some 1
  uploads := some 3
  joinTime := some 0

/-- The better of two levels with number three. -/
def elder : LevelRequirement := { id := 3, name := "Elder", uploads := some 9 }

/-- Levels of which two have one number, in no order. -/
def ladder : List LevelRequirement :=
  [elder, { id := 3, name := "Uploader", uploads := some 5 },
    { id := 1, name := "User", uploads := some 4 }, { id := 2, name := "Member", uploads := some 3 }]

theorem isReached_elder : IsReached ladder newcomer (5 * week) elder where
  above := fun level h => by cases h; decide
  lower := by
    have h : ∀ q ∈ ladder, q.id < elder.id → ¬ stops newcomer (5 * week) q := by decide +kernel
    exact fun q hq habove hlt => not_stops_iff.mp (h q hq hlt) habove
  earlier := ⟨[], ladder.tail, rfl, fun q hq => absurd hq List.not_mem_nil⟩

/-- Of the two open levels with number three the earlier is next; where no two
have one number, the order does not matter. -/
theorem next?_lowest_open_of_ladder :
    let now : Int := 5 * week
    let ordered := ladder.drop 2 ++ ladder.take 1
    now < Moment.bound ∧ (∀ r ∈ ladder, r.IsAbove newcomer → r.ReachesBack newcomer now) ∧
      next? ladder newcomer now ≠ none ∧ next? ladder newcomer now = some (some elder) ∧
      ordered.Perm ordered.reverse ∧ (ordered.map (·.id)).Nodup ∧
      next? ordered.reverse newcomer now = next? ordered newcomer now := by
  intro now ordered
  obtain ⟨-, hopen, -, hanswer, -⟩ := next?_lowest_open ladder newcomer now
  have hnow : now < Moment.bound := by decide
  have hback : ∀ r ∈ ladder, r.IsAbove newcomer → r.ReachesBack newcomer now := by
    intro r hr _ weeks joined hweeks
    have hnone : ∀ r ∈ ladder, r.interval = none := by decide
    rw [hnone r hr] at hweeks
    cases hweeks
  have hperm : ordered.Perm ordered.reverse := ordered.reverse_perm.symm
  have hids : (ordered.map (·.id)).Nodup := by decide
  exact ⟨hnow, hback, hanswer hnow hback,
    (hopen elder).mpr ⟨isReached_elder, by decide +kernel⟩, hperm, hids,
    (next?_lowest_open ordered newcomer now).2.2.2.2 _ hperm hids⟩

/-- A level that asks for more weeks than the calendar has leaves no answer, and
it is not met by an account that dates from the calendar. -/
theorem next?_of_longest_interval :
    let r : LevelRequirement := { id := 1, name := "L1", interval := some 4294967295 }
    let u : UserInfo := { site := "d", joinTime := some 0 }
    r.IsAbove u ∧ 1717200000000 - (4294967295 : UInt32).toNat * week < (0 : Int64).toInt ∧
      next? [r] u 1717200000000 = none := by
  intro r u
  have habove : r.IsAbove u := fun level h => by cases h
  exact ⟨habove, by decide, by decide +kernel⟩

end SiteScrape.LevelRequirement
