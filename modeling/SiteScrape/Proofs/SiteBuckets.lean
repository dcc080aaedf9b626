import Mathlib.Data.Multiset.Filter
import SiteScrape.Throttle

/-!
# The bucket of one site

Calls for any number of sites wait at one throttle. Whoever has slept long
enough looks at the bucket of its site, and either takes a token or sleeps on;
the looks come in any order in time (`Throttle.Run`). What the looks at one site
find depends on their times and on the rate of that site alone (`Run.waits_eq`),
so the looks at a site make up a run of its own calls, the only one there is
(`looks_of_site_alone`).
-/

namespace SiteScrape

namespace Bucket

/-- A bucket that was made full at the first of these times and looked at at
each of them; the latest comes first. -/
def after (rate : UInt32) (times : List Nat) : Option Bucket :=
  times.getLast?.map fun first => times.foldr (fun now b => (b.take now).2) (full rate first)

@[simp] theorem after_nil (rate : UInt32) : after rate [] = none := rfl

/-- A look finds the bucket that the looks before it have left, or a full one if
it is the first. -/
theorem after_cons (rate : UInt32) (now : Nat) (earlier : List Nat) :
    after rate (now :: earlier) =
      some (((after rate earlier).getD (full rate now)).take now).2 := by
  cases earlier with
  | nil => rfl
  | cons before earlier =>
    have hfirst := List.getLast?_eq_some_getLast (List.cons_ne_nil before earlier)
    simp [after, List.getLast?_cons_cons, hfirst]

/-- How long each look at these times has to wait. -/
def waits (rate : UInt32) : List Nat → List (Option Nat)
  | [] => []
  | now :: earlier =>
    (((after rate earlier).getD (full rate now)).take now).1 :: waits rate earlier

end Bucket

namespace Throttle

variable {t t' : Throttle} {site other : String} {rate : UInt32} {now : Nat}

/-! ### One look -/

theorem look_eq (h : t.rate? site = some rate) :
    t.look site now = (((t.bucket site rate now).take now).1,
      { t with buckets := t.buckets.insert site ((t.bucket site rate now).take now).2 }) := by
  unfold look
  rw [h]

theorem rate?_ofRates (perMinute : UInt32) (siteRates : Assoc UInt32) (site : String) :
    (ofRates perMinute siteRates).rate? site = some ((siteRates.get? site).getD perMinute) :=
  rfl

theorem rate?_look (t : Throttle) (site : String) (now : Nat) :
    (t.look site now).2.rate? = t.rate? := by
  unfold look
  split <;> rfl

/-- A look leaves the buckets of all other sites alone. -/
theorem get?_buckets_look (h : site ≠ other) :
    (t.look site now).2.buckets.get? other = t.buckets.get? other := by
  unfold look
  split
  · rfl
  · exact (Assoc.get?_insert ..).trans (if_neg h)

/-- A look goes by the rate and the bucket of its site. -/
theorem look_congr (now : Nat) (hrate : t'.rate? site = t.rate? site)
    (hbucket : t'.buckets.get? site = t.buckets.get? site) :
    (t'.look site now).1 = (t.look site now).1 ∧
      (t'.look site now).2.buckets.get? site = (t.look site now).2.buckets.get? site := by
  cases hr : t.rate? site with
  | none =>
    unfold look
    rw [hrate, hr]
    exact ⟨rfl, hbucket⟩
  | some rate =>
    rw [look_eq hr, look_eq (hrate.trans hr)]
    simp [bucket, hbucket, Assoc.get?_insert]

/-! ### Calls and looks -/

/-- A call that has not got its token yet, and when its sleep is over. -/
structure Call where
  site : String
  due : Nat

/-- A look of a call: nothing to wait for is a token. -/
structure Look where
  site : String
  time : Nat
  wait : Option Nat

/-- When a call looks: at any time after its sleep, or right at its end. -/
inductive Timing where
  | sometime
  | onTime

/-- Of these calls, this one may look now. -/
def Timing.Allows (timing : Timing) (pending : Multiset Call) (c : Call) (now : Nat) : Prop :=
  match timing with
  | sometime => c.due ≤ now
  | onTime => now = c.due ∧ ∀ c' ∈ pending, c.due ≤ c'.due

/-- How far a run is. -/
structure Situation where
  throttle : Throttle
  pending : Multiset Call
  clock : Nat

/-- The call again, if it has to sleep on. -/
def asleep (site : String) (now : Nat) : Option Nat → Multiset Call
  | none => 0
  | some wait => {⟨site, wakeTime now wait⟩}

/-- One of the calls looks at its bucket. -/
inductive Step (timing : Timing) (σ : Situation) : Look → Situation → Prop where
  | intro {c : Call} {rest : Multiset Call} {now : Nat} : σ.pending = c ::ₘ rest →
      timing.Allows σ.pending c now → σ.clock ≤ now →
      Step timing σ ⟨c.site, now, (σ.throttle.look c.site now).1⟩
        ⟨(σ.throttle.look c.site now).2,
          asleep c.site now (σ.throttle.look c.site now).1 + rest, now⟩

/-- The calls get here with these looks, the latest first. -/
inductive Run (timing : Timing) (t : Throttle) (calls : Multiset Call) :
    List Look → Situation → Prop where
  | start : Run timing t calls [] ⟨t, calls, 0⟩
  | step {τ : List Look} {σ σ' : Situation} {l : Look} :
      Run timing t calls τ σ → Step timing σ l σ' → Run timing t calls (l :: τ) σ'

/-- The looks at the bucket of a site. -/
def looksAt (site : String) (τ : List Look) : List Look := τ.filter (·.site = site)

/-- The calls for a site. -/
def callsFor (site : String) (calls : Multiset Call) : Multiset Call :=
  calls.filter (·.site = site)

variable {timing : Timing} {calls : Multiset Call} {τ τ' : List Look} {σ σ' : Situation}
  {l : Look} {c : Call} {pending : Multiset Call}

theorem Timing.Allows.callsFor (h : timing.Allows pending c now) (site : String) :
    timing.Allows (callsFor site pending) c now := by
  cases timing with
  | sometime => exact h
  | onTime => exact ⟨h.1, fun c' hc' => h.2 c' (Multiset.mem_of_mem_filter hc')⟩

/-- Of calls for one site, only one is the next to wake up. -/
theorem Timing.Allows.unique {c' : Call} {now' : Nat}
    (h : Timing.onTime.Allows pending c now) (h' : Timing.onTime.Allows pending c' now')
    (hmem : c ∈ pending) (hmem' : c' ∈ pending) (hsite : c'.site = c.site) :
    c' = c ∧ now' = now := by
  obtain ⟨rfl, hfirst⟩ := h
  obtain ⟨rfl, hfirst'⟩ := h'
  have hdue : c'.due = c.due := Nat.le_antisymm (hfirst' c hmem) (hfirst c' hmem')
  cases c; cases c'
  exact ⟨by rw [Call.mk.injEq]; exact ⟨hsite, hdue⟩, hdue⟩

@[simp] theorem callsFor_add (site : String) (calls more : Multiset Call) :
    callsFor site (calls + more) = callsFor site calls + callsFor site more :=
  Multiset.filter_add ..

theorem callsFor_cons (c : Call) (calls : Multiset Call) :
    callsFor c.site (c ::ₘ calls) = c ::ₘ callsFor c.site calls :=
  Multiset.filter_cons_of_pos _ rfl

theorem callsFor_cons_of_ne (h : c.site ≠ site) (calls : Multiset Call) :
    callsFor site (c ::ₘ calls) = callsFor site calls :=
  Multiset.filter_cons_of_neg _ h

theorem callsFor_asleep (site : String) (now : Nat) (wait : Option Nat) :
    callsFor site (asleep site now wait) = asleep site now wait := by
  cases wait with
  | none => rfl
  | some w => exact callsFor_cons ⟨site, wakeTime now w⟩ 0

theorem callsFor_asleep_of_ne (h : other ≠ site) (wait : Option Nat) :
    callsFor site (asleep other now wait) = 0 := by
  cases wait with
  | none => rfl
  | some w => exact callsFor_cons_of_ne (c := ⟨other, wakeTime now w⟩) h 0

/-- Looks at one site are told by their times and what they found. -/
theorem looks_ext (h : looksAt site τ = τ) (h' : looksAt site τ' = τ')
    (htimes : τ'.map (·.time) = τ.map (·.time)) (hwaits : τ'.map (·.wait) = τ.map (·.wait)) :
    τ' = τ := by
  have hsite (τ : List Look) (h : looksAt site τ = τ) : ∀ l ∈ τ, l.site = site := fun l hl => by
    rw [← h] at hl
    simpa using (List.mem_filter.mp hl).2
  have hlen : τ'.length = τ.length := by simpa using congrArg List.length htimes
  refine List.ext_getElem hlen fun i hi' hi => ?_
  have htime := List.getElem_of_eq htimes (by simpa using hi')
  have hwait := List.getElem_of_eq hwaits (by simpa using hi')
  simp only [List.getElem_map] at htime hwait
  have hs' := hsite τ' h' τ'[i] (List.getElem_mem hi')
  have hs := hsite τ h τ[i] (List.getElem_mem hi)
  generalize τ'[i] = l' at *
  generalize τ[i] = l at *
  cases l'; cases l
  simp_all

namespace Run

theorem rate?_eq (run : Run timing t calls τ σ) : σ.throttle.rate? = t.rate? := by
  induction run with
  | start => rfl
  | step _ hstep ih =>
    cases hstep
    exact (rate?_look ..).trans ih

/-- The bucket of a site and what was found in it: full at the first look, from
then on what the looks at this site have left. -/
theorem waits_eq (run : Run timing t calls τ σ) (hbucket : t.buckets.get? site = none)
    (hrate : t.rate? site = some rate) :
    (looksAt site τ).map (·.wait) = Bucket.waits rate ((looksAt site τ).map (·.time)) ∧
      σ.throttle.buckets.get? site = Bucket.after rate ((looksAt site τ).map (·.time)) := by
  induction run with
  | start => exact ⟨rfl, hbucket⟩
  | @step τ σ σ' l prior hstep ih =>
    obtain ⟨hwaits, hafter⟩ := ih
    cases hstep with
    | @intro c rest now hpending _ _ =>
      by_cases hc : c.site = site
      · subst hc
        have hr : σ.throttle.rate? c.site = some rate := by rw [prior.rate?_eq, hrate]
        have hb : σ.throttle.bucket c.site rate now =
            (Bucket.after rate ((looksAt c.site τ).map (·.time))).getD (Bucket.full rate now) := by
          rw [bucket, hafter]
        simp only [looksAt, List.filter_cons, decide_true, ↓reduceIte, List.map_cons,
          Bucket.waits, Bucket.after_cons] at hwaits hb ⊢
        rw [look_eq hr, hb, hwaits]
        exact ⟨rfl, (Assoc.get?_insert ..).trans (if_pos rfl)⟩
      · have hskip : looksAt site (⟨c.site, now, (σ.throttle.look c.site now).1⟩ :: τ) =
            looksAt site τ := by
          simp [looksAt, hc]
        rw [hskip]
        exact ⟨hwaits, (get?_buckets_look hc).trans hafter⟩

/-- The looks at a site are a run of its own calls, at any throttle that has the
same rate and bucket for the site. -/
theorem exists_alone (run : Run timing t calls τ σ) (hrate : t'.rate? site = t.rate? site)
    (hbucket : t'.buckets.get? site = t.buckets.get? site) :
    ∃ σ', Run timing t' (callsFor site calls) (looksAt site τ) σ' ∧
      σ'.pending = callsFor site σ.pending ∧ σ'.clock ≤ σ.clock ∧
      σ'.throttle.buckets.get? site = σ.throttle.buckets.get? site := by
  induction run with
  | start => exact ⟨_, .start, rfl, Nat.le_refl _, hbucket⟩
  | @step τ σ σ'' l prior hstep ih =>
    obtain ⟨σ', run', hpending', hclock', hbucket'⟩ := ih
    cases hstep with
    | @intro c rest now hpending hallows hclock =>
      by_cases hc : c.site = site
      · subst hc
        have hmine : σ'.pending = c ::ₘ callsFor c.site rest := by
          rw [hpending', hpending, callsFor_cons]
        have hr : σ'.throttle.rate? c.site = σ.throttle.rate? c.site := by
          rw [run'.rate?_eq, prior.rate?_eq, hrate]
        obtain ⟨hwait, hafter⟩ := look_congr now hr hbucket'
        have hstep' : Step timing σ' ⟨c.site, now, (σ.throttle.look c.site now).1⟩
            ⟨(σ'.throttle.look c.site now).2,
              asleep c.site now (σ.throttle.look c.site now).1 + callsFor c.site rest, now⟩ := by
          rw [← hwait]
          exact .intro hmine (hpending' ▸ hallows.callsFor c.site) (Nat.le_trans hclock' hclock)
        have hlooks : looksAt c.site (⟨c.site, now, (σ.throttle.look c.site now).1⟩ :: τ) =
            ⟨c.site, now, (σ.throttle.look c.site now).1⟩ :: looksAt c.site τ := by
          simp [looksAt]
        have next := run'.step hstep'
        rw [← hlooks] at next
        refine ⟨_, next, ?_, Nat.le_refl now, hafter⟩
        rw [callsFor_add, callsFor_asleep]
      · refine ⟨σ', by simpa [looksAt, hc] using run', ?_, Nat.le_trans hclock' hclock, ?_⟩
        · rw [hpending', hpending, callsFor_cons_of_ne hc, callsFor_add,
            callsFor_asleep_of_ne hc, Multiset.zero_add]
        · rw [hbucket', get?_buckets_look hc]

/-- Only sites with a call are looked at, and only their calls are left. -/
theorem site_eq (run : Run timing t calls τ σ) (h : ∀ c ∈ calls, c.site = site) :
    (∀ c ∈ σ.pending, c.site = site) ∧ looksAt site τ = τ := by
  induction run with
  | start => exact ⟨h, rfl⟩
  | @step τ σ σ' l _ hstep ih =>
    obtain ⟨hsites, hlooks⟩ := ih
    cases hstep with
    | @intro c rest now hpending _ _ =>
      rw [hpending] at hsites
      have hc : c.site = site := hsites c (Multiset.mem_cons_self ..)
      refine ⟨fun c' hc' => ?_, ?_⟩
      · rcases Multiset.mem_add.mp hc' with hc' | hc'
        · cases hwait : (σ.throttle.look c.site now).1 with
          | none => rw [hwait] at hc'; cases Multiset.notMem_zero _ hc'
          | some wait =>
            rw [hwait] at hc'
            rw [Multiset.mem_singleton.mp hc', hc]
        · exact hsites c' (Multiset.mem_cons_of_mem hc')
      · simpa [looksAt, hc] using hlooks

/-- Where every sleep ends on time, the same calls for one site look next in the
same way. -/
theorem onTime_step_unique {ρ ρ' : Situation} {l' : Look} (hstep : Step .onTime σ l σ')
    (hstep' : Step .onTime ρ l' ρ') (hsites : ∀ c ∈ σ.pending, c.site = site)
    (hpending : ρ.pending = σ.pending) (hrate : ρ.throttle.rate? site = σ.throttle.rate? site)
    (hbucket : ρ.throttle.buckets.get? site = σ.throttle.buckets.get? site) :
    l' = l ∧ ρ'.pending = σ'.pending ∧
      ρ'.throttle.buckets.get? site = σ'.throttle.buckets.get? site := by
  cases hstep with
  | @intro c rest now hrest hallows hclock =>
  cases hstep' with
  | @intro c' rest' now' hrest' hallows' hclock' =>
  rw [hpending] at hrest' hallows'
  have hmem : c ∈ σ.pending := hrest ▸ Multiset.mem_cons_self c rest
  have hmem' : c' ∈ σ.pending := hrest' ▸ Multiset.mem_cons_self c' rest'
  obtain rfl := hsites c hmem
  obtain ⟨rfl, rfl⟩ := hallows.unique hallows' hmem hmem' (hsites c' hmem')
  obtain rfl : rest' = rest := by
    rw [← Multiset.cons_inj_right c', ← hrest, ← hrest']
  obtain ⟨hwait, hafter⟩ := look_congr now' hrate hbucket
  exact ⟨by rw [hwait], by rw [hwait], hafter⟩

/-- Where every sleep ends on time, as many looks of the same calls come at the
same times. -/
theorem onTime_unique (run : Run .onTime t calls τ σ) (run' : Run .onTime t' calls τ' σ')
    (h : ∀ c ∈ calls, c.site = site) (hrate : t'.rate? site = t.rate? site)
    (hbucket : t'.buckets.get? site = t.buckets.get? site) (hlen : τ'.length = τ.length) :
    τ' = τ ∧ σ'.pending = σ.pending ∧
      σ'.throttle.buckets.get? site = σ.throttle.buckets.get? site := by
  induction run generalizing τ' σ' with
  | start =>
    obtain rfl := List.length_eq_zero_iff.mp hlen
    cases run'
    exact ⟨rfl, rfl, hbucket⟩
  | @step τ σ _ l prior hstep ih =>
    cases run' with
    | start => cases hlen
    | @step τ' σ' _ l' prior' hstep' =>
      obtain ⟨rfl, hpending, hb⟩ := ih prior' (Nat.succ.inj hlen)
      have hr : σ'.throttle.rate? site = σ.throttle.rate? site := by
        rw [prior'.rate?_eq, prior.rate?_eq, hrate]
      obtain ⟨rfl, hnext⟩ :=
        onTime_step_unique hstep hstep' (prior.site_eq h).1 hpending hr hb
      exact ⟨rfl, hnext⟩

/-- The beginning of a run is a run. -/
theorem exists_suffix (run : Run timing t calls τ σ) {n : Nat} (hn : n ≤ τ.length) :
    ∃ τ' σ', Run timing t calls τ' σ' ∧ τ' <:+ τ ∧ τ'.length = n := by
  induction run with
  | start => exact ⟨[], _, .start, List.suffix_refl [], (Nat.le_zero.mp hn).symm⟩
  | @step τ σ σ' l prior hstep ih =>
    rcases Nat.lt_or_eq_of_le hn with hlt | rfl
    · obtain ⟨τ', σ', run', hsuffix, hlen⟩ := ih (Nat.le_of_lt_succ hlt)
      exact ⟨τ', σ', run', hsuffix.trans (List.suffix_cons l τ), hlen⟩
    · exact ⟨_, _, prior.step hstep, List.suffix_refl _, rfl⟩

/-- Where every sleep ends on time, of two runs of the same calls one goes as
far as the other, or further. -/
theorem onTime_suffix (run : Run .onTime t calls τ σ) (run' : Run .onTime t' calls τ' σ')
    (h : ∀ c ∈ calls, c.site = site) (hrate : t'.rate? site = t.rate? site)
    (hbucket : t'.buckets.get? site = t.buckets.get? site) : τ' <:+ τ ∨ τ <:+ τ' := by
  rcases Nat.le_total τ'.length τ.length with hle | hle
  · obtain ⟨ρ, _, hrun, hsuffix, hlen⟩ := run.exists_suffix hle
    rw [(hrun.onTime_unique run' h hrate hbucket hlen.symm).1]
    exact .inl hsuffix
  · obtain ⟨ρ, _, hrun, hsuffix, hlen⟩ := run'.exists_suffix hle
    rw [← (run.onTime_unique hrun h hrate hbucket hlen).1]
    exact .inr hsuffix

/-- A call that is held alone looks until it has its token, or has tried often
enough. -/
theorem exists_acquire (run : Run .onTime t calls τ σ) {site : String} {due : Nat}
    (hpending : σ.pending = {⟨site, due⟩}) (hclock : σ.clock ≤ due) (tries : Nat) :
    ∃ τ' σ', Run .onTime t calls τ' σ' ∧
      (σ'.clock, σ'.throttle) = σ.throttle.acquire site due tries := by
  have hallows : Timing.onTime.Allows σ.pending ⟨site, due⟩ due := by
    refine ⟨rfl, fun c' hc' => ?_⟩
    rw [hpending] at hc'
    rw [Multiset.mem_singleton.mp hc']
  induction tries generalizing τ σ due with
  | zero =>
    refine ⟨_, _, run.step (.intro hpending hallows hclock), ?_⟩
    unfold acquire
    cases hlook : σ.throttle.look site due with
    | mk wait t => cases wait <;> rfl
  | succ tries ih =>
    have run' := run.step (.intro hpending hallows hclock)
    unfold acquire
    cases hlook : σ.throttle.look site due with
    | mk wait t =>
      rw [hlook] at run'
      cases wait with
      | none => exact ⟨_, _, run', rfl⟩
      | some wait =>
        have hwake : due ≤ wakeTime due wait := Nat.le_add_right ..
        refine ih run' rfl hwake ⟨rfl, fun c' hc' => ?_⟩
        rw [Multiset.mem_singleton.mp hc']

end Run

/-- The looks at the bucket of a site, among those at the buckets of any other
sites: what they find is what looks at these times find at the rate of the site,
or else the rate of all, in a bucket that is full at the first of them and is
never made again. They are a run of the calls of the site alone, whatever the
rates of other sites are; and such a run with looks at the same times, as they
come about where every sleep ends on time, has no others. -/
theorem looks_of_site_alone {perMinute : UInt32} {siteRates : Assoc UInt32}
    (run : Run timing (ofRates perMinute siteRates) calls τ σ) (site : String) :
    ((looksAt site τ).map (·.wait) =
        Bucket.waits ((siteRates.get? site).getD perMinute) ((looksAt site τ).map (·.time)) ∧
      σ.throttle.buckets.get? site =
        Bucket.after ((siteRates.get? site).getD perMinute) ((looksAt site τ).map (·.time))) ∧
    ∀ perMinute' siteRates',
      (siteRates'.get? site).getD perMinute' = (siteRates.get? site).getD perMinute →
      (∃ σ', Run timing (ofRates perMinute' siteRates') (callsFor site calls) (looksAt site τ) σ' ∧
        σ'.throttle.buckets.get? site = σ.throttle.buckets.get? site) ∧
      ∀ τ' σ', Run timing (ofRates perMinute' siteRates') (callsFor site calls) τ' σ' →
        (τ'.map (·.time) = (looksAt site τ).map (·.time) → τ' = looksAt site τ) ∧
        (timing = .onTime → τ' <:+ looksAt site τ ∨ looksAt site τ <:+ τ') := by
  have hwaits := run.waits_eq rfl (rate?_ofRates perMinute siteRates site)
  refine ⟨hwaits, fun perMinute' siteRates' hrates => ?_⟩
  have hrate : (ofRates perMinute' siteRates').rate? site =
      (ofRates perMinute siteRates).rate? site := by
    rw [rate?_ofRates, rate?_ofRates, hrates]
  obtain ⟨σ', alone, -, -, hbucket⟩ := run.exists_alone hrate rfl
  have honly : ∀ c ∈ callsFor site calls, c.site = site := fun c hc => (Multiset.mem_filter.mp hc).2
  refine ⟨⟨σ', alone, hbucket⟩, fun τ' ρ run' => ⟨fun htimes => ?_, ?_⟩⟩
  · have hlooks := (run'.site_eq honly).2
    refine looks_ext (alone.site_eq honly).2 hlooks htimes ?_
    have hwaits' := (run'.waits_eq rfl (rate?_ofRates perMinute' siteRates' site)).1
    rw [hlooks, htimes] at hwaits'
    rw [hwaits', hwaits.1, hrates]
  · rintro rfl
    exact alone.onTime_suffix run' honly rfl rfl

/-- A slow site beside another one, which may be asked ten times as often just
as well. -/
theorem looks_of_site_alone_of_two :
    ∃ τ σ, Run .onTime (ofRates 60 [("slow", 1)]) {⟨"slow", 0⟩, ⟨"fast", 0⟩} τ σ ∧
      τ.map (·.site) = ["fast", "slow"] ∧
      (looksAt "slow" τ).map (·.wait) = Bucket.waits 1 [0] ∧
      ∃ σ', Run .onTime (ofRates 600 [("slow", 1)]) {⟨"slow", 0⟩} (looksAt "slow" τ) σ' := by
  have first : Run .onTime (ofRates 60 [("slow", 1)]) {⟨"slow", 0⟩, ⟨"fast", 0⟩} _ _ :=
    Run.start.step (.intro
      (rfl : ({⟨"slow", 0⟩, ⟨"fast", 0⟩} : Multiset Call) = ⟨"slow", 0⟩ ::ₘ {⟨"fast", 0⟩})
      ⟨rfl, fun _ _ => Nat.zero_le _⟩ (Nat.le_refl 0))
  have run := first.step
    (.intro (Multiset.add_cons (⟨"fast", 0⟩ : Call) _ 0)
      ⟨rfl, fun _ _ => Nat.zero_le _⟩ (Nat.le_refl 0))
  have alone := looks_of_site_alone run "slow"
  obtain ⟨σ', alone', -⟩ := (alone.2 600 [("slow", 1)] rfl).1
  exact ⟨_, _, run, rfl, alone.1.1, σ', alone'⟩

end Throttle

end SiteScrape
