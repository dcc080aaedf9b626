import SiteScrape.Proofs.ByteOrder
import SiteScrape.Proofs.Exchange
import SiteScrape.Site.Account

/-!
# The walk through the steps of an account query

`s.Walk now plan i c turns j d`: from step `i` with `c` collected, an account
query comes to step `j` with `d` collected, and `turns` are the steps it leaves
behind, each passed over or read. `Takes` is one such turn, `Halts` what can
end a walk. `runSteps_held_iff` says that carrying the steps out is a walk and
a halt; what holds of a whole query follows from what one turn does.
-/

namespace SiteScrape

open Talk

/-- The descriptions that the fields of a step are read by. -/
def AccountPlan.fieldsOf (plan : AccountPlan) (step : AccountStep) : Assoc Field :=
  step.selectors.getD plan.selectors

/-- The first field, in the order of bytes, that the step asserts and that is
unknown. -/
def AccountStep.FirstUnknown (step : AccountStep) (c : Collected) (f : String) : Prop :=
  f ∈ step.assertion.keys ∧ c.value? f = none ∧
    ∀ g ∈ step.assertion.keys, c.value? g = none → Text.Utf8.bytes f ≤ Text.Utf8.bytes g

/-- A page that a step has read. -/
structure Visit where
  request : Json
  /-- What was sent for it, and heard. -/
  events : List Event
  source : Source

/-- A step that an account query has left behind. -/
structure Turn where
  step : AccountStep
  /-- What was collected when the query came to the step. -/
  known : Collected
  /-- Nothing when the step was passed over. -/
  visit : Option Visit

/-- The pages that were read on the way, one after the other. -/
def visitsOf (turns : List Turn) : List Visit := turns.filterMap Turn.visit

/-- What was sent and heard on the way. -/
def eventsOf (turns : List Turn) : List Event := (visitsOf turns).flatMap Visit.events

theorem eventsOf_cons (t : Turn) (turns : List Turn) :
    eventsOf (t :: turns) = eventsOf [t] ++ eventsOf turns := by
  rcases t with ⟨step, known, _ | v⟩ <;> simp [eventsOf, visitsOf]

namespace AccountStep

variable {i : Nat} {c : Collected}

theorem isSatisfied_iff {step : AccountStep} :
    step.isSatisfied c = true ↔ step.fields ≠ [] ∧ ∀ f ∈ step.fields, c.value? f ≠ none := by
  simp [isSatisfied, Collected.knows, Option.isSome_iff_ne_none]

/-- Of sorted assertions the first unknown one is the least. -/
theorem fillIn_error_iff {asserted : Assoc String} (hs : asserted.Sorted) (request : Json)
    {e : MissingField} :
    fillIn i c asserted request = .error e ↔
      ∃ f, e = ⟨i, f⟩ ∧ f ∈ asserted.keys ∧ c.value? f = none ∧
        ∀ g ∈ asserted.keys, c.value? g = none → f ≤ g := by
  induction asserted generalizing request with
  | nil => simp [fillIn, Assoc.keys]
  | cons p rest ih =>
    obtain ⟨f₀, target⟩ := p
    obtain ⟨hlt, hrest⟩ := List.pairwise_cons.mp hs
    have hkeys : ∀ f, f ∈ Assoc.keys ((f₀, target) :: rest) ↔ f = f₀ ∨ f ∈ Assoc.keys rest :=
      fun f => List.mem_cons
    unfold fillIn
    cases hv : c.value? f₀ with
    | some v =>
      refine (ih hrest _).trans (exists_congr fun f => and_congr_right fun _ => ?_)
      constructor
      · rintro ⟨hf, hn, hle⟩
        refine ⟨(hkeys f).mpr (.inr hf), hn, fun g hg hgn => ?_⟩
        rcases (hkeys g).mp hg with rfl | hg
        · rw [hv] at hgn; cases hgn
        · exact hle g hg hgn
      · rintro ⟨hf, hn, hle⟩
        rcases (hkeys f).mp hf with rfl | hf
        · rw [hv] at hn; cases hn
        · exact ⟨hf, hn, fun g hg => hle g ((hkeys g).mpr (.inr hg))⟩
    | none =>
      constructor
      · rintro ⟨⟩
        refine ⟨f₀, rfl, (hkeys f₀).mpr (.inl rfl), hv, fun g hg _ => ?_⟩
        rcases (hkeys g).mp hg with rfl | hg
        · exact String.le_refl g
        · exact Std.le_of_lt (hlt g hg)
      · rintro ⟨f, rfl, hf, hn, hle⟩
        rcases (hkeys f).mp hf with rfl | hf
        · rfl
        · exact absurd (hlt f hf) (hle f₀ ((hkeys f₀).mpr (.inl rfl)) hv)

end AccountStep

namespace Site

variable {s : Site} {now : Int} {plan : AccountPlan} {i j : Nat} {c d : Collected}
  {es : List Event} {step : AccountStep} {request : Json}

/-- A request cannot be made exactly when something is asserted and unknown. -/
theorem stepRequest_error_iff {e : MissingField} :
    s.stepRequest i step c = .error e ↔ ∃ f, e = ⟨i, f⟩ ∧ step.FirstUnknown c f := by
  unfold AccountStep.FirstUnknown
  simp only [Text.Utf8.bytes_le_iff]
  refine Iff.trans ?_ (AccountStep.fillIn_error_iff step.assertion_sorted step.seed)
  unfold stepRequest
  cases AccountStep.fillIn i c step.assertion step.seed with
  | ok r => exact ⟨(nomatch ·), (nomatch ·)⟩
  | error e' => exact Iff.rfl

/-- A step succeeds by reading the body of an exchange. -/
theorem runStep_held_ok_iff :
    (s.runStep now plan step request c).run.Held es (.ok d) ↔
      ∃ x body, (s.send request).run.Held es (.ok x) ∧
        Body.ofText x.kind x.response.body = .ok body ∧
        d = s.collect now (plan.fieldsOf step) body.source step c := by
  unfold runStep
  rw [held_run_bind_iff]
  constructor
  · rintro (⟨e, _, h⟩ | ⟨es₁, es₂, x, rfl, h₁, h⟩)
    · cases h
    rcases held_run_bind_iff.mp h with ⟨e, _, h⟩ | ⟨es₂, es₃, body, rfl, h₂, h₃⟩
    · cases h
    obtain ⟨rfl, hb⟩ := held_pure_iff.mp h₂
    obtain ⟨rfl, hd⟩ := held_pure_iff.mp h₃
    exact ⟨x, body, by simpa using h₁, hb.symm, by cases hd; rfl⟩
  · rintro ⟨x, body, h, hb, rfl⟩
    refine .inr ⟨es, [], x, by simp, h, held_run_bind_iff.mpr (.inr ⟨[], [], body, rfl, ?_, ?_⟩)⟩
    · exact held_pure_iff.mpr ⟨rfl, hb.symm⟩
    · exact held_pure_iff.mpr ⟨rfl, rfl⟩

/-- The exchange of a request fails with this error: it does not come about, or
its body cannot be read. -/
inductive Fails (s : Site) (request : Json) : List Event → SiteError → Prop where
  | unsent {es : List Event} {e : SiteError} :
      (s.send request).run.Held es (.error e) → Fails s request es e
  | unread {es : List Event} {x : Exchange} {e : SiteError} :
      (s.send request).run.Held es (.ok x) →
      Body.ofText x.kind x.response.body = .error e → Fails s request es e

/-- A step fails by its exchange. -/
theorem runStep_held_error_iff {e : SiteError} :
    (s.runStep now plan step request c).run.Held es (.error e) ↔ s.Fails request es e := by
  unfold runStep
  rw [held_run_bind_iff]
  constructor
  · rintro (⟨_, h, ⟨⟩⟩ | ⟨es₁, es₂, x, rfl, h₁, h⟩)
    · exact .unsent h
    rcases held_run_bind_iff.mp h with ⟨_, h₂, ⟨⟩⟩ | ⟨es₂, es₃, body, rfl, _, h₃⟩
    · obtain ⟨rfl, hb⟩ := held_pure_iff.mp h₂
      exact .unread (by simpa using h₁) hb.symm
    · cases (held_pure_iff.mp h₃).2
  · rintro (h | ⟨h, hb⟩)
    · exact .inl ⟨e, h, rfl⟩
    · exact .inr ⟨es, [], _, by simp, h,
        held_run_bind_iff.mpr (.inl ⟨e, held_pure_iff.mpr ⟨rfl, hb.symm⟩, rfl⟩)⟩

/-- Step `i` is left behind in this turn, which takes what is collected from
`c` to `d`. -/
inductive Takes (s : Site) (now : Int) (plan : AccountPlan) (i : Nat) (c : Collected) :
    Turn → Collected → Prop where
  | pass {step : AccountStep} : plan.process[i]? = some step → step.isSatisfied c = true →
      Takes s now plan i c ⟨step, c, none⟩ c
  | read {step : AccountStep} {request : Json} {es : List Event} {x : Exchange} {body : Body} :
      plan.process[i]? = some step → step.isSatisfied c = false →
      s.stepRequest i step c = .ok request → (s.send request).run.Held es (.ok x) →
      Body.ofText x.kind x.response.body = .ok body →
      Takes s now plan i c ⟨step, c, some ⟨request, es, body.source⟩⟩
        (s.collect now (plan.fieldsOf step) body.source step c)

/-- A query comes from step `i` with `c` collected to step `j` with `d`. -/
inductive Walk (s : Site) (now : Int) (plan : AccountPlan) :
    Nat → Collected → List Turn → Nat → Collected → Prop where
  | stay (i : Nat) (c : Collected) : Walk s now plan i c [] i c
  | turn {i j : Nat} {c d e : Collected} {t : Turn} {turns : List Turn} :
      s.Takes now plan i c t d → Walk s now plan (i + 1) d turns j e →
      Walk s now plan i c (t :: turns) j e

/-- A query that has come to step `i` with `c` collected ends there, after
these events. -/
inductive Halts (s : Site) (now : Int) (plan : AccountPlan) (i : Nat) (c : Collected) :
    List Event → Except MissingField (QueryStatus × Collected) → Prop where
  | finished : plan.process.length ≤ i → Halts s now plan i c [] (.ok (.success, c))
  | unmet {step : AccountStep} {f : String} : plan.process[i]? = some step →
      step.isSatisfied c = false → step.FirstUnknown c f →
      Halts s now plan i c [] (.error ⟨i, f⟩)
  | failed {step : AccountStep} {request : Json} {es : List Event} {e : SiteError} :
      plan.process[i]? = some step → step.isSatisfied c = false →
      s.stepRequest i step c = .ok request →
      s.Fails request es e → Halts s now plan i c es (.ok (failureStatus e, c))

/-- The steps from `i` on are carried out with step `i` first. -/
theorem runSteps_drop (hget : plan.process[i]? = some step) :
    s.runSteps now plan i c (plan.process.drop i) =
      if step.isSatisfied c then s.runSteps now plan (i + 1) c (plan.process.drop (i + 1))
      else match s.stepRequest i step c with
        | .error e => pure (.error e)
        | .ok request => do
          match ← (s.runStep now plan step request c).run with
          | .ok c => s.runSteps now plan (i + 1) c (plan.process.drop (i + 1))
          | .error e => return .ok (failureStatus e, c) := by
  obtain ⟨hi, rfl⟩ := List.getElem?_eq_some_iff.mp hget
  rw [List.drop_eq_getElem_cons hi]
  rfl

/-- A query that halts at step `i` is held so. -/
theorem Halts.held {outcome : Except MissingField (QueryStatus × Collected)}
    (h : s.Halts now plan i c es outcome) :
    (s.runSteps now plan i c (plan.process.drop i)).Held es outcome := by
  cases h with
  | finished hi =>
    rw [List.drop_eq_nil_of_le hi]
    exact held_pure_iff.mpr ⟨rfl, rfl⟩
  | unmet hget hsat hf =>
    rw [runSteps_drop hget, if_neg (by simp [hsat]), stepRequest_error_iff.mpr ⟨_, rfl, hf⟩]
    exact held_pure_iff.mpr ⟨rfl, rfl⟩
  | failed hget hsat hr h =>
    rw [runSteps_drop hget, if_neg (by simp [hsat]), hr]
    exact held_bind_iff.mpr ⟨es, [], _, by simp, runStep_held_error_iff.mpr h,
      held_pure_iff.mpr ⟨rfl, rfl⟩⟩

/-- What is held from the end of a walk on is held from its beginning, behind
what was sent and heard on the way. -/
theorem Walk.held {turns : List Turn} {outcome : Except MissingField (QueryStatus × Collected)}
    (hw : s.Walk now plan i c turns j d)
    (h : (s.runSteps now plan j d (plan.process.drop j)).Held es outcome) :
    (s.runSteps now plan i c (plan.process.drop i)).Held (eventsOf turns ++ es) outcome := by
  induction hw with
  | stay => exact h
  | turn ht _ ih =>
    cases ht with
    | pass hget hsat =>
      rw [runSteps_drop hget, if_pos hsat]
      exact ih h
    | read hget hsat hr hx hb =>
      rw [runSteps_drop hget, if_neg (by simp [hsat]), hr]
      exact held_bind_iff.mpr ⟨_, _, _, by simp [eventsOf, visitsOf],
        runStep_held_ok_iff.mpr ⟨_, _, hx, hb, rfl⟩, ih h⟩

/-- Whatever is held of the steps from one that is left on halts there, or leaves
it behind and goes on. -/
theorem halts_or_takes {outcome : Except MissingField (QueryStatus × Collected)}
    (hi : i < plan.process.length)
    (h : (s.runSteps now plan i c (plan.process.drop i)).Held es outcome) :
    s.Halts now plan i c es outcome ∨ ∃ t d rest, s.Takes now plan i c t d ∧
      es = eventsOf [t] ++ rest ∧
      (s.runSteps now plan (i + 1) d (plan.process.drop (i + 1))).Held rest outcome := by
  have hget := List.getElem?_eq_getElem hi
  rw [runSteps_drop hget] at h
  cases hsat : plan.process[i].isSatisfied c with
  | true =>
    rw [if_pos hsat] at h
    exact .inr ⟨_, c, es, .pass hget hsat, rfl, h⟩
  | false =>
    rw [if_neg (by simp [hsat])] at h
    cases hr : s.stepRequest i plan.process[i] c with
    | error e =>
      rw [hr] at h
      obtain ⟨rfl, rfl⟩ := held_pure_iff.mp h
      obtain ⟨f, rfl, hf⟩ := stepRequest_error_iff.mp hr
      exact .inl (.unmet hget hsat hf)
    | ok request =>
      rw [hr] at h
      obtain ⟨es₁, es₂, e | d, rfl, h₁, h₂⟩ := held_bind_iff.mp h
      · obtain ⟨rfl, rfl⟩ := held_pure_iff.mp h₂
        rw [List.append_nil]
        exact .inl (.failed hget hsat hr (runStep_held_error_iff.mp h₁))
      · obtain ⟨x, body, hx, hb, rfl⟩ := runStep_held_ok_iff.mp h₁
        exact .inr ⟨_, _, es₂, .read hget hsat hr hx hb, by simp [eventsOf, visitsOf], h₂⟩

/-- Whatever is held of the steps from `i` on is a walk that halts. -/
theorem exists_walk {outcome : Except MissingField (QueryStatus × Collected)}
    (h : (s.runSteps now plan i c (plan.process.drop i)).Held es outcome) :
    ∃ turns j d last, s.Walk now plan i c turns j d ∧ s.Halts now plan j d last outcome ∧
      es = eventsOf turns ++ last := by
  -- by induction on the number of steps that are left
  induction hn : plan.process.length - i generalizing i c es with
  | zero =>
    have hi : plan.process.length ≤ i := Nat.sub_eq_zero_iff_le.mp hn
    rw [List.drop_eq_nil_of_le hi] at h
    obtain ⟨rfl, rfl⟩ := held_pure_iff.mp h
    exact ⟨[], i, c, [], .stay i c, .finished hi, rfl⟩
  | succ n ih =>
    obtain hhalts | ⟨t, d, rest, ht, rfl, hrest⟩ := halts_or_takes (by omega) h
    · exact ⟨[], i, c, es, .stay i c, hhalts, rfl⟩
    · obtain ⟨turns, j, e, last, hw, hh, rfl⟩ := ih hrest (by omega)
      exact ⟨t :: turns, j, e, last, .turn ht hw, hh, by
        rw [eventsOf_cons t turns, List.append_assoc]⟩

/-- Carrying out the steps from `i` on is a walk that halts. -/
theorem runSteps_held_iff {outcome : Except MissingField (QueryStatus × Collected)} :
    (s.runSteps now plan i c (plan.process.drop i)).Held es outcome ↔
      ∃ turns j d last, s.Walk now plan i c turns j d ∧ s.Halts now plan j d last outcome ∧
        es = eventsOf turns ++ last := by
  refine ⟨exists_walk, ?_⟩
  rintro ⟨turns, j, d, last, hw, hh, rfl⟩
  exact hw.held hh.held

/-! ### What a walk leaves behind -/

section

variable {t : Turn} {turns : List Turn} {previous : Option UserInfo}

theorem Takes.get (h : s.Takes now plan i c t d) : plan.process[i]? = some t.step := by
  cases h <;> assumption

theorem Takes.known (h : s.Takes now plan i c t d) : t.known = c := by
  cases h <;> rfl

/-- A step is passed over when nothing is left to collect, and only then. -/
theorem Takes.passed_iff (h : s.Takes now plan i c t d) :
    t.visit = none ↔ t.step.isSatisfied t.known = true := by
  cases h with
  | pass _ hsat => exact iff_of_true rfl hsat
  | read _ hsat => exact iff_of_false (nomatch ·) (by simp [hsat])

/-- What a turn reads is the answer to the request of its step. -/
theorem Takes.sent {v : Visit} (h : s.Takes now plan i c t d) (hv : t.visit = some v) :
    s.stepRequest i t.step t.known = .ok v.request ∧
      ∃ x, (s.send v.request).run.Held v.events (.ok x) := by
  cases h with
  | pass => cases hv
  | read _ _ hr hx _ => cases hv; exact ⟨hr, _, hx⟩

/-- A walk takes the steps in order and leaves none out. -/
theorem Walk.steps (h : s.Walk now plan i c turns j d) :
    turns.map Turn.step = (plan.process.drop i).take turns.length ∧ j = i + turns.length := by
  induction h with
  | stay => exact ⟨rfl, rfl⟩
  | turn ht _ ih =>
    obtain ⟨hi, hstep⟩ := List.getElem?_eq_some_iff.mp ht.get
    refine ⟨?_, by rw [ih.2, List.length_cons]; omega⟩
    rw [List.drop_eq_getElem_cons hi, hstep, List.map_cons, ih.1]
    rfl

theorem Walk.le_length (h : s.Walk now plan i c turns j d) (hi : i ≤ plan.process.length) :
    j ≤ plan.process.length := by
  induction h with
  | stay => exact hi
  | turn ht _ ih => exact ih (List.getElem?_eq_some_iff.mp ht.get).1

theorem Walk.append {k : Nat} {e : Collected} {more : List Turn}
    (h : s.Walk now plan i c turns j d) (h' : s.Walk now plan j d more k e) :
    s.Walk now plan i c (turns ++ more) k e := by
  induction h with
  | stay => exact h'
  | turn ht _ ih => exact .turn ht (ih h')

/-- Every turn of a walk is one of its steps. -/
theorem Walk.takes (h : s.Walk now plan i c turns j d) {k : Nat} (hk : turns[k]? = some t) :
    ∃ e, s.Takes now plan (i + k) t.known t e := by
  induction h generalizing k with
  | stay => cases hk
  | turn ht _ ih =>
    cases k with
    | zero => cases hk; exact ⟨_, ht.known ▸ ht⟩
    | succ k =>
      obtain ⟨e, he⟩ := ih hk
      rw [Nat.add_right_comm] at he
      exact ⟨e, he⟩

/-- As many pages are read as there are steps with something to collect. -/
theorem Walk.visits (h : s.Walk now plan i c turns j d) :
    (visitsOf turns).length = turns.countP fun t => !t.step.isSatisfied t.known := by
  induction h with
  | stay => rfl
  | turn ht _ ih =>
    unfold visitsOf at ih ⊢
    cases ht with
    | pass _ hsat => simpa [hsat] using ih
    | read _ hsat => simpa [hsat] using ih

end

/-- A query that is allowed is a walk from the fields carried over, and a
halt. -/
theorem accountInfo_held_iff (hplan : s.metadata.userInfo = some plan)
    (hallowed : s.metadata.allowsUserInfo = true) {previous : Option UserInfo}
    {r : Except MissingField UserInfo} :
    (s.accountInfo now previous).Held es r ↔
      ∃ turns j d last outcome, s.Walk now plan 0 (.carriedOver plan previous) turns j d ∧
        s.Halts now plan j d last outcome ∧ es = eventsOf turns ++ last ∧
        r = outcome.map fun (status, c) => .ofFields s.id status c now := by
  have hsome : (s.metadata.userInfo.filter fun _ => s.metadata.allowsUserInfo) = some plan := by
    rw [hplan, hallowed]; rfl
  unfold accountInfo
  rw [hsome]
  constructor
  · intro h
    obtain ⟨es₁, es₂, outcome, rfl, h₁, h₂⟩ := held_bind_iff.mp h
    obtain ⟨rfl, rfl⟩ := held_pure_iff.mp h₂
    obtain ⟨turns, j, d, last, hw, hh, rfl⟩ := runSteps_held_iff.mp h₁
    exact ⟨turns, j, d, last, outcome, hw, hh, by simp, rfl⟩
  · rintro ⟨turns, j, d, last, outcome, hw, hh, rfl, rfl⟩
    have h := runSteps_held_iff.mpr ⟨turns, j, d, last, hw, hh, rfl⟩
    exact held_bind_iff.mpr ⟨_, [], outcome, by simp, h, held_pure_iff.mpr ⟨rfl, rfl⟩⟩

end Site

namespace Sample

/-- A plan that wants the name only, and takes it over from the record before. -/
def namePlan : AccountPlan := { pickLast := ["name"], process := [{ fields := ["name"] }] }

def nameSite : Site where
  metadata := { id := "demo", userInfoAllowed := some true, userInfo := some namePlan }

/-- An earlier record of the site. -/
def ann : UserInfo := { site := "demo", name := some "Ann" }

end Sample

namespace Site

/-! ### The control flow -/

variable {s : Site} {now : Int} {plan : AccountPlan} {i : Nat} {es : List Event}

/-- A query is refused at a step exactly when a walk comes to it that finds it
unsatisfied and an assertion of it unmet. -/
theorem accountInfo_refused_iff (hplan : s.metadata.userInfo = some plan)
    (hallowed : s.metadata.allowsUserInfo = true) {previous : Option UserInfo} {f : String} :
    (s.accountInfo now previous).Held es (.error ⟨i, f⟩) ↔
      ∃ turns c step, s.Walk now plan 0 (.carriedOver plan previous) turns i c ∧
        plan.process[i]? = some step ∧ step.isSatisfied c = false ∧ step.FirstUnknown c f ∧
        es = eventsOf turns := by
  rw [accountInfo_held_iff hplan hallowed]
  constructor
  · rintro ⟨turns, j, c, last, outcome, hw, hh, rfl, hr⟩
    cases hh with
    | finished => cases hr
    | failed => cases hr
    | unmet hget hsat hf => cases hr; exact ⟨turns, c, _, hw, hget, hsat, hf, by simp⟩
  · rintro ⟨turns, c, step, hw, hget, hsat, hf, rfl⟩
    exact ⟨turns, i, c, [], _, hw, .unmet hget hsat hf, by simp, rfl⟩

/-- A query ends with a record exactly when a walk comes to the end of the
plan, or to a step whose exchange fails. -/
theorem accountInfo_ended_iff (hplan : s.metadata.userInfo = some plan)
    (hallowed : s.metadata.allowsUserInfo = true) {previous : Option UserInfo} {u : UserInfo} :
    (s.accountInfo now previous).Held es (.ok u) ↔
      (∃ turns c, s.Walk now plan 0 (.carriedOver plan previous) turns plan.process.length c ∧
        es = eventsOf turns ∧ u = .ofFields s.id .success c now) ∨
      ∃ turns i c step request last e,
        s.Walk now plan 0 (.carriedOver plan previous) turns i c ∧
        plan.process[i]? = some step ∧ step.isSatisfied c = false ∧
        s.stepRequest i step c = .ok request ∧ s.Fails request last e ∧
        es = eventsOf turns ++ last ∧ u = .ofFields s.id (failureStatus e) c now := by
  rw [accountInfo_held_iff hplan hallowed]
  constructor
  · rintro ⟨turns, j, c, last, outcome, hw, hh, rfl, hr⟩
    cases hh with
    | finished hj =>
      cases hr
      obtain rfl := Nat.le_antisymm (hw.le_length (Nat.zero_le _)) hj
      exact .inl ⟨turns, c, hw, by simp, rfl⟩
    | unmet => cases hr
    | failed hget hsat hreq hfails =>
      cases hr
      exact .inr ⟨turns, j, c, _, _, last, _, hw, hget, hsat, hreq, hfails, rfl, rfl⟩
  · rintro (⟨turns, c, hw, rfl, rfl⟩ |
      ⟨turns, i, c, step, request, last, e, hw, hget, hsat, hreq, hfails, rfl, rfl⟩)
    · exact ⟨turns, _, c, [], _, hw, .finished (Nat.le_refl _), by simp, rfl⟩
    · exact ⟨turns, i, c, last, _, hw, .failed hget hsat hreq hfails, rfl, rfl⟩

/-- With the name taken over, the one step of the plan is passed over. -/
theorem nameSite_walk :
    Sample.nameSite.Walk 0 Sample.namePlan 0 (.carriedOver Sample.namePlan (some Sample.ann))
      [⟨{ fields := ["name"] }, [("name", .str "Ann")], none⟩] 1 [("name", .str "Ann")] := by
  refine .turn (.pass rfl ?_) (.stay ..)
  decide +kernel

/-- The control flow of an account query. It comes to an end with any outside.
It is refused exactly at a step that is come to unsatisfied and that asserts an
unknown field, for the first such field and with nothing sent for the step;
else it ends at the first exchange that fails, with what was collected before,
or at the end of the plan. On the way the steps are taken in order, one is
passed over when it has fields and all are known, and each of the others is one
request sent. -/
theorem accountInfo_course (hplan : s.metadata.userInfo = some plan)
    (hallowed : s.metadata.allowsUserInfo = true) (now : Int) (previous : Option UserInfo) :
    (∀ (σ : Type) (world : Outside σ) (token : Option String) (st : σ), ∃ es,
      (s.accountInfo now previous).Held es ((s.accountInfo now previous).run world token st).1) ∧
    (∀ es i f, (s.accountInfo now previous).Held es (.error ⟨i, f⟩) ↔
      ∃ turns c step, s.Walk now plan 0 (.carriedOver plan previous) turns i c ∧
        plan.process[i]? = some step ∧ step.isSatisfied c = false ∧ step.FirstUnknown c f ∧
        es = eventsOf turns) ∧
    (∀ es u, (s.accountInfo now previous).Held es (.ok u) ↔
      (∃ turns c, s.Walk now plan 0 (.carriedOver plan previous) turns plan.process.length c ∧
        es = eventsOf turns ∧ u = .ofFields s.id .success c now) ∨
      ∃ turns i c step request last e,
        s.Walk now plan 0 (.carriedOver plan previous) turns i c ∧
        plan.process[i]? = some step ∧ step.isSatisfied c = false ∧
        s.stepRequest i step c = .ok request ∧ s.Fails request last e ∧
        es = eventsOf turns ++ last ∧ u = .ofFields s.id (failureStatus e) c now) ∧
    ∀ turns i c, s.Walk now plan 0 (.carriedOver plan previous) turns i c →
      turns.map Turn.step = plan.process.take i ∧
      (∀ k t, turns[k]? = some t →
        (t.visit = none ↔ t.step.fields ≠ [] ∧ ∀ f ∈ t.step.fields, t.known.value? f ≠ none) ∧
        ∀ v, t.visit = some v → s.stepRequest k t.step t.known = .ok v.request ∧
          ∃ x, (s.send v.request).run.Held v.events (.ok x)) ∧
      (visitsOf turns).length = turns.countP fun t => !t.step.isSatisfied t.known := by
  refine ⟨fun σ world token st => exists_held world _ token st,
    fun es i f => accountInfo_refused_iff hplan hallowed,
    fun es u => accountInfo_ended_iff hplan hallowed, fun turns i c hw => ⟨?_, ?_, hw.visits⟩⟩
  · obtain ⟨hsteps, hi⟩ := hw.steps
    rw [hsteps, hi, List.drop_zero, Nat.zero_add]
  · intro k t hk
    obtain ⟨e, ht⟩ := hw.takes hk
    rw [Nat.zero_add] at ht
    exact ⟨ht.passed_iff.trans AccountStep.isSatisfied_iff, fun v hv => ht.sent hv⟩

theorem accountInfo_course_of_known_name :
    (Sample.nameSite.accountInfo 0 (some Sample.ann)).Held []
      (.ok (.ofFields "demo" .success [("name", .str "Ann")] 0)) := by
  obtain ⟨-, -, hended, -⟩ :=
    accountInfo_course (s := Sample.nameSite) rfl rfl 0 (some Sample.ann)
  exact (hended _ _).mpr (.inl ⟨_, _, nameSite_walk, rfl, rfl⟩)

end Site

end SiteScrape
