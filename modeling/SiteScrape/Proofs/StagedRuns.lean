import SiteScrape.Proofs.RequestStages

/-!
# Runs in stages

In a run every operation goes through the stages of its site, each for itself;
the token ties them together. `Workload.Staged` is a run with nothing left of
the operations but their stages, and the lemmas on it say who holds the claim
to a token (`held_iff`) and what those who were given it hold (`token_eq`).
-/

namespace SiteScrape

open Talk

variable {ι κ : Type}

/-- The token that an operation was given for its next request. -/
def Stage.token? : Stage → Option String
  | .free token | .admitted token => token
  | _ => none

namespace TokenCell

variable {k k' : κ} {c c' : TokenCell κ} {e : Effect}

/-- A token stays. -/
theorem Allows.filled {t : String} (h : c.Allows k e c') (hc : c = .filled t) :
    c' = .filled t := by
  cases h <;> first | exact hc | cases hc

theorem Allows.eq_filled {t : String} (h : c.Allows k (.settled (some t)) c') :
    c' = .filled t := by
  cases h; rfl

/-- Nobody takes the claim of another. -/
theorem Allows.held_iff_of_ne (h : c.Allows k e c') (hk : k' ≠ k) :
    c' = .held k' ↔ c = .held k' := by
  cases h with
  | acquired | sent | answered | reuse => exact .rfl
  | claim => exact ⟨fun h => absurd (TokenCell.held.inj h).symm hk, nofun⟩
  | fill | giveUp => exact ⟨nofun, fun h => absurd (TokenCell.held.inj h).symm hk⟩

end TokenCell

namespace Workload

variable [DecidableEq ι] [DecidableEq κ] {w : Workload ι κ} {path : ι → Option String}
  {τ : Trace κ} {σ σ' : Situation ι κ} {stage : κ → Stage} {cell : ι → TokenCell κ} {k : κ}
  {e : Effect}

/-- The operation goes from one stage to another. -/
abbrev Goes (w : Workload ι κ) (path : ι → Option String) (k : κ) :
    Stage → Effect → Stage → Prop :=
  (w.siteOf k).Goes (path (w.target k))

omit [DecidableEq κ] in
/-- A token stays in its cell whatever effect an operation has. -/
theorem filled_update {c : TokenCell κ} {i : ι} {t : String}
    (hallows : (cell (w.target k)).Allows k e c) (hi : cell i = .filled t) :
    Function.update cell (w.target k) c i = .filled t := by
  by_cases hne : i = w.target k
  · subst hne
    rw [Function.update_self]
    exact hallows.filled hi
  · rw [Function.update_of_ne hne]
    exact hi

/-- The operations get to these stages, and the tokens to these cells. -/
inductive Staged (w : Workload ι κ) (path : ι → Option String) :
    Trace κ → (κ → Stage) → (ι → TokenCell κ) → Prop where
  | start : Staged w path [] (fun _ => .free none) (fun _ => .empty)
  | step {τ : Trace κ} {stage : κ → Stage} {cell : ι → TokenCell κ} {k : κ} {e : Effect}
      {x : Stage} {c : TokenCell κ} : Staged w path τ stage cell →
      w.Goes path k (stage k) e x → (cell (w.target k)).Allows k e c →
      Staged w path ((k, e) :: τ) (Function.update stage k x)
        (Function.update cell (w.target k) c)

/-- The operations are where their stages say. -/
def InStages (w : Workload ι κ) (path : ι → Option String) (σ : Situation ι κ)
    (stage : κ → Stage) : Prop :=
  ∀ k, (σ.position k).Conforms (w.Goes path k) (fun _ y => ¬y.HasClaim) (stage k)

/-- A run is one in stages. -/
theorem Run.exists_staged (hpath : ∀ i, (w.site i).GetsTokensAt (path i)) (run : w.Run τ σ) :
    ∃ stage, w.Staged path τ stage σ.cell ∧ w.InStages path σ stage := by
  induction run with
  | start => exact ⟨_, .start, fun k => (w.operation k).conforms (hpath (w.target k))⟩
  | @step τ σ σ' k e _ hstep ih =>
    obtain ⟨stage, hstaged, hin⟩ := ih
    cases hstep with
    | @intro p c hmove hallows =>
      obtain ⟨x, hx, hp⟩ := (hin k).move hmove
      refine ⟨Function.update stage k x, hstaged.step hx hallows, fun k' => ?_⟩
      by_cases hk : k' = k
      · subst hk
        simpa using hp
      · simpa [hk] using hin k'

/-- A step leads on from the stage of who takes it. -/
theorem InStages.goes (h : w.InStages path σ stage) (hstep : w.Step σ k e σ') :
    ∃ x c, w.Goes path k (stage k) e x ∧ (σ.cell (w.target k)).Allows k e c := by
  cases hstep with
  | intro hmove hallows =>
    obtain ⟨x, hx, -⟩ := (h k).move hmove
    exact ⟨x, _, hx, hallows⟩

namespace Staged

/-- The stage of an operation is one that its latest effect leads to. -/
theorem latest_goes (h : w.Staged path τ stage cell) (k : κ) :
    (latest k τ = none ∧ stage k = .free none) ∨
      ∃ x e, latest k τ = some e ∧ w.Goes path k x e (stage k) := by
  induction h with
  | start => exact .inl ⟨rfl, rfl⟩
  | @step τ stage cell k' e x c _ hgoes _ ih =>
    by_cases hk : k' = k
    · subst hk
      exact .inr ⟨stage k', e, by simp, by simpa using hgoes⟩
    · rw [latest_cons_ne hk, Function.update_of_ne (Ne.symm hk)]
      exact ih

/-- The cell of a token is held by the one who has the claim to it. -/
theorem held_iff (h : w.Staged path τ stage cell) (k : κ) :
    cell (w.target k) = .held k ↔ (stage k).HasClaim := by
  induction h with
  | start => exact ⟨nofun, nofun⟩
  | @step τ stage cell k' e x c _ hgoes hallows ih =>
    by_cases hk : k = k'
    · subst hk
      simp only [Function.update_self]
      revert ih
      generalize cell (w.target k) = before at hallows
      generalize stage k = from' at hgoes
      cases hgoes <;> cases hallows <;> simp [Stage.HasClaim]
    · rw [Function.update_of_ne hk]
      by_cases hi : w.target k = w.target k'
      · rw [hi, Function.update_self, hallows.held_iff_of_ne hk, ← hi]
        exact ih
      · rw [Function.update_of_ne hi]
        exact ih

/-- Only one operation of a site has the claim. -/
theorem claim_unique (h : w.Staged path τ stage cell) {k k' : κ} (hk : (stage k).HasClaim)
    (hk' : (stage k').HasClaim) (hsite : w.target k' = w.target k) : k' = k := by
  have hheld := (h.held_iff k').mpr hk'
  rw [hsite, (h.held_iff k).mpr hk] at hheld
  exact (TokenCell.held.inj hheld).symm

/-- A claim is held by an operation on the site. -/
theorem target_of_held (h : w.Staged path τ stage cell) {i : ι} (hi : cell i = .held k) :
    w.target k = i := by
  induction h with
  | start => cases hi
  | @step τ stage cell k' e x c _ _ hallows ih =>
    by_cases hne : i = w.target k'
    · subst hne
      rw [Function.update_self] at hi
      by_cases hk : k = k'
      · rw [hk]
      · exact ih ((hallows.held_iff_of_ne hk).mp hi)
    · rw [Function.update_of_ne hne] at hi
      exact ih hi

/-- A token that an operation was given is the token of the site. -/
theorem token_eq (h : w.Staged path τ stage cell) {k : κ} {t : String}
    (ht : (stage k).token? = some t) : cell (w.target k) = .filled t := by
  induction h with
  | start => cases ht
  | @step τ stage cell k' e x c _ hgoes hallows ih =>
    by_cases hk : k = k'
    · subst hk
      rw [Function.update_self] at ht ⊢
      revert ih
      generalize cell (w.target k) = before at hallows
      generalize stage k = from' at hgoes
      cases hgoes <;> cases hallows <;> simp_all [Stage.token?]
    · rw [Function.update_of_ne hk] at ht
      exact filled_update hallows (ih ht)

end Staged

/-- An operation can have an effect that its position and the token allow. -/
theorem exists_step {x p : Position Unit} {a c : TokenCell κ} (hx : σ.position k = x)
    (ha : σ.cell (w.target k) = a) (hmove : x.Moves e p) (hallows : a.Allows k e c) :
    ∃ σ', w.Step σ k e σ' :=
  ⟨_, .intro (hx ▸ hmove) (ha ▸ hallows)⟩

/-- Whoever holds a claim can go on. -/
theorem InStages.holder_steps (hin : w.InStages path σ stage)
    (h : w.Staged path τ stage σ.cell) (hheld : σ.cell (w.target k) = .held k) :
    ∃ e σ', w.Step σ k e σ' := by
  have hclaim := (h.held_iff k).mp hheld
  have hk := hin k
  cases hp : σ.position k with
  | waiting next =>
    exact ⟨_, exists_step (e := .answered (.error .timeout)) hp rfl .answer .answered⟩
  | before t =>
    rw [hp] at hk
    cases t with
    | done => exact absurd hclaim hk
    | acquire site next => exact ⟨_, exists_step hp rfl .acquire .acquired⟩
    | request r next => exact ⟨_, exists_step hp rfl .request .sent⟩
    | claimToken next =>
      obtain ⟨y, hgoes, -⟩ := hk none
      generalize stage k = x at hgoes hclaim
      cases hgoes
      exact hclaim.elim
    | settleToken token next =>
      cases token with
      | none => exact ⟨_, exists_step hp hheld .settle .giveUp⟩
      | some t => exact ⟨_, exists_step hp hheld .settle .fill⟩

/-- Every operation has ended, can go on, or waits for one that can. -/
theorem InStages.steps_or_waits (hin : w.InStages path σ stage)
    (h : w.Staged path τ stage σ.cell) (k : κ) :
    σ.position k = .before (.done ()) ∨ (∃ e σ', w.Step σ k e σ') ∨
      ∃ k', k' ≠ k ∧ σ.cell (w.target k) = .held k' ∧ ∃ e σ', w.Step σ k' e σ' := by
  have hk := hin k
  cases hp : σ.position k with
  | waiting next =>
    exact .inr (.inl ⟨_, exists_step (e := .answered (.error .timeout)) hp rfl .answer .answered⟩)
  | before t =>
    rw [hp] at hk
    cases t with
    | done => exact .inl rfl
    | acquire site next => exact .inr (.inl ⟨_, exists_step hp rfl .acquire .acquired⟩)
    | request r next => exact .inr (.inl ⟨_, exists_step hp rfl .request .sent⟩)
    | claimToken next =>
      cases hc : σ.cell (w.target k) with
      | empty => exact .inr (.inl ⟨_, exists_step hp hc .claim .claim⟩)
      | filled t => exact .inr (.inl ⟨_, exists_step hp hc .claim .reuse⟩)
      | held k' =>
        refine .inr (.inr ⟨k', ?_, rfl, hin.holder_steps h (h.target_of_held hc ▸ hc)⟩)
        rintro rfl
        have hclaim := (h.held_iff k').mp hc
        obtain ⟨y, hgoes, -⟩ := hk none
        generalize stage k' = x at hgoes hclaim
        cases hgoes
        exact hclaim
    | settleToken token next =>
      obtain ⟨y, hgoes, -⟩ := hk
      refine .inr (.inl (hin.holder_steps h ((h.held_iff k).mpr ?_)))
      generalize stage k = x at hgoes
      cases hgoes <;> trivial

end Workload

/-! ### Two searches on a site with a token -/

namespace Sample

def networkDefinition : Json :=
  .obj [("id", .str "avz"), ("schema", .str "avistaz"),
    ("urls", .arr [.str "https://avz.example/"]),
    ("userInput", .obj [("username", .str "u"), ("password", .str "p"), ("pid", .str "i")])]

def networkSite : Site :=
  match Site.ofDefinition networkDefinition none {} with
  | .ok s => s
  | .error _ => { metadata := { id := "avz" } }

theorem networkSite_ofSchema : networkSite.OfSchema Schema.avistaz := by
  refine ⟨networkDefinition, none, {}, rfl, rfl, ?_⟩
  have h : (Site.ofDefinition networkDefinition none {}).isOk = true := by rfl
  unfold networkSite
  revert h
  cases Site.ofDefinition networkDefinition none {} with
  | ok s => exact fun _ => rfl
  | error e => exact nofun

def networkLoad : Workload Unit Bool where
  site _ := networkSite
  target _ := ()
  operation _ := .search 0 "ubuntu" none

/-- A search on the site asks for the token, and sends a request for it if it
is to get it. -/
theorem networkLoad_begins : ∃ next r next',
    (Operation.search 0 "ubuntu" none).talk networkSite = .claimToken next ∧
      next none = .request r next' :=
  ⟨_, _, _, rfl, rfl⟩

/-- One of the searches is the first to ask for the token. -/
theorem networkLoad_run : ∃ σ σ' r, networkLoad.Run [(true, .claimed none)] σ ∧
    networkLoad.Step σ true (.sent r) σ' := by
  obtain ⟨next, r, next', hclaim, hrequest⟩ := networkLoad_begins
  have hstart : networkLoad.start.position true = .before (.claimToken next) :=
    congrArg Talk.Position.before hclaim
  have hmove : (networkLoad.start.position true).Moves (.claimed none)
      (.before (.request r next')) := by
    rw [hstart, ← hrequest]
    exact .claim
  refine ⟨_, _, r, .step .start (.intro hmove .claim), .intro (p := .waiting next') ?_ .sent⟩
  simp only [Function.update_self]
  exact .request

end Sample

end SiteScrape
