import SiteScrape.Proofs.StagedRuns

/-!
# The token of a site

Operations of a site share one token. The notions of this file are about the
trace of a run alone: a token request is under way (`SigningOn`), has been
answered (`SignedOn`), and with that the site has its token (`Granted`) or the
operation has failed (`Rebuffed`). On a run in stages they say where operations
and cells are, and from there follows what an operation may do next
(`token_protocol`).
-/

namespace SiteScrape

open Talk

variable {ι κ : Type}

/-- All sites of the network get their tokens at the same path. -/
abbrev Schema.Avistaz.paths : ι → Option String := fun _ => some tokenPath

namespace Workload

variable [DecidableEq ι] [DecidableEq κ] {w : Workload ι κ} {path : ι → Option String}
  {τ : Trace κ} {σ σ' : Situation ι κ} {stage : κ → Stage} {cell : ι → TokenCell κ} {i : ι}
  {k k' : κ} {e : Effect} {t : String}

/-- The request for the token of a site. -/
def loginRequest? (w : Workload ι κ) (path : ι → Option String) (i : ι) : Option Request :=
  (w.site i).loginRequest? (path i)

/-- A token request of the operation is under way. -/
def SigningOn (w : Workload ι κ) (path : ι → Option String) (τ : Trace κ) (k : κ) : Prop :=
  ∃ r, latest k τ = some (.sent r) ∧ w.loginRequest? path (w.target k) = some r

/-- A token request of the operation was answered. -/
def SignedOn (w : Workload ι κ) (path : ι → Option String) (k : κ)
    (answer : Except TransportError Response) : Trace κ → Prop
  | [] => False
  | (k', e) :: τ => w.SignedOn path k answer τ ∨
      (k' = k ∧ e = .answered answer ∧ w.SigningOn path τ k)

/-- The answer to a token request brought the site its token. -/
def Granted (w : Workload ι κ) (path : ι → Option String) (τ : Trace κ) (i : ι) (t : String) :
    Prop :=
  ∃ k answer, w.target k = i ∧ w.SignedOn path k answer τ ∧
    Credentials.tokenOf answer = some t

/-- The answer to a token request of the operation brought no token. -/
def Rebuffed (w : Workload ι κ) (path : ι → Option String) (τ : Trace κ) (k : κ) : Prop :=
  ∃ answer, w.SignedOn path k answer τ ∧ Credentials.tokenOf answer = none

/-- The operation may send `r` for a token: none of the site is asked for or
has been granted, and the operation has sent nothing before. -/
structure MaySignOn (w : Workload ι κ) (path : ι → Option String) (τ : Trace κ) (k : κ)
    (r : Request) : Prop where
  asksForToken : w.loginRequest? path (w.target k) = some r
  alone : ∀ k', w.target k' = w.target k → ¬w.SigningOn path τ k'
  ungranted : ∀ t, ¬w.Granted path τ (w.target k) t
  first : ∀ r', (k, .sent r') ∉ τ

/-- The request `r` of the operation bears the token of its site, the only one
that was granted to it. -/
structure BearsToken (w : Workload ι κ) (path : ι → Option String) (τ : Trace κ) (k : κ)
    (r : Request) (t : String) : Prop where
  granted : w.Granted path τ (w.target k) t
  only : ∀ t', w.Granted path τ (w.target k) t' → t' = t
  header : r.headers.get? "Authorization" = some ("Bearer " ++ t)
  asksForNoToken : w.loginRequest? path (w.target k) ≠ some r

omit [DecidableEq ι] in
/-- Where a token was granted there is a request for it. -/
theorem SignedOn.exists_loginRequest {answer : Except TransportError Response}
    (h : w.SignedOn path k answer τ) : ∃ r, w.loginRequest? path (w.target k) = some r := by
  induction τ with
  | nil => exact h.elim
  | cons head τ ih =>
    rcases h with h | ⟨rfl, -, r, -, hr⟩
    · exact ih h
    · exact ⟨r, hr⟩

/-! ### What the trace says of stages and cells -/

namespace Staged

/-- A token request is not mistaken for one that bears a token. -/
theorem signingOn_iff (h : w.Staged path τ stage cell) :
    w.SigningOn path τ k ↔ stage k = .signingOn := by
  constructor
  · rintro ⟨r, hlatest, hr⟩
    rcases h.latest_goes k with ⟨hnone, -⟩ | ⟨x, e, he, hgoes⟩
    · rw [hnone] at hlatest; cases hlatest
    rw [he] at hlatest
    cases hlatest
    generalize hy : stage k = y at hgoes
    cases hgoes with
    | signOn => rfl
    | send hbears =>
      obtain ⟨p, hp, hr⟩ := Option.bind_eq_some_iff.mp hr
      obtain ⟨t, -, hheader⟩ := hbears (by rw [hp]; rfl)
      rw [Credentials.headers_of_loginRequest? hr] at hheader
      cases hheader
  · intro hstage
    rcases h.latest_goes k with ⟨-, hfree⟩ | ⟨x, e, he, hgoes⟩
    · rw [hstage] at hfree; cases hfree
    rw [hstage] at hgoes
    cases hgoes with
    | signOn hr => exact ⟨_, he, hr⟩

theorem chosen_of_latest (h : w.Staged path τ stage cell)
    (hlatest : latest k τ = some (.claimed none)) : stage k = .chosen := by
  rcases h.latest_goes k with ⟨hnone, -⟩ | ⟨x, e, he, hgoes⟩
  · rw [hnone] at hlatest; cases hlatest
  rw [he] at hlatest
  cases hlatest
  generalize stage k = y at hgoes
  cases hgoes
  rfl

/-- Whoever is about to hand over a token was answered it. -/
theorem granted_of_signedOn (h : w.Staged path τ stage cell) (hk : stage k = .signedOn (some t)) :
    w.Granted path τ (w.target k) t := by
  induction h with
  | start => cases hk
  | @step τ stage cell k' e x c hprior hgoes _ ih =>
    by_cases hne : k = k'
    · subst hne
      rw [Function.update_self] at hk
      generalize hx : stage k = from' at hgoes
      cases hgoes with
      | @receive answer =>
        exact ⟨k, answer, rfl, .inr ⟨rfl, rfl, hprior.signingOn_iff.mpr hx⟩,
          Stage.signedOn.inj hk⟩
      | _ => cases hk
    · rw [Function.update_of_ne hne] at hk
      obtain ⟨k₀, answer, hk₀, hsigned, ht⟩ := ih hk
      exact ⟨k₀, answer, hk₀, .inl hsigned, ht⟩

/-- A token that a site has was granted to it. -/
theorem granted_of_filled (h : w.Staged path τ stage cell) (hi : cell i = .filled t) :
    w.Granted path τ i t := by
  induction h with
  | start => cases hi
  | @step τ stage cell k e x c hprior hgoes hallows ih =>
    suffices w.Granted path τ i t by
      obtain ⟨k₀, answer, hk₀, hsigned, ht⟩ := this
      exact ⟨k₀, answer, hk₀, .inl hsigned, ht⟩
    by_cases hne : i = w.target k
    · subst hne
      rw [Function.update_self] at hi
      generalize hc : cell (w.target k) = before at hallows
      cases hallows with
      | acquired | sent | answered | reuse => exact ih (hc.trans hi)
      | claim | giveUp => cases hi
      | fill =>
        cases hi
        generalize hx : stage k = from' at hgoes
        cases hgoes
        exact hprior.granted_of_signedOn hx
    · rw [Function.update_of_ne hne] at hi
      exact ih hi

/-- A token that was granted has reached the cell, or is about to. -/
theorem filled_or_signedOn (h : w.Staged path τ stage cell) (hgranted : w.Granted path τ i t) :
    cell i = .filled t ∨ ∃ k, w.target k = i ∧ stage k = .signedOn (some t) := by
  induction h with
  | start => obtain ⟨_, _, _, hsigned, _⟩ := hgranted; exact hsigned.elim
  | @step τ stage cell k e x c hprior hgoes hallows ih =>
    obtain ⟨k₀, answer, hk₀, hsigned | ⟨rfl, rfl, hsigning⟩, ht⟩ := hgranted
    · rcases ih ⟨k₀, answer, hk₀, hsigned, ht⟩ with hi | ⟨k₁, hk₁, hx⟩
      · exact .inl (filled_update hallows hi)
      · by_cases hne : k₁ = k
        · subst hne
          rw [hx] at hgoes
          cases hgoes
          exact .inl (by rw [hk₁, Function.update_self, hallows.eq_filled])
        · exact .inr ⟨k₁, hk₁, by rw [Function.update_of_ne hne, hx]⟩
    · rw [hprior.signingOn_iff.mp hsigning] at hgoes
      cases hgoes
      exact .inr ⟨_, hk₀, by rw [Function.update_self, ht]⟩

/-- While the claim to a token is held, only its holder can have been granted
one. -/
theorem signedOn_of_granted (h : w.Staged path τ stage cell) (hk : (stage k).HasClaim)
    (hgranted : w.Granted path τ (w.target k) t) : stage k = .signedOn (some t) := by
  rcases h.filled_or_signedOn hgranted with hi | ⟨k', hk', hx⟩
  · rw [(h.held_iff k).mpr hk] at hi; cases hi
  · rwa [h.claim_unique hk (by rw [hx]; trivial) hk'] at hx

/-- A site is granted one token. -/
theorem granted_unique (h : w.Staged path τ stage cell) {t' : String}
    (hgranted : w.Granted path τ i t) (hgranted' : w.Granted path τ i t') : t' = t := by
  rcases h.filled_or_signedOn hgranted with hi | ⟨k, rfl, hx⟩
  · rcases h.filled_or_signedOn hgranted' with hi' | ⟨k, rfl, hx⟩
    · rw [hi] at hi'; exact (TokenCell.filled.inj hi').symm
    · rw [(h.held_iff k).mpr (by rw [hx]; trivial)] at hi; cases hi
  · have hx' := h.signedOn_of_granted (by rw [hx]; trivial) hgranted'
    rw [hx] at hx'
    exact (Option.some.inj (Stage.signedOn.inj hx')).symm

/-- An operation whose token request failed is at its end. -/
theorem stage_of_rebuffed (h : w.Staged path τ stage cell) (hk : w.Rebuffed path τ k) :
    stage k = .signedOn none ∨ stage k = .turnedAway := by
  induction h with
  | start => obtain ⟨_, hsigned, _⟩ := hk; exact hsigned.elim
  | @step τ stage cell k' e x c hprior hgoes _ ih =>
    obtain ⟨answer, hsigned | ⟨rfl, rfl, hsigning⟩, hnone⟩ := hk
    · have hx := ih ⟨answer, hsigned, hnone⟩
      by_cases hne : k = k'
      · subst hne
        rw [Function.update_self]
        rcases hx with hx | hx <;> rw [hx] at hgoes <;> cases hgoes
        exact .inr rfl
      · rwa [Function.update_of_ne hne]
    · rw [hprior.signingOn_iff.mp hsigning] at hgoes
      cases hgoes
      exact .inl (by rw [Function.update_self, hnone])

/-- An operation that has sent something has the token of its site, or has
been to get it. -/
theorem stage_of_sent (h : w.Staged path τ stage cell) (hpath : (path (w.target k)).isSome)
    {r : Request} (hk : (k, .sent r) ∈ τ) :
    (∃ t, cell (w.target k) = .filled t) ∨ stage k = .signingOn ∨
      (∃ token, stage k = .signedOn token) ∨ stage k = .turnedAway := by
  induction h with
  | start => cases hk
  | @step τ stage cell k' e x c hprior hgoes hallows ih =>
    rcases List.mem_cons.mp hk with heq | hk
    · cases heq
      simp only [Function.update_self]
      generalize hx : stage k = from' at hgoes
      cases hgoes with
      | send hbears =>
        obtain ⟨t, rfl, -⟩ := hbears hpath
        exact .inl ⟨t, hallows.filled (hprior.token_eq (by rw [hx]; rfl))⟩
      | signOn => exact .inr (.inl rfl)
    · rcases ih hk with ⟨t, hi⟩ | hx
      · exact .inl ⟨t, filled_update hallows hi⟩
      by_cases hne : k = k'
      · subst hne
        simp only [Function.update_self]
        rcases hx with hx | ⟨token, hx⟩ | hx <;> rw [hx] at hgoes <;> cases hgoes
        · exact .inr (.inr (.inl ⟨_, rfl⟩))
        · exact .inl ⟨_, hallows.eq_filled⟩
        · exact .inr (.inr (.inr rfl))
      · rw [Function.update_of_ne hne]
        exact .inr hx

/-- A request is either the first one for the token of the site, or it bears
the token. -/
theorem sent_cases (h : w.Staged path τ stage cell) (hpath : (path (w.target k)).isSome)
    {r : Request} {x : Stage} (hgoes : w.Goes path k (stage k) (.sent r) x) :
    w.MaySignOn path τ k r ∨ ∃ t, w.BearsToken path τ k r t := by
  generalize hx : stage k = y at hgoes
  cases hgoes with
  | signOn hr =>
    have hclaim : (stage k).HasClaim := by rw [hx]; trivial
    refine .inl ⟨hr, fun k' hk' hsigning => ?_, fun t hgranted => ?_, fun r' hsent => ?_⟩
    · have hx' := h.signingOn_iff.mp hsigning
      have hk : k' = k := h.claim_unique hclaim (by rw [hx']; trivial) hk'
      rw [hk, hx] at hx'
      cases hx'
    · have hx' := h.signedOn_of_granted hclaim hgranted
      rw [hx] at hx'
      cases hx'
    · rcases h.stage_of_sent hpath hsent with ⟨t, hi⟩ | hx' | ⟨token, hx'⟩ | hx'
      · rw [(h.held_iff k).mpr hclaim] at hi; cases hi
      all_goals rw [hx] at hx'; cases hx'
  | send hbears =>
    obtain ⟨t, rfl, hheader⟩ := hbears hpath
    have hgranted := h.granted_of_filled (h.token_eq (k := k) (t := t) (by rw [hx]; rfl))
    refine .inr ⟨t, hgranted, fun t' ht' => h.granted_unique hgranted ht', hheader, fun hr => ?_⟩
    obtain ⟨p, -, hr⟩ := Option.bind_eq_some_iff.mp hr
    rw [Credentials.headers_of_loginRequest? hr] at hheader
    cases hheader

/-- The token is given to those who ask if and only if it was granted. -/
theorem claimed_iff (h : w.Staged path τ stage cell) {token : Option String} {c : TokenCell κ}
    (hallows : (cell (w.target k)).Allows k (.claimed token) c) :
    token = some t ↔ w.Granted path τ (w.target k) t := by
  generalize hc : cell (w.target k) = before at hallows
  cases hallows with
  | @reuse t' =>
    refine ⟨fun ht => h.granted_of_filled (hc.trans (by rw [Option.some.inj ht])), fun ht => ?_⟩
    rw [h.granted_unique ht (h.granted_of_filled hc)]
  | claim =>
    refine ⟨nofun, fun hgranted => ?_⟩
    rcases h.filled_or_signedOn hgranted with hi | ⟨k', hk', hx⟩
    · rw [hc] at hi; cases hi
    · rw [← hk', (h.held_iff k').mpr (by rw [hx]; trivial)] at hc
      cases hc

end Staged

end Workload

end SiteScrape
