import Mathlib.Data.Finset.Card
import SiteScrape.Proofs.StagedRuns

/-!
# Which requests are throttled

An operation is entitled to a request by the throttle, or by being the one to
get the token of its site: the request for a token goes out past the throttle.
Each entitlement is used up by one request (`Staged.exists_entitled`), so on a
site without a token there are never more requests than passes, and on one with
a token the surplus is at most the number of those chosen to get it.
-/

namespace SiteScrape

open Talk

variable {ι κ : Type}

namespace Effect

def isRequest : Effect → Bool
  | .sent _ => true
  | _ => false

/-- The throttle let a request of the site pass. -/
def isPass (site : String) : Effect → Bool
  | .acquired name => name == site
  | _ => false

/-- An operation was chosen to get the token. -/
def isChoice : Effect → Bool
  | .claimed none => true
  | _ => false

end Effect

/-- The next effect may be a request. -/
def Stage.isEntitled : Stage → Bool
  | .admitted _ | .chosen => true
  | _ => false

/-- Only sites of the network get tokens. -/
theorem Schema.tokenPath?_eq_none {schema : Schema} (h : schema ∈ Schema.builtin)
    (hne : schema ≠ Schema.avistaz) : schema.tokenPath? = none := by
  simp only [Schema.builtin, List.mem_cons, List.not_mem_nil, or_false] at h
  rcases h with rfl | rfl | rfl | rfl | rfl | rfl
  iterate 5 rfl
  exact absurd rfl hne

namespace Workload

variable [DecidableEq ι] [DecidableEq κ] {w : Workload ι κ} {path : ι → Option String}
  {τ : Trace κ} {σ σ' : Situation ι κ} {stage : κ → Stage} {cell : ι → TokenCell κ} {i : ι}
  {k : κ} {schema : ι → Schema}

/-- How many effects of this kind operations on a site have had. -/
def count (w : Workload ι κ) (i : ι) (kind : Effect → Bool) (τ : Trace κ) : Nat :=
  τ.countP fun p => decide (w.target p.1 = i) && kind p.2

omit [DecidableEq κ] in
theorem count_cons (kind : Effect → Bool) (e : Effect) :
    w.count (w.target k) kind ((k, e) :: τ) =
      w.count (w.target k) kind τ + if kind e then 1 else 0 := by
  simp [count, List.countP_cons]

omit [DecidableEq κ] in
theorem count_cons_of_ne (h : w.target k ≠ i) (kind : Effect → Bool) (e : Effect) :
    w.count i kind ((k, e) :: τ) = w.count i kind τ := by
  simp [count, h]

omit [DecidableEq ι] in
/-- The entitled operations of a site, when one of them goes on to a stage. -/
theorem exists_entitled_update {s : Finset κ} {x : Stage}
    (hs : ∀ k', k' ∈ s ↔ w.target k' = i ∧ (stage k').isEntitled = true) (hk : w.target k = i) :
    ∃ s' : Finset κ,
      (∀ k', k' ∈ s' ↔ w.target k' = i ∧ (Function.update stage k x k').isEntitled = true) ∧
      s'.card + (if (stage k).isEntitled then 1 else 0) =
        s.card + if x.isEntitled then 1 else 0 := by
  have hmem : k ∈ s ↔ (stage k).isEntitled = true := (hs k).trans (and_iff_right hk)
  cases hx : x.isEntitled with
  | true =>
    refine ⟨insert k s, fun k' => ?_, ?_⟩
    · by_cases hne : k' = k
      · subst hne; simp [hk, hx]
      · simp [hne, hs]
    · cases hb : (stage k).isEntitled with
      | true => rw [Finset.insert_eq_of_mem (hmem.mpr hb)]
      | false => simp [Finset.card_insert_of_notMem (mt hmem.mp (by simp [hb]))]
  | false =>
    refine ⟨s.erase k, fun k' => ?_, ?_⟩
    · by_cases hne : k' = k
      · subst hne; simp [hx]
      · simp [hne, hs]
    · cases hb : (stage k).isEntitled with
      | true => simpa using Finset.card_erase_add_one (hmem.mpr hb)
      | false => rw [Finset.erase_eq_of_notMem (mt hmem.mp (by simp [hb]))]

namespace Staged

/-- Every request uses up an entitlement. -/
theorem exists_entitled (h : w.Staged path τ stage cell) (i : ι) :
    ∃ s : Finset κ, (∀ k, k ∈ s ↔ w.target k = i ∧ (stage k).isEntitled = true) ∧
      w.count i Effect.isRequest τ + s.card ≤
        w.count i (Effect.isPass (w.site i).id) τ + w.count i Effect.isChoice τ := by
  induction h with
  | start => exact ⟨∅, fun k => by simp [Stage.isEntitled], by simp [count]⟩
  | @step τ stage cell k e x c _ hgoes _ ih =>
    obtain ⟨s, hs, hle⟩ := ih
    by_cases hk : w.target k = i
    · obtain ⟨s', hs', hcard⟩ := exists_entitled_update (x := x) hs hk
      refine ⟨s', hs', ?_⟩
      subst hk
      simp only [count_cons]
      generalize stage k = y at hgoes hcard
      cases hgoes <;>
        simp only [Stage.isEntitled, Effect.isRequest, Effect.isPass, Effect.isChoice,
          Bool.false_eq_true, ↓reduceIte, Workload.siteOf, beq_self_eq_true] at hcard ⊢ <;>
        omega
    · refine ⟨s, fun k' => ?_, by simpa only [count_cons_of_ne hk] using hle⟩
      by_cases hne : k' = k
      · subst hne
        simp [hs, hk]
      · rw [Function.update_of_ne hne, hs]

/-- On a site without a token nobody is chosen to get one. -/
theorem count_isChoice (h : w.Staged path τ stage cell) (hi : path i = none) :
    w.count i Effect.isChoice τ = 0 := by
  induction h with
  | start => rfl
  | @step τ stage cell k e x c _ hgoes _ ih =>
    by_cases hk : w.target k = i
    · subst hk
      rw [count_cons, ih]
      generalize stage k = y at hgoes
      cases hgoes with
      | claim hneeded => rw [hi] at hneeded; cases hneeded
      | _ => rfl
    · rw [count_cons_of_ne hk, ih]

/-- What comes right before a request of the same operation. -/
theorem latest_of_sent (h : w.Staged path τ stage cell) {r : Request} {x : Stage}
    (hgoes : w.Goes path k (stage k) (.sent r) x) :
    latest k τ = some (.acquired (w.siteOf k).id) ∨
      (latest k τ = some (.claimed none) ∧
        (w.siteOf k).loginRequest? (path (w.target k)) = some r) := by
  rcases h.latest_goes k with ⟨-, hfree⟩ | ⟨y, e, he, hbefore⟩
  · rw [hfree] at hgoes; cases hgoes
  · generalize stage k = z at hgoes hbefore
    cases hgoes with
    | send => cases hbefore; exact .inl he
    | signOn hr => cases hbefore; exact .inr ⟨he, hr⟩

end Staged

/-- Requests wait for the throttle, each for a pass of its own, but for those
for a token: a site has at most as many requests as passes and operations that
were chosen to get its token. Nobody is chosen on a site that needs no token;
and an operation sends a request right behind a pass, or right behind its
choice, and then it is the request for the token. -/
theorem throttled_but_for_tokens (hsites : ∀ i, (w.site i).OfSchema (schema i))
    (run : w.Run τ σ) :
    (∀ i, w.count i Effect.isRequest τ ≤
      w.count i (Effect.isPass (w.site i).id) τ + w.count i Effect.isChoice τ) ∧
    (∀ i, schema i ≠ Schema.avistaz →
      w.count i Effect.isRequest τ ≤ w.count i (Effect.isPass (w.site i).id) τ) ∧
    ∀ k r σ', w.Step σ k (.sent r) σ' →
      latest k τ = some (.acquired (w.siteOf k).id) ∨
        (latest k τ = some (.claimed none) ∧
          (w.siteOf k).loginRequest? (schema (w.target k)).tokenPath? = some r) := by
  have hpath : ∀ i, (w.site i).GetsTokensAt (schema i).tokenPath? :=
    fun i => (hsites i).getsTokensAt
  obtain ⟨stage, hstaged, hin⟩ := run.exists_staged hpath
  have hall : ∀ i, w.count i Effect.isRequest τ ≤
      w.count i (Effect.isPass (w.site i).id) τ + w.count i Effect.isChoice τ := by
    intro i
    obtain ⟨s, -, hle⟩ := hstaged.exists_entitled i
    omega
  refine ⟨hall, fun i hi => ?_, fun k r σ' hstep => ?_⟩
  · have hnone := hstaged.count_isChoice (Schema.tokenPath?_eq_none (hsites i).mem hi)
    have := hall i
    omega
  · obtain ⟨x, c, hgoes, -⟩ := hin.goes hstep
    exact hstaged.latest_of_sent hgoes

/-- On a site of the network, before any token. -/
theorem throttled_but_for_tokens_of_two_searches :
    (∀ i, (Sample.networkLoad.site i).OfSchema Schema.avistaz) ∧ ∃ σ σ' r,
      Sample.networkLoad.Run [(true, .claimed none)] σ ∧
      Sample.networkLoad.Step σ true (.sent r) σ' ∧
      Sample.networkSite.loginRequest? Schema.avistaz.tokenPath? = some r := by
  obtain ⟨σ, σ', r, hrun, hstep⟩ := Sample.networkLoad_run
  have hsites : ∀ i, (Sample.networkLoad.site i).OfSchema Schema.avistaz :=
    fun _ => Sample.networkSite_ofSchema
  refine ⟨hsites, σ, σ', r, hrun, hstep, ?_⟩
  rcases (throttled_but_for_tokens hsites hrun).2.2 true r σ' hstep with h | ⟨-, h⟩
  · cases h
  · exact h

/-- The first request for a token goes out without any pass of the throttle. -/
theorem unthrottled_token_request :
    (∀ i, (Sample.networkLoad.site i).OfSchema Schema.avistaz) ∧ ∃ τ σ,
      Sample.networkLoad.Run τ σ ∧
      Sample.networkLoad.count () (Effect.isPass Sample.networkSite.id) τ <
        Sample.networkLoad.count () Effect.isRequest τ := by
  obtain ⟨σ, σ', r, hrun, hstep⟩ := Sample.networkLoad_run
  exact ⟨fun _ => Sample.networkSite_ofSchema, _, σ', .step hrun hstep, Nat.zero_lt_one⟩

end Workload

end SiteScrape
