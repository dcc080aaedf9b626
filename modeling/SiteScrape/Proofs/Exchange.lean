import SiteScrape.Proofs.Conversation
import SiteScrape.Schema.Builtin

/-!
# What comes of a request

A request of a site goes through the authorizer, is read into its parts, waits
for the throttle and reaches the transport; each of these can be the end of it.
`Upshot` names the ends, `Site.Sends` says after which events each of them is
reached, and `send_held_iff` that sending does just that. The built-in
authorizers fail in few ways only (`Builtin.failsWith`).
-/

namespace SiteScrape

open Talk

/-- What comes of a request. -/
inductive Upshot where
  /-- The authorizer failed. -/
  | refused (e : SiteError)
  /-- What was to be sent does not have the form of a request. -/
  | malformed (e : TransportError)
  /-- The transport failed. -/
  | unanswered (e : TransportError)
  | answered (x : Exchange)

/-- What an upshot means for the sender. -/
def Upshot.outcome (s : Site) : Upshot → Except SiteError Exchange
  | .refused e => .error e
  | .malformed e => .error (.transport e)
  | .unanswered e => .error (.transport e)
  | .answered x => (s.judge x.response).map fun _ => x

namespace Site

variable {s : Site} {request : Json} {es : List Event}

/-- A request goes by with these events, and this comes of it. -/
inductive Sends (s : Site) (request : Json) : List Event → Upshot → Prop where
  | refused {es : List Event} {e : SiteError} :
      (s.authorize (s.addBase request)).run.Held es (.error e) → Sends s request es (.refused e)
  | malformed {es : List Event} {full : Json} {e : TransportError} :
      (s.authorize (s.addBase request)).run.Held es (.ok full) →
      Request.ofJson full = .error e → Sends s request es (.malformed e)
  | unanswered {es : List Event} {full : Json} {r : Request} {e : TransportError} :
      (s.authorize (s.addBase request)).run.Held es (.ok full) →
      Request.ofJson full = .ok r →
      Sends s request (es ++ [.acquired s.id, .exchanged r (.error e)]) (.unanswered e)
  | answered {es : List Event} {full : Json} {r : Request} {response : Response} :
      (s.authorize (s.addBase request)).run.Held es (.ok full) →
      Request.ofJson full = .ok r →
      Sends s request (es ++ [.acquired s.id, .exchanged r (.ok response)])
        (.answered ⟨full, r.responseKind, response⟩)

/-- Whatever the authorizer sends, the site itself sends at most one request. -/
theorem Sends.request_le_one {u : Upshot} (h : s.Sends request es u) :
    ∃ credentials own outcome, es = credentials ++ own ∧
      (s.authorize (s.addBase request)).run.Held credentials outcome ∧
      (own.filter Event.isRequest).length ≤ 1 := by
  cases h with
  | refused h => exact ⟨es, [], _, by simp, h, by simp⟩
  | malformed h _ => exact ⟨es, [], _, by simp, h, by simp⟩
  | unanswered h _ => exact ⟨_, _, _, rfl, h, by simp [List.filter, Event.isRequest]⟩
  | answered h _ => exact ⟨_, _, _, rfl, h, by simp [List.filter, Event.isRequest]⟩

/-- A request that reaches the transport waits for the throttle first. -/
theorem ask_held_iff {r : Request} {outcome : Except SiteError Response} :
    (s.ask r).run.Held es outcome ↔
      ∃ answer, es = [.acquired s.id, .exchanged r answer] ∧
        outcome = answer.mapError .transport := by
  unfold ask
  rw [ExceptT.run_bind_lift, held_bind_iff]
  constructor
  · rintro ⟨es₁, es₂, _, rfl, h₁, h₂⟩
    obtain ⟨answer, ha, rfl⟩ := held_map_iff.mp h₂
    rw [held_wait_iff.mp h₁, held_ask_iff.mp ha]
    exact ⟨answer, rfl, rfl⟩
  · rintro ⟨answer, rfl, rfl⟩
    exact ⟨[.acquired s.id], _, (), rfl, held_wait_iff.mpr rfl,
      held_map_iff.mpr ⟨answer, held_ask_iff.mpr rfl, rfl⟩⟩

/-- What an answer of the transport makes of a request. -/
def Upshot.ofAnswer (full : Json) (r : Request) : Except TransportError Response → Upshot
  | .ok response => .answered ⟨full, r.responseKind, response⟩
  | .error e => .unanswered e

/-- A response is judged without a further effect. -/
theorem judged_held_iff {x : Exchange} {outcome : Except SiteError Exchange} :
    (ExceptT.mk (pure (s.judge x.response)) >>= fun _ =>
      (pure x : ExceptT SiteError Talk Exchange)).run.Held es outcome ↔
        es = [] ∧ outcome = (Upshot.answered x).outcome s := by
  show _ ↔ es = [] ∧ outcome = (s.judge x.response).map fun _ => x
  cases s.judge x.response <;> exact held_pure_iff

theorem deliver_held_iff {full : Json} {outcome : Except SiteError Exchange} :
    (s.deliver full).run.Held es outcome ↔
      (∃ e, Request.ofJson full = .error e ∧ es = [] ∧ outcome = .error (.transport e)) ∨
      ∃ r answer, Request.ofJson full = .ok r ∧ es = [.acquired s.id, .exchanged r answer] ∧
        outcome = (Upshot.ofAnswer full r answer).outcome s := by
  unfold deliver
  cases hr : Request.ofJson full with
  | error e =>
    refine held_pure_iff.trans ⟨fun ⟨h, h'⟩ => .inl ⟨e, rfl, h, h'⟩, ?_⟩
    rintro (⟨_, he, h, h'⟩ | ⟨_, _, he, _⟩)
    · cases he; exact ⟨h, h'⟩
    · cases he
  | ok r =>
    show (s.ask r >>= _).run.Held es outcome ↔ _
    rw [held_run_bind_iff]
    constructor
    · rintro (⟨e, h, rfl⟩ | ⟨es₁, es₂, response, rfl, h₁, h₂⟩)
      · obtain ⟨e' | _, rfl, ha⟩ := ask_held_iff.mp h <;> cases ha
        exact .inr ⟨r, .error e', rfl, rfl, rfl⟩
      · obtain ⟨_ | response, rfl, ha⟩ := ask_held_iff.mp h₁ <;> cases ha
        obtain ⟨rfl, rfl⟩ := (judged_held_iff (x := ⟨full, r.responseKind, response⟩)).mp h₂
        exact .inr ⟨r, .ok response, rfl, rfl, rfl⟩
    · rintro (⟨_, he, _⟩ | ⟨_, e | response, hr', rfl, rfl⟩)
      · cases he
      · cases hr'
        exact .inl ⟨_, ask_held_iff.mpr ⟨.error e, rfl, rfl⟩, rfl⟩
      · cases hr'
        exact .inr ⟨_, [], response, rfl, ask_held_iff.mpr ⟨.ok response, rfl, rfl⟩,
          judged_held_iff.mpr ⟨rfl, rfl⟩⟩

theorem send_held_iff {outcome : Except SiteError Exchange} :
    (s.send request).run.Held es outcome ↔
      ∃ u, s.Sends request es u ∧ outcome = u.outcome s := by
  unfold send
  rw [held_run_bind_iff]
  constructor
  · rintro (⟨e, h, rfl⟩ | ⟨es₁, es₂, full, rfl, h₁, h⟩)
    · exact ⟨_, .refused h, rfl⟩
    rcases deliver_held_iff.mp h with ⟨e, hr, rfl, ho⟩ | ⟨r, e | response, hr, rfl, ho⟩
    · exact ⟨_, .malformed (by simpa using h₁) hr, ho⟩
    · exact ⟨_, .unanswered h₁ hr, ho⟩
    · exact ⟨_, .answered h₁ hr, ho⟩
  · rintro ⟨u, hu, rfl⟩
    cases hu with
    | refused h => exact .inl ⟨_, h, rfl⟩
    | malformed h hr =>
      exact .inr ⟨es, [], _, by simp, h, deliver_held_iff.mpr (.inl ⟨_, hr, rfl, rfl⟩)⟩
    | unanswered h hr =>
      exact .inr ⟨_, _, _, rfl, h, deliver_held_iff.mpr (.inr ⟨_, .error _, hr, rfl, rfl⟩)⟩
    | answered h hr =>
      exact .inr ⟨_, _, _, rfl, h, deliver_held_iff.mpr (.inr ⟨_, .ok _, hr, rfl, rfl⟩)⟩

end Site

namespace Credentials

/-- The authorizers that schemas have. -/
inductive Builtin : Authorizer → Prop where
  | apiKey (input : String) : Builtin (apiKey input)
  | bearerToken (path : String) : Builtin (bearerToken path)

theorem builtin_of_schema {schema : Schema} (h : schema ∈ Schema.builtin) {a : Authorizer}
    (ha : schema.hooks.authorizer = some a) : Builtin a := by
  simp only [Schema.builtin, List.mem_cons, List.not_mem_nil, or_false] at h
  rcases h with rfl | rfl | rfl | rfl | rfl | rfl <;> cases ha
  · exact .apiKey _
  · exact .bearerToken _

/-- How a built-in authorizer can fail: no credentials, no transport, or an
answer that holds no token. -/
def Failure (e : SiteError) : Prop :=
  e = .needLogin ∨ (∃ t, e = .transport t) ∨ e = .unreadable .token

theorem tokenIn_failure {r : Response} {e : SiteError} (h : tokenIn r = .error e) : Failure e := by
  unfold tokenIn at h
  split at h
  · cases h; exact .inl rfl
  · split at h
    · cases h; exact .inr (.inr rfl)
    · split at h <;> cases h
      exact .inl rfl

theorem fetchToken_failsWith (path : String) (m : Metadata) :
    FailsWith Failure (fetchToken path m) := by
  unfold fetchToken
  split
  · refine .bind (failsWith_of_result fun e h => ?_) fun r => ?_
    · cases hr : Request.ofJson (tokenRequest path m _ _ _) <;> rw [hr] at h <;> cases h
      exact .inr (.inl ⟨_, rfl⟩)
    · refine .bind ?_ fun response => failsWith_of_result fun e => tokenIn_failure
      intro es e h
      obtain ⟨_ | _, -, he⟩ := held_map_iff.mp h <;> cases he
      exact .inr (.inl ⟨_, rfl⟩)
  · exact failsWith_throw (.inl rfl)

theorem token_failsWith (path : String) (m : Metadata) : FailsWith Failure (token path m) := by
  unfold token
  refine .bind (failsWith_lift _) fun
    | some token => failsWith_pure token
    | none => ?_
  intro es e h
  rw [ExceptT.run_bind_lift, held_bind_iff] at h
  obtain ⟨es₁, es₂, outcome, rfl, h₁, h⟩ := h
  rw [ExceptT.run_bind_lift, held_bind_iff] at h
  obtain ⟨_, es₃, _, rfl, _, h⟩ := h
  obtain ⟨-, rfl⟩ := held_pure_iff.mp h
  exact fetchToken_failsWith path m es₁ e h₁

theorem Builtin.failsWith {a : Authorizer} (h : Builtin a) (m : Metadata) (request : Json) :
    FailsWith Failure (a m request) := by
  cases h with
  | apiKey input =>
    unfold Credentials.apiKey
    split <;> exact failsWith_pure _
  | bearerToken path => exact .bind (token_failsWith path m) fun _ => failsWith_pure _

end Credentials

end SiteScrape
