import SiteScrape.Site.Talk

/-!
# Held conversations

`t.Held es a`: the conversation `t` ends with `a` when its effects, with what
the outside answers to them, are `es`. A list of events is one way for the
outside to behave, so a statement about all of them covers every transport and
whatever other operations do to the token meanwhile. `held_bind_iff` takes a
conversation apart where it was put together, `exists_held` says that with any
outside it comes to an end, and `Held.split` that its events show where it
ended.
-/

namespace SiteScrape.Talk

variable {α β σ ε : Type}

/-- An effect of a conversation, with what the outside answers to it. -/
inductive Event where
  | acquired (site : String)
  | exchanged (r : Request) (answer : Except TransportError Response)
  | claimed (token : Option String)
  | settled (token : Option String)

/-- A request goes out. -/
def Event.isRequest : Event → Bool
  | .exchanged .. => true
  | _ => false

/-- The conversation ends with a value after these events. -/
inductive Held {α : Type} : Talk α → List Event → α → Prop where
  | done (a : α) : Held (.done a) [] a
  | acquire {site : String} {next : Talk α} {es : List Event} {a : α} :
      Held next es a → Held (.acquire site next) (.acquired site :: es) a
  | request {r : Request} {next : Except TransportError Response → Talk α}
      {answer : Except TransportError Response} {es : List Event} {a : α} :
      Held (next answer) es a → Held (.request r next) (.exchanged r answer :: es) a
  | claim {next : Option String → Talk α} {token : Option String} {es : List Event} {a : α} :
      Held (next token) es a → Held (.claimToken next) (.claimed token :: es) a
  | settle {token : Option String} {next : Talk α} {es : List Event} {a : α} :
      Held next es a → Held (.settleToken token next) (.settled token :: es) a

/-- With any outside, a conversation comes to its end. -/
theorem exists_held (world : Outside σ) (t : Talk α) (token : Option String) (s : σ) :
    ∃ es, t.Held es (t.run world token s).1 := by
  induction t generalizing token s with
  | done a => exact ⟨[], .done a⟩
  | acquire site next ih =>
    obtain ⟨es, h⟩ := ih token (world.acquire site s)
    exact ⟨_, h.acquire⟩
  | request r next ih =>
    obtain ⟨es, h⟩ := ih (world.exchange r s).1 token (world.exchange r s).2
    exact ⟨_, h.request⟩
  | claimToken next ih =>
    obtain ⟨es, h⟩ := ih token token s
    exact ⟨_, h.claim⟩
  | settleToken got next ih =>
    obtain ⟨es, h⟩ := ih (got.or token) s
    exact ⟨_, h.settle⟩

/-- Two ways to hold a conversation that go on alike end alike, at the same
place. -/
theorem Held.split {t : Talk α} {es es' rest rest' : List Event} {a b : α} (h : t.Held es a)
    (h' : t.Held es' b) (he : es ++ rest = es' ++ rest') : es = es' ∧ a = b := by
  induction h generalizing es' with
  | done a => cases h'; exact ⟨rfl, rfl⟩
  | acquire _ ih | settle _ ih =>
    cases h' with | _ h' =>
    obtain ⟨rfl, rfl⟩ := ih h' (List.cons.inj he).2
    exact ⟨rfl, rfl⟩
  | request _ ih | claim _ ih =>
    cases h' with | _ h' =>
    obtain ⟨hhead, htail⟩ := List.cons.inj he
    cases hhead
    obtain ⟨rfl, rfl⟩ := ih h' htail
    exact ⟨rfl, rfl⟩

/-- The events determine the end. -/
theorem Held.unique {t : Talk α} {es : List Event} {a b : α} (h : t.Held es a)
    (h' : t.Held es b) : a = b :=
  (h.split h' (rfl : es ++ [] = es ++ [])).2

/-! ### Putting conversations together -/

theorem bind_done (t : Talk α) : t.bind .done = t := by
  induction t with
  | done a => rfl
  | acquire site next ih | settleToken got next ih => rw [bind, ih]
  | request r next ih | claimToken next ih => rw [bind, funext ih]

theorem bind_bind {γ : Type} (t : Talk α) (f : α → Talk β) (g : β → Talk γ) :
    (t.bind f).bind g = t.bind fun a => (f a).bind g := by
  induction t with
  | done a => rfl
  | acquire site next ih | settleToken got next ih => simp only [bind, ih]
  | request r next ih | claimToken next ih => simp only [bind, ih]

instance : LawfulMonad Talk := .mk' Talk bind_done (fun _ _ => rfl) bind_bind

@[simp] theorem held_pure_iff {a b : α} {es : List Event} :
    (pure a : Talk α).Held es b ↔ es = [] ∧ b = a := by
  refine ⟨fun h => ?_, ?_⟩
  · cases h; exact ⟨rfl, rfl⟩
  · rintro ⟨rfl, rfl⟩; exact .done b

theorem Held.bind {t : Talk α} {f : α → Talk β} {es es' : List Event} {a : α} {b : β}
    (h : t.Held es a) (h' : (f a).Held es' b) : (t >>= f).Held (es ++ es') b := by
  induction h with
  | done => exact h'
  | acquire _ ih => exact (ih h').acquire
  | request _ ih => exact (ih h').request
  | claim _ ih => exact (ih h').claim
  | settle _ ih => exact (ih h').settle

/-- A conversation in two parts is held part by part. -/
theorem held_bind_iff {t : Talk α} {f : α → Talk β} {es : List Event} {b : β} :
    (t >>= f).Held es b ↔ ∃ es₁ es₂ a, es = es₁ ++ es₂ ∧ t.Held es₁ a ∧ (f a).Held es₂ b := by
  refine ⟨fun h => ?_, ?_⟩
  · induction t generalizing es with
    | done a => exact ⟨[], es, a, rfl, .done a, h⟩
    | acquire site next ih | settleToken got next ih =>
      cases h with | _ h =>
      obtain ⟨es₁, es₂, a, rfl, h₁, h₂⟩ := ih h
      exact ⟨_ :: es₁, es₂, a, rfl, by constructor; exact h₁, h₂⟩
    | request r next ih | claimToken next ih =>
      cases h with | _ h =>
      obtain ⟨es₁, es₂, a, rfl, h₁, h₂⟩ := ih _ h
      exact ⟨_ :: es₁, es₂, a, rfl, by constructor; exact h₁, h₂⟩
  · rintro ⟨es₁, es₂, a, rfl, h₁, h₂⟩
    exact h₁.bind h₂

theorem held_map_iff {t : Talk α} {f : α → β} {es : List Event} {b : β} :
    (f <$> t).Held es b ↔ ∃ a, t.Held es a ∧ b = f a := by
  rw [← bind_pure_comp, held_bind_iff]
  constructor
  · rintro ⟨es₁, es₂, a, rfl, h, h'⟩
    obtain ⟨rfl, rfl⟩ := held_pure_iff.mp h'
    exact ⟨a, by simpa using h, rfl⟩
  · rintro ⟨a, h, rfl⟩
    exact ⟨es, [], a, by simp, h, held_pure_iff.mpr ⟨rfl, rfl⟩⟩

/-- A conversation that can fail goes on only behind a success. -/
theorem held_run_bind_iff {t : ExceptT ε Talk α} {f : α → ExceptT ε Talk β} {es : List Event}
    {r : Except ε β} :
    (t >>= f).run.Held es r ↔
      (∃ e, t.run.Held es (.error e) ∧ r = .error e) ∨
      ∃ es₁ es₂ a, es = es₁ ++ es₂ ∧ t.run.Held es₁ (.ok a) ∧ (f a).run.Held es₂ r := by
  rw [ExceptT.run_bind, held_bind_iff]
  constructor
  · rintro ⟨es₁, es₂, (e | a), rfl, h₁, h₂⟩
    · obtain ⟨rfl, rfl⟩ := held_pure_iff.mp h₂
      exact .inl ⟨e, by simpa using h₁, rfl⟩
    · exact .inr ⟨es₁, es₂, a, rfl, h₁, h₂⟩
  · rintro (⟨e, h, rfl⟩ | ⟨es₁, es₂, a, rfl, h₁, h₂⟩)
    · exact ⟨es, [], .error e, by simp, h, held_pure_iff.mpr ⟨rfl, rfl⟩⟩
    · exact ⟨es₁, es₂, .ok a, rfl, h₁, h₂⟩

@[simp] theorem held_wait_iff {site : String} {es : List Event} {u : Unit} :
    (wait site).Held es u ↔ es = [.acquired site] := by
  refine ⟨fun h => ?_, ?_⟩
  · cases h with | _ h => cases h; rfl
  · rintro rfl; exact .acquire (.done ())

@[simp] theorem held_ask_iff {r : Request} {es : List Event}
    {answer : Except TransportError Response} :
    (ask r).Held es answer ↔ es = [.exchanged r answer] := by
  refine ⟨fun h => ?_, ?_⟩
  · cases h with | _ h => cases h; rfl
  · rintro rfl; exact .request (.done answer)

@[simp] theorem held_claim_iff {es : List Event} {token : Option String} :
    claim.Held es token ↔ es = [.claimed token] := by
  refine ⟨fun h => ?_, ?_⟩
  · cases h with | _ h => cases h; rfl
  · rintro rfl; exact .claim (.done token)

@[simp] theorem held_settle_iff {es : List Event} {token : Option String} {u : Unit} :
    (settle token).Held es u ↔ es = [.settled token] := by
  refine ⟨fun h => ?_, ?_⟩
  · cases h with | _ h => cases h; rfl
  · rintro rfl; exact .settle (.done ())

/-! ### How conversations fail -/

/-- Whenever the conversation fails, `P` holds of the error. -/
def FailsWith (P : ε → Prop) (t : ExceptT ε Talk α) : Prop :=
  ∀ es e, t.run.Held es (.error e) → P e

variable {P : ε → Prop}

theorem failsWith_of_result {r : Except ε α} (h : ∀ e, r = .error e → P e) :
    FailsWith P (ExceptT.mk (pure r)) := by
  intro es e he
  exact h e (held_pure_iff.mp he).2.symm

theorem failsWith_pure (a : α) : FailsWith P (pure a : ExceptT ε Talk α) :=
  failsWith_of_result fun _ h => by cases h

theorem failsWith_throw {e : ε} (h : P e) : FailsWith P (throw e : ExceptT ε Talk α) :=
  failsWith_of_result fun _ he => by cases he; exact h

theorem failsWith_lift (t : Talk α) : FailsWith P (ExceptT.lift t : ExceptT ε Talk α) := by
  intro es e he
  obtain ⟨a, -, ha⟩ := held_map_iff.mp he
  cases ha

theorem FailsWith.bind {t : ExceptT ε Talk α} {f : α → ExceptT ε Talk β} (h : FailsWith P t)
    (h' : ∀ a, FailsWith P (f a)) : FailsWith P (t >>= f) := by
  intro es e he
  rcases held_run_bind_iff.mp he with ⟨e', h₁, he⟩ | ⟨es₁, es₂, a, -, -, h₂⟩
  · cases he; exact h es e h₁
  · exact h' a es₂ e h₂

end SiteScrape.Talk
