import Mathlib.Algebra.BigOperators.Group.Finset.Piecewise
import Mathlib.Algebra.Order.BigOperators.Group.Finset
import SiteScrape.Proofs.Interleaving

/-!
# Conversations side by side that end as they would alone

The conversations of a `Fanout` take their effects in turns, with a transport
whose answer depends on the request alone. A conversation is steady when it ends
in one way whether it is given the token of its site or has to get it
(`Talk.Steady`). Where all are, each ends as it does when held alone, in
whatever order they come to their ends (`Sound.eq_ending`); one of them can
always go on (`Sound.exists_step`), and none goes on forever.
-/

namespace SiteScrape

namespace Talk

variable {α β σ : Type} {f : Request → Except TransportError Response}
  {had due : Option String} {holding : Bool} {t : Talk α}

/-- How a conversation ends when requests are answered by `f` and the token is
`due`. -/
def ending (f : Request → Except TransportError Response) (due : Option String) : Talk α → α
  | .done a => a
  | .acquire _ next => next.ending f due
  | .request r next => (next (f r)).ending f due
  | .claimToken next => (next due).ending f due
  | .settleToken _ next => next.ending f due

/-- How many effects it can have until then; a request and its answer are two. -/
def span (f : Request → Except TransportError Response) (due : Option String) : Talk α → Nat
  | .done _ => 0
  | .acquire _ next => next.span f due + 1
  | .request r next => (next (f r)).span f due + 2
  | .claimToken next => max ((next none).span f due) ((next due).span f due) + 1
  | .settleToken _ next => next.span f due + 1

theorem ending_bind (t : Talk α) (g : α → Talk β) :
    (t >>= g).ending f due = (g (t.ending f due)).ending f due := by
  induction t with
  | done a => rfl
  | acquire site next ih | settleToken got next ih => exact ih
  | request r next ih => exact ih (f r)
  | claimToken next ih => exact ih due

/-- A conversation that ends in one way where the token was `had` at first and
comes to be `due`: it is given the token, or has to get it if there was none at
first; then it gets just that one, hands it over, and goes on as if it had been
given it. -/
def Steady (f : Request → Except TransportError Response) (had due : Option String) :
    Talk α → (holding : Bool) → Prop
  | .done _, holding => holding = false
  | .acquire _ next, holding => next.Steady f had due holding
  | .request r next, holding => (next (f r)).Steady f had due holding
  | .claimToken next, holding => holding = false ∧
      (due.isSome → (next due).Steady f had due false) ∧
      (had = none → (next none).Steady f had due true ∧
        (next none).ending f due = (next due).ending f due)
  | .settleToken got next, holding => holding = true ∧ got = due ∧ next.Steady f had due false

theorem Steady.bind {g : α → Talk β} (h : t.Steady f had due holding)
    (hg : ∀ a, (g a).Steady f had due false) : (t >>= g).Steady f had due holding := by
  induction t generalizing holding with
  | done a => cases h; exact hg a
  | acquire site next ih => exact ih h
  | request r next ih => exact ih (f r) h
  | claimToken next ih =>
    obtain ⟨hholding, hgiven, hgot⟩ := h
    refine ⟨hholding, fun hdue => ih due (hgiven hdue), fun hhad => ?_⟩
    obtain ⟨hnext, hending⟩ := hgot hhad
    refine ⟨ih none hnext, ?_⟩
    show (next none >>= g).ending f due = (next due >>= g).ending f due
    rw [ending_bind, ending_bind, hending]
  | settleToken got next ih =>
    obtain ⟨hholding, hgot, hnext⟩ := h
    exact ⟨hholding, hgot, ih hnext⟩

theorem Steady.map {g : α → β} (h : t.Steady f had due holding) :
    (g <$> t).Steady f had due holding :=
  h.bind (g := fun a => pure (g a)) fun _ => rfl

theorem Steady.run_bind {ε : Type} {t : ExceptT ε Talk α} {g : α → ExceptT ε Talk β}
    (h : t.run.Steady f had due holding) (hg : ∀ a, (g a).run.Steady f had due false) :
    (t >>= g).run.Steady f had due holding := by
  rw [ExceptT.run_bind]
  refine h.bind fun outcome => ?_
  cases outcome with
  | error e => exact rfl
  | ok a => exact hg a

/-- The token of a site once it was `had` and may have come to be `due`. -/
def Settles (had due token : Option String) : Prop := token = due ∨ token = none ∧ had = none

theorem Settles.some_or_none {token : Option String} (h : Settles had due token)
    (hdue : ∀ x, had = some x → due = some x) :
    (due.isSome ∧ token = due) ∨ token = none ∧ had = none := by
  rcases h with rfl | h
  · cases token with
    | some x => exact .inl ⟨rfl, rfl⟩
    | none =>
      cases had with
      | none => exact .inr ⟨rfl, rfl⟩
      | some x => cases hdue x rfl
  · exact .inr h

theorem Settles.or {token : Option String} (h : Settles had due token) :
    Settles had due (due.or token) := by
  cases due with
  | some x => exact .inl rfl
  | none => exact h

/-- Held alone, a steady conversation ends in that way, and leaves the token as
it was or as it comes to be. -/
theorem Steady.run (h : t.Steady f had due holding) (hdue : ∀ x, had = some x → due = some x)
    {world : Outside σ} (hworld : ∀ r s, (world.exchange r s).1 = f r) {token : Option String}
    (htoken : Settles had due token) (s : σ) :
    (t.run world token s).1 = t.ending f due ∧ Settles had due (t.run world token s).2.1 := by
  induction t generalizing holding token s with
  | done a => exact ⟨rfl, htoken⟩
  | acquire site next ih => exact ih h htoken _
  | request r next ih =>
    have hanswer := ih (f r) h htoken (world.exchange r s).2
    rw [← hworld r s] at hanswer
    simpa only [Talk.run, ending, ← hworld r s] using hanswer
  | claimToken next ih =>
    obtain ⟨-, hgiven, hgot⟩ := h
    rcases htoken.some_or_none hdue with ⟨hsome, rfl⟩ | ⟨rfl, hhad⟩
    · exact ih token (hgiven hsome) (.inl rfl) s
    · obtain ⟨hnext, hending⟩ := hgot hhad
      have hrun := ih none hnext (.inr ⟨rfl, hhad⟩) s
      rw [hending] at hrun
      exact hrun
  | settleToken got next ih =>
    obtain ⟨-, rfl, hnext⟩ := h
    exact ih hnext htoken.or s

end Talk

/-- Whether the operation `k` is getting the token. -/
def TokenCell.isHeldBy {κ : Type} [DecidableEq κ] (k : κ) : TokenCell κ → Bool
  | .held k' => k' = k
  | .empty | .filled _ => false

/-- What one operation does to a token leaves the claims of others alone. -/
theorem TokenCell.Allows.isHeldBy_of_ne {κ : Type} [DecidableEq κ] {k k' : κ}
    {c c' : TokenCell κ} {e : Effect} (h : c.Allows k e c') (hne : k ≠ k') :
    c'.isHeldBy k' = c.isHeldBy k' := by
  cases h with
  | acquired | sent | answered | reuse => rfl
  | claim | fill | giveUp => simp [isHeldBy, hne]

open Talk

/-- Conversations `κ`, each with a site, the tokens of the sites at first, and
what requests are answered. -/
structure Fanout (κ α : Type) where
  site : κ → String
  talk : κ → Talk α
  had : String → Option String
  answer : Request → Except TransportError Response

namespace Fanout

variable {κ α : Type}

/-- How far the conversations are. -/
structure Situation (κ α : Type) where
  position : κ → Position α
  cell : String → TokenCell κ

/-- Nobody has begun. -/
def start (w : Fanout κ α) : Situation κ α where
  position k := .before (w.talk k)
  cell id := (w.had id).elim .empty .filled

variable [DecidableEq κ]

/-- Answers are those to the latest request. -/
def Fits (w : Fanout κ α) (τ : Workload.Trace κ) (k : κ) (e : Effect) : Prop :=
  ∀ answer, e = .answered answer →
    ∃ r, Workload.latest k τ = some (.sent r) ∧ answer = w.answer r

/-- Behind these effects, one conversation has its next. -/
inductive Step (w : Fanout κ α) (τ : Workload.Trace κ) (σ : Situation κ α) (k : κ) (e : Effect) :
    Situation κ α → Prop where
  | intro {p : Position α} {c : TokenCell κ} : (σ.position k).Moves e p →
      (σ.cell (w.site k)).Allows k e c → w.Fits τ k e →
      Step w τ σ k e ⟨Function.update σ.position k p, Function.update σ.cell (w.site k) c⟩

/-- The conversations get here with these effects, the latest first. -/
inductive Run (w : Fanout κ α) : Workload.Trace κ → Situation κ α → Prop where
  | start : Run w [] w.start
  | step {τ : Workload.Trace κ} {σ σ' : Situation κ α} {k : κ} {e : Effect} :
      Run w τ σ → w.Step τ σ k e σ' → Run w ((k, e) :: τ) σ'

/-- The effects of one conversation. -/
def effectsOf (k : κ) (τ : Workload.Trace κ) : Workload.Trace κ := τ.filter (·.1 = k)

variable {w : Fanout κ α} {due : String → Option String} {τ : Workload.Trace κ}
  {σ σ' : Situation κ α} {k k' : κ} {e : Effect} {p p' : Position α} {c c' : TokenCell κ}
  {t : Talk α} {id : String}

/-- What is left of a conversation, given the answer that is under way. -/
inductive Left (w : Fanout κ α) (τ : Workload.Trace κ) (k : κ) : Position α → Talk α → Prop where
  | before (t : Talk α) : Left w τ k (.before t) t
  | waiting {r : Request} {next : Except TransportError Response → Talk α} :
      Workload.latest k τ = some (.sent r) → Left w τ k (.waiting next) (next (w.answer r))

/-- The answers under way. -/
def underWay : Position α → Nat
  | .before _ => 0
  | .waiting _ => 1

/-- What the cell of a site can hold. -/
def Holds (w : Fanout κ α) (due : String → Option String) (id : String) : TokenCell κ → Prop
  | .empty => w.had id = none
  | .held k => w.had id = none ∧ w.site k = id
  | .filled token => due id = some token

/-- A conversation is on its way to the end that it would come to alone. -/
structure OnWay (w : Fanout κ α) (due : String → Option String) (τ : Workload.Trace κ)
    (holding : Bool) (k : κ) (p : Position α) (t : Talk α) : Prop where
  left : w.Left τ k p t
  steady : t.Steady w.answer (w.had (w.site k)) (due (w.site k)) holding
  ending_eq : t.ending w.answer (due (w.site k)) = (w.talk k).ending w.answer (due (w.site k))
  length_le : (effectsOf k τ).length + underWay p + t.span w.answer (due (w.site k)) ≤
    (w.talk k).span w.answer (due (w.site k))

/-- All of them are. -/
structure Sound (w : Fanout κ α) (due : String → Option String) (τ : Workload.Trace κ)
    (σ : Situation κ α) : Prop where
  onWay : ∀ k, ∃ t, w.OnWay due τ ((σ.cell (w.site k)).isHeldBy k) k (σ.position k) t
  holds : ∀ id, w.Holds due id (σ.cell id)

theorem Left.cons_of_ne (h : w.Left τ k p t) (hne : k' ≠ k) (e : Effect) :
    w.Left ((k', e) :: τ) k p t := by
  cases h with
  | before t => exact .before t
  | waiting hlatest => exact .waiting ((Workload.latest_cons_ne hne e τ).trans hlatest)

/-- The effects of others do not move a conversation. -/
theorem OnWay.cons_of_ne {holding : Bool} (h : w.OnWay due τ holding k p t) (hne : k' ≠ k)
    (e : Effect) : w.OnWay due ((k', e) :: τ) holding k p t := by
  refine ⟨h.left.cons_of_ne hne e, h.steady, h.ending_eq, ?_⟩
  have hskip : effectsOf k ((k', e) :: τ) = effectsOf k τ := List.filter_cons_of_neg (by simpa)
  rw [hskip]
  exact h.length_le

theorem length_effectsOf_cons_self (k : κ) (e : Effect) (τ : Workload.Trace κ) :
    (effectsOf k ((k, e) :: τ)).length = (effectsOf k τ).length + 1 := by
  simp [effectsOf]

/-- Asking for the token: it is the one that is due, or nobody has one yet and the
conversation has to get it. -/
theorem OnWay.claimed {next : Option String → Talk α} {token : Option String}
    (h : w.OnWay due τ (c.isHeldBy k) k (.before (.claimToken next)) t)
    (hc : w.Holds due (w.site k) c) (hallows : c.Allows k (.claimed token) c') :
    w.OnWay due ((k, .claimed token) :: τ) (c'.isHeldBy k) k (.before (next token))
      (next token) ∧ w.Holds due (w.site k) c' := by
  have hcount := length_effectsOf_cons_self k (.claimed token) τ
  obtain ⟨hleft, hsteady, hending, hlength⟩ := h
  cases hleft
  obtain ⟨-, hgiven, hgot⟩ := hsteady
  simp only [underWay, span] at hlength
  cases hallows with
  | @reuse token =>
    have hdue : due (w.site k) = some token := hc
    refine ⟨⟨.before _, ?_, ?_, ?_⟩, hc⟩
    · exact hdue ▸ hgiven (by rw [hdue]; rfl)
    · rw [← hending, ending, hdue]
    · simp only [underWay, hdue] at hlength ⊢
      omega
  | claim =>
    have hhad : w.had (w.site k) = none := hc
    obtain ⟨hnext, hsame⟩ := hgot hhad
    refine ⟨⟨.before _, ?_, ?_, ?_⟩, hhad, rfl⟩
    · simpa [TokenCell.isHeldBy] using hnext
    · rw [hsame, ← hending]; rfl
    · simp only [underWay]
      omega

/-- Handing the token over, or giving the claim back: what is handed over is due. -/
theorem OnWay.settled {next : Talk α} {token : Option String}
    (h : w.OnWay due τ (c.isHeldBy k) k (.before (.settleToken token next)) t)
    (hc : w.Holds due (w.site k) c) (hallows : c.Allows k (.settled token) c') :
    w.OnWay due ((k, .settled token) :: τ) (c'.isHeldBy k) k (.before next) next ∧
      w.Holds due (w.site k) c' := by
  have hcount := length_effectsOf_cons_self k (.settled token) τ
  obtain ⟨hleft, hsteady, hending, hlength⟩ := h
  cases hleft
  obtain ⟨-, hdue, hnext⟩ := hsteady
  have hlength : (effectsOf k ((k, .settled token) :: τ)).length + underWay (.before next) +
      next.span w.answer (due (w.site k)) ≤ (w.talk k).span w.answer (due (w.site k)) := by
    simp only [underWay, span] at hlength ⊢
    omega
  have honWay : w.OnWay due ((k, .settled token) :: τ) false k (.before next) next :=
    ⟨.before next, hnext, hending, hlength⟩
  cases hallows with
  | fill => exact ⟨honWay, hdue.symm⟩
  | giveUp => exact ⟨honWay, hc.1⟩

/-- With each effect a conversation stays on its way, and leaves in the cell
what can be there. -/
theorem OnWay.step (h : w.OnWay due τ (c.isHeldBy k) k p t) (hc : w.Holds due (w.site k) c)
    (hmove : p.Moves e p') (hallows : c.Allows k e c') (hfits : w.Fits τ k e) :
    (∃ t', w.OnWay due ((k, e) :: τ) (c'.isHeldBy k) k p' t') ∧ w.Holds due (w.site k) c' := by
  have hcount := length_effectsOf_cons_self k e τ
  cases hmove with
  | @acquire site next =>
    obtain ⟨hleft, hsteady, hending, hlength⟩ := h
    cases hallows
    cases hleft
    refine ⟨⟨next, .before next, hsteady, hending, ?_⟩, hc⟩
    simp only [underWay, span] at hlength ⊢
    omega
  | @request r next =>
    obtain ⟨hleft, hsteady, hending, hlength⟩ := h
    cases hallows
    cases hleft
    refine ⟨⟨_, .waiting (Workload.latest_cons_self ..), hsteady, hending, ?_⟩, hc⟩
    simp only [underWay, span] at hlength ⊢
    omega
  | @answer next answer =>
    obtain ⟨hleft, hsteady, hending, hlength⟩ := h
    cases hallows
    obtain ⟨r, hr, rfl⟩ := hfits answer rfl
    cases hleft with
    | waiting hlatest =>
      rw [hr] at hlatest
      cases hlatest
      refine ⟨⟨_, .before _, hsteady, hending, ?_⟩, hc⟩
      simp only [underWay] at hlength ⊢
      omega
  | claim =>
    obtain ⟨honWay, hholds⟩ := h.claimed hc hallows
    exact ⟨⟨_, honWay⟩, hholds⟩
  | settle =>
    obtain ⟨honWay, hholds⟩ := h.settled hc hallows
    exact ⟨⟨_, honWay⟩, hholds⟩

/-- At first all conversations are on their way. -/
theorem sound_start (hdue : ∀ id x, w.had id = some x → due id = some x)
    (hsteady : ∀ k, (w.talk k).Steady w.answer (w.had (w.site k)) (due (w.site k)) false) :
    w.Sound due [] w.start := by
  constructor
  · intro k
    have hfree : ((w.start.cell (w.site k)).isHeldBy k) = false := by
      show ((w.had (w.site k)).elim .empty .filled : TokenCell κ).isHeldBy k = false
      cases w.had (w.site k) <;> rfl
    exact ⟨_, .before _, hfree ▸ hsteady k, rfl, by simp [effectsOf, underWay, start]⟩
  · intro id
    show w.Holds due id ((w.had id).elim .empty .filled)
    cases hhad : w.had id with
    | none => exact hhad
    | some x => exact hdue id x hhad

theorem Sound.step (h : w.Sound due τ σ) (hstep : w.Step τ σ k e σ') :
    w.Sound due ((k, e) :: τ) σ' := by
  cases hstep with
  | @intro p c hmove hallows hfits =>
    obtain ⟨t, ht⟩ := h.onWay k
    obtain ⟨hnext, hholds⟩ := ht.step (h.holds (w.site k)) hmove hallows hfits
    constructor
    · intro k'
      by_cases hk : k' = k
      · subst hk
        simpa using hnext
      · obtain ⟨t', ht'⟩ := h.onWay k'
        refine ⟨t', ?_⟩
        have hcell : ((Function.update σ.cell (w.site k) c) (w.site k')).isHeldBy k' =
            (σ.cell (w.site k')).isHeldBy k' := by
          by_cases hsite : w.site k' = w.site k
          · rw [hsite, Function.update_self, hallows.isHeldBy_of_ne (Ne.symm hk)]
          · rw [Function.update_of_ne hsite]
        dsimp only
        rw [hcell, Function.update_of_ne hk]
        exact ht'.cons_of_ne (Ne.symm hk) e
    · intro id
      by_cases hid : id = w.site k
      · subst hid
        simpa using hholds
      · simpa [Function.update_of_ne hid] using h.holds id

/-- What holds of a run whose conversations are all steady. -/
theorem Run.sound (run : w.Run τ σ) (hdue : ∀ id x, w.had id = some x → due id = some x)
    (hsteady : ∀ k, (w.talk k).Steady w.answer (w.had (w.site k)) (due (w.site k)) false) :
    w.Sound due τ σ := by
  induction run with
  | start => exact sound_start hdue hsteady
  | step _ hstep ih => exact ih.step hstep

/-- Who has come to the end has come to the one it would come to alone. -/
theorem Sound.eq_ending (h : w.Sound due τ σ) {a : α} (hk : σ.position k = .before (.done a)) :
    a = (w.talk k).ending w.answer (due (w.site k)) := by
  obtain ⟨t, ht⟩ := h.onWay k
  rw [hk] at ht
  have hleft := ht.left
  cases hleft
  exact ht.ending_eq

theorem Sound.length_le (h : w.Sound due τ σ) (k : κ) :
    (effectsOf k τ).length ≤ (w.talk k).span w.answer (due (w.site k)) := by
  obtain ⟨t, ht⟩ := h.onWay k
  have := ht.length_le
  omega

theorem exists_step_of_moves (hp : σ.position k = p) (hc : σ.cell (w.site k) = c)
    (hmove : p.Moves e p') (hallows : c.Allows k e c') (hfits : w.Fits τ k e) :
    ∃ e σ', w.Step τ σ k e σ' := by
  subst hp hc
  exact ⟨e, _, .intro hmove hallows hfits⟩

/-- A conversation is at its end, or can go on, or waits for another to get the
token of its site. -/
theorem Sound.ended_or_step (h : w.Sound due τ σ) (k : κ) :
    (∃ a, σ.position k = .before (.done a)) ∨ (∃ e σ', w.Step τ σ k e σ') ∨
      ((σ.cell (w.site k)).isHeldBy k = false ∧ ∃ k', σ.cell (w.site k) = .held k') := by
  obtain ⟨t, ht⟩ := h.onWay k
  obtain ⟨hleft, hsteady, -, -⟩ := ht
  generalize hp : σ.position k = p at hleft
  cases hleft with
  | @waiting r next hlatest =>
    have hfits : w.Fits τ k (.answered (w.answer r)) := by
      rintro _ ⟨⟩
      exact ⟨r, hlatest, rfl⟩
    exact .inr (.inl (exists_step_of_moves hp rfl .answer .answered hfits))
  | before =>
    cases t with
    | done a => exact .inl ⟨a, rfl⟩
    | acquire => exact .inr (.inl (exists_step_of_moves hp rfl .acquire .acquired nofun))
    | request => exact .inr (.inl (exists_step_of_moves hp rfl .request .sent nofun))
    | claimToken next =>
      cases hcell : σ.cell (w.site k) with
      | empty => exact .inr (.inl (exists_step_of_moves hp hcell .claim .claim nofun))
      | filled token => exact .inr (.inl (exists_step_of_moves hp hcell .claim .reuse nofun))
      | held k' => exact .inr (.inr ⟨hcell ▸ hsteady.1, k', rfl⟩)
    | settleToken token next =>
      have hheld : σ.cell (w.site k) = .held k := by
        have hholding := hsteady.1
        cases hcell : σ.cell (w.site k) with
        | held k' => rw [hcell] at hholding; simpa [TokenCell.isHeldBy] using hholding
        | empty | filled => rw [hcell] at hholding; cases hholding
      cases token with
      | some x => exact .inr (.inl (exists_step_of_moves hp hheld .settle .fill nofun))
      | none => exact .inr (.inl (exists_step_of_moves hp hheld .settle .giveUp nofun))

/-- Unless all are at their ends, one of them can go on. -/
theorem Sound.exists_step (h : w.Sound due τ σ) (hk : ∀ a, σ.position k ≠ .before (.done a)) :
    ∃ k' e σ', w.Step τ σ k' e σ' := by
  rcases h.ended_or_step k with ⟨a, ha⟩ | ⟨e, σ', hstep⟩ | ⟨-, k', hheld⟩
  · exact absurd ha (hk a)
  · exact ⟨k, e, σ', hstep⟩
  -- whoever gets the token holds the claim, so it is neither at its end nor waiting
  · obtain ⟨-, hsite⟩ : w.had (w.site k) = none ∧ w.site k' = w.site k := by
      have hholds := h.holds (w.site k)
      rwa [hheld] at hholds
    have hholding : (σ.cell (w.site k')).isHeldBy k' = true := by
      rw [hsite, hheld]
      simp [TokenCell.isHeldBy]
    rcases h.ended_or_step k' with ⟨a, ha⟩ | ⟨e, σ', hstep⟩ | ⟨hfree, -⟩
    · obtain ⟨t, ht⟩ := h.onWay k'
      rw [ha] at ht
      have hleft := ht.left
      cases hleft
      have hdone : (σ.cell (w.site k')).isHeldBy k' = false := ht.steady
      rw [hholding] at hdone
      cases hdone
    · exact ⟨k', e, σ', hstep⟩
    · rw [hholding] at hfree
      cases hfree

/-- All are at their ends, each with its own. -/
def Ended (σ : Situation κ α) (results : κ → α) : Prop :=
  ∀ k, σ.position k = .before (.done (results k))

section Finite

variable [Fintype κ]

theorem length_eq_sum (τ : Workload.Trace κ) : τ.length = ∑ k, (effectsOf k τ).length := by
  induction τ with
  | nil => simp [effectsOf]
  | cons head τ ih =>
    obtain ⟨k, e⟩ := head
    have hcount (k' : κ) : (effectsOf k' ((k, e) :: τ)).length =
        (effectsOf k' τ).length + if k = k' then 1 else 0 := by
      by_cases hk : k = k' <;> simp [effectsOf, hk]
    simp [hcount, Finset.sum_add_distrib, ih]

/-- No run goes on forever. -/
theorem Sound.length_le_sum (h : w.Sound due τ σ) :
    τ.length ≤ ∑ k, (w.talk k).span w.answer (due (w.site k)) := by
  rw [length_eq_sum]
  exact Finset.sum_le_sum fun k _ => h.length_le k

/-- So every run goes on until all are at their ends. -/
theorem Run.exists_ended (run : w.Run τ σ) (hdue : ∀ id x, w.had id = some x → due id = some x)
    (hsteady : ∀ k, (w.talk k).Steady w.answer (w.had (w.site k)) (due (w.site k)) false) :
    ∃ more σ' results, w.Run (more ++ τ) σ' ∧ Ended σ' results := by
  generalize hleft : ∑ k, (w.talk k).span w.answer (due (w.site k)) - τ.length = left
  induction left using Nat.strong_induction_on generalizing τ σ with
  | _ left ih =>
    have hsound := run.sound hdue hsteady
    by_cases hended : ∀ k, ∃ a, σ.position k = .before (.done a)
    · choose results hresults using hended
      exact ⟨[], σ, results, run, hresults⟩
    · push Not at hended
      obtain ⟨k, hk⟩ := hended
      obtain ⟨k', e, σ', hstep⟩ := hsound.exists_step hk
      have hlength := (hsound.step hstep).length_le_sum
      rw [List.length_cons] at hlength
      obtain ⟨more, σ'', results, run', hresults⟩ :=
        ih _ (by rw [List.length_cons]; omega) (run.step hstep) rfl
      exact ⟨more ++ [(k', e)], σ'', results, by simpa using run', hresults⟩

end Finite

end Fanout

end SiteScrape
