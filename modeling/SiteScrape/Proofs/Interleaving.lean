import Mathlib.Logic.Function.Basic
import SiteScrape.Proofs.Conversation
import SiteScrape.Site.Account
import SiteScrape.Site.Download
import SiteScrape.Site.Search

/-!
# Operations side by side

Operations on any number of sites take their effects in turns, in any order.
Only the token of a site stands between them: while one operation is getting
it, others that ask for it wait (`TokenCell.Allows`), and it is not got again
once it is there. `Workload.Run` is a run of such operations with the trace of
its effects; `Conforms` says of one conversation alone that its effects go by a
protocol, whatever it is answered.
-/

namespace SiteScrape

/-- What can be asked of a site. -/
inductive Operation where
  | search (now : Int) (keywords : String) (overlay : Option Json)
  | accountInfo (now : Int) (previous : Option UserInfo)
  | downloadLink (now : Int) (t : Torrent)

/-- The conversation of an operation, whatever it brings. -/
def Operation.talk (s : Site) : Operation → Talk Unit
  | .search now keywords overlay => (fun _ => ()) <$> s.search now keywords overlay
  | .accountInfo now previous => (fun _ => ()) <$> s.accountInfo now previous
  | .downloadLink now t => (fun _ => ()) <$> (s.downloadLink now t).run

/-- One effect of an operation. A request and its answer are two, for others
may have their turn in between. -/
inductive Effect where
  | acquired (site : String)
  | sent (r : Request)
  | answered (answer : Except TransportError Response)
  | claimed (token : Option String)
  | settled (token : Option String)

namespace Talk

variable {α β ε S : Type}

/-- A conversation that is going on. -/
inductive Position (α : Type) where
  | before (t : Talk α)
  /-- A request is under way. -/
  | waiting (next : Except TransportError Response → Talk α)

/-- The next effect of a conversation. -/
inductive Position.Moves {α : Type} : Position α → Effect → Position α → Prop where
  | acquire {site : String} {next : Talk α} :
      Moves (.before (.acquire site next)) (.acquired site) (.before next)
  | request {r : Request} {next : Except TransportError Response → Talk α} :
      Moves (.before (.request r next)) (.sent r) (.waiting next)
  | answer {next : Except TransportError Response → Talk α}
      {answer : Except TransportError Response} :
      Moves (.waiting next) (.answered answer) (.before (next answer))
  | claim {next : Option String → Talk α} {token : Option String} :
      Moves (.before (.claimToken next)) (.claimed token) (.before (next token))
  | settle {token : Option String} {next : Talk α} :
      Moves (.before (.settleToken token next)) (.settled token) (.before next)

/-! ### Conversations that go by a protocol -/

/-- From stage `x` on, every effect of the conversation is a move between
stages, whatever is answered, and at its end `post` holds. -/
def Conforms (moves : S → Effect → S → Prop) (post : α → S → Prop) : Talk α → S → Prop
  | .done a, x => post a x
  | .acquire site next, x => ∃ y, moves x (.acquired site) y ∧ Conforms moves post next y
  | .request r next, x => ∃ y, moves x (.sent r) y ∧
      ∀ answer, ∃ z, moves y (.answered answer) z ∧ Conforms moves post (next answer) z
  | .claimToken next, x => ∀ token, ∃ y, moves x (.claimed token) y ∧
      Conforms moves post (next token) y
  | .settleToken token next, x => ∃ y, moves x (.settled token) y ∧ Conforms moves post next y

/-- The rest of the conversation goes by the protocol. -/
def Position.Conforms (moves : S → Effect → S → Prop) (post : α → S → Prop) :
    Position α → S → Prop
  | .before t, x => t.Conforms moves post x
  | .waiting next, x => ∀ answer, ∃ y, moves x (.answered answer) y ∧
      (next answer).Conforms moves post y

variable {moves : S → Effect → S → Prop} {post : α → S → Prop} {post' : β → S → Prop} {x : S}

/-- A conversation that goes by the protocol takes one move at a time. -/
theorem Position.Conforms.move {p q : Position α} {e : Effect} (h : p.Conforms moves post x)
    (hmove : p.Moves e q) : ∃ y, moves x e y ∧ q.Conforms moves post y := by
  cases hmove with
  | acquire | settle | request => exact h
  | answer => exact h _
  | claim => exact h _

/-- What goes by the protocol goes on by it, if what holds at the end lets it. -/
theorem Conforms.bind_of {t : Talk α} {f : α → Talk β} (h : t.Conforms moves post x)
    (hf : ∀ a y, post a y → (f a).Conforms moves post' y) :
    (t >>= f).Conforms moves post' x := by
  induction t generalizing x with
  | done a => exact hf a x h
  | acquire site next ih | settleToken got next ih =>
    obtain ⟨y, hy, h⟩ := h
    exact ⟨y, hy, ih h⟩
  | request r next ih =>
    obtain ⟨y, hy, h⟩ := h
    refine ⟨y, hy, fun answer => ?_⟩
    obtain ⟨z, hz, h⟩ := h answer
    exact ⟨z, hz, ih answer h⟩
  | claimToken next ih =>
    intro token
    obtain ⟨y, hy, h⟩ := h token
    exact ⟨y, hy, ih token h⟩

theorem Conforms.mono {wider : α → S → Prop} {t : Talk α} (hwider : ∀ a y, post a y → wider a y)
    (h : t.Conforms moves post x) : t.Conforms moves wider x := by
  rw [← bind_pure t]
  exact h.bind_of hwider

/-- A conversation in two parts goes by the protocol part by part. -/
theorem Conforms.bind {t : Talk α} {f : α → Talk β}
    (h : t.Conforms moves (fun a y => (f a).Conforms moves post' y) x) :
    (t >>= f).Conforms moves post' x :=
  h.bind_of fun _ _ h => h

theorem Conforms.map {t : Talk α} {f : α → β}
    (h : t.Conforms moves (fun a y => post' (f a) y) x) : (f <$> t).Conforms moves post' x :=
  Conforms.bind (f := fun a => pure (f a)) h

/-- A conversation that can fail ends with `Q` when it succeeds and with `E`
when it fails. -/
def Ends (Q : α → S → Prop) (E : ε → S → Prop) : Except ε α → S → Prop
  | .ok a, y => Q a y
  | .error e, y => E e y

theorem Conforms.run_bind {t : ExceptT ε Talk α} {f : α → ExceptT ε Talk β} {Q : α → S → Prop}
    {Q' : β → S → Prop} {E : ε → S → Prop} (h : t.run.Conforms moves (Ends Q E) x)
    (hf : ∀ a y, Q a y → (f a).run.Conforms moves (Ends Q' E) y) :
    (t >>= f).run.Conforms moves (Ends Q' E) x := by
  rw [ExceptT.run_bind]
  refine Conforms.bind (h.mono fun r y hr => ?_)
  cases r with
  | error e => exact hr
  | ok a => exact hf a y hr

end Talk

/-! ### Runs -/

variable {ι κ : Type}

/-- The token of a site, as the operations `κ` share it. -/
inductive TokenCell (κ : Type) where
  | empty
  /-- The operation `k` is getting it. -/
  | held (k : κ)
  | filled (token : String)

/-- What an effect of the operation `k` presupposes of the token and makes of
it: one that asks is given the token or, if nobody has it or is getting it, the
claim; the holder of the claim fills the cell or empties it. -/
inductive TokenCell.Allows (k : κ) : TokenCell κ → Effect → TokenCell κ → Prop where
  | acquired {c : TokenCell κ} {site : String} : Allows k c (.acquired site) c
  | sent {c : TokenCell κ} {r : Request} : Allows k c (.sent r) c
  | answered {c : TokenCell κ} {answer : Except TransportError Response} :
      Allows k c (.answered answer) c
  | reuse {token : String} : Allows k (.filled token) (.claimed (some token)) (.filled token)
  | claim : Allows k .empty (.claimed none) (.held k)
  | fill {token : String} : Allows k (.held k) (.settled (some token)) (.filled token)
  | giveUp : Allows k (.held k) (.settled none) .empty

/-- Operations `κ` on sites `ι`. -/
structure Workload (ι κ : Type) where
  site : ι → Site
  target : κ → ι
  operation : κ → Operation

namespace Workload

/-- How far the operations of a workload are. -/
structure Situation (ι κ : Type) where
  position : κ → Talk.Position Unit
  cell : ι → TokenCell κ

/-- The effects of a run with who had them, the latest first. -/
abbrev Trace (κ : Type) := List (κ × Effect)

/-- The site that an operation is for. -/
def siteOf (w : Workload ι κ) (k : κ) : Site := w.site (w.target k)

/-- Nobody has begun. -/
def start (w : Workload ι κ) : Situation ι κ where
  position k := .before ((w.operation k).talk (w.siteOf k))
  cell _ := .empty

variable [DecidableEq ι] [DecidableEq κ]

/-- One operation has its next effect. -/
inductive Step (w : Workload ι κ) (σ : Situation ι κ) (k : κ) (e : Effect) :
    Situation ι κ → Prop where
  | intro {p : Talk.Position Unit} {c : TokenCell κ} : (σ.position k).Moves e p →
      (σ.cell (w.target k)).Allows k e c →
      Step w σ k e ⟨Function.update σ.position k p, Function.update σ.cell (w.target k) c⟩

/-- The operations get here with these effects. -/
inductive Run (w : Workload ι κ) : Trace κ → Situation ι κ → Prop where
  | start : Run w [] w.start
  | step {τ : Trace κ} {σ σ' : Situation ι κ} {k : κ} {e : Effect} :
      Run w τ σ → w.Step σ k e σ' → Run w ((k, e) :: τ) σ'

/-- The latest effect of an operation. -/
def latest (k : κ) : Trace κ → Option Effect
  | [] => none
  | (k', e) :: τ => if k' = k then some e else latest k τ

@[simp] theorem latest_cons_self (k : κ) (e : Effect) (τ : Trace κ) :
    latest k ((k, e) :: τ) = some e := if_pos rfl

theorem latest_cons_ne {k k' : κ} (h : k' ≠ k) (e : Effect) (τ : Trace κ) :
    latest k ((k', e) :: τ) = latest k τ := if_neg h

end Workload

end SiteScrape
