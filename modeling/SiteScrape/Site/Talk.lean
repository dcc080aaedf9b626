import SiteScrape.Transport.Request
import SiteScrape.Transport.Response

/-!
# Conversations with a site

An operation on a site is a conversation: it waits for the throttle, sends
requests, and shares one token with all other operations on the site. What it
does next depends on the answers only, so the outside can be anything that
answers.
-/

namespace SiteScrape

/-- A conversation that ends with an `α`. -/
inductive Talk (α : Type) where
  | done (a : α)
  /-- Waits until the throttle lets a request of the site pass. -/
  | acquire (site : String) (next : Talk α)
  | request (r : Request) (next : Except TransportError Response → Talk α)
  /-- Asks for the token of the site. Without one, the operation is now the one
  to get it, and others that ask wait until it has settled the matter. -/
  | claimToken (next : Option String → Talk α)
  /-- Hands over the token that was got, or gives the claim back. -/
  | settleToken (token : Option String) (next : Talk α)

namespace Talk

variable {α β σ : Type}

/-- `t`, and then what `f` makes of its end. -/
def bind : Talk α → (α → Talk β) → Talk β
  | .done a, f => f a
  | .acquire site next, f => .acquire site (next.bind f)
  | .request r next, f => .request r fun answer => (next answer).bind f
  | .claimToken next, f => .claimToken fun token => (next token).bind f
  | .settleToken token next, f => .settleToken token (next.bind f)

instance : Monad Talk where
  pure := .done
  bind := bind

/-- Waits for the throttle. -/
def wait (site : String) : Talk Unit := .acquire site (.done ())

/-- Sends a request. -/
def ask (r : Request) : Talk (Except TransportError Response) := .request r .done

/-- Asks for the token. -/
def claim : Talk (Option String) := .claimToken .done

/-- Settles a claim. -/
def settle (token : Option String) : Talk Unit := .settleToken token (.done ())

/-- The throttle and the transport that a conversation is held with. -/
structure Outside (σ : Type) where
  acquire : String → σ → σ
  exchange : Request → σ → Except TransportError Response × σ

/-- A conversation held alone: its end, the token that the site has then, and
the state of the outside. -/
def run (world : Outside σ) : Talk α → Option String → σ → α × Option String × σ
  | .done a, token, s => (a, token, s)
  | .acquire site next, token, s => next.run world token (world.acquire site s)
  | .request r next, token, s =>
    let (answer, s) := world.exchange r s
    (next answer).run world token s
  | .claimToken next, token, s => (next token).run world token s
  | .settleToken got next, token, s => next.run world (got.or token) s

end Talk

end SiteScrape
