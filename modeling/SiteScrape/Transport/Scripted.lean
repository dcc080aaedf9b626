import SiteScrape.Transport.Request
import SiteScrape.Transport.Response

/-!
# Scripted exchanges

A script answers by address: the first route whose pattern occurs in the
address of a request replies to it, and an address without a route is not
found. All requests are recorded.
-/

namespace SiteScrape

/-- What a route does. -/
inductive Reply where
  | respond (r : Response)
  | fail (detail : String)

/-- A reply to all addresses that contain a pattern. -/
structure Route where
  pattern : String
  reply : Reply

/-- A request as it arrived. -/
structure Recorded where
  request : Request
  url : String

/-- Routes, and the requests so far, the latest first. -/
structure Script where
  routes : List Route := []
  recorded : List Recorded := []

namespace Script

/-- The reply to an address. -/
def reply? (s : Script) (url : String) : Option Reply :=
  (s.routes.find? fun route => Text.contains url route.pattern).map (·.reply)

/-- The answer of a reply to a request for `url`; a response that names no
final address has this one. -/
def Reply.answer (url : String) : Option Reply → Except TransportError Response
  | some (.respond r) => .ok (if r.finalUrl.isEmpty then { r with finalUrl := url } else r)
  | some (.fail detail) => .error (.connection detail)
  | none => .ok { status := 404, finalUrl := url }

/-- Answers and records a request; one without a usable address is refused
unrecorded. -/
def exchange (s : Script) (request : Request) : Except TransportError Response × Script :=
  match request.fullUrl with
  | .error e => (.error e, s)
  | .ok u =>
    (Reply.answer u.text (s.reply? u.text),
      { s with recorded := ⟨request, u.text⟩ :: s.recorded })

/-- Adds a route behind the others. -/
def addRoute (s : Script) (route : Route) : Script := { s with routes := s.routes ++ [route] }

/-- How many recorded addresses contain a pattern. -/
def countTo (s : Script) (pattern : String) : Nat :=
  (s.recorded.filter fun r => Text.contains r.url pattern).length

def clear (s : Script) : Script := { s with recorded := [] }

end Script

end SiteScrape
