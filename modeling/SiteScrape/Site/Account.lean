import SiteScrape.Record.UserInfo
import SiteScrape.Site.Basic

/-!
# Account data

Account data is collected step by step: each step sends one request and reads
some fields off the answer. A field that has a value keeps it, a step whose
fields all have values is skipped, and what was collected before a failure is
not lost.
-/

namespace SiteScrape

/-- The fields that have been collected. -/
abbrev Collected := Fields

namespace Collected

/-- The value of a field, if it is something. -/
def value? (c : Collected) (field : String) : Option Json :=
  (Assoc.get? c field).filter fun v => !Field.isNothing v

def knows (c : Collected) (field : String) : Bool := (value? c field).isSome

/-- What is collected with the value that a field has among others, if any. -/
def pick (fields : Fields) (c : Collected) (field : String) : Collected :=
  match value? fields field with
  | some v => Assoc.insert c field v
  | none => c

/-- The fields that are carried over from the record before. -/
def carriedOver (plan : AccountPlan) (previous : Option UserInfo) : Collected :=
  match previous with
  | some u => plan.pickLast.foldl (pick u.toFields) []
  | none => []

end Collected

namespace AccountStep

/-- All fields of the step are known. -/
def isSatisfied (step : AccountStep) (c : Collected) : Bool :=
  !step.fields.isEmpty && step.fields.all c.knows

/-- Puts a value into a request: in place of its token when the text at the
target holds it, else at the target itself. -/
def splice (request : Json) (target field : String) (v : Json) : Json :=
  let token := "$" ++ field ++ "$"
  match request.at? target with
  | some (.str template) =>
    if Text.contains template token then
      request.setAt target (.str (Text.replaceAll token v.asText template))
    else request.setAt target v
  | _ => request.setAt target v

/-- The request with all fields put in that it asserts. -/
def fillIn (index : Nat) (c : Collected) :
    List (String × String) → Json → Except MissingField Json
  | [], request => .ok request
  | (field, target) :: rest, request =>
    match c.value? field with
    | some v => fillIn index c rest (splice request target field v)
    | none => .error ⟨index, field⟩

/-- The request that a step is put together from. -/
def seed (step : AccountStep) : Json :=
  match step.requestConfig with
  | .null => .obj []
  | config => config

end AccountStep

namespace Site

/-- The request of a step. -/
def stepRequest (s : Site) (index : Nat) (step : AccountStep) (c : Collected) :
    Except MissingField Json :=
  (AccountStep.fillIn index c step.assertion step.seed).map
    (s.transform step.transformer { metadata := s.metadata, userInfo := some c })

/-- How digits in a field are taken. -/
def accountCoercion (field : String) : Coercion := if field = "id" then .keep else .numeric

/-- The value of an account field on a page. -/
def accountValue? (s : Site) (now : Int) (selectors : Assoc Field) (source : Source)
    (c : Collected) (field : String) : Option Json :=
  match s.hooks.accountFields.get? field with
  | some hook => some (hook now c source)
  | none =>
    (selectors.get? field).map fun f =>
      f.resolve s.hooks.resolver now source (accountCoercion field)

/-- What is collected with one more field, unless it is known or not found. -/
def collectField (s : Site) (now : Int) (selectors : Assoc Field) (source : Source)
    (c : Collected) (field : String) : Collected :=
  if c.knows field then c
  else match (s.accountValue? now selectors source c field).filter fun v => !Field.isNothing v with
    | some v => Assoc.insert c field v
    | none => c

/-- What is collected after the fields of a step have been read. -/
def collect (s : Site) (now : Int) (selectors : Assoc Field) (source : Source) (step : AccountStep)
    (c : Collected) : Collected :=
  step.fields.foldl (s.collectField now selectors source) c

/-- Carries a step out. -/
def runStep (s : Site) (now : Int) (plan : AccountPlan) (step : AccountStep) (request : Json)
    (c : Collected) : ExceptT SiteError Talk Collected := do
  let x ← s.send request
  let body ← bodyOf x
  return s.collect now (step.selectors.getD plan.selectors) body.source step c

/-- The status that a failure counts as. -/
def failureStatus : SiteError → QueryStatus
  | .needLogin => .needLogin
  | _ => .parseError

/-- Carries out steps, the first of which has the number `index`. -/
def runSteps (s : Site) (now : Int) (plan : AccountPlan) (index : Nat) (c : Collected) :
    List AccountStep → Talk (Except MissingField (QueryStatus × Collected))
  | [] => pure (.ok (.success, c))
  | step :: rest =>
    if step.isSatisfied c then runSteps s now plan (index + 1) c rest
    else match s.stepRequest index step c with
      | .error e => pure (.error e)
      | .ok request => do
        match ← (s.runStep now plan step request c).run with
        | .ok c => runSteps s now plan (index + 1) c rest
        | .error e => return .ok (failureStatus e, c)

/-- Collects the account data of the site. -/
def accountInfo (s : Site) (now : Int) (previous : Option UserInfo) :
    Talk (Except MissingField UserInfo) :=
  match s.metadata.userInfo.filter fun _ => s.metadata.allowsUserInfo with
  | none => pure (.ok (.ofStatus s.id .passed now))
  | some plan => do
    let outcome ← s.runSteps now plan 0 (.carriedOver plan previous) plan.process
    return outcome.map fun (status, c) => .ofFields s.id status c now

end Site

end SiteScrape
