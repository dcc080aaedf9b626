import SiteScrape.Proofs.Exchange
import SiteScrape.Proofs.Interleaving
import SiteScrape.Proofs.ResolvedSites

/-!
# The stages of a request

Between two requests of an operation lie always the same effects: it asks for
the token where the site needs one, gets it if it has to, waits for the
throttle, and sends. `Site.Goes` is this protocol, for sites with a token and
for those without, and every operation goes by it (`Operation.conforms`).
-/

namespace SiteScrape

open Talk

namespace Credentials

/-- The request for a token at this path, if the user has given all that it
takes. -/
def loginRequest? (path : String) (m : Metadata) : Option Request := do
  let username ← m.userInput.get? "username"
  let password ← m.userInput.get? "password"
  let pid ← m.userInput.get? "pid"
  some { url := path, method := .post, baseUrl := m.baseUrl?, responseKind := .json,
         data := .obj [("username", .str username), ("password", .str password),
           ("pid", .str pid)] }

/-- What the answer to such a request comes to. -/
def received (answer : Except TransportError Response) : Except SiteError String :=
  (answer.mapError .transport).bind tokenIn

/-- The token that an answer brings: one of a success, and not empty. -/
def tokenOf (answer : Except TransportError Response) : Option String :=
  (received answer).toOption

theorem ofJson_tokenRequest (path : String) (m : Metadata) (username password pid : String) :
    Request.ofJson (tokenRequest path m username password pid) =
      .ok { url := path, method := .post, baseUrl := m.baseUrl?, responseKind := .json,
            data := .obj [("username", .str username), ("password", .str password),
              ("pid", .str pid)] } := by
  unfold tokenRequest
  cases m.baseUrl? <;> rfl

/-- A token request bears no credentials in its headers. -/
theorem headers_of_loginRequest? {path : String} {m : Metadata} {r : Request}
    (h : loginRequest? path m = some r) : r.headers = [] := by
  simp only [loginRequest?, Option.bind_eq_bind, Option.bind_eq_some_iff, Option.some.injEq] at h
  obtain ⟨_, _, _, _, _, _, rfl⟩ := h
  rfl

/-- A token request takes a name, a password and an identifier. -/
theorem inputs_of_loginRequest? {path : String} {m : Metadata} {r : Request}
    (h : loginRequest? path m = some r) : ∃ username password pid,
      m.userInput.get? "username" = some username ∧
      m.userInput.get? "password" = some password ∧ m.userInput.get? "pid" = some pid := by
  simp only [loginRequest?, Option.bind_eq_bind, Option.bind_eq_some_iff] at h
  obtain ⟨username, husername, password, hpassword, pid, hpid, -⟩ := h
  exact ⟨username, password, pid, husername, hpassword, hpid⟩

theorem fetchToken_run (path : String) (m : Metadata) :
    (fetchToken path m).run =
      match loginRequest? path m with
      | some r => .request r fun answer => .done (received answer)
      | none => .done (.error .needLogin) := by
  unfold fetchToken loginRequest?
  cases m.userInput.get? "username" with
  | none => rfl
  | some username =>
    cases m.userInput.get? "password" with
    | none => rfl
    | some password =>
      cases m.userInput.get? "pid" with
      | none => rfl
      | some pid =>
        simp only [ofJson_tokenRequest]
        refine congrArg (Talk.request _) (funext fun answer => ?_)
        cases answer <;> rfl

theorem token_run (path : String) (m : Metadata) :
    (token path m).run = .claimToken fun
      | some token => .done (.ok token)
      | none => (fetchToken path m).run.bind fun outcome =>
          .settleToken outcome.toOption (.done outcome) := by
  refine congrArg Talk.claimToken (funext fun token => ?_)
  cases token with
  | some token => rfl
  | none =>
    show (ExceptT.lift (fetchToken path m).run >>= fun outcome => _ : ExceptT _ Talk _).run = _
    rw [ExceptT.run_bind_lift]
    rfl

end Credentials

/-- What a token puts into a request is what the request bears, whatever
credentials it had before. -/
theorem Request.header_of_bearer {v : Json} {credentials : String} {r : Request}
    (h : Request.ofJson (v.distinct.setAt Credentials.headerPath (.str credentials)) = .ok r) :
    r.headers.get? "Authorization" = some credentials := by
  have hpath : Path.ofText Credentials.headerPath = [.key "headers", .key "Authorization"] := by
    decide
  -- The headers of the request, and the request with the new one among them.
  let headers := ((v.distinct.entries.get? "headers").getD .null).entries
  let full := v.distinct.entries.insert "headers"
    (.obj (headers.insert "Authorization" (.str credentials)))
  have hset : v.distinct.setAt Credentials.headerPath (.str credentials) = .obj full := by
    unfold Json.setAt
    rw [hpath]
    rfl
  rw [hset] at h
  have hdecode : Request.decode (.obj full) = some r := by
    unfold Request.ofJson at h
    split at h
    · next h' => cases h; exact h'
    · cases h
  have hheaders : Decode.withDefault full "headers" (Decode.sortedMap Decode.string) [] =
      some r.headers := by
    simp only [Request.decode, Option.bind_eq_bind, Option.bind_eq_some_iff,
      Option.some.injEq] at hdecode
    obtain ⟨e, he, _, -, _, -, _, -, _, -, _, hread, _, -, _, -, _, -, rfl⟩ := hdecode
    exact Decode.eq_of_record he ▸ hread
  have hat : full.get? "headers" =
      some (.obj (headers.insert "Authorization" (.str credentials))) := by
    simp only [full, Assoc.get?_insert, ↓reduceIte]
  unfold Decode.withDefault at hheaders
  rw [hat] at hheaders
  rw [Decode.get?_sortedPairs ((Json.keysOnce_entries_below v "headers").insert _ _) hheaders,
    Assoc.get?_insert, if_pos rfl]
  rfl

/-- Where an operation stands with its requests. -/
inductive Stage where
  /-- Nothing is under way; the token, once it has been given. -/
  | free (token : Option String)
  /-- Past the throttle. -/
  | admitted (token : Option String)
  | waiting
  /-- It is the one to get the token. -/
  | chosen
  /-- The request for the token is under way. -/
  | signingOn
  /-- The request for the token has been answered, and brings this. -/
  | signedOn (token : Option String)
  /-- There is no token to be had. -/
  | turnedAway

/-- Others wait for this operation to get the token. -/
def Stage.HasClaim : Stage → Prop
  | .chosen | .signingOn | .signedOn _ => True
  | _ => False

namespace Site

variable {s : Site} {path : Option String} {request : Json}

/-- The site gets its token at `path`, or needs none. -/
def GetsTokensAt (s : Site) : Option String → Prop
  | some path => s.hooks.authorizer = some (Credentials.bearerToken path)
  | none => s.hooks.authorizer = none ∨
      ∃ input, s.hooks.authorizer = some (Credentials.apiKey input)

/-- The request for a token at `path`, if the site needs one and the user has
given all that it takes. -/
def loginRequest? (s : Site) (path : Option String) : Option Request :=
  path.bind fun path => Credentials.loginRequest? path s.metadata

/-- Where tokens are needed, the request bears the one that was given. -/
def Bears (path token : Option String) (r : Request) : Prop :=
  path.isSome →
    ∃ t, token = some t ∧ r.headers.get? "Authorization" = some ("Bearer " ++ t)

/-- The effects that lead from one stage of an operation on the site to the
next. -/
inductive Goes (s : Site) (path : Option String) : Stage → Effect → Stage → Prop where
  | pass {token : Option String} : Goes s path (.free token) (.acquired s.id) (.admitted token)
  | send {token : Option String} {r : Request} : Bears path token r →
      Goes s path (.admitted token) (.sent r) .waiting
  | hear {answer : Except TransportError Response} :
      Goes s path .waiting (.answered answer) (.free none)
  | reuse {token : Option String} {t : String} : path.isSome →
      Goes s path (.free token) (.claimed (some t)) (.free (some t))
  | claim {token : Option String} : path.isSome →
      Goes s path (.free token) (.claimed none) .chosen
  | signOn {r : Request} : s.loginRequest? path = some r →
      Goes s path .chosen (.sent r) .signingOn
  | receive {answer : Except TransportError Response} :
      Goes s path .signingOn (.answered answer) (.signedOn (Credentials.tokenOf answer))
  | lack : s.loginRequest? path = none → Goes s path .chosen (.settled none) .turnedAway
  | hand {t : String} : Goes s path (.signedOn (some t)) (.settled (some t)) (.free (some t))
  | fail : Goes s path (.signedOn none) (.settled none) .turnedAway

/-- From stage `x` on the conversation goes by the protocol: it succeeds with
`Q`, and when it fails nobody waits for it. -/
def Proceeds {α : Type} (s : Site) (path : Option String) (t : ExceptT SiteError Talk α)
    (Q : α → Stage → Prop) (x : Stage) : Prop :=
  t.run.Conforms (s.Goes path) (Ends Q fun _ y => ¬y.HasClaim) x

/-- Nothing is under way. -/
def Idle {α : Type} (_ : α) (y : Stage) : Prop := y = .free none

section Proceeds

variable {α β : Type} {t : ExceptT SiteError Talk α} {f : α → ExceptT SiteError Talk β}
  {Q : α → Stage → Prop} {Q' : β → Stage → Prop} {x : Stage}

theorem Proceeds.bind (h : s.Proceeds path t Q x)
    (hf : ∀ a y, Q a y → s.Proceeds path (f a) Q' y) : s.Proceeds path (t >>= f) Q' x :=
  Conforms.run_bind h hf

/-- A conversation without effects stays where it is. -/
theorem proceeds_result (outcome : Except SiteError α) :
    s.Proceeds path (ExceptT.mk (pure outcome)) Idle (.free none) := by
  cases outcome with
  | error e => exact not_false
  | ok a => exact rfl

theorem proceeds_pure (a : α) : s.Proceeds path (pure a) Idle (.free none) :=
  proceeds_result (.ok a)

/-- However it ends, nobody waits for the conversation then. -/
theorem Proceeds.released (h : s.Proceeds path t Idle x) :
    t.run.Conforms (s.Goes path) (fun _ y => ¬y.HasClaim) x := by
  refine h.mono fun outcome y hy => ?_
  cases outcome with
  | error e => exact hy
  | ok a => rw [show y = .free none from hy]; exact not_false

end Proceeds

/-- An operation that asks for the token has it in the end, or fails. -/
theorem token_proceeds {p : String} :
    s.Proceeds (some p) (Credentials.token p s.metadata) (fun t y => y = .free (some t))
      (.free none) := by
  unfold Proceeds
  rw [Credentials.token_run, Credentials.fetchToken_run]
  rintro (_ | t)
  · refine ⟨.chosen, .claim rfl, ?_⟩
    cases hr : Credentials.loginRequest? p s.metadata with
    | none => exact ⟨.turnedAway, .lack hr, not_false⟩
    | some r =>
      refine ⟨.signingOn, .signOn hr, fun answer => ⟨_, .receive, ?_⟩⟩
      show ∃ y, s.Goes (some p) (.signedOn (Credentials.received answer).toOption)
        (.settled (Credentials.received answer).toOption) y ∧
          Ends _ _ (Credentials.received answer) y
      cases Credentials.received answer with
      | error e => exact ⟨.turnedAway, .fail, not_false⟩
      | ok t => exact ⟨.free (some t), .hand, rfl⟩
  · exact ⟨.free (some t), .reuse rfl, rfl⟩

/-- Behind the authorizer the operation has what credentials the site needs,
and the request bears them. -/
theorem authorize_proceeds (hpath : s.GetsTokensAt path) :
    s.Proceeds path (s.authorize request) (fun full y => ∃ token, y = .free token ∧
      ∀ r, Request.ofJson full = .ok r → Bears path token r) (.free none) := by
  unfold authorize
  cases path with
  | none =>
    rcases hpath with h | ⟨input, h⟩ <;> rw [h]
    · exact ⟨none, rfl, fun _ _ => nofun⟩
    · show s.Proceeds none (Credentials.apiKey input s.metadata request) _ _
      unfold Credentials.apiKey
      split <;> exact ⟨none, rfl, fun _ _ => nofun⟩
  | some p =>
    rw [show s.hooks.authorizer = _ from hpath]
    refine token_proceeds.bind ?_
    rintro t _ rfl
    exact ⟨some t, rfl, fun r hr _ => ⟨t, rfl, Request.header_of_bearer hr⟩⟩

/-- A request that bears what the site needs waits for the throttle and is
sent, unless it has no form. -/
theorem deliver_proceeds {full : Json} {token : Option String}
    (hbears : ∀ r, Request.ofJson full = .ok r → Bears path token r) :
    s.Proceeds path (s.deliver full) Idle (.free token) := by
  unfold deliver
  cases hr : Request.ofJson full with
  | error e => exact not_false
  | ok r =>
    refine ⟨.admitted token, .pass, .waiting, .send (hbears r hr), ?_⟩
    rintro (e | response)
    · exact ⟨.free none, .hear, not_false⟩
    · refine ⟨.free none, .hear, ?_⟩
      exact (proceeds_result (s.judge response)).bind fun _ _ hy => hy ▸ proceeds_pure _

theorem send_proceeds (hpath : s.GetsTokensAt path) :
    s.Proceeds path (s.send request) Idle (.free none) := by
  refine (authorize_proceeds hpath).bind ?_
  rintro full _ ⟨token, rfl, hbears⟩
  exact deliver_proceeds hbears

/-- What is made of the answer to a request has no further effect. -/
theorem send_bind_proceeds {α : Type} {f : Exchange → Body → ExceptT SiteError Talk α}
    (hpath : s.GetsTokensAt path) (hf : ∀ x body, s.Proceeds path (f x body) Idle (.free none)) :
    s.Proceeds path (s.send request >>= fun x => bodyOf x >>= f x) Idle (.free none) := by
  refine (send_proceeds hpath).bind ?_
  rintro x _ rfl
  refine (proceeds_result _).bind ?_
  rintro body _ rfl
  exact hf x body

variable {now : Int}

theorem search_conforms (hpath : s.GetsTokensAt path) (keywords : String) (overlay : Option Json) :
    (s.search now keywords overlay).Conforms (s.Goes path) (fun _ y => ¬y.HasClaim)
      (.free none) := by
  unfold search
  split
  · exact not_false
  split
  · exact not_false
  split
  · exact not_false
  split
  · exact not_false
  · exact Conforms.map (send_bind_proceeds hpath fun _ _ => proceeds_result _).released

theorem runStep_proceeds (hpath : s.GetsTokensAt path) (plan : AccountPlan) (step : AccountStep)
    (c : Collected) : s.Proceeds path (s.runStep now plan step request c) Idle (.free none) :=
  send_bind_proceeds hpath fun _ _ => proceeds_pure _

/-- One request after the other goes by the protocol, for each begins with
nothing under way. -/
theorem runSteps_conforms (hpath : s.GetsTokensAt path) (plan : AccountPlan) (index : Nat)
    (c : Collected) (steps : List AccountStep) :
    (s.runSteps now plan index c steps).Conforms (s.Goes path) (fun _ y => ¬y.HasClaim)
      (.free none) := by
  induction steps generalizing index c with
  | nil => exact not_false
  | cons step rest ih =>
    unfold runSteps
    split
    · exact ih (index + 1) c
    split
    · exact not_false
    · refine Conforms.bind ((runStep_proceeds hpath plan step c).mono fun outcome y hy => ?_)
      cases outcome with
      | error e => exact hy
      | ok c' => rw [show y = .free none from hy]; exact ih (index + 1) c'

theorem accountInfo_conforms (hpath : s.GetsTokensAt path) (previous : Option UserInfo) :
    (s.accountInfo now previous).Conforms (s.Goes path) (fun _ y => ¬y.HasClaim)
      (.free none) := by
  unfold accountInfo
  split
  · exact not_false
  · exact Conforms.bind (runSteps_conforms hpath _ 0 _ _)

theorem downloadLink_conforms (hpath : s.GetsTokensAt path) (t : Torrent) :
    (s.downloadLink now t).run.Conforms (s.Goes path) (fun _ y => ¬y.HasClaim) (.free none) := by
  unfold downloadLink
  split
  · exact not_false
  · refine Proceeds.released ((proceeds_result _).bind ?_)
    rintro ⟨detail, field⟩ _ rfl
    refine (proceeds_result _).bind ?_
    rintro request _ rfl
    refine send_bind_proceeds hpath fun x body => ?_
    dsimp only
    split
    · exact proceeds_result (.error _)
    · exact proceeds_pure _

end Site

/-- Every operation goes by the protocol of its site. -/
theorem Operation.conforms {s : Site} {path : Option String} (hpath : s.GetsTokensAt path)
    (o : Operation) :
    (o.talk s).Conforms (s.Goes path) (fun _ y => ¬y.HasClaim) (.free none) := by
  cases o with
  | search now keywords overlay => exact Conforms.map (s.search_conforms hpath keywords overlay)
  | accountInfo now previous => exact Conforms.map (s.accountInfo_conforms hpath previous)
  | downloadLink now t => exact Conforms.map (s.downloadLink_conforms hpath t)

/-! ### Sites of the built-in schemas -/

/-- Where a site of the schema gets its token, if it needs one. -/
def Schema.tokenPath? (schema : Schema) : Option String :=
  if schema.name = Schema.avistaz.name then some Schema.Avistaz.tokenPath else none

namespace Site

variable {s : Site} {schema : Schema}

/-- The site is made from a definition that names the schema, and the
application brings no authorizer of its own. -/
def OfSchema (s : Site) (schema : Schema) : Prop :=
  ∃ definition user hooks, Schema.named? (Schema.nameIn definition) = some schema ∧
    hooks.authorizer = none ∧ ofDefinition definition user hooks = .ok s

theorem OfSchema.mem (h : s.OfSchema schema) : schema ∈ Schema.builtin := by
  obtain ⟨definition, _, _, hnamed, -⟩ := h
  exact List.mem_of_find?_eq_some hnamed

theorem OfSchema.authorizer_eq (h : s.OfSchema schema) :
    s.hooks.authorizer = schema.hooks.authorizer := by
  obtain ⟨definition, user, hooks, hnamed, hnone, hs⟩ := h
  obtain ⟨_, m, hnamed', -, rfl⟩ := ofDefinition_eq_ok_iff.mp hs
  obtain rfl := Option.some.inj (hnamed.symm.trans hnamed')
  have hextend : (schema.hooks.extend hooks).authorizer = schema.hooks.authorizer := by
    simp [Hooks.extend, hnone]
  unfold ofMetadata
  split <;> exact hextend

theorem OfSchema.getsTokensAt (h : s.OfSchema schema) : s.GetsTokensAt schema.tokenPath? := by
  have hauth := h.authorizer_eq
  have hmem := h.mem
  simp only [Schema.builtin, List.mem_cons, List.not_mem_nil, or_false] at hmem
  rcases hmem with rfl | rfl | rfl | rfl | rfl | rfl
  · exact .inl hauth
  · exact .inl hauth
  · exact .inl hauth
  · exact .inl hauth
  · exact .inr ⟨_, hauth⟩
  · exact hauth

end Site

end SiteScrape
