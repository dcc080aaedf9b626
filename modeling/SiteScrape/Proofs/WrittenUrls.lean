import SiteScrape.Proofs.TaggedKeywords
import SiteScrape.Proofs.UrlParts

/-!
# Written URLs

The text of a URL in escaped parts is a URL again, and with the same query
(`exists_parse_text`). For that each reader is followed over what is written for
its part: `userInfo?`, `splitHost` and `port?` over an authority
(`behindSlashes_authority`), and what stands behind path and authority over query
and fragment (`queryBehind_tailChars`).
-/

namespace SiteScrape

theorem Text.trimRight_eq_self {p : Char → Bool} {cs : List Char} (h : ∀ c ∈ cs, p c = false) :
    trimRight p cs = cs := by
  rw [trimRight, dropWhile_eq_self fun c hc => h c (List.mem_reverse.mp (List.mem_of_head? hc)),
    List.reverse_reverse]

namespace Url

variable {u : Url} {cs behind user hostPort : List Char} {k : SchemeKind} {host : Host} {c : Char}
  {stop : Char → Bool}

/-- A reader stops behind what it reads. -/
theorem splitAtAny_append (hread : ∀ c ∈ cs, stop c = false)
    (hstop : ∀ c, behind.head? = some c → stop c = true) :
    splitAtAny stop (cs ++ behind) = (cs, behind) := by
  have hpos : ∀ c ∈ cs, (!stop c) = true := fun c hc => by simp [hread c hc]
  have hneg : ∀ c, behind.head? = some c → (!stop c) = false := fun c hc => by simp [hstop c hc]
  rw [splitAtAny, Text.takeWhile_append_stop hneg, Text.dropWhile_append_stop hneg,
    List.takeWhile_eq_self_iff.mpr hpos, List.dropWhile_eq_nil_iff.mpr hpos, List.nil_append]

/-! ### Queries and fragments -/

/-- Query and fragment as they are written. -/
def tailChars (u : Url) : List Char :=
  (marked "?" u.query).toList ++ (marked "#" u.fragment).toList

theorem toList_marked (mark s : String) : (marked mark (some s)).toList = mark.toList ++ s.toList :=
  String.toList_append

theorem head_tailChars (h : u.tailChars.head? = some c) : c = '?' ∨ c = '#' := by
  unfold tailChars at h
  cases hquery : u.query with
  | some q =>
    rw [hquery, toList_marked] at h
    exact .inl (Option.some.inj h).symm
  | none =>
    cases hfragment : u.fragment with
    | some f =>
      rw [hquery, hfragment, toList_marked] at h
      exact .inr (Option.some.inj h).symm
    | none =>
      rw [hquery, hfragment] at h
      cases h

theorem Escaped.plain_tailChars (h : Escaped u) :
    ∀ c ∈ u.tailChars, isPlain c = true ∧ c ≠ ' ' := by
  intro c hc
  rcases List.mem_append.mp hc with hc | hc
  · cases hquery : u.query with
    | none => simp [hquery, marked] at hc
    | some q =>
      rw [hquery, toList_marked] at hc
      rcases List.mem_append.mp hc with hc | hc
      · exact List.mem_singleton.mp hc ▸ by decide
      · exact plain_of_keepInQuery u.kind c (h.query q hquery c hc)
  · cases hfragment : u.fragment with
    | none => simp [hfragment, marked] at hc
    | some f =>
      rw [hfragment, toList_marked] at hc
      rcases List.mem_append.mp hc with hc | hc
      · exact List.mem_singleton.mp hc ▸ by decide
      · exact plain_of_keepInFragment c (h.fragment f hfragment c hc)

/-- The query is read again behind a path. -/
theorem queryBehind_tailChars (h : Escaped u) (hpath : ∀ c ∈ cs, c ≠ '?' ∧ c ≠ '#') :
    queryBehind u.kind (cs ++ u.tailChars) = u.query := by
  have hpos : ∀ c ∈ cs, (!(c = '?' || c = '#')) = true := by simpa using hpath
  unfold queryBehind tailChars
  rw [List.dropWhile_append_of_pos hpos]
  cases hquery : u.query with
  | none =>
    cases u.fragment with
    | none => rfl
    | some f =>
      rw [toList_marked]
      rfl
  | some q =>
    have hkeep := h.query q hquery
    have hmark : keepInQuery u.kind '#' = false := by cases u.kind <;> decide
    have hhash : ∀ c ∈ q.toList, (!(c = '#')) = true := by
      intro c hc
      rw [Bool.not_eq_true', decide_eq_false_iff_not]
      rintro rfl
      exact absurd (hmark.symm.trans (hkeep '#' hc)) Bool.false_ne_true
    have htake : (q.toList ++ (marked "#" u.fragment).toList).takeWhile (fun c => !(c = '#')) =
        q.toList := by
      rw [List.takeWhile_append_of_pos hhash]
      cases u.fragment with
      | none => simp [marked]
      | some f => simp [toList_marked]
    rw [toList_marked]
    change some (String.ofList (Percent.encodeChars (keepInQuery u.kind)
      ((q.toList ++ (marked "#" u.fragment).toList).takeWhile fun c => !(c = '#')))) = _
    rw [htake, Percent.encodeChars_eq_self hkeep, String.ofList_toList]

/-- Whatever is read up to there, with that query behind. -/
theorem query_withTail {v : Url} (h : Escaped u) (hpath : ∀ c ∈ cs, c ≠ '?' ∧ c ≠ '#')
    (hkind : v.kind = u.kind) (hnone : v.query = none) :
    (v.withTail (cs ++ u.tailChars)).query = u.query := by
  obtain ⟨fragment, heq, -⟩ := exists_withTail_eq v (cs ++ u.tailChars)
  rw [heq, hnone, hkind, queryBehind_tailChars h hpath]
  exact Option.or_none

/-! ### Paths -/

/-- The segments as they are written. -/
def segmentChars (ss : List String) : List Char := ss.flatMap fun s => '/' :: s.toList

theorem keepInPath_of_mem {ss : List String} (hss : ∀ s ∈ ss, IsSegment s)
    (hc : c ∈ segmentChars ss) : keepInPath c = true := by
  obtain ⟨s, hs, hc⟩ := List.mem_flatMap.mp hc
  rcases List.mem_cons.mp hc with rfl | hc
  · decide
  · exact (Bool.and_eq_true_iff.mp (hss s hs c hc)).1

theorem toList_pathText {ss : List String} (hpath : u.path = .segments ss) : u.pathText.toList =
    (if u.host.isNone && ss.length > 1 && ss.head? == some "" then "/." else "").toList ++
      segmentChars ss := by
  unfold pathText
  rw [hpath, String.toList_append, String.toList_join, List.flatMap_map]
  simp [segmentChars]

theorem ne_of_keepInPath (h : keepInPath c = true) : c ≠ '?' ∧ c ≠ '#' := by
  constructor <;> rintro rfl <;> exact absurd h (by decide)

theorem ne_of_mem_segmentChars {ss : List String} (hss : ∀ s ∈ ss, IsSegment s) :
    ∀ c ∈ segmentChars ss, c ≠ '?' ∧ c ≠ '#' := fun _ hc =>
  ne_of_keepInPath (keepInPath_of_mem hss hc)

/-! ### Authorities -/

/-- User name and password as they are written. -/
def userChars (u : Url) : List Char :=
  u.username.toList ++ if u.password.isEmpty then [] else ':' :: u.password.toList

/-- The port as it is written. -/
def portChars : Option Nat → List Char
  | some p => ':' :: Nat.toDigits 10 p
  | none => []

/-- Host and port as they are written. -/
def hostPortChars (host : Host) (port : Option Nat) : List Char :=
  host.text.toList ++ portChars port

/-- A user is written with a mark behind it. -/
def authorityChars (u : Url) (host : Host) : List Char :=
  if u.username.isEmpty && u.password.isEmpty then hostPortChars host u.port
  else userChars u ++ '@' :: hostPortChars host u.port

theorem toList_authorityText (hhost : u.host = some host) :
    u.authorityText.toList = '/' :: '/' :: authorityChars u host := by
  unfold authorityText authorityChars hostPortChars userChars
  rw [hhost]
  cases u.username.isEmpty <;> cases u.password.isEmpty <;> cases u.port <;> simp [portChars]

/-- A character of a user, host or port. -/
def inAuthority (c : Char) : Bool :=
  isPlain c && !(c = ' ' || c = '/' || c = '\\' || c = '?' || c = '#' || c = '@')

theorem plain_of_inAuthority (h : inAuthority c = true) : isPlain c = true ∧ c ≠ ' ' := by
  refine ⟨(Bool.and_eq_true_iff.mp h).1, ?_⟩
  rintro rfl
  exact absurd h (by decide)

theorem not_ends (h : inAuthority c = true) (k : SchemeKind) :
    (isSlash k c || c = '?' || c = '#') = false := by
  simp only [inAuthority, Bool.and_eq_true, Bool.not_eq_true', Bool.or_eq_false_iff,
    decide_eq_false_iff_not] at h
  simp [isSlash, h.2]

theorem at_not_mem (h : ∀ c ∈ cs, inAuthority c = true) : '@' ∉ cs :=
  fun hat => absurd (h '@' hat) (by decide)

theorem inAuthority_of_keepInUser (h : keepInUser c = true) : inAuthority c = true := by
  simp only [keepInUser, keepInPath, keepInFragment, Bool.and_eq_true, Bool.not_eq_true',
    Bool.or_eq_false_iff, decide_eq_false_iff_not] at h
  simp [inAuthority, h]

theorem inAuthority_of_spells (h : (c.isLower || c.isDigit) = true) : inAuthority c = true :=
  Text.forall_ascii (p := fun c => (c.isLower || c.isDigit) = true → inAuthority c = true)
    (by decide +kernel) (Punycode.toNat_lt_of_spells h) h

theorem inAuthority_of_isText (h : Host.IsText cs) : ∀ c ∈ cs, inAuthority c = true := by
  cases h with
  | plain hnamed =>
    intro c hc
    have hnamed := hnamed c hc
    simp only [Host.isNamed, Host.isDelimiter, Bool.and_eq_true, Bool.not_eq_true',
      Bool.or_eq_false_iff, decide_eq_false_iff_not] at hnamed
    simp [inAuthority, hnamed]
  | bracketed hinner =>
    intro c hc
    simp only [List.mem_cons, List.mem_append, List.not_mem_nil, or_false] at hc
    rcases hc with rfl | hc | rfl
    · decide
    · rcases hinner c hc with rfl | hspells
      · decide
      · exact inAuthority_of_spells hspells
    · decide

theorem inAuthority_of_mem_portChars {port : Option Nat} :
    ∀ c ∈ portChars port, inAuthority c = true := by
  cases port with
  | none => simp [portChars]
  | some p =>
    intro c hc
    rcases List.mem_cons.mp hc with rfl | hc
    · decide
    · have hdigit : c.isDigit = true := Nat.isDigit_of_mem_toDigits (by decide) (by decide) hc
      exact inAuthority_of_spells (by rw [hdigit, Bool.or_true])

/-- What stands behind an authority begins with the mark of a path, a query or a
fragment. -/
def EndsAuthority (behind : List Char) : Prop :=
  ∀ c, behind.head? = some c → c = '/' ∨ c = '?' ∨ c = '#'

theorem EndsAuthority.ends (h : EndsAuthority behind) (k : SchemeKind)
    (hc : behind.head? = some c) : (isSlash k c || c = '?' || c = '#') = true := by
  rcases h c hc with rfl | rfl | rfl <;> simp [isSlash]

theorem splitAtAny_authority (k : SchemeKind) (hcs : ∀ c ∈ cs, inAuthority c = true ∨ c = '@')
    (hbehind : EndsAuthority behind) :
    splitAtAny (fun c => isSlash k c || c = '?' || c = '#') (cs ++ behind) = (cs, behind) := by
  refine splitAtAny_append (fun c hc => ?_) fun c hc => hbehind.ends k hc
  rcases hcs c hc with hin | rfl
  · exact not_ends hin k
  · simp [isSlash]

/-- Nothing is read as a user where nothing is marked as one. -/
theorem userInfo?_append (hhost : ∀ c ∈ hostPort, inAuthority c = true)
    (hbehind : EndsAuthority behind) :
    userInfo? k (hostPort ++ behind) = .ok ("", "", hostPort ++ behind) := by
  have hat : ¬ hostPort.contains '@' = true := by simpa using at_not_mem hhost
  unfold userInfo?
  rw [splitAtAny_authority k (fun c hc => .inl (hhost c hc)) hbehind]
  dsimp only
  rw [if_neg hat]

/-- A user is read in front of its mark, up to a colon. -/
theorem userInfo?_append_cons (huser : ∀ c ∈ user, inAuthority c = true) (hne : user ≠ [])
    (hhost : ∀ c ∈ hostPort, inAuthority c = true) (hbehind : EndsAuthority behind) :
    userInfo? k (user ++ '@' :: hostPort ++ behind) =
      .ok (String.ofList (Percent.encodeChars keepInUser (splitAtAny (· = ':') user).1),
        String.ofList (Percent.encodeChars keepInUser ((splitAtAny (· = ':') user).2.drop 1)),
        hostPort ++ behind) := by
  have hall : ∀ c ∈ user ++ '@' :: hostPort, inAuthority c = true ∨ c = '@' := by
    intro c hc
    simp only [List.mem_append, List.mem_cons] at hc
    rcases hc with hc | rfl | hc
    · exact .inl (huser c hc)
    · exact .inr rfl
    · exact .inl (hhost c hc)
  have hstop : ∀ c ∈ hostPort.reverse, decide (c ≠ '@') = true := fun c hc =>
    decide_eq_true fun hat => at_not_mem hhost (hat ▸ List.mem_reverse.mp hc)
  have hbehindAt : ((user ++ '@' :: hostPort).reverse.takeWhile (· ≠ '@')).reverse = hostPort := by
    rw [List.reverse_append, List.reverse_cons, List.append_assoc, List.singleton_append,
      List.takeWhile_append_of_pos hstop, List.takeWhile_cons_of_neg (by simp), List.append_nil,
      List.reverse_reverse]
  have htake : (user ++ '@' :: hostPort).take
      ((user ++ '@' :: hostPort).length - hostPort.length - 1) = user :=
    List.take_left' (by simp; omega)
  unfold userInfo?
  rw [splitAtAny_authority k hall hbehind]
  dsimp only
  rw [hbehindAt, htake, if_pos (by simp), if_neg (by simpa using hne)]

theorem inAuthority_of_mem_hostPort (h : HasAuthority u host) :
    ∀ c ∈ hostPortChars host u.port, inAuthority c = true := fun c hc =>
  (List.mem_append.mp hc).elim (inAuthority_of_isText h.text c) (inAuthority_of_mem_portChars c)

theorem inAuthority_of_mem_userChars (h : HasAuthority u host) :
    ∀ c ∈ userChars u, inAuthority c = true := by
  intro c hc
  rcases List.mem_append.mp hc with hc | hc
  · exact inAuthority_of_keepInUser (h.user c (List.mem_append_left _ hc))
  · split at hc
    · cases hc
    · rcases List.mem_cons.mp hc with rfl | hc
      · decide
      · exact inAuthority_of_keepInUser (h.user c (List.mem_append_right _ hc))

theorem inAuthority_of_mem_authorityChars (h : HasAuthority u host) :
    ∀ c ∈ authorityChars u host, inAuthority c = true ∨ c = '@' := by
  have hhost := inAuthority_of_mem_hostPort h
  intro c hc
  unfold authorityChars at hc
  split at hc
  · exact .inl (hhost c hc)
  · simp only [List.mem_append, List.mem_cons] at hc
    rcases hc with hc | rfl | hc
    · exact .inl (inAuthority_of_mem_userChars h c hc)
    · exact .inr rfl
    · exact .inl (hhost c hc)

/-- The first colon of a written user stands behind the name. -/
theorem splitAtAny_userChars (hname : ∀ c ∈ u.username.toList, keepInUser c = true) :
    splitAtAny (· = ':') (userChars u) =
      (u.username.toList, if u.password.isEmpty then [] else ':' :: u.password.toList) := by
  have hcolon : ∀ c ∈ u.username.toList, decide (c = ':') = false := by
    intro c hc
    rw [decide_eq_false_iff_not]
    rintro rfl
    exact absurd (hname ':' hc) (by decide)
  refine splitAtAny_append hcolon fun c hc => ?_
  split at hc
  · cases hc
  · exact decide_eq_true (Option.some.inj hc).symm

theorem userChars_eq_nil (h : userChars u = []) :
    (u.username.isEmpty && u.password.isEmpty) = true := by
  obtain ⟨hname, hpassword⟩ := List.append_eq_nil_iff.mp h
  split at hpassword
  · next hempty => simpa [String.isEmpty_iff, hempty] using hname
  · cases hpassword

/-- User name and password are read again. -/
theorem userInfo?_authorityChars (h : HasAuthority u host) (hbehind : EndsAuthority behind) :
    userInfo? k (authorityChars u host ++ behind) =
      .ok (u.username, u.password, hostPortChars host u.port ++ behind) := by
  have hhost := inAuthority_of_mem_hostPort h
  have hname : ∀ c ∈ u.username.toList, keepInUser c = true := fun c hc =>
    h.user c (List.mem_append_left _ hc)
  have hpassword : ∀ c ∈ u.password.toList, keepInUser c = true := fun c hc =>
    h.user c (List.mem_append_right _ hc)
  unfold authorityChars
  split
  · next hempty =>
    simp only [Bool.and_eq_true, String.isEmpty_iff] at hempty
    rw [userInfo?_append hhost hbehind, hempty.1, hempty.2]
  · next hsome =>
    have hne : userChars u ≠ [] := fun hnil => hsome (userChars_eq_nil hnil)
    have hdrop : (if u.password.isEmpty then [] else ':' :: u.password.toList).drop 1 =
        u.password.toList := by
      split
      · next hempty => simp [String.isEmpty_iff.mp hempty]
      · rfl
    rw [userInfo?_append_cons (inAuthority_of_mem_userChars h) hne hhost hbehind,
      splitAtAny_userChars hname]
    dsimp only
    rw [hdrop, Percent.encodeChars_eq_self hname, Percent.encodeChars_eq_self hpassword,
      String.ofList_toList, String.ofList_toList]

theorem splitHost_cons (k : SchemeKind) (inside : Bool) (c : Char) (rest : List Char) :
    splitHost k inside (c :: rest) =
      if (c = ':' && !inside) || isSlash k c || c = '?' || c = '#' then ([], c :: rest)
      else
        let read := splitHost k (if c = '[' then true else if c = ']' then false else inside) rest
        (c :: read.1, read.2) := rfl

/-- The part of a host outside brackets. -/
theorem splitHost_plain (hcs : ∀ c ∈ cs, Host.isNamed c = true) (k : SchemeKind)
    (behind : List Char) : splitHost k false (cs ++ behind) =
      (cs ++ (splitHost k false behind).1, (splitHost k false behind).2) := by
  induction cs with
  | nil => rfl
  | cons c cs ih =>
    obtain ⟨hc, hcs⟩ := List.forall_mem_cons.mp hcs
    simp only [Host.isNamed, Host.isDelimiter, Bool.and_eq_true, Bool.not_eq_true',
      Bool.or_eq_false_iff, decide_eq_false_iff_not] at hc
    rw [List.cons_append, splitHost_cons, if_neg (by simp [isSlash, hc]), if_neg (by simp [hc]),
      if_neg (by simp [hc]), ih hcs]
    rfl

theorem splitHost_inside {inner : List Char}
    (hinner : ∀ c ∈ inner, c = ':' ∨ (c.isLower || c.isDigit) = true) (k : SchemeKind)
    (behind : List Char) : splitHost k true (inner ++ ']' :: behind) =
      (inner ++ ']' :: (splitHost k false behind).1, (splitHost k false behind).2) := by
  induction inner with
  | nil =>
    rw [List.nil_append, splitHost_cons, if_neg (by simp [isSlash])]
    rfl
  | cons c inner ih =>
    obtain ⟨hc, hinner⟩ := List.forall_mem_cons.mp hinner
    have hends : (isSlash k c || c = '?' || c = '#') = false := by
      rcases hc with rfl | hc
      · simp [isSlash]
      · exact not_ends (inAuthority_of_spells hc) k
    have hbracket : c ≠ '[' ∧ c ≠ ']' := by
      constructor <;> rintro rfl <;> exact absurd hc (by decide)
    rw [List.cons_append, splitHost_cons, if_neg (by simpa using hends), if_neg hbracket.1,
      if_neg hbracket.2, ih hinner]
    rfl

theorem splitHost_append (h : Host.IsText cs) (k : SchemeKind)
    (hbehind : ∀ c, behind.head? = some c → c = ':' ∨ c = '/' ∨ c = '?' ∨ c = '#') :
    splitHost k false (cs ++ behind) = (cs, behind) := by
  have hnone : splitHost k false behind = ([], behind) := by
    cases behind with
    | nil => rfl
    | cons c behind =>
      rw [splitHost_cons, if_pos]
      rcases hbehind c rfl with rfl | rfl | rfl | rfl <;> simp [isSlash]
  cases h with
  | plain hnamed => rw [splitHost_plain hnamed, hnone, List.append_nil]
  | bracketed hinner =>
    rw [List.cons_append, List.append_assoc, List.singleton_append, splitHost_cons,
      if_neg (by simp [isSlash]), if_pos rfl, splitHost_inside hinner, hnone]

/-- A port is read again, unless it is the scheme's own. -/
theorem port?_portChars {port : Option Nat} (scheme : String)
    (hport : ∀ p, port = some p → p < 65536) (hbehind : EndsAuthority behind) :
    ∃ port', port? scheme (portChars port ++ behind) = .ok (port', behind) := by
  cases port with
  | none =>
    refine ⟨none, port?_of_head fun hhead => ?_⟩
    rcases hbehind ':' hhead with h | h | h <;> cases h
  | some p =>
    have hdigits : ∀ c ∈ Nat.toDigits 10 p, c.isDigit = true := fun c hc =>
      Nat.isDigit_of_mem_toDigits (by decide) (by decide) hc
    have hstop : ∀ c, behind.head? = some c → c.isDigit = false := by
      intro c hc
      rcases hbehind c hc with rfl | rfl | rfl <;> rfl
    have hsplit : splitAtAny (fun c => !c.isDigit) (Nat.toDigits 10 p ++ behind) =
        (Nat.toDigits 10 p, behind) :=
      splitAtAny_append (by simpa using hdigits) (by simpa using hstop)
    simp only [splitAtAny, Bool.not_not, Prod.mk.injEq] at hsplit
    obtain ⟨htake, hdrop⟩ := hsplit
    have hnat : Decimal.natOf (Nat.toDigits 10 p) = p :=
      Nat.ofDigitChars_toDigits (by decide) (by decide)
    have hends : endsPort behind = true := by
      cases behind with
      | nil => rfl
      | cons c behind => rcases hbehind c rfl with rfl | rfl | rfl <;> rfl
    rw [portChars, List.cons_append, port?_colon, htake, hdrop, hnat, hends]
    have hlt := hport p rfl
    rw [if_neg (by simp; omega)]
    split
    · exact ⟨_, rfl⟩
    · exact ⟨_, rfl⟩

theorem endsAuthority_segmentChars (u : Url) (ss : List String) :
    EndsAuthority (segmentChars ss ++ u.tailChars) := by
  intro c hc
  cases ss with
  | nil => exact .inr (head_tailChars hc)
  | cons s ss => exact .inl (Option.some.inj hc).symm

/-- An authority is read again, and the query behind it. -/
theorem behindSlashes_authorityChars {ss : List String} (h : Escaped u)
    (hauthority : HasAuthority u host) (hkind : u.kind ≠ .file) (hss : ∀ s ∈ ss, IsSegment s) :
    ∃ u', behindSlashes u.scheme
      (authorityChars u host ++ (segmentChars ss ++ u.tailChars)) = .ok u' ∧
      u'.query = u.query := by
  have hbehind := endsAuthority_segmentChars u ss
  obtain ⟨port, hport⟩ := port?_portChars u.scheme hauthority.port hbehind
  have hhead : ∀ c, (portChars u.port ++ (segmentChars ss ++ u.tailChars)).head? = some c →
      c = ':' ∨ c = '/' ∨ c = '?' ∨ c = '#' := by
    intro c hc
    cases hport : u.port with
    | none =>
      rw [hport] at hc
      exact .inr (hbehind c hc)
    | some p =>
      rw [hport] at hc
      exact .inl (Option.some.inj hc).symm
  -- only where hosts have no meaning can one be empty
  have hother : host.text.toList = [] → u.kind = .other := fun hnil => by
    cases hk : u.kind with
    | web => exact absurd hnil (hauthority.named hk)
    | file => exact absurd hk hkind
    | other => rfl
  obtain ⟨again, hagain⟩ : ∃ again, (if u.kind.isSpecial then Host.domain? host.text.toList
      else Host.uninterpreted? host.text.toList) = some again := by
    by_cases hnil : host.text.toList = []
    · rw [hother hnil, hnil]
      exact ⟨_, rfl⟩
    · exact ⟨host, hauthority.again hnil⟩
  refine ⟨_, behindSlashes_eq_ok_iff.mpr ⟨u.username, u.password, _, host.text.toList, _, again,
    port, _, userInfo?_authorityChars hauthority hbehind, ?_, ?_, hagain, hport, rfl⟩, ?_⟩
  · rw [hostPortChars, List.append_assoc, splitHost_append hauthority.text _ hhead]
  · intro hnil
    obtain ⟨hname, hpassword, hnone⟩ := hauthority.alone (.inl hnil)
    refine ⟨congrArg SchemeKind.isSpecial (hother hnil), hname, hpassword, fun hcolon => ?_⟩
    rw [hnone] at hcolon
    rcases hbehind ':' hcolon with h | h | h <;> cases h
  · exact query_withTail h (ne_of_mem_segmentChars hss) rfl rfl

/-! ### Written URLs -/

theorem not_low_of_isAlpha (h : c.isAlpha = true) : decide (c.toNat ≤ 32) = false := by
  have hrange := range_of_isAlpha h
  rw [decide_eq_false_iff_not]
  omega

theorem not_low_of_plain (h : isPlain c = true) (hspace : c ≠ ' ') :
    decide (c.toNat ≤ 32) = false := by
  simp only [isPlain, Bool.and_eq_true, decide_eq_true_eq] at h
  rw [decide_eq_false_iff_not, Nat.not_le]
  refine Nat.lt_of_le_of_ne h.1 fun h32 => hspace ?_
  rw [← Char.ofNat_toNat c, ← h32]

/-- No tab or line break is written. -/
theorem not_break (h : isSchemeChar c = true ∨ isPlain c = true) :
    (c ≠ '\t' && c ≠ '\n' && c ≠ '\r') = true := by
  have hne {d : Char} (hd : isSchemeChar d = false ∧ isPlain d = false) : c ≠ d := by
    rintro rfl
    rw [hd.1, hd.2] at h
    exact h.elim Bool.false_ne_true Bool.false_ne_true
  have htab : c ≠ '\t' := hne (by decide)
  have hline : c ≠ '\n' := hne (by decide)
  have hreturn : c ≠ '\r' := hne (by decide)
  simp [htab, hline, hreturn]

/-- The text of a URL spells its scheme, and what it says behind it without blanks
at the end. -/
theorem significant_text (hscheme : IsScheme u.scheme)
    (hplain : ∀ c ∈ cs, isPlain c = true)
    (htext : u.text.toList = u.scheme.toList ++ ':' :: cs) :
    significant u.text = u.scheme.toList ++ ':' :: Text.trimRight (fun c => c.toNat ≤ 32) cs := by
  have hfront : ∀ c, (u.scheme.toList ++ ':' :: cs).head? = some c →
      decide (c.toNat ≤ 32) = false := by
    intro c hc
    obtain ⟨hhead, -⟩ := Bool.and_eq_true_iff.mp hscheme.name
    cases hlist : u.scheme.toList with
    | nil =>
      rw [hlist] at hhead
      cases hhead
    | cons first rest =>
      rw [hlist] at hhead hc
      obtain rfl : first = c := Option.some.inj hc
      exact not_low_of_isAlpha hhead
  have hkept : ∀ c ∈ u.scheme.toList ++ ':' :: Text.trimRight (fun c => c.toNat ≤ 32) cs,
      (c ≠ '\t' && c ≠ '\n' && c ≠ '\r') = true := by
    intro c hc
    rcases List.mem_append.mp hc with hc | hc
    · exact not_break (.inl (isSchemeChar_of_mem hscheme.name hc))
    rcases List.mem_cons.mp hc with rfl | hc
    · decide
    · obtain ⟨gone, hgone, -⟩ := Text.exists_trimRight (fun c => decide (c.toNat ≤ 32)) cs
      exact not_break (.inr (hplain c (hgone ▸ List.mem_append_left _ hc)))
  rw [significant, htext, Text.trimBoth, Text.trimLeft, Text.dropWhile_eq_self hfront,
    Text.trimRight_append_cons (by decide), List.filter_eq_self.mpr hkept]

theorem parse_text (hscheme : IsScheme u.scheme) (hplain : ∀ c ∈ cs, isPlain c = true)
    (htext : u.text.toList = u.scheme.toList ++ ':' :: cs) : parse u.text =
      behindScheme none u.scheme (Text.trimRight (fun c => c.toNat ≤ 32) cs) := by
  unfold parse parseWith
  rw [significant_text hscheme hplain htext]
  dsimp only
  rw [hscheme.scheme?_append]

theorem toList_text (u : Url) : u.text.toList = u.scheme.toList ++
    ':' :: (u.authorityText.toList ++ u.pathText.toList ++ u.tailChars) := by
  simp [text, tailChars]

/-- Without a blank, what stands behind the scheme is all read. -/
theorem parse_text_of_visible (hscheme : IsScheme u.scheme)
    (hplain : ∀ c ∈ cs, isPlain c = true ∧ c ≠ ' ')
    (htext : u.text.toList = u.scheme.toList ++ ':' :: cs) :
    parse u.text = behindScheme none u.scheme cs := by
  have hlow : ∀ c ∈ cs, decide (c.toNat ≤ 32) = false := fun c hc =>
    not_low_of_plain (hplain c hc).1 (hplain c hc).2
  rw [parse_text hscheme (fun c hc => (hplain c hc).1) htext, Text.trimRight_eq_self hlow]

/-- No host is taken for a drive. -/
theorem isDriveLetter_of_isText (h : Host.IsText cs) :
    isDriveLetter (String.ofList cs) = false := by
  unfold isDriveLetter
  rw [String.toList_ofList]
  cases h with
  | plain hnamed =>
    split
    · next a b =>
      have hcolon : b ≠ ':' := by
        rintro rfl
        exact absurd (hnamed ':' (by simp)) (by decide)
      have hbar : b ≠ '|' := by
        rintro rfl
        exact absurd (hnamed '|' (by simp)) (by decide)
      simp [hcolon, hbar]
    · rfl
  | bracketed hinner =>
    split
    · next a b heq =>
      obtain ⟨rfl, -⟩ := List.cons.inj heq
      rfl
    · rfl

theorem exists_file_authorityChars {ss : List String} {b : Option Url} (h : Escaped u)
    (hauthority : HasAuthority u host) (hkind : u.kind = .file) (hss : ∀ s ∈ ss, IsSegment s) :
    ∃ u', file b ('/' :: '/' :: (authorityChars u host ++ (segmentChars ss ++ u.tailChars))) =
      .ok u' ∧ u'.query = u.query := by
  obtain ⟨hname, hpassword, hport⟩ := hauthority.alone (.inr hkind)
  have hquery {host : Host} {path : UrlPath} :
      (withTail { scheme := "file", host := some host, path }
        (segmentChars ss ++ u.tailChars)).query = u.query :=
    query_withTail h (ne_of_mem_segmentChars hss) hkind.symm rfl
  have hchars : authorityChars u host = host.text.toList := by
    simp [authorityChars, hname, hpassword, hport, hostPortChars, portChars]
  have hsplit : splitAtAny (fun c => (decide (c = '/') || decide (c = '\\')) || c = '?' || c = '#')
      (host.text.toList ++ (segmentChars ss ++ u.tailChars)) =
      (host.text.toList, segmentChars ss ++ u.tailChars) :=
    splitAtAny_authority .file (fun c hc => .inl (inAuthority_of_isText hauthority.text c hc))
      (endsAuthority_segmentChars u ss)
  rw [hchars]
  unfold file
  simp only [hsplit, isDriveLetter_of_isText hauthority.text, Bool.false_eq_true, if_false]
  rw [if_pos (by decide)]
  split
  · exact ⟨_, rfl, hquery⟩
  · next hne =>
    have hagain := hauthority.again (by simpa using hne)
    rw [hkind] at hagain
    change Host.domain? host.text.toList = some host at hagain
    rw [hagain]
    exact ⟨_, rfl, hquery⟩

/-- No blank is written behind the scheme. -/
theorem plain_of_mem_hosted {ss : List String} (h : Escaped u) (hauthority : HasAuthority u host)
    (hss : ∀ s ∈ ss, IsSegment s) :
    ∀ c ∈ '/' :: '/' :: (authorityChars u host ++ (segmentChars ss ++ u.tailChars)),
      isPlain c = true ∧ c ≠ ' ' := by
  intro c hc
  simp only [List.mem_cons, List.mem_append] at hc
  rcases hc with rfl | rfl | hc | hc | hc
  · decide
  · decide
  · rcases inAuthority_of_mem_authorityChars hauthority c hc with hin | rfl
    · exact plain_of_inAuthority hin
    · decide
  · exact plain_of_keepInPath c (keepInPath_of_mem hss hc)
  · exact h.plain_tailChars c hc

/-- On the web any number of slashes stands before an authority, which begins with none. -/
theorem dropWhile_slashes_authorityChars (hauthority : HasAuthority u host) (hkind : u.kind = .web)
    (behind : List Char) :
    ('/' :: '/' :: (authorityChars u host ++ behind)).dropWhile (fun c => c = '/' || c = '\\') =
      authorityChars u host ++ behind := by
  have hne : authorityChars u host ≠ [] := by
    unfold authorityChars hostPortChars
    split <;> simp [hauthority.named hkind]
  rw [List.dropWhile_cons_of_pos (by decide), List.dropWhile_cons_of_pos (by decide)]
  refine Text.dropWhile_eq_self fun c hc => ?_
  rw [List.head?_append_of_ne_nil _ hne] at hc
  rcases inAuthority_of_mem_authorityChars hauthority c (List.mem_of_head? hc) with hin | rfl
  · exact (Bool.or_eq_false_iff.mp (Bool.or_eq_false_iff.mp (not_ends hin .web)).1).1
  · decide

theorem exists_parse_hosted {ss : List String} (h : Escaped u) (hhost : u.host = some host)
    (hauthority : HasAuthority u host) (hpath : u.path = .segments ss)
    (hss : ∀ s ∈ ss, IsSegment s) :
    ∃ u', parse u.text = .ok u' ∧ u'.query = u.query := by
  have htext : u.text.toList = u.scheme.toList ++
      ':' :: '/' :: '/' :: (authorityChars u host ++ (segmentChars ss ++ u.tailChars)) := by
    rw [toList_text, toList_authorityText hhost, toList_pathText hpath, hhost]
    simp
  rw [parse_text_of_visible h.scheme (plain_of_mem_hosted h hauthority hss) htext]
  unfold behindScheme
  cases hk : u.kind with
  | web =>
    have hk' : SchemeKind.ofScheme u.scheme = .web := hk
    simp only [hk', dropWhile_slashes_authorityChars hauthority hk]
    exact behindSlashes_authorityChars h hauthority (by simp [hk]) hss
  | other =>
    have hk' : SchemeKind.ofScheme u.scheme = .other := hk
    simp only [hk']
    exact behindSlashes_authorityChars h hauthority (by simp [hk]) hss
  | file =>
    have hk' : SchemeKind.ofScheme u.scheme = .file := hk
    simp only [hk']
    exact exists_file_authorityChars h hauthority hk hss

theorem behindScheme_rooted {scheme : String} (hkind : SchemeKind.ofScheme scheme = .other)
    (hhead : cs.head? ≠ some '/') : behindScheme none scheme ('/' :: cs) =
      .ok (withTail { scheme, path := pathFrom .other [] ('/' :: cs) } ('/' :: cs)) := by
  unfold behindScheme
  simp only [hkind]
  split
  · next rest heq =>
    cases heq
    exact absurd rfl hhead
  · rfl
  · next hslash => exact absurd rfl (hslash cs)

theorem behindScheme_plain {scheme : String} (hkind : SchemeKind.ofScheme scheme = .other)
    (hhead : cs.head? ≠ some '/') : ∃ path, behindScheme none scheme cs =
      .ok (withTail { scheme, path } cs) := by
  unfold behindScheme
  simp only [hkind]
  split
  · exact absurd rfl hhead
  · exact absurd rfl hhead
  · exact ⟨_, rfl⟩

theorem keepInPath_of_mem_pathText {ss : List String} (hpath : u.path = .segments ss)
    (hss : ∀ s ∈ ss, IsSegment s) : ∀ c ∈ u.pathText.toList, keepInPath c = true := by
  intro c hc
  rw [toList_pathText hpath] at hc
  rcases List.mem_append.mp hc with hc | hc
  · split at hc
    · exact List.all_eq_true.mp (show "/.".toList.all keepInPath = true by decide) c hc
    · cases hc
  · exact keepInPath_of_mem hss hc

/-- A mark keeps the path of a URL without a host from looking like an authority. -/
theorem exists_rooted_pathText {ss : List String} (hhost : u.host = none)
    (hpath : u.path = .segments ss) (hne : ss ≠ []) (hss : ∀ s ∈ ss, IsSegment s) :
    ∃ rest, u.pathText.toList ++ u.tailChars = '/' :: rest ∧ rest.head? ≠ some '/' := by
  obtain ⟨s, ss, rfl⟩ := List.exists_cons_of_ne_nil hne
  rw [toList_pathText hpath]
  split
  · exact ⟨'.' :: (segmentChars (s :: ss) ++ u.tailChars), rfl, by simp⟩
  · next hmark =>
    refine ⟨s.toList ++ segmentChars ss ++ u.tailChars, rfl, fun hslash => ?_⟩
    cases hs : s.toList with
    | nil =>
      obtain rfl : ss = [] := by
        simpa [hhost, String.toList_eq_nil_iff.mp hs] using hmark
      rw [hs] at hslash
      rcases head_tailChars hslash with h | h <;> cases h
    | cons c rest =>
      have hc := hss s List.mem_cons_self c (hs ▸ List.mem_cons_self)
      rw [hs] at hslash
      obtain rfl : c = '/' := Option.some.inj hslash
      exact absurd hc (by decide)

theorem exists_parse_rooted {ss : List String} (h : Escaped u) (hkind : u.kind = .other)
    (hhost : u.host = none) (hpath : u.path = .segments ss) (hne : ss ≠ [])
    (hss : ∀ s ∈ ss, IsSegment s) : ∃ u', parse u.text = .ok u' ∧ u'.query = u.query := by
  have hchars := keepInPath_of_mem_pathText hpath hss
  have hplain : ∀ c ∈ u.pathText.toList ++ u.tailChars, isPlain c = true ∧ c ≠ ' ' := fun c hc =>
    (List.mem_append.mp hc).elim (fun hc => plain_of_keepInPath c (hchars c hc))
      (h.plain_tailChars c)
  have htext : u.text.toList = u.scheme.toList ++ ':' :: (u.pathText.toList ++ u.tailChars) := by
    rw [toList_text, authorityText, hhost]
    rfl
  obtain ⟨rest, hrest, hhead⟩ := exists_rooted_pathText hhost hpath hne hss
  rw [parse_text_of_visible h.scheme hplain htext, hrest, behindScheme_rooted hkind hhead, ← hrest]
  exact ⟨_, rfl, query_withTail h (fun c hc => ne_of_keepInPath (hchars c hc)) rfl rfl⟩

theorem exists_trimRight_tailChars (h : Escaped u) (cs : List Char) : ∃ cs', cs' <+: cs ∧
    Text.trimRight (fun c => c.toNat ≤ 32) (cs ++ u.tailChars) = cs' ++ u.tailChars := by
  have hlow : ∀ c ∈ u.tailChars, decide (c.toNat ≤ 32) = false := fun c hc =>
    not_low_of_plain (h.plain_tailChars c hc).1 (h.plain_tailChars c hc).2
  cases htail : u.tailChars with
  | nil =>
    obtain ⟨gone, hgone, -⟩ := Text.exists_trimRight (fun c => decide (c.toNat ≤ 32)) cs
    exact ⟨_, ⟨gone, hgone.symm⟩, by rw [List.append_nil, List.append_nil]⟩
  | cons c rest =>
    rw [htail] at hlow
    obtain ⟨hc, hrest⟩ := List.forall_mem_cons.mp hlow
    exact ⟨cs, List.prefix_rfl, by rw [Text.trimRight_append_cons hc, Text.trimRight_eq_self hrest]⟩

theorem of_inOpaque (h : inOpaque c = true) : isPlain c = true ∧ c ≠ '?' ∧ c ≠ '#' := by
  simpa [inOpaque, and_assoc] using h

theorem exists_parse_plain {s : String} (h : Escaped u) (hkind : u.kind = .other)
    (hhost : u.host = none) (hpath : u.path = .opaqueText s)
    (hs : ∀ c ∈ s.toList, inOpaque c = true) (hhead : s.toList.head? ≠ some '/') :
    ∃ u', parse u.text = .ok u' ∧ u'.query = u.query := by
  have htext : u.text.toList = u.scheme.toList ++ ':' :: (s.toList ++ u.tailChars) := by
    rw [toList_text, authorityText, hhost, pathText, hpath]
    rfl
  have hplain : ∀ c ∈ s.toList ++ u.tailChars, isPlain c = true := fun c hc =>
    (List.mem_append.mp hc).elim (fun hc => (of_inOpaque (hs c hc)).1)
      fun hc => (h.plain_tailChars c hc).1
  obtain ⟨cs, hcs, htrim⟩ := exists_trimRight_tailChars h s.toList
  have hslash : (cs ++ u.tailChars).head? ≠ some '/' := by
    cases cs with
    | nil =>
      intro hslash
      rcases head_tailChars hslash with h | h <;> cases h
    | cons c cs =>
      obtain ⟨rest, hrest⟩ := hcs
      rw [← hrest] at hhead
      exact hhead
  obtain ⟨path, hread⟩ := behindScheme_plain hkind hslash
  rw [parse_text h.scheme hplain htext, htrim, hread]
  exact ⟨_, rfl, query_withTail h (fun c hc => (of_inOpaque (hs c (hcs.subset hc))).2) rfl rfl⟩

/-- The text of a URL in escaped parts is read again, with the same query. -/
theorem exists_parse_text (h : Escaped u) : ∃ u', parse u.text = .ok u' ∧ u'.query = u.query := by
  cases h.shape with
  | plain s hkind hhost hpath hs hhead => exact exists_parse_plain h hkind hhost hpath hs hhead
  | rooted ss hkind hhost hpath hne hss => exact exists_parse_rooted h hkind hhost hpath hne hss
  | hosted host ss hhost hauthority hpath _ hss =>
    exact exists_parse_hosted h hhost hauthority hpath hss

end Url

end SiteScrape
