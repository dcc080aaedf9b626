import SiteScrape.Proofs.WebUrls
import SiteScrape.Proofs.WrittenHosts

/-!
# The parts of URLs

Whatever is read as a URL, by itself or relative to another one, has parts that
are escaped as far as reading asks for (`Escaped`, `escaped_of_parse`,
`escaped_of_join`): a scheme in small letters; an opaque path, segments alone, or
a host that is read again off its text with segments behind it (`Shape`); and
query and fragment without a mark that would end them.
-/

namespace SiteScrape.Url

variable {u base : Url} {cs rest name word : List Char} {s scheme segment : String}
  {segments ss : List String} {k : SchemeKind} {host : Host} {c : Char}

/-! ### Schemes -/

def isSchemeChar (c : Char) : Bool := c.isAlphanum || c = '+' || c = '-' || c = '.'

/-- A letter, and then letters, digits and `+-.`. -/
def isSchemeName (name : List Char) : Bool :=
  name.head?.any Char.isAlpha && name.all isSchemeChar

theorem isSchemeChar_of_mem (h : isSchemeName name = true) {c : Char} (hc : c ∈ name) :
    isSchemeChar c = true :=
  List.all_eq_true.mp (Bool.and_eq_true_iff.mp h).2 c hc

theorem colon_not_mem (h : isSchemeName name = true) : ':' ∉ name :=
  fun hmem => absurd (isSchemeChar_of_mem h hmem) (by decide)

/-- A scheme is read where its name and a colon stand in front. -/
theorem scheme?_eq_some_iff : scheme? cs = some (s, rest) ↔
    ∃ name, isSchemeName name = true ∧ cs = name ++ ':' :: rest ∧
      s = String.ofList (name.map Char.toLower) := by
  constructor
  · intro h
    unfold scheme? at h
    dsimp only at h
    split at h
    · next first _ rest' htake hdrop =>
      split at h
      · next halpha =>
        cases h
        change cs.takeWhile isSchemeChar = _ at htake
        change cs.dropWhile isSchemeChar = _ at hdrop
        refine ⟨cs.takeWhile isSchemeChar, ?_, ?_, rfl⟩
        · rw [isSchemeName, List.all_takeWhile, Bool.and_true, htake]
          exact halpha
        · rw [← hdrop, List.takeWhile_append_dropWhile]
      · cases h
    · cases h
  · rintro ⟨name, hname, rfl, rfl⟩
    have hchars : ∀ c ∈ name, isSchemeChar c = true := fun c hc => isSchemeChar_of_mem hname hc
    have hcolon : ¬ isSchemeChar ':' = true := by decide
    have htake : (name ++ ':' :: rest).takeWhile isSchemeChar = name := by
      rw [List.takeWhile_append_of_pos hchars, List.takeWhile_cons_of_neg hcolon, List.append_nil]
    have hdrop : (name ++ ':' :: rest).dropWhile isSchemeChar = ':' :: rest := by
      rw [List.dropWhile_append_of_pos hchars, List.dropWhile_cons_of_neg hcolon]
    unfold scheme?
    unfold isSchemeChar at htake hdrop
    simp only [htake, hdrop]
    cases name with
    | nil => cases hname
    | cons first name => exact if_pos (Bool.and_eq_true_iff.mp hname).1

theorem toLower_of_isSchemeChar (h : isSchemeChar c = true) :
    isSchemeChar c.toLower = true ∧ c.toLower.toLower = c.toLower ∧
      (c.isAlpha = true → c.toLower.isAlpha = true) := by
  have hlt : c.toNat < 128 := by
    simp only [isSchemeChar, Bool.or_eq_true, decide_eq_true_eq] at h
    rcases h with ((halnum | rfl) | rfl) | rfl
    · exact Text.toNat_lt_of_isAlphanum halnum
    all_goals decide
  exact Text.forall_ascii (p := fun c => isSchemeChar c = true → isSchemeChar c.toLower = true ∧
    c.toLower.toLower = c.toLower ∧ (c.isAlpha = true → c.toLower.isAlpha = true))
    (by decide) hlt h

/-- A scheme that was read. -/
structure IsScheme (scheme : String) : Prop where
  name : isSchemeName scheme.toList = true
  small : ∀ c ∈ scheme.toList, c.toLower = c

theorem isScheme_of_scheme? (h : scheme? cs = some (scheme, rest)) : IsScheme scheme := by
  obtain ⟨name, hname, -, rfl⟩ := scheme?_eq_some_iff.mp h
  have hchar : ∀ c ∈ name, isSchemeChar c = true := fun c hc => isSchemeChar_of_mem hname hc
  rw [isSchemeName, Bool.and_eq_true] at hname
  constructor
  · rw [String.toList_ofList, isSchemeName, Bool.and_eq_true]
    constructor
    · cases name with
      | nil => exact hname.1
      | cons first name =>
        exact (toLower_of_isSchemeChar (hchar first List.mem_cons_self)).2.2 hname.1
    · rw [List.all_map]
      exact List.all_eq_true.mpr fun c hc => (toLower_of_isSchemeChar (hchar c hc)).1
  · intro c hc
    rw [String.toList_ofList] at hc
    obtain ⟨d, hd, rfl⟩ := List.mem_map.mp hc
    exact (toLower_of_isSchemeChar (hchar d hd)).2.1

theorem IsScheme.scheme?_append (h : IsScheme scheme) (rest : List Char) :
    scheme? (scheme.toList ++ ':' :: rest) = some (scheme, rest) := by
  refine scheme?_eq_some_iff.mpr ⟨scheme.toList, h.name, rfl, ?_⟩
  rw [(List.map_congr_left h.small).trans (List.map_id _), String.ofList_toList]

/-! ### Escaped parts -/

theorem keepsEscapes_query (k : SchemeKind) : Percent.KeepsEscapes (keepInQuery k) := by
  cases k <;> exact ⟨by decide, by decide⟩

theorem keepsEscapes_fragment : Percent.KeepsEscapes keepInFragment :=
  ⟨by decide, by decide⟩

theorem keepsEscapes_user : Percent.KeepsEscapes keepInUser := ⟨by decide, by decide⟩

/-- A character of a path segment. -/
def inSegment (c : Char) : Bool := keepInPath c && c ≠ '/'

theorem keepsEscapes_inSegment : Percent.KeepsEscapes inSegment := ⟨by decide, by decide⟩

def IsSegment (s : String) : Prop := ∀ c ∈ s.toList, inSegment c = true

/-- The characters of an opaque path. -/
def inOpaque (c : Char) : Bool := isPlain c && c ≠ '?' && c ≠ '#'

theorem keepsEscapes_inOpaque : Percent.KeepsEscapes inOpaque := ⟨by decide, by decide⟩

/-- Segments of a path, at least one. -/
def IsPath (path : UrlPath) : Prop := ∃ ss, path = .segments ss ∧ ss ≠ [] ∧ ∀ s ∈ ss, IsSegment s

/-- User, host and port as they were read. A host without a name stands alone, and
in a file URL every host does. -/
structure HasAuthority (u : Url) (host : Host) : Prop where
  user : ∀ c ∈ u.username.toList ++ u.password.toList, keepInUser c = true
  port : ∀ p, u.port = some p → p < 65536
  text : Host.IsText host.text.toList
  again : host.text.toList ≠ [] → (if u.kind.isSpecial then Host.domain? host.text.toList
    else Host.uninterpreted? host.text.toList) = some host
  alone : host.text.toList = [] ∨ u.kind = .file →
    u.username = "" ∧ u.password = "" ∧ u.port = none
  named : u.kind = .web → host.text.toList ≠ []

/-- What can stand behind a scheme. -/
inductive Shape (u : Url) : Prop where
  | plain (s : String) : u.kind = .other → u.host = none → u.path = .opaqueText s →
      (∀ c ∈ s.toList, inOpaque c = true) → s.toList.head? ≠ some '/' → Shape u
  | rooted (ss : List String) : u.kind = .other → u.host = none → u.path = .segments ss →
      ss ≠ [] → (∀ s ∈ ss, IsSegment s) → Shape u
  | hosted (host : Host) (ss : List String) : u.host = some host → HasAuthority u host →
      u.path = .segments ss → (u.kind.isSpecial = true → ss ≠ []) →
      (∀ s ∈ ss, IsSegment s) → Shape u

/-- A URL in escaped parts. -/
structure Escaped (u : Url) : Prop where
  scheme : IsScheme u.scheme
  shape : Shape u
  query : ∀ q, u.query = some q → ∀ c ∈ q.toList, keepInQuery u.kind c = true
  fragment : ∀ f, u.fragment = some f → ∀ c ∈ f.toList, keepInFragment c = true

theorem Shape.withParts (h : Shape u) (query fragment : Option String) :
    Shape { u with query, fragment } := by
  cases h with
  | plain s hkind hhost hpath hchars hhead => exact .plain s hkind hhost hpath hchars hhead
  | rooted ss hkind hhost hpath hne hss => exact .rooted ss hkind hhost hpath hne hss
  | hosted host ss hhost hauthority hpath hne hss =>
    exact .hosted host ss hhost { hauthority with } hpath hne hss

theorem Escaped.withQuery (h : Escaped u) {query : Option String}
    (hquery : ∀ q, query = some q → ∀ c ∈ q.toList, keepInQuery u.kind c = true) :
    Escaped { u with query } :=
  ⟨h.scheme, h.shape.withParts query u.fragment, hquery, h.fragment⟩

theorem Escaped.withoutQuery (h : Escaped u) : Escaped { u with query := none } :=
  h.withQuery fun q hq => by cases hq

theorem Escaped.withoutFragment (h : Escaped u) : Escaped { u with fragment := none } :=
  ⟨h.scheme, h.shape.withParts u.query none, h.query, fun f hf => by cases hf⟩

/-- Segments can take the place of any path. -/
theorem Escaped.withPath (h : Escaped u) {path : UrlPath} (hpath : IsPath path) :
    Escaped { u with path, query := none } := by
  obtain ⟨ss, rfl, hne, hss⟩ := hpath
  refine ⟨h.scheme, ?_, fun q hq => (nomatch hq), h.fragment⟩
  cases h.shape with
  | plain s hkind hhost => exact .rooted ss hkind hhost rfl hne hss
  | rooted _ hkind hhost => exact .rooted ss hkind hhost rfl hne hss
  | hosted host _ hhost hauthority =>
    exact .hosted host ss hhost { hauthority with } rfl (fun _ => hne) hss

/-- The query that is read off what stands behind an authority. -/
def queryBehind (k : SchemeKind) (cs : List Char) : Option String :=
  match cs.dropWhile fun c => !(c = '?' || c = '#') with
  | '?' :: rest => some (String.ofList
      (Percent.encodeChars (keepInQuery k) (rest.takeWhile fun c => !(c = '#'))))
  | _ => none

/-- What stands behind an authority leaves all but query and fragment as they are. -/
theorem exists_withTail_eq (u : Url) (cs : List Char) : ∃ fragment,
    u.withTail cs = { u with query := (queryBehind u.kind cs).or u.query, fragment } ∧
      ∀ f, fragment = some f → ∀ c ∈ f.toList, keepInFragment c = true := by
  have hfragment (cs : List Char) :
      ∀ f, withTail.fragmentOf cs = some f → ∀ c ∈ f.toList, keepInFragment c = true := by
    intro f hf c hc
    unfold withTail.fragmentOf at hf
    split at hf
    · cases hf
      rw [String.toList_ofList] at hc
      exact keepsEscapes_fragment.of_mem_encodeChars hc
    · cases hf
  unfold withTail queryBehind splitAtAny
  cases hrest : cs.dropWhile fun c => !(c = '?' || c = '#') with
  | nil => exact ⟨none, rfl, by simp⟩
  | cons c rest =>
    have hmark : c = '?' ∨ c = '#' := by
      have hstop := List.head?_dropWhile_not (fun c => !(decide (c = '?') || decide (c = '#'))) cs
      rw [hrest] at hstop
      simpa [Classical.or_iff_not_imp_left] using hstop
    rcases hmark with rfl | rfl
    · exact ⟨_, rfl, hfragment _⟩
    · exact ⟨_, rfl, hfragment ('#' :: rest)⟩

theorem Escaped.withTail (h : Escaped u) (cs : List Char) : Escaped (u.withTail cs) := by
  obtain ⟨fragment, heq, hfragment⟩ := exists_withTail_eq u cs
  rw [heq]
  refine ⟨h.scheme, h.shape.withParts _ _, fun q hq c hc => ?_, hfragment⟩
  rcases Option.or_eq_some_iff.mp hq with hq | ⟨-, hq⟩
  · unfold queryBehind at hq
    split at hq
    · cases hq
      rw [String.toList_ofList] at hc
      exact (keepsEscapes_query u.kind).of_mem_encodeChars hc
    · cases hq
  · exact h.query q hq c hc

/-! ### Paths -/

theorem isSegment_empty : IsSegment "" := by simp [IsSegment]

theorem isSegment_of_mem_nil : ∀ s ∈ ([] : List String), IsSegment s := by simp

theorem isSegment_segmentText (h : ∀ c ∈ word, c ≠ '/') :
    IsSegment (readSegments.segmentText word) := by
  intro c hc
  rw [readSegments.segmentText, String.toList_ofList] at hc
  rcases Percent.cases_of_mem_encodeChars hc with ⟨hc, hkeep⟩ | ⟨bs, hc⟩
  · simp [inSegment, hkeep, h c (List.mem_reverse.mp hc)]
  · exact keepsEscapes_inSegment.of_mem_escapes hc

theorem isSegment_shorten (h : ∀ s ∈ segments, IsSegment s) :
    ∀ s ∈ shorten segments, IsSegment s := by
  intro s hs
  unfold shorten at hs
  split at hs
  · exact h s hs
  · exact h s (List.dropLast_subset _ hs)

theorem isSegment_addSegment (k : SchemeKind) (h : ∀ s ∈ segments, IsSegment s)
    (hsegment : IsSegment segment) (last : Bool) :
    (∀ s ∈ addSegment k segments segment last, IsSegment s) ∧
      (last = true → addSegment k segments segment last ≠ []) := by
  have hshorten := isSegment_shorten h
  have hconcat {ss : List String} (hss : ∀ s ∈ ss, IsSegment s) {more : String}
      (hmore : IsSegment more) : ∀ s ∈ ss ++ [more], IsSegment s := by
    intro s hs
    rcases List.mem_append.mp hs with hs | hs
    · exact hss s hs
    · exact List.mem_singleton.mp hs ▸ hmore
  have hdrive : IsSegment (String.ofList (segment.toList.take 1 ++ [':'])) := by
    intro c hc
    rw [String.toList_ofList] at hc
    rcases List.mem_append.mp hc with hc | hc
    · exact hsegment c (List.mem_of_mem_take hc)
    · exact List.mem_singleton.mp hc ▸ by decide
  unfold addSegment
  split
  · cases last with
    | true => exact ⟨hconcat hshorten isSegment_empty, by simp⟩
    | false => exact ⟨hshorten, by simp⟩
  split
  · cases last with
    | true => exact ⟨hconcat h isSegment_empty, by simp⟩
    | false => exact ⟨h, by simp⟩
  split
  · exact ⟨hconcat isSegment_of_mem_nil hdrive, by simp⟩
  · exact ⟨hconcat h hsegment, by simp⟩

theorem ne_slash_of_mem_nil : ∀ c ∈ ([] : List Char), c ≠ '/' := by simp

/-- The path that is read has a segment. -/
theorem isSegment_readSegments (k : SchemeKind) (cs : List Char)
    (h : ∀ s ∈ segments, IsSegment s) (hword : ∀ c ∈ word, c ≠ '/') :
    (∀ s ∈ readSegments k segments word cs, IsSegment s) ∧
      readSegments k segments word cs ≠ [] := by
  induction cs generalizing segments word with
  | nil =>
    have hlast := isSegment_addSegment k h (isSegment_segmentText hword) true
    exact ⟨hlast.1, hlast.2 rfl⟩
  | cons c rest ih =>
    have hlast := isSegment_addSegment k h (isSegment_segmentText hword) true
    unfold readSegments
    split
    · exact ⟨hlast.1, hlast.2 rfl⟩
    split
    · exact ih (isSegment_addSegment k h (isSegment_segmentText hword) false).1 (by simp)
    · next hslash =>
      refine ih h fun d hd => ?_
      rcases List.mem_cons.mp hd with rfl | hd
      · rintro rfl
        exact hslash rfl
      · exact hword d hd

theorem isPath_pathFrom (k : SchemeKind) (cs : List Char) (h : ∀ s ∈ segments, IsSegment s) :
    IsPath (pathFrom k segments cs) := by
  have hread (cs : List Char) := isSegment_readSegments k cs h ne_slash_of_mem_nil
  refine ⟨_, rfl, ?_⟩
  unfold tidy
  split
  · split
    · exact ⟨by simp, by simpa using isSegment_empty⟩
    · next hne => exact ⟨hne, fun s hs => (hread _).1 s (List.dropWhile_subset _ hs)⟩
  · exact ⟨(hread _).2, (hread _).1⟩

theorem segments_pathBehindHost (k : SchemeKind) (cs : List Char) :
    ∃ ss, pathBehindHost k cs = .segments ss ∧ (k.isSpecial = true → ss ≠ []) ∧
      ∀ s ∈ ss, IsSegment s := by
  unfold pathBehindHost
  split
  · split
    · exact ⟨[""], rfl, by simp, by simpa using isSegment_empty⟩
    · next hspecial => exact ⟨[], rfl, fun h => absurd h hspecial, isSegment_of_mem_nil⟩
  · split
    · next hopaque =>
      refine ⟨[], rfl, fun h => ?_, isSegment_of_mem_nil⟩
      simp [h] at hopaque
    · obtain ⟨ss, hpath, hne, hss⟩ := isPath_pathFrom k _ isSegment_of_mem_nil
      exact ⟨ss, hpath, fun _ => hne, hss⟩

/-! ### Authorities -/

theorem userInfo?_keeps {username password : String}
    (h : userInfo? k cs = .ok (username, password, rest)) :
    ∀ c ∈ username.toList ++ password.toList, keepInUser c = true := by
  unfold userInfo? at h
  dsimp only at h
  split at h
  · split at h
    · split at h
      · cases h
      · cases h
        simp
    · cases h
      intro c hc
      rw [String.toList_ofList, String.toList_ofList] at hc
      exact (List.mem_append.mp hc).elim keepsEscapes_user.of_mem_encodeChars
        keepsEscapes_user.of_mem_encodeChars
  · cases h
    simp

/-- What can follow the digits of a port. -/
def endsPort (tail : List Char) : Bool :=
  match tail with
  | [] => true
  | c :: _ => c = '/' || c = '\\' || c = '?' || c = '#'

theorem port?_colon (scheme : String) (rest : List Char) : port? scheme (':' :: rest) =
    if !endsPort (rest.dropWhile Char.isDigit) ||
        Decimal.natOf (rest.takeWhile Char.isDigit) ≥ 65536 then .error .invalidPort
    else if (rest.takeWhile Char.isDigit).isEmpty ||
        defaultPort scheme == some (Decimal.natOf (rest.takeWhile Char.isDigit)) then
      .ok (none, rest.dropWhile Char.isDigit)
    else .ok (some (Decimal.natOf (rest.takeWhile Char.isDigit)), rest.dropWhile Char.isDigit) :=
  rfl

theorem port?_of_head (h : cs.head? ≠ some ':') : port? scheme cs = .ok (none, cs) := by
  unfold port?
  split
  · exact absurd rfl h
  · rfl

theorem lt_of_port? {port : Option Nat} (h : port? scheme cs = .ok (port, rest)) :
    ∀ p, port = some p → p < 65536 := by
  by_cases hhead : cs.head? = some ':'
  · obtain ⟨digits, rfl⟩ : ∃ digits, cs = ':' :: digits := by
      cases cs with
      | nil => cases hhead
      | cons c digits => exact ⟨digits, by rw [Option.some.inj hhead]⟩
    rw [port?_colon] at h
    split at h
    · cases h
    · next hvalid =>
      simp only [Bool.or_eq_true, decide_eq_true_eq, not_or, Nat.not_le, ge_iff_le] at hvalid
      split at h
      · cases h
        exact fun p hp => (nomatch hp)
      · cases h
        rintro _ ⟨⟩
        exact hvalid.2
  · rw [port?_of_head hhead] at h
    cases h
    exact fun p hp => (nomatch hp)

/-- When a host may be empty. -/
theorem hostGuard_eq_false_iff {special : Bool} {username password : String}
    {hostText tail : List Char} :
    ¬ (hostText.isEmpty && (special || (!username.isEmpty || !password.isEmpty) ||
        tail.head? == some ':')) = true ↔
      (hostText = [] → special = false ∧ username = "" ∧ password = "" ∧
        tail.head? ≠ some ':') := by
  cases hostText with
  | nil => simp [and_assoc]
  | cons c hostText => simp

/-- How a URL behind slashes is put together. -/
theorem behindSlashes_eq_ok_iff : behindSlashes scheme cs = .ok u ↔
    ∃ username password rest hostText tail host port behind,
      userInfo? (.ofScheme scheme) cs = .ok (username, password, rest) ∧
      splitHost (.ofScheme scheme) false rest = (hostText, tail) ∧
      (hostText = [] → (SchemeKind.ofScheme scheme).isSpecial = false ∧ username = "" ∧
        password = "" ∧ tail.head? ≠ some ':') ∧
      (if (SchemeKind.ofScheme scheme).isSpecial then Host.domain? hostText
        else Host.uninterpreted? hostText) = some host ∧
      port? scheme tail = .ok (port, behind) ∧
      u = withTail { scheme, username, password, host := some host, port,
                     path := pathBehindHost (.ofScheme scheme) behind } behind := by
  unfold behindSlashes
  simp only [bind, Except.bind]
  constructor
  · intro h
    split at h
    · cases h
    next userInfo huser =>
    obtain ⟨username, password, rest⟩ := userInfo
    split at h
    · cases h
    next hempty =>
    cases hhost : (if (SchemeKind.ofScheme scheme).isSpecial then
        Host.domain? (splitHost (.ofScheme scheme) false rest).1
      else Host.uninterpreted? (splitHost (.ofScheme scheme) false rest).1) with
    | none =>
      simp only [hhost] at h
      cases h
    | some host =>
      simp only [hhost] at h
      split at h
      · cases h
      next portInfo hport =>
      obtain ⟨port, behind⟩ := portInfo
      cases h
      exact ⟨username, password, rest, _, _, host, port, behind, huser, rfl,
        hostGuard_eq_false_iff.mp hempty, hhost, hport, rfl⟩
  · rintro ⟨username, password, rest, hostText, tail, host, port, behind, huser, hsplit, hempty,
      hhost, hport, rfl⟩
    simp only [huser, hsplit]
    rw [if_neg (hostGuard_eq_false_iff.mpr hempty)]
    simp only [hhost, hport]

/-- A host that was read is read again off its text. Only without a meaning can it
be empty, and then nothing was read. -/
theorem again_of_host {hostText : List Char} (h : (if k.isSpecial then Host.domain? hostText
      else Host.uninterpreted? hostText) = some host) :
    (if k.isSpecial then Host.domain? host.text.toList
      else Host.uninterpreted? host.text.toList) = some host ∧ Host.IsText host.text.toList ∧
      (host.text.toList = [] → k.isSpecial = false ∧ hostText = []) := by
  cases hspecial : k.isSpecial with
  | true =>
    rw [hspecial, if_pos rfl] at h
    obtain ⟨hagain, htext, hne⟩ := Host.again_of_domain? h
    exact ⟨by rwa [if_pos rfl], htext, fun hnil => absurd hnil hne⟩
  | false =>
    rw [hspecial, if_neg Bool.false_ne_true] at h
    obtain ⟨hagain, htext, hnil⟩ := Host.again_of_uninterpreted? h
    exact ⟨by rwa [if_neg Bool.false_ne_true], htext, fun h => ⟨rfl, hnil h⟩⟩

theorem escaped_of_behindSlashes (hscheme : IsScheme scheme)
    (hkind : SchemeKind.ofScheme scheme ≠ .file) (h : behindSlashes scheme cs = .ok u) :
    Escaped u := by
  obtain ⟨username, password, rest, hostText, tail, host, port, behind, huser, hsplit, hempty,
    hhost, hport, rfl⟩ := behindSlashes_eq_ok_iff.mp h
  obtain ⟨ss, hpath, hne, hss⟩ := segments_pathBehindHost (.ofScheme scheme) behind
  obtain ⟨hagain, htext, hnil⟩ := again_of_host hhost
  apply Escaped.withTail
  refine ⟨hscheme, .hosted host ss rfl ?_ hpath hne hss, by simp, by simp⟩
  refine ⟨userInfo?_keeps huser, lt_of_port? hport, htext, fun _ => hagain, ?_, ?_⟩
  · rintro (halone | hfile)
    · obtain ⟨-, rfl, rfl, hhead⟩ := hempty (hnil halone).2
      rw [port?_of_head hhead] at hport
      exact ⟨rfl, rfl, by cases hport; rfl⟩
    · exact absurd hfile hkind
  · intro hweb halone
    have hspecial := (hnil halone).1
    rw [show SchemeKind.ofScheme scheme = .web from hweb] at hspecial
    cases hspecial

/-! ### References -/

theorem Shape.isSegment (h : Shape u) {ss : List String} (hpath : u.path = .segments ss) :
    ∀ s ∈ ss, IsSegment s := by
  cases h with
  | plain s _ _ hplain =>
    rw [hplain] at hpath
    cases hpath
  | rooted ss' _ _ hrooted _ hss =>
    rw [hrooted] at hpath
    cases hpath
    exact hss
  | hosted host ss' _ _ hhosted _ hss =>
    rw [hhosted] at hpath
    cases hpath
    exact hss

theorem escaped_of_relativeTo (hbase : Escaped base) (hkind : base.kind ≠ .file)
    (h : relativeTo base cs = .ok u) : Escaped u := by
  unfold relativeTo at h
  dsimp only at h
  split at h
  · cases h
    exact hbase.withoutFragment
  · cases h
    exact (hbase.withTail _).withQuery hbase.query
  · cases h
    exact hbase.withoutQuery.withTail _
  · next c rest _ _ =>
    split at h
    · split at h
      · split at h <;> exact escaped_of_behindSlashes hbase.scheme hkind h
      · cases h
        exact (hbase.withPath (isPath_pathFrom _ _ isSegment_of_mem_nil)).withTail _
    · cases h
      apply Escaped.withTail
      have hread {segments : List String} (h : ∀ s ∈ segments, IsSegment s) :
          IsPath (.segments (readSegments base.kind segments [] (c :: rest))) :=
        have hread := isSegment_readSegments base.kind (c :: rest) h ne_slash_of_mem_nil
        ⟨_, rfl, hread.2, hread.1⟩
      refine hbase.withPath (hread ?_)
      split
      · next ss hss => exact fun s hs => hbase.shape.isSegment hss s (List.dropLast_subset _ hs)
      · exact isSegment_of_mem_nil

/-! ### Files -/

theorem scheme_eq_file (h : SchemeKind.ofScheme scheme = .file) : scheme = "file" := by
  unfold SchemeKind.ofScheme at h
  split at h
  · cases h
  split at h
  · next hfile => exact eq_of_beq hfile
  · cases h

theorem isScheme_file : IsScheme "file" :=
  isScheme_of_scheme? (show scheme? "file:".toList = some ("file", []) by rfl)

/-- A host that a file URL can have. -/
def IsFileHost (host : Host) : Prop :=
  Host.IsText host.text.toList ∧
    (host.text.toList ≠ [] → Host.domain? host.text.toList = some host)

theorem isFileHost_local : IsFileHost (.name "") :=
  ⟨.plain (by simp [Host.text]), fun hne => absurd rfl hne⟩

theorem escaped_file (hhost : IsFileHost host) {path : UrlPath} (hpath : IsPath path) :
    Escaped { scheme := "file", host := some host, path } := by
  obtain ⟨ss, rfl, hne, hss⟩ := hpath
  refine ⟨isScheme_file, .hosted host ss rfl ?_ rfl (fun _ => hne) hss, by simp, by simp⟩
  exact ⟨by simp, by simp, hhost.1, hhost.2, fun _ => ⟨rfl, rfl, rfl⟩, fun hweb => by cases hweb⟩

/-- A file URL that was read has a host. -/
theorem exists_fileHost (h : Escaped u) (hfile : u.scheme = "file") :
    ∃ host, u.host = some host ∧ IsFileHost host := by
  have hkind : u.kind = .file := by rw [kind, hfile]; rfl
  cases h.shape with
  | plain s hother => rw [hkind] at hother; cases hother
  | rooted ss hother => rw [hkind] at hother; cases hother
  | hosted host ss hhost hauthority =>
    refine ⟨host, hhost, hauthority.text, fun hne => ?_⟩
    have hagain := hauthority.again hne
    rw [hkind] at hagain
    exact hagain

theorem isPath_file (cs : List Char) (h : ∀ s ∈ segments, IsSegment s) :
    IsPath (pathFrom .file segments cs) :=
  isPath_pathFrom .file cs h

theorem isPath_behindFileHost (cs : List Char) : IsPath (pathBehindHost .file cs) := by
  obtain ⟨ss, hpath, hne, hss⟩ := segments_pathBehindHost .file cs
  exact ⟨ss, hpath, hne rfl, hss⟩

variable {b : Option Url}

theorem escaped_of_file_relative (hbase : ∀ base, b = some base → Escaped base)
    (h : file.relative b cs (fun path => { scheme := "file", host := some (.name ""), path }) =
      .ok u) : Escaped u := by
  have hplain := escaped_file isFileHost_local (isPath_file cs isSegment_of_mem_nil)
  unfold file.relative at h
  split at h
  · cases h
    exact hplain.withTail _
  next base =>
  replace hbase := hbase base rfl
  split at h
  · cases h
    exact hbase.withoutFragment
  · cases h
    exact hbase.withoutQuery.withTail _
  · cases h
    exact (hbase.withoutFragment.withTail _).withQuery hbase.query
  split at h
  · cases h
    exact hplain.withTail _
  · cases h
    apply Escaped.withTail
    refine hbase.withPath (isPath_file cs ?_)
    split
    · next ss hss => exact isSegment_shorten (hbase.shape.isSegment hss)
    · simp

theorem isFileHost_ofBase (hbase : ∀ base, b = some base → Escaped base ∧ base.scheme = "file")
    (dropped : Bool) :
    IsFileHost ((if dropped then none else b.bind (·.host)).getD (.name "")) := by
  cases dropped with
  | true => exact isFileHost_local
  | false =>
    cases b with
    | none => exact isFileHost_local
    | some base =>
      obtain ⟨hescaped, hfile⟩ := hbase base rfl
      obtain ⟨host, hhost, hfileHost⟩ := exists_fileHost hescaped hfile
      simpa [hhost] using hfileHost

theorem escaped_of_file_one (hbase : ∀ base, b = some base → Escaped base ∧ base.scheme = "file")
    (h : file.one b cs (fun c => c = '/' || c = '\\')
      (fun path => { scheme := "file", host := some (.name ""), path }) = .ok u) : Escaped u := by
  have hescaped : ∀ base, b = some base → Escaped base := fun base hb => (hbase base hb).1
  unfold file.one at h
  split at h
  · next c rest =>
    split at h
    · cases h
      apply Escaped.withTail
      change Escaped { scheme := "file", host := some _, path := pathFrom .file _ (c :: rest) }
      refine escaped_file (isFileHost_ofBase hbase _) (isPath_file _ ?_)
      split
      · exact isSegment_of_mem_nil
      split
      · next s ss hsegments =>
        obtain ⟨base, rfl, hpath⟩ := Option.map_eq_some_iff.mp hsegments
        split
        · exact fun s hs => List.mem_singleton.mp hs ▸
            (hbase base rfl).1.shape.isSegment hpath _ List.mem_cons_self
        · exact isSegment_of_mem_nil
      · exact isSegment_of_mem_nil
    · exact escaped_of_file_relative hescaped h
  · exact escaped_of_file_relative hescaped h

theorem escaped_of_file (hbase : ∀ base, b = some base → Escaped base ∧ base.scheme = "file")
    (h : file b cs = .ok u) : Escaped u := by
  unfold file at h
  dsimp only at h
  split at h
  · split at h
    · split at h
      · cases h
        exact (escaped_file isFileHost_local (isPath_file _ isSegment_of_mem_nil)).withTail _
      split at h
      · cases h
        exact (escaped_file isFileHost_local (isPath_behindFileHost _)).withTail _
      split at h
      · cases h
      next host hhost =>
      cases h
      apply Escaped.withTail
      refine escaped_file ?_ (isPath_behindFileHost _)
      split
      · exact isFileHost_local
      · obtain ⟨hagain, htext, -⟩ := Host.again_of_domain? hhost
        exact ⟨htext, fun _ => hagain⟩
    · exact escaped_of_file_one hbase h
  · exact escaped_of_file_one hbase h

/-! ### Whole URLs -/

theorem inOpaque_of_mem_encodeChars
    (hc : c ∈ Percent.encodeChars isPlain (cs.takeWhile fun c => !(c = '?' || c = '#'))) :
    inOpaque c = true := by
  rcases Percent.cases_of_mem_encodeChars hc with ⟨hc, hplain⟩ | ⟨bs, hc⟩
  · have hstop := List.all_eq_true.mp List.all_takeWhile c hc
    simpa [inOpaque, hplain, and_assoc] using hstop
  · exact keepsEscapes_inOpaque.of_mem_escapes hc

theorem head_of_encodeChars (h : (Percent.encodeChars isPlain
    (cs.takeWhile fun c => !(c = '?' || c = '#'))).head? = some '/') : cs.head? = some '/' := by
  cases cs with
  | nil => cases h
  | cons c cs =>
    cases hstop : !(decide (c = '?') || decide (c = '#')) with
    | false =>
      rw [List.takeWhile_cons, if_neg (by simp [hstop])] at h
      cases h
    | true =>
      rw [List.takeWhile_cons, if_pos hstop, Percent.encodeChars, List.flatMap_cons,
        Percent.encodeChar] at h
      split at h
      · exact h
      · obtain ⟨b, bs, hb⟩ := List.exists_cons_of_ne_nil (String.utf8EncodeChar_ne_nil (c := c))
        rw [hb] at h
        cases h

theorem escaped_of_behindScheme (hscheme : IsScheme scheme)
    (hbase : ∀ base, b = some base → Escaped base) (h : behindScheme b scheme cs = .ok u) :
    Escaped u := by
  unfold behindScheme at h
  dsimp only at h
  split at h
  · refine escaped_of_file (fun base hb => ?_) h
    obtain ⟨hb, hfile⟩ := Option.filter_eq_some_iff.mp hb
    exact ⟨hbase base hb, by simpa using hfile⟩
  · next hweb =>
    have hkind : SchemeKind.ofScheme scheme ≠ .file := by simp [hweb]
    split at h
    · next base =>
      split at h
      · next hsame =>
        simp only [Bool.and_eq_true, beq_iff_eq] at hsame
        exact escaped_of_relativeTo (hbase base rfl) (by rwa [kind, hsame.2]) h
      · exact escaped_of_behindSlashes hscheme hkind h
    · exact escaped_of_behindSlashes hscheme hkind h
  · next hother =>
    have hkind : SchemeKind.ofScheme scheme ≠ .file := by simp [hother]
    split at h
    · exact escaped_of_behindSlashes hscheme hkind h
    · cases h
      apply Escaped.withTail
      obtain ⟨ss, hpath, hne, hss⟩ := isPath_pathFrom .other ('/' :: _) isSegment_of_mem_nil
      exact ⟨hscheme, .rooted ss hother rfl hpath hne hss, by simp, by simp⟩
    · next hslashes hslash =>
      cases h
      apply Escaped.withTail
      refine ⟨hscheme, .plain _ hother rfl rfl (fun c hc => ?_) fun hhead => ?_, by simp, by simp⟩
      · rw [String.toList_ofList] at hc
        exact inOpaque_of_mem_encodeChars hc
      · rw [String.toList_ofList] at hhead
        obtain ⟨rest, rfl⟩ := List.head?_eq_some_iff.mp (head_of_encodeChars hhead)
        exact hslash rest rfl

theorem escaped_of_parseWith (hbase : ∀ base, b = some base → Escaped base)
    (h : parseWith b s = .ok u) : Escaped u := by
  unfold parseWith at h
  dsimp only at h
  split at h
  · next hscheme => exact escaped_of_behindScheme (isScheme_of_scheme? hscheme) hbase h
  split at h
  · cases h
  next base =>
  replace hbase := hbase base rfl
  split at h
  · cases h
    exact (hbase.withoutFragment.withTail _).withQuery (by simpa [kind] using hbase.query)
  · cases h
  · split at h
    · next hfile =>
      refine escaped_of_file (fun base' hb => ?_) h
      cases hb
      exact ⟨hbase, by simpa using hfile⟩
    · next hfile =>
      exact escaped_of_relativeTo hbase (fun hkind => hfile (by simp [scheme_eq_file hkind])) h

/-- Whatever is read as a URL comes in escaped parts. -/
theorem escaped_of_parse (h : parse s = .ok u) : Escaped u :=
  escaped_of_parseWith (by simp) h

theorem escaped_of_parse? (h : parse? s = some u) : Escaped u := by
  unfold parse? at h
  cases hs : parse s with
  | error e =>
    rw [hs] at h
    cases h
  | ok v =>
    rw [hs] at h
    cases h
    exact escaped_of_parse hs

/-- So does what a reference leads to. -/
theorem escaped_of_join (hbase : Escaped base) (h : join base s = .ok u) : Escaped u :=
  escaped_of_parseWith (by rintro _ ⟨⟩; exact hbase) h

end SiteScrape.Url
