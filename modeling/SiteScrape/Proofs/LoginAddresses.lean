import Mathlib
import SiteScrape.Proofs.UrlParts
import SiteScrape.Site.Login

/-!
# Login words in addresses

A login word counts in the path, query and fragment of an address (`locator`),
not in its scheme and authority. The check looks from the first slash behind
the first `://` on, wherever that stands. So it passes over a part of some
addresses (`passedOver`): of those whose authority ends without a slash, and of
those with `://` in another place than behind their scheme. A word is missed
exactly if it stands in that part alone (`isLoggedIn_eq_false_iff_marked`).
-/

namespace SiteScrape.Login

variable {url cs before behind : List Char} {c d : Char}

/-- An authority ends where a path, a query or a fragment begins. -/
def endsAuthority (c : Char) : Bool := c = '/' || c = '?' || c = '#'

/-- Path, query and fragment of an address: what is left without a scheme and
an authority in front. -/
def locator (url : List Char) : List Char :=
  match Url.scheme? url with
  | some (_, '/' :: '/' :: rest) => rest.dropWhile fun c => !endsAuthority c
  | _ => url

/-- A login word stands in the characters, whatever the case of its letters. -/
def Marked (cs : List Char) : Prop := ∃ mark ∈ urlMarks, mark.toList <:+: cs.map Char.toLower

/-- The part of path, query and fragment that stands before the first slash
behind the first `://`. -/
def passedOver (url : List Char) : List Char :=
  match Text.cut "://".toList url with
  | none => []
  | some (before, rest) =>
    let host := rest.takeWhile (· != '/')
    if Url.isSchemeName before then host.dropWhile fun c => !endsAuthority c
    else before ++ "://".toList ++ host

/-- The addresses that a response is judged by. -/
def addresses (r : Response) : List String :=
  r.finalUrl :: ((r.header? "refresh").bind refreshTarget?).toList

/-! ### Parts of an address -/

/-- Behind the name of a scheme, `://` is the first there is. -/
theorem cut_scheme {name : List Char} (h : Url.isSchemeName name = true) (rest : List Char) :
    Text.cut "://".toList (name ++ "://".toList ++ rest) = some (name, rest) := by
  rw [List.append_assoc]
  exact Text.cut_append (Url.colon_not_mem h) ['/', '/'] rest

/-- Where a scheme and an authority stand in front, the first `://` is behind the
name of the scheme. -/
theorem exists_cut_of_scheme? {s : String} {rest : List Char}
    (h : Url.scheme? url = some (s, '/' :: '/' :: rest)) :
    ∃ name, Url.isSchemeName name = true ∧ Text.cut "://".toList url = some (name, rest) := by
  obtain ⟨name, hname, rfl, -⟩ := Url.scheme?_eq_some_iff.mp h
  have hcut := cut_scheme hname rest
  rw [List.append_assoc] at hcut
  exact ⟨name, hname, hcut⟩

theorem locator_of_no_scheme (h : ∀ name rest, Text.cut "://".toList url = some (name, rest) →
    Url.isSchemeName name = false) : locator url = url := by
  unfold locator
  split
  · next hscheme =>
    obtain ⟨name, hname, hcut⟩ := exists_cut_of_scheme? hscheme
    rw [h name _ hcut] at hname
    cases hname
  · rfl

/-- A scheme and an authority stand in front if the name of a scheme stands before
the first `://`. -/
theorem locator_eq (url : List Char) : locator url =
    match Text.cut "://".toList url with
    | some (before, rest) =>
      if Url.isSchemeName before then rest.dropWhile fun c => !endsAuthority c else url
    | none => url := by
  cases hcut : Text.cut "://".toList url with
  | none => exact locator_of_no_scheme fun name rest h => by rw [hcut] at h; cases h
  | some parts =>
    obtain ⟨before, rest⟩ := parts
    dsimp only
    cases hname : Url.isSchemeName before with
    | true =>
      have hurl : url = before ++ ':' :: ('/' :: '/' :: rest) := by
        simpa using Text.append_of_cut hcut
      have hread := Url.scheme?_eq_some_iff.mpr ⟨before, hname, hurl, rfl⟩
      unfold locator
      rw [hread]
      rfl
    | false =>
      refine locator_of_no_scheme fun name rest' h => ?_
      rw [hcut] at h
      cases h
      exact hname

/-- The check looks at path, query and fragment without the part in front. -/
theorem locator_eq_append (url : List Char) : locator url = passedOver url ++ behindHost url := by
  rw [locator_eq, passedOver, behindHost]
  cases hcut : Text.cut "://".toList url with
  | none => rfl
  | some parts =>
    obtain ⟨before, rest⟩ := parts
    have hrest : rest = rest.takeWhile (· != '/') ++ rest.dropWhile (· != '/') :=
      List.takeWhile_append_dropWhile.symm
    dsimp only
    by_cases hname : Url.isSchemeName before = true
    · rw [if_pos hname, if_pos hname]
      conv_lhs => rw [hrest, List.dropWhile_append]
      split
      · next hempty =>
        rw [List.isEmpty_iff.mp hempty, List.nil_append]
        cases htail : rest.dropWhile (· != '/') with
        | nil => rfl
        | cons c tail =>
          have hc : c = '/' := by simpa [htail] using List.head?_dropWhile_not (· != '/') rest
          rw [List.dropWhile_cons_of_neg (by simp [hc, endsAuthority])]
      · rfl
    · rw [if_neg hname, if_neg hname, List.append_assoc, ← hrest]
      exact Text.append_of_cut hcut

/-- An address of which the check sees path, query and fragment: there is no
`://` in it, or a scheme and an authority stand in front, and then a slash or
nothing. -/
def IsSeen (url : List Char) : Prop :=
  ¬ "://".toList <:+: url ∨ ∃ name authority tail,
    url = name ++ "://".toList ++ authority ++ tail ∧ Url.isSchemeName name = true ∧
      (∀ c ∈ authority, endsAuthority c = false) ∧ ∀ c, tail.head? = some c → c = '/'

/-- With `://` in it, an address is seen if a scheme stands before the first one,
and the authority behind it ends with a slash if it ends. -/
theorem isSeen_iff_of_cut (h : Text.cut "://".toList url = some (before, behind)) :
    IsSeen url ↔ Url.isSchemeName before = true ∧
      ∀ c ∈ behind.takeWhile (· != '/'), endsAuthority c = false := by
  have hurl : url = before ++ "://".toList ++ behind := Text.append_of_cut h
  constructor
  · rintro (hnone | ⟨name, authority, tail, htail, hname, hauthority, hhead⟩)
    · exact absurd ⟨before, behind, hurl.symm⟩ hnone
    · rw [htail, List.append_assoc _ authority, cut_scheme hname] at h
      obtain ⟨rfl, rfl⟩ := Prod.mk.inj (Option.some.inj h)
      have hslash : ∀ c ∈ authority, (c != '/') = true := fun c hc => by
        have hc := hauthority c hc
        simp only [endsAuthority, Bool.or_eq_false_iff, decide_eq_false_iff_not] at hc
        simpa using hc.1.1
      have htake : (authority ++ tail).takeWhile (· != '/') = authority := by
        rw [List.takeWhile_append_of_pos hslash]
        cases tail with
        | nil => simp
        | cons c tail => simp [hhead c rfl]
      rw [htake]
      exact ⟨hname, hauthority⟩
  · rintro ⟨hname, hauthority⟩
    refine .inr ⟨before, behind.takeWhile (· != '/'), behind.dropWhile (· != '/'), ?_, hname,
      hauthority, fun c hc => ?_⟩
    · rw [List.append_assoc, List.takeWhile_append_dropWhile]
      exact hurl
    · simpa [hc] using List.head?_dropWhile_not (· != '/') behind

theorem passedOver_eq_nil_iff (url : List Char) : passedOver url = [] ↔ IsSeen url := by
  unfold passedOver
  cases hcut : Text.cut "://".toList url with
  | none => exact iff_of_true rfl (.inl (Text.cut_eq_none_iff.mp hcut))
  | some parts =>
    obtain ⟨before, rest⟩ := parts
    rw [isSeen_iff_of_cut hcut]
    dsimp only
    cases Url.isSchemeName before with
    | true => simp [List.dropWhile_eq_nil_iff]
    | false => simp

/-! ### Login words -/

theorem toLower_eq_iff (h : d.isAlpha = false) : c.toLower = d ↔ c = d := by
  have hd : ¬ d.isUpper = true := fun hupper => by simp [Char.isAlpha, hupper] at h
  constructor
  · rintro rfl
    refine (Char.toLower_eq_of_not_isUpper fun hupper => ?_).symm
    rw [Char.isAlpha_toLower_eq_isAlpha] at h
    simp [Char.isAlpha, hupper] at h
  · rintro rfl
    exact Char.toLower_eq_of_not_isUpper hd

theorem behindHost_map_toLower (url : List Char) :
    behindHost (url.map Char.toLower) = (behindHost url).map Char.toLower := by
  have hneedle : ∀ l ∈ "://".toList, ∀ c : Char, c.toLower = l ↔ c = l := by
    intro l hl c
    have halpha : ("://".toList).all (!·.isAlpha) = true := by decide
    exact toLower_eq_iff (by simpa using List.all_eq_true.mp halpha l hl)
  have hslash : ((· != '/') ∘ Char.toLower) = (· != '/') := by
    funext c
    have hc : c.toLower = '/' ↔ c = '/' := toLower_eq_iff (by decide)
    by_cases h : c = '/' <;> simp [hc, h, bne, BEq.beq]
  unfold behindHost
  rw [Text.cut_map hneedle]
  cases Text.cut "://".toList url with
  | none => rfl
  | some parts => simp [List.dropWhile_map, hslash]

theorem isLoginUrl_iff (url : String) :
    isLoginUrl url = true ↔ Marked (behindHost url.toList) := by
  unfold isLoginUrl Marked Text.asciiLower
  simp only [String.toList_ofList, behindHost_map_toLower, List.any_eq_true, Text.occurs_iff]

theorem behindHost_cases (url : List Char) :
    passedOver url = [] ∨ behindHost url = [] ∨ ∃ rest, behindHost url = '/' :: rest := by
  unfold passedOver behindHost
  cases Text.cut "://".toList url with
  | none => exact .inl rfl
  | some parts =>
    obtain ⟨before, rest⟩ := parts
    dsimp only
    cases htail : rest.dropWhile (· != '/') with
    | nil => exact .inr (.inl rfl)
    | cons c tail =>
      have hc : c = '/' := by simpa [htail] using List.head?_dropWhile_not (· != '/') rest
      exact .inr (.inr ⟨tail, by rw [hc]⟩)

/-- No login word stands across the first slash that the check looks from. -/
theorem marked_locator_iff (url : List Char) :
    Marked (locator url) ↔ Marked (passedOver url) ∨ Marked (behindHost url) := by
  have hslash : ∀ mark ∈ urlMarks, '/' ∉ mark.toList := by decide
  have hnonempty : ∀ mark ∈ urlMarks, mark.toList ≠ [] := by decide
  have hnil : ¬ Marked [] := fun ⟨mark, hmark, h⟩ =>
    hnonempty mark hmark (List.eq_nil_of_infix_nil h)
  rw [locator_eq_append]
  rcases behindHost_cases url with h | h | ⟨rest, h⟩
  · rw [h, List.nil_append]
    exact (or_iff_right hnil).symm
  · rw [h, List.append_nil]
    exact (or_iff_left hnil).symm
  · rw [h]
    unfold Marked
    have hlower : Char.toLower '/' = '/' := by decide
    have hin (mark : String) (hmark : mark ∈ urlMarks) :
        mark.toList <:+: (passedOver url ++ '/' :: rest).map Char.toLower ↔
          mark.toList <:+: (passedOver url).map Char.toLower ∨
          mark.toList <:+: ('/' :: rest).map Char.toLower := by
      have hfirst : mark.toList <:+: [] ++ '/' :: rest.map Char.toLower ↔
          mark.toList <:+: [] ∨ mark.toList <:+: rest.map Char.toLower :=
        Text.infix_append_cons_iff (hslash mark hmark)
      rw [List.nil_append, List.infix_nil, or_iff_right (hnonempty mark hmark)] at hfirst
      rw [List.map_append, List.map_cons, hlower, Text.infix_append_cons_iff (hslash mark hmark),
        hfirst]
    constructor
    · rintro ⟨mark, hmark, h⟩
      exact ((hin mark hmark).mp h).imp (fun h => ⟨mark, hmark, h⟩) fun h => ⟨mark, hmark, h⟩
    · rintro (⟨mark, hmark, h⟩ | ⟨mark, hmark, h⟩)
      · exact ⟨mark, hmark, (hin mark hmark).mpr (.inl h)⟩
      · exact ⟨mark, hmark, (hin mark hmark).mpr (.inr h)⟩

theorem isLoggedIn_eq_false_iff (r : Response) :
    isLoggedIn false r = false ↔ ∃ url ∈ addresses r, isLoginUrl url = true := by
  unfold isLoggedIn addresses
  cases (r.header? "refresh").bind refreshTarget? with
  | none => cases h : isLoginUrl r.finalUrl <;> simp [h]
  | some target =>
    cases h : isLoginUrl r.finalUrl <;> cases h' : isLoginUrl target <;> simp [h, h']

/-- A response is one to a visitor who is not logged in exactly if, in its own
address or the one that it sends on to, a login word stands in path, query or
fragment, and not only in the part that is passed over. Nothing is passed over
where there is no `://`, or where a scheme and an authority stand in front, and
then a slash or nothing. -/
theorem isLoggedIn_eq_false_iff_marked (r : Response) :
    (isLoggedIn false r = false ↔ ∃ url ∈ addresses r, Marked (locator url.toList) ∧
      (Marked (passedOver url.toList) → Marked (behindHost url.toList))) ∧
    ∀ url, locator url = passedOver url ++ behindHost url ∧ (passedOver url = [] ↔ IsSeen url) := by
  have hmarks (url : List Char) : Marked (behindHost url) ↔
      Marked (locator url) ∧ (Marked (passedOver url) → Marked (behindHost url)) := by
    rw [marked_locator_iff]
    constructor
    · exact fun h => ⟨.inr h, fun _ => h⟩
    · exact fun ⟨h, himp⟩ => h.elim himp id
  refine ⟨?_, fun url => ⟨locator_eq_append url, passedOver_eq_nil_iff url⟩⟩
  rw [isLoggedIn_eq_false_iff]
  exact exists_congr fun url => and_congr_right fun _ =>
    (isLoginUrl_iff url).trans (hmarks url.toList)

/-- A visitor who is sent on to the login page, with the address to return to
behind it, is taken for one who is logged in; so is one who stands on a login
page that is named right behind the host. -/
theorem isLoggedIn_of_address_to_return_to :
    let sentOn : Response := {
      headers := [("refresh", "0; url=/login.php?returnto=http://t.example/browse")]
      finalUrl := "https://t.example/browse" }
    let named : Response := { finalUrl := "https://t.example?login" }
    "/login.php?returnto=http://t.example/browse" ∈ addresses sentOn ∧
      Marked (locator "/login.php?returnto=http://t.example/browse".toList) ∧
      isLoggedIn false sentOn = true ∧
      named.header? "refresh" = none ∧ Marked (locator named.finalUrl.toList) ∧
      isLoggedIn false named = true := by
  intro sentOn named
  have hlogin : "login" ∈ urlMarks := by decide
  refine ⟨by decide +kernel, ⟨"login", hlogin, ['/'], ?_⟩, by decide +kernel, by decide +kernel,
    ⟨"login", hlogin, ['?'], [], by decide +kernel⟩, by decide +kernel⟩
  exact ⟨".php?returnto=http://t.example/browse".toList, by decide +kernel⟩

end SiteScrape.Login
