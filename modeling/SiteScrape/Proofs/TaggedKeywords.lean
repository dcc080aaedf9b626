import SiteScrape.Proofs.Addresses
import SiteScrape.Proofs.SearchOutcome

/-!
# Keywords with a tag

Keywords are read without the blanks around them, so what follows a tag ends
with its last character that is not blank (`trim_tagged`). The tag is seen only
where no line break stands before that (`Breaks`, `tagged?_trim`); other
keywords are looked for as they stand, tag and all. A tag that is switched off
therefore keeps the site from being asked exactly then.
-/

namespace SiteScrape

namespace Text

variable {p : Char → Bool} {lead trail : List Char}

theorem trimRight_append (h : ∀ c ∈ trail, p c = true) (cs : List Char) :
    trimRight p (cs ++ trail) = trimRight p cs := by
  rw [trimRight, trimRight, List.reverse_append, List.dropWhile_append_of_pos (by simpa using h)]

theorem trimLeft_append (h : ∀ c ∈ lead, p c = true) (cs : List Char) :
    trimLeft p (lead ++ cs) = trimLeft p cs :=
  List.dropWhile_append_of_pos h

/-- What stands before a character that stays is left alone. -/
theorem trimRight_append_cons {c : Char} (h : p c = false) (before behind : List Char) :
    trimRight p (before ++ c :: behind) = before ++ c :: trimRight p behind := by
  have hstop : (c :: before.reverse).dropWhile p = c :: before.reverse :=
    List.dropWhile_cons_of_neg (by simp [h])
  rw [trimRight, List.reverse_append, List.reverse_cons, List.append_assoc, List.singleton_append,
    List.dropWhile_append, hstop, trimRight]
  cases hrest : behind.reverse.dropWhile p with
  | nil => simp
  | cons d rest => simp

theorem trimBoth_append (h : ∀ c ∈ trail, p c = true) (cs : List Char) :
    trimBoth p (cs ++ trail) = trimBoth p cs := by
  rw [trimBoth, trimLeft, List.dropWhile_append]
  cases hrest : cs.dropWhile p with
  | nil =>
    have hgone : trail.dropWhile p = [] := List.dropWhile_eq_nil_iff.mpr h
    simp [trimBoth, trimLeft, hgone, hrest]
  | cons c rest =>
    rw [List.isEmpty_cons, if_neg Bool.false_ne_true, trimRight_append h, trimBoth, trimLeft, hrest]

/-- Only characters to be trimmed are trimmed. -/
theorem exists_trimRight (p : Char → Bool) (cs : List Char) :
    ∃ gone, cs = trimRight p cs ++ gone ∧ ∀ c ∈ gone, p c = true := by
  refine ⟨(cs.reverse.takeWhile p).reverse, ?_, fun c hc => ?_⟩
  · rw [trimRight, ← List.reverse_append, List.takeWhile_append_dropWhile, List.reverse_reverse]
  · exact List.mem_takeWhile_imp (List.mem_reverse.mp hc)

/-- A character that goes at the ends stays where one that does not stands behind it. -/
theorem mem_trimRight_iff {c : Char} (hc : p c = true) {cs : List Char} :
    c ∈ trimRight p cs ↔
      ∃ before behind, cs = before ++ c :: behind ∧ ∃ d ∈ behind, p d = false := by
  constructor
  · intro hmem
    induction cs using List.reverseRecOn with
    | nil => cases hmem
    | append_singleton cs d ih =>
      cases hd : p d with
      | true =>
        rw [trimRight_append (by simpa using hd)] at hmem
        obtain ⟨before, behind, rfl, hstays⟩ := ih hmem
        obtain ⟨e, he, hpe⟩ := hstays
        exact ⟨before, behind ++ [d], by simp, e, List.mem_append_left _ he, hpe⟩
      | false =>
        rw [trimRight_append_cons hd] at hmem
        have hcs : c ∈ cs := by
          rcases List.mem_append.mp hmem with h | h
          · exact h
          · obtain rfl : c = d := by simpa [trimRight] using h
            rw [hc] at hd
            cases hd
        obtain ⟨before, behind, rfl⟩ := List.append_of_mem hcs
        exact ⟨before, behind ++ [d], by simp, d, by simp, hd⟩
  · rintro ⟨before, behind, rfl, d, hd, hpd⟩
    obtain ⟨between, rest, rfl⟩ := List.append_of_mem hd
    have hsplit : before ++ c :: (between ++ d :: rest) =
        (before ++ c :: between) ++ d :: rest := by
      simp
    rw [hsplit, trimRight_append_cons hpd]
    simp

end Text

namespace Keywords

/-- A tag has letters, digits and low lines of ASCII, and at least one of them. -/
structure IsTag (tag : String) : Prop where
  nonempty : tag.toList ≠ []
  chars : ∀ c ∈ tag.toList, isTagChar c = true

/-- A line break with something other than blanks behind it. -/
def Breaks (text : String) : Prop :=
  ∃ before behind, text.toList = before ++ '\n' :: behind ∧ ∃ c ∈ behind, Text.isBlank c = false

variable {tag lead trail : String}

theorem isBlank_of_isTagChar {c : Char} (h : isTagChar c = true) : Text.isBlank c = false := by
  simp only [isTagChar, Char.isAlphanum, Bool.or_eq_true, beq_iff_eq] at h
  obtain (halpha | hdigit) | rfl := h
  · exact isBlank_of_isAlpha halpha
  · exact Text.isBlank_of_isDigit hdigit
  · decide

theorem IsTag.head {c : Char} (h : IsTag tag) (hc : tag.toList.head? = some c) :
    Text.isBlank c = false :=
  isBlank_of_isTagChar (h.chars c (List.mem_of_head? hc))

/-- What is read of keywords with a tag: nothing of the blanks around them. -/
theorem trim_tagged (h : IsTag tag) (hlead : Text.isBlankText lead = true)
    (htrail : Text.isBlankText trail = true) (text : String) :
    (Text.trim (lead ++ tag ++ "|" ++ text ++ trail)).toList =
      tag.toList ++ '|' :: Text.trimRight Text.isBlank text.toList := by
  have hbar : Text.isBlank '|' = false := by decide
  have hkeep : Text.trimLeft Text.isBlank (tag.toList ++ '|' :: (text.toList ++ trail.toList)) =
      tag.toList ++ '|' :: (text.toList ++ trail.toList) := by
    refine Text.dropWhile_eq_self fun c hc => h.head ?_
    rwa [List.head?_append, List.head?_eq_some_head h.nonempty, Option.some_or,
      ← List.head?_eq_some_head h.nonempty] at hc
  have hlist : (lead ++ tag ++ "|" ++ text ++ trail).toList =
      lead.toList ++ (tag.toList ++ '|' :: (text.toList ++ trail.toList)) := by
    simp
  rw [Text.trim, String.toList_ofList, hlist, Text.trimBoth,
    Text.trimLeft_append (by simpa [Text.isBlankText] using hlead), hkeep,
    Text.trimRight_append_cons hbar,
    Text.trimRight_append (by simpa [Text.isBlankText] using htrail)]

theorem mem_trimRight_iff_breaks (text : String) :
    '\n' ∈ Text.trimRight Text.isBlank text.toList ↔ Breaks text :=
  Text.mem_trimRight_iff (by decide)

/-- Keywords are tagged where no line breaks behind the tag. -/
theorem tagged?_trim (h : IsTag tag) (hlead : Text.isBlankText lead = true)
    (htrail : Text.isBlankText trail = true) (text : String) :
    tagged? (Text.trim (lead ++ tag ++ "|" ++ text ++ trail)) =
      if '\n' ∈ Text.trimRight Text.isBlank text.toList then none
      else some (tag, Text.trim text) := by
  have hbar : isTagChar '|' = false := by decide
  have hchars := trim_tagged h hlead htrail text
  generalize Text.trim (lead ++ tag ++ "|" ++ text ++ trail) = keywords at hchars
  have htake : keywords.toList.takeWhile isTagChar = tag.toList := by
    rw [hchars, List.takeWhile_append_of_pos h.chars, List.takeWhile_cons_of_neg (by simp [hbar]),
      List.append_nil]
  have hdrop : keywords.toList.dropWhile isTagChar =
      '|' :: Text.trimRight Text.isBlank text.toList := by
    rw [hchars, List.dropWhile_append_of_pos h.chars, List.dropWhile_cons_of_neg (by simp [hbar])]
  have hnonempty : tag.toList.isEmpty = false := by simpa using h.nonempty
  unfold tagged?
  simp only [htake, hdrop, hnonempty, Bool.false_or, List.contains_iff_mem, String.ofList_toList]
  have htrim : Text.trim (String.ofList (Text.trimRight Text.isBlank text.toList)) =
      Text.trim text := by
    obtain ⟨gone, hgone, hblank⟩ := Text.exists_trimRight Text.isBlank text.toList
    rw [Text.trim, Text.trim, String.toList_ofList]
    conv => rhs; rw [hgone, Text.trimBoth_append hblank]
  rw [htrim]

end Keywords

namespace Site

variable {s : Site} {e : SearchEntry} {keywords tag rest : String}

/-- What transformers are told about a search. -/
def searchContext (s : Site) (e : SearchEntry) (keywords : String) : RequestContext :=
  { metadata := s.metadata, keywords := some keywords, entry := some e }

/-- The request of an entry with keywords in it, if there are any. -/
def requestFor (e : SearchEntry) (keywords : String) : Json :=
  let request := layered requestSeed e.requestConfig
  if keywords.isEmpty then request else request.setAt e.keywordsAt (.str keywords)

/-- Without a tag, all of the keywords go into the request. -/
theorem searchRequest?_of_untagged (h : Keywords.tagged? (Text.trim keywords) = none) :
    s.searchRequest? keywords e = some (s.transform e.transformer
      (s.searchContext e (Text.trim keywords)) (requestFor e (Text.trim keywords))) := by
  unfold searchRequest?
  dsimp only
  rw [h]
  rfl

/-- With a tag, the rest goes into the request, and the rule of the tag changes it
or keeps it back. -/
theorem searchRequest?_of_tagged (h : Keywords.tagged? (Text.trim keywords) = some (tag, rest)) :
    s.searchRequest? keywords e =
      if (e.keywordRules.get? tag).any fun rule => !rule.isEnabled then none
      else some (s.transform e.transformer (s.searchContext e rest)
        (match (e.keywordRules.get? tag).bind KeywordRule.entry? with
          | some rule => s.applyTag e rule (s.searchContext e rest) (requestFor e rest)
          | none => requestFor e rest)) := by
  unfold searchRequest?
  dsimp only
  rw [h]
  rfl

theorem resultOf_ne_passed (r : Except SiteError (List Torrent)) :
    (resultOf r).status ≠ .passed := by
  unfold resultOf
  split <;> simp

/-- Where there is no request, the search passes. -/
theorem search_of_no_request {now : Int} {overlay : Option Json} (hentry : s.entry overlay = .ok e)
    (h : s.searchRequest? keywords e = none) :
    s.search now keywords overlay = pure ⟨.passed, []⟩ := by
  unfold search
  rw [hentry]
  split
  · rfl
  · show (if _ then _ else _) = _
    split
    · rfl
    · rw [h]

/-- Where there is one, it does not. -/
theorem search_of_request {now : Int} {overlay : Option Json} {request : Json}
    {es : List Talk.Event} {result : SearchResult} (hallowed : s.metadata.allowsSearch = true)
    (hentry : s.entry overlay = .ok e) (henabled : e.isEnabled = true)
    (h : s.searchRequest? keywords e = some request)
    (hheld : (s.search now keywords overlay).Held es result) : result.status ≠ .passed := by
  unfold search at hheld
  rw [hallowed, hentry] at hheld
  change Talk.Held (if (!e.isEnabled) = true then _ else _) es result at hheld
  rw [henabled, h] at hheld
  obtain ⟨r, -, rfl⟩ := Talk.held_map_iff.mp hheld
  exact resultOf_ne_passed r

variable {rule : KeywordRule} {lead trail : String}

/-- Keywords with a tag that is switched off: where no line breaks behind the tag,
there is no request and the search passes without asking the site, whatever else
the text holds. Behind a line break the tag is not seen: the site is asked for
the keywords as they stand, tag and all. -/
theorem search_switchedOff (htag : Keywords.IsTag tag) (hrule : e.keywordRules.get? tag = some rule)
    (hoff : rule.isEnabled = false) (hlead : Text.isBlankText lead = true)
    (htrail : Text.isBlankText trail = true) (text : String) :
    let query := lead ++ tag ++ "|" ++ text ++ trail
    (¬ Keywords.Breaks text → s.searchRequest? query e = none ∧
      ∀ now overlay, s.entry overlay = .ok e →
        s.search now query overlay = pure ⟨.passed, []⟩) ∧
    (Keywords.Breaks text →
      s.searchRequest? query e = some (s.transform e.transformer
        (s.searchContext e (Text.trim query)) (requestFor e (Text.trim query))) ∧
      ∀ now overlay es result, s.metadata.allowsSearch = true → s.entry overlay = .ok e →
        e.isEnabled = true → (s.search now query overlay).Held es result →
        result.status ≠ .passed) := by
  intro query
  have htagged : Keywords.tagged? (Text.trim query) = _ :=
    Keywords.tagged?_trim htag hlead htrail text
  refine ⟨fun hbreaks => ?_, fun hbreaks => ?_⟩
  · rw [if_neg (mt (Keywords.mem_trimRight_iff_breaks text).mp hbreaks)] at htagged
    have hnone : s.searchRequest? query e = none := by
      rw [searchRequest?_of_tagged htagged, hrule, Option.any_some, hoff]
      rfl
    exact ⟨hnone, fun now overlay hentry => search_of_no_request hentry hnone⟩
  · rw [if_pos ((Keywords.mem_trimRight_iff_breaks text).mpr hbreaks)] at htagged
    have hsome := searchRequest?_of_untagged (s := s) (e := e) htagged
    exact ⟨hsome, fun now overlay es result hallowed hentry henabled hheld =>
      search_of_request hallowed hentry henabled hsome hheld⟩

end Site

namespace Sample

/-- Keywords that begin with `douban|` are not for this site. -/
def taggedEntry : SearchEntry := { keywordRules := [("douban", .flag false)] }

def taggedSite : Site where
  metadata := { id := "demo", searchAllowed := some true, search := some taggedEntry }

theorem isTag_douban : Keywords.IsTag "douban" := ⟨by decide, List.all_eq_true.mp (by decide)⟩

end Sample

namespace Site

/-- A further bar and a line break at the end are no obstacle. -/
theorem search_switchedOff_of_douban :
    Keywords.IsTag "douban" ∧ Sample.taggedEntry.keywordRules.get? "douban" = some (.flag false) ∧
      Text.isBlankText " " = true ∧ Text.isBlankText "\n" = true ∧
      ¬ Keywords.Breaks "129|2052" ∧
      Sample.taggedSite.search 0 " douban|129|2052\n" none = pure ⟨.passed, []⟩ := by
  have hbreaks : ¬ Keywords.Breaks "129|2052" := by
    rw [← Keywords.mem_trimRight_iff_breaks]
    decide
  have hblank : Text.isBlankText " " = true ∧ Text.isBlankText "\n" = true := by decide
  obtain ⟨hspace, hline⟩ := hblank
  obtain ⟨hpassed, -⟩ := search_switchedOff (s := Sample.taggedSite) (e := Sample.taggedEntry)
    Sample.isTag_douban rfl rfl hspace hline "129|2052"
  exact ⟨Sample.isTag_douban, rfl, hspace, hline, hbreaks, (hpassed hbreaks).2 0 none rfl⟩

/-- Two lines behind a tag that is switched off are looked for, tag and all. -/
theorem switchedOff_tag_of_two_lines :
    Keywords.IsTag "douban" ∧ Sample.taggedEntry.keywordRules.get? "douban" = some (.flag false) ∧
      Sample.taggedSite.searchRequest? ("douban" ++ "|" ++ "12\n34") Sample.taggedEntry =
        some (.obj [("url", .str "/"), ("responseType", .str "document"),
          ("params", .obj [("keywords", .str "douban|12\n34")]), ("data", .obj [])]) :=
  ⟨Sample.isTag_douban, rfl, by rfl⟩

end Site

end SiteScrape
