import SiteScrape.Url.Reading

/-!
# URLs of the web

Whatever is read as a URL of a web scheme, be it by itself or relative to
another one, has a path, and no blank stands in its path, query and fragment
(`Proper`, `proper_of_parse?`, `proper_of_join`). So it is written without a
blank at either end (`framed_text`).
-/

namespace SiteScrape.Url

/-- No blank stands in the characters. -/
def Visible (cs : List Char) : Prop := ∀ c ∈ cs, Text.isBlank c = false

-- the characters of a text are looked at, not all characters that there are
instance (cs : List Char) : Decidable (Visible cs) :=
  List.decidableBAll (fun c => Text.isBlank c = false) cs

theorem Visible.append {cs ds : List Char} (hcs : Visible cs) (hds : Visible ds) :
    Visible (cs ++ ds) := fun c hc =>
  (List.mem_append.mp hc).elim (hcs c) (hds c)

/-- A URL of a web scheme that has been read. -/
structure Proper (u : Url) : Prop where
  web : u.kind = .web
  path : ∃ ss, u.path = .segments ss ∧ ss ≠ [] ∧ ∀ s ∈ ss, Visible s.toList
  query : ∀ q, u.query = some q → Visible q.toList
  fragment : ∀ f, u.fragment = some f → Visible f.toList

variable {u base : Url} {cs rest word : List Char} {segments : List String} {s scheme : String}

/-! ### Escaped characters -/

theorem isBlank_of_plain {c : Char} (h : isPlain c) (hspace : c ≠ ' ') :
    Text.isBlank c = false := by
  simp only [isPlain, Bool.and_eq_true, decide_eq_true_eq] at h
  have hlow : 32 < c.toNat := by
    refine Nat.lt_of_le_of_ne h.1 fun h32 => hspace ?_
    rw [← Char.ofNat_toNat c, ← h32]
  -- all blanks but the space are below it, or beyond ASCII
  have hne {d : Char} (hd : d.toNat ≤ 32 ∨ 127 ≤ d.toNat) : (c == d) = false := by
    refine beq_false_of_ne ?_
    rintro rfl
    omega
  have hrange {a b : Char} (hb : b.toNat ≤ 32 ∨ 127 ≤ a.toNat) :
      (decide (a ≤ c) && decide (c ≤ b)) = false := by
    simp only [Bool.and_eq_false_iff, decide_eq_false_iff_not, Char.le_def, UInt32.le_iff_toNat_le,
      Nat.not_le]
    have ha : a.val.toNat = a.toNat := rfl
    have hc : c.val.toNat = c.toNat := rfl
    have hb' : b.val.toNat = b.toNat := rfl
    omega
  simp only [Text.isBlank]
  rw [hrange (by decide), hrange (by decide)]
  simp [hne]

theorem isBlank_hexDigit : ∀ n < 16, Text.isBlank (Percent.hexDigit n) = false := by
  decide +kernel

theorem visible_encodeChars {keep : Char → Bool}
    (hkeep : ∀ c, keep c → isPlain c ∧ c ≠ ' ') (cs : List Char) :
    Visible (Percent.encodeChars keep cs) := by
  intro c hc
  obtain ⟨d, -, hc⟩ := List.mem_flatMap.mp hc
  unfold Percent.encodeChar at hc
  split at hc
  · next hd =>
    obtain rfl := List.mem_singleton.mp hc
    exact isBlank_of_plain (hkeep _ hd).1 (hkeep _ hd).2
  · obtain ⟨b, -, hc⟩ := List.mem_flatMap.mp hc
    have hb : b.toNat < 256 := b.toNat_lt
    simp only [Percent.escapeByte, List.mem_cons, List.not_mem_nil, or_false] at hc
    rcases hc with rfl | rfl | rfl
    · decide
    · exact isBlank_hexDigit _ (by omega)
    · exact isBlank_hexDigit _ (by omega)

theorem plain_of_keepInFragment (c : Char) (h : keepInFragment c) : isPlain c ∧ c ≠ ' ' := by
  simp only [keepInFragment, Bool.and_eq_true, Bool.not_eq_true', Bool.or_eq_false_iff,
    decide_eq_false_iff_not] at h
  exact ⟨h.1, h.2.1.1.1.1⟩

theorem plain_of_keepInPath (c : Char) (h : keepInPath c) : isPlain c ∧ c ≠ ' ' := by
  simp only [keepInPath, Bool.and_eq_true] at h
  exact plain_of_keepInFragment c h.1

theorem plain_of_keepInQuery (k : SchemeKind) (c : Char) (h : keepInQuery k c) :
    isPlain c ∧ c ≠ ' ' := by
  simp only [keepInQuery, Bool.and_eq_true, Bool.not_eq_true', Bool.or_eq_false_iff,
    decide_eq_false_iff_not] at h
  exact ⟨h.1, h.2.1.1.1.1.1⟩

/-! ### Queries and fragments -/

theorem visible_of_none {part : Option String} (h : part = none) :
    ∀ s, part = some s → Visible s.toList := by
  simp [h]

theorem visible_fragmentOf {f : String} (h : withTail.fragmentOf cs = some f) :
    Visible f.toList := by
  unfold withTail.fragmentOf at h
  split at h
  · cases h
    simpa using visible_encodeChars plain_of_keepInFragment _
  · cases h

/-- What follows the path of a URL leaves its other parts alone. -/
theorem Proper.withTail (h : Proper u) (cs : List Char) : Proper (u.withTail cs) := by
  unfold Url.withTail
  dsimp only
  split
  · refine ⟨h.web, h.path, fun q hq => ?_, fun f hf => visible_fragmentOf hf⟩
    cases hq
    simpa using visible_encodeChars (plain_of_keepInQuery u.kind) _
  · exact ⟨h.web, h.path, h.query, fun f hf => visible_fragmentOf hf⟩

/-! ### Paths -/

theorem mem_addSegment_web (segments : List String) (s : String) (last : Bool) :
    ∀ x ∈ addSegment .web segments s last, x ∈ segments ∨ x = "" ∨ x = s := by
  have hshorten : ∀ x ∈ shorten segments, x ∈ segments := by
    intro x hx
    unfold shorten at hx
    split at hx
    · exact hx
    · exact List.dropLast_subset _ hx
  intro x hx
  unfold addSegment at hx
  split at hx
  · cases last with
    | true =>
      rcases List.mem_append.mp hx with hx | hx
      · exact .inl (hshorten x hx)
      · exact .inr (.inl (List.mem_singleton.mp hx))
    | false => exact .inl (hshorten x hx)
  split at hx
  · cases last with
    | true =>
      rcases List.mem_append.mp hx with hx | hx
      · exact .inl hx
      · exact .inr (.inl (List.mem_singleton.mp hx))
    | false => exact .inl hx
  split at hx
  · next hfile => cases hfile
  · rcases List.mem_append.mp hx with hx | hx
    · exact .inl hx
    · exact .inr (.inr (List.mem_singleton.mp hx))

theorem addSegment_last_ne_nil (segments : List String) (s : String) :
    addSegment .web segments s true ≠ [] := by
  unfold addSegment
  split
  · simp
  split
  · simp
  split <;> simp

/-- The path that is read has a segment, and no blank in it. -/
theorem visible_readSegments (cs word : List Char) (h : ∀ s ∈ segments, Visible s.toList) :
    readSegments .web segments word cs ≠ [] ∧
      ∀ s ∈ readSegments .web segments word cs, Visible s.toList := by
  have hword (word : List Char) : Visible (readSegments.segmentText word).toList := by
    simpa [readSegments.segmentText] using visible_encodeChars plain_of_keepInPath _
  have hadd {segments : List String} (h : ∀ s ∈ segments, Visible s.toList) (word : List Char)
      (last : Bool) :
      ∀ s ∈ addSegment .web segments (readSegments.segmentText word) last, Visible s.toList := by
    intro s hs
    rcases mem_addSegment_web _ _ _ s hs with hs | rfl | rfl
    · exact h s hs
    · exact fun c hc => by simp at hc
    · exact hword word
  induction cs generalizing segments word with
  | nil => exact ⟨addSegment_last_ne_nil _ _, hadd h word true⟩
  | cons c rest ih =>
    unfold readSegments
    split
    · exact ⟨addSegment_last_ne_nil _ _, hadd h word true⟩
    split
    · exact ih _ (hadd h word false)
    · exact ih _ h

theorem path_pathFrom (cs : List Char) (h : ∀ s ∈ segments, Visible s.toList) :
    ∃ ss, pathFrom .web segments cs = .segments ss ∧ ss ≠ [] ∧ ∀ s ∈ ss, Visible s.toList := by
  have htidy (ss : List String) : tidy .web ss = ss := rfl
  unfold pathFrom
  simp only [htidy]
  exact ⟨_, rfl, visible_readSegments _ [] h⟩

theorem path_pathBehindHost (cs : List Char) :
    ∃ ss, pathBehindHost .web cs = .segments ss ∧ ss ≠ [] ∧ ∀ s ∈ ss, Visible s.toList := by
  unfold pathBehindHost
  split
  · exact ⟨[""], rfl, by simp, by simp [Visible]⟩
  · have hspecial : (!SchemeKind.web.isSpecial) = false := rfl
    rw [hspecial, Bool.false_and, if_neg Bool.false_ne_true]
    exact path_pathFrom _ fun s hs => absurd hs List.not_mem_nil

/-! ### Whole URLs -/

@[simp] theorem scheme_withTail (u : Url) (cs : List Char) : (u.withTail cs).scheme = u.scheme := by
  unfold Url.withTail
  dsimp only
  split <;> rfl

/-- A URL behind slashes has a host, and the path behind it. -/
theorem behindSlashes_eq (h : behindSlashes scheme cs = .ok u) :
    ∃ username password host port tail, u = Url.withTail
      { scheme, username, password, host := some host, port,
        path := pathBehindHost (.ofScheme scheme) tail } tail := by
  unfold behindSlashes at h
  simp only [bind, Except.bind] at h
  split at h
  · cases h
  split at h
  · cases h
  split at h
  · split at h
    · cases h
    · cases h
      exact ⟨_, _, _, _, _, rfl⟩
  · cases h

theorem proper_of_behindSlashes (hweb : SchemeKind.ofScheme scheme = .web)
    (h : behindSlashes scheme cs = .ok u) : Proper u := by
  obtain ⟨username, password, host, port, tail, rfl⟩ := behindSlashes_eq h
  apply Proper.withTail
  refine ⟨hweb, ?_, visible_of_none rfl, visible_of_none rfl⟩
  dsimp only
  rw [hweb]
  exact path_pathBehindHost tail

theorem scheme_of_behindSlashes (h : behindSlashes scheme cs = .ok u) : u.scheme = scheme := by
  obtain ⟨username, password, host, port, tail, rfl⟩ := behindSlashes_eq h
  simp

theorem Proper.withQuery (h : Proper u) {query : Option String}
    (hquery : ∀ q, query = some q → Visible q.toList) : Proper { u with query } :=
  ⟨h.web, h.path, hquery, h.fragment⟩

theorem Proper.withPath (h : Proper u) {path : UrlPath}
    (hpath : ∃ ss, path = .segments ss ∧ ss ≠ [] ∧ ∀ s ∈ ss, Visible s.toList) :
    Proper { u with path, query := none } :=
  ⟨h.web, hpath, visible_of_none rfl, h.fragment⟩

/-- A reference relative to a proper URL leads to another one of the same scheme. -/
theorem proper_of_relativeTo (hbase : Proper base) (h : relativeTo base cs = .ok u) :
    Proper u ∧ u.scheme = base.scheme := by
  obtain ⟨ss, hpath, -, hvisible⟩ := hbase.path
  unfold relativeTo at h
  rw [hbase.web] at h
  dsimp only at h
  split at h
  · cases h
    exact ⟨⟨hbase.web, hbase.path, hbase.query, visible_of_none rfl⟩, rfl⟩
  · cases h
    exact ⟨(hbase.withTail _).withQuery hbase.query, by simp⟩
  · cases h
    exact ⟨(hbase.withQuery (visible_of_none rfl)).withTail _, by simp⟩
  · next c rest _ _ =>
    split at h
    · split at h
      · split at h <;>
          exact ⟨proper_of_behindSlashes hbase.web h, scheme_of_behindSlashes h⟩
      · cases h
        exact ⟨(hbase.withPath (path_pathFrom _ fun s hs => absurd hs List.not_mem_nil)).withTail _,
          by simp⟩
    · cases h
      rw [hpath]
      have hread := visible_readSegments (c :: rest) [] fun s hs =>
        hvisible s (List.dropLast_subset _ hs)
      exact ⟨(hbase.withPath ⟨_, rfl, hread⟩).withTail _, by simp⟩

theorem scheme_of_file (h : file none cs = .ok u) : u.scheme = "file" := by
  unfold file file.one file.relative at h
  simp only [Option.map_none, Option.bind_none] at h
  repeat' split at h
  all_goals
    cases h
    try exact scheme_withTail _ _

theorem scheme_of_other {b : Option Url} (hother : SchemeKind.ofScheme scheme = .other)
    (h : behindScheme b scheme cs = .ok u) : u.scheme = scheme := by
  unfold behindScheme at h
  simp only [hother] at h
  split at h
  · exact scheme_of_behindSlashes h
  · cases h; simp
  · cases h; simp

theorem Proper.scheme_ne_file (h : Proper u) : u.scheme ≠ "file" := fun hfile => by
  have hkind := h.web
  rw [kind, hfile] at hkind
  cases hkind

/-- What follows a scheme is read as a proper URL if it is read as a web URL. -/
theorem proper_of_behindScheme {b : Option Url} (hbase : ∀ base, b = some base → Proper base)
    (hweb : u.kind = .web) (h : behindScheme b scheme cs = .ok u) : Proper u := by
  cases hkind : SchemeKind.ofScheme scheme with
  | file =>
    have hnone : b.filter (·.scheme == "file") = none := by
      cases hb : b with
      | none => rfl
      | some base => simp [Option.filter_some, (hbase base hb).scheme_ne_file]
    unfold behindScheme at h
    simp only [hkind, hnone] at h
    rw [kind, scheme_of_file h] at hweb
    cases hweb
  | web =>
    unfold behindScheme at h
    simp only [hkind] at h
    split at h
    · next base =>
      split at h
      · exact (proper_of_relativeTo (hbase base rfl) h).1
      · exact proper_of_behindSlashes hkind h
    · exact proper_of_behindSlashes hkind h
  | other =>
    rw [kind, scheme_of_other hkind h, hkind] at hweb
    cases hweb

/-- A relative reference leads from a proper URL to another one. -/
theorem proper_of_relative (hbase : Proper base) (hrel : scheme? (significant s) = none)
    (h : join base s = .ok u) : Proper u := by
  obtain ⟨ss, hpath, -⟩ := hbase.path
  unfold join parseWith at h
  simp only [hrel, hpath] at h
  split at h
  · cases h
    have hplain : Proper { base with fragment := none } :=
      ⟨hbase.web, hbase.path, hbase.query, visible_of_none rfl⟩
    simp only [hpath] at hplain
    exact (hplain.withTail _).withQuery hbase.query
  · cases h
  · rw [if_neg (by simpa using hbase.scheme_ne_file)] at h
    exact (proper_of_relativeTo hbase h).1

/-- A text that is read as a web URL gives a proper one. -/
theorem proper_of_parse? (hweb : u.kind = .web) (h : parse? s = some u) : Proper u := by
  replace h : parse s = .ok u := by
    unfold parse? at h
    cases hs : parse s with
    | error e => simp [hs, Except.toOption] at h
    | ok u' =>
      rw [hs] at h
      exact congrArg Except.ok (Option.some.inj h)
  unfold parse parseWith at h
  dsimp only at h
  split at h
  · exact proper_of_behindScheme (by simp) hweb h
  · cases h

/-- A reference that leads from a proper URL to a web URL leads to a proper one. -/
theorem proper_of_join (hbase : Proper base) (hweb : u.kind = .web) (h : join base s = .ok u) :
    Proper u := by
  cases hscheme : scheme? (significant s) with
  | none => exact proper_of_relative hbase hscheme h
  | some p =>
    unfold join parseWith at h
    simp only [hscheme] at h
    exact proper_of_behindScheme (by rintro _ ⟨⟩; exact hbase) hweb h

/-! ### Written URLs -/

theorem visible_pathText (h : Proper u) : u.pathText.toList ≠ [] ∧ Visible u.pathText.toList := by
  obtain ⟨ss, hpath, hne, hvisible⟩ := h.path
  obtain ⟨s, rest, rfl⟩ := List.exists_cons_of_ne_nil hne
  have hmark (b : Bool) : Visible (if b then "/." else "").toList := by cases b <;> decide
  unfold pathText
  rw [hpath]
  simp only [String.toList_append, String.toList_join, ne_eq, List.append_eq_nil_iff]
  refine ⟨fun hnil => by simp at hnil, (hmark _).append fun c hc => ?_⟩
  obtain ⟨part, hpart, hc⟩ := List.mem_flatMap.mp hc
  obtain ⟨segment, hsegment, rfl⟩ := List.mem_map.mp hpart
  rw [String.toList_append] at hc
  have hslash : Visible "/".toList := by decide
  exact hslash.append (hvisible segment hsegment) c hc

theorem visible_marked {mark : String} {part : Option String} (hmark : Visible mark.toList)
    (h : ∀ s, part = some s → Visible s.toList) : Visible (marked mark part).toList := by
  cases part with
  | none => simp [marked, Visible]
  | some s =>
    rw [marked, String.toList_append]
    exact hmark.append (h s rfl)

/-- The names of the web schemes begin with a letter. -/
theorem head_of_web (h : SchemeKind.ofScheme scheme = .web) :
    ∃ c rest, scheme.toList = c :: rest ∧ c.isAlpha := by
  unfold SchemeKind.ofScheme at h
  split at h
  · next hweb =>
    simp only [Bool.or_eq_true, beq_iff_eq] at hweb
    rcases hweb with (((rfl | rfl) | rfl) | rfl) | rfl <;> exact ⟨_, _, rfl, by decide⟩
  · split at h <;> cases h

/-- A letter stands in front, and no blank at the end. -/
structure Framed (s : String) : Prop where
  front : ∃ c rest, s.toList = c :: rest ∧ c.isAlpha
  back : ∀ c, s.toList.getLast? = some c → Text.isBlank c = false

theorem framed_text (h : Proper u) : Framed u.text := by
  obtain ⟨first, rest, hscheme, halpha⟩ := head_of_web h.web
  obtain ⟨hne, hpath⟩ := visible_pathText h
  have hquery : Visible (marked "?" u.query).toList := visible_marked (by decide) h.query
  have hfragment : Visible (marked "#" u.fragment).toList := visible_marked (by decide) h.fragment
  have htext : u.text.toList = (u.scheme ++ ":" ++ u.authorityText).toList ++
      (u.pathText.toList ++ (marked "?" u.query).toList ++ (marked "#" u.fragment).toList) := by
    simp [text]
  have hend : u.pathText.toList ++ (marked "?" u.query).toList ++
      (marked "#" u.fragment).toList ≠ [] := by simp [hne]
  constructor
  · rw [htext]
    simp only [String.toList_append, hscheme, List.cons_append]
    exact ⟨_, _, rfl, halpha⟩
  · intro c hc
    rw [htext, List.getLast?_append, List.getLast?_eq_some_getLast hend, Option.some_or] at hc
    obtain rfl := Option.some.inj hc
    exact (hpath.append hquery).append hfragment _ (List.getLast_mem hend)

end SiteScrape.Url
