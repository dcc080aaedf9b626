import SiteScrape.Proofs.FullMoments
import SiteScrape.Proofs.TaggedKeywords

/-!
# Date patterns one after the other

Patterns are tried in order, and a text belongs to the first that fits. Which
patterns can fit is seen from the shape of a text alone, where each digit and
each letter is like any other (`fits_of_local?`), and all that is written under
one pattern has one shape (`shape_of_written`). So a list of patterns reads back
what is written under any of them once no pattern fits the shape of a later one
(`parse?_written`), and the patterns that apply when none are given are such a
list (`defaultPatterns_readable`).

A full moment names its offset itself, so it is the same whatever offset local
times have (`moment?_written`).
-/

namespace SiteScrape.Time

variable {t : LocalTime} {p p' : Parts} {cs rest : List Char}

/-! ### Shapes -/

/-- A character as far as its class goes: `a` for a letter, `0` for a digit, and
every other character for itself. -/
def shapeOf (c : Char) : Char :=
  if c.isAlpha then 'a' else if c.isDigit then '0' else c

theorem shapeOf_of_isAlpha {c : Char} (h : c.isAlpha = true) : shapeOf c = 'a' := if_pos h

theorem shapeOf_of_isDigit {c : Char} (h : c.isDigit = true) : shapeOf c = '0' := by
  have halpha : ¬ c.isAlpha = true := fun h' => by simp [isDigit_of_isAlpha h'] at h
  rw [shapeOf, if_neg halpha, if_pos h]

theorem shapeOf_cases (c : Char) : (c.isAlpha = true ∧ shapeOf c = 'a') ∨
    (c.isDigit = true ∧ shapeOf c = '0') ∨ shapeOf c = c := by
  by_cases halpha : c.isAlpha = true
  · exact .inl ⟨halpha, shapeOf_of_isAlpha halpha⟩
  by_cases hdigit : c.isDigit = true
  · exact .inr (.inl ⟨hdigit, shapeOf_of_isDigit hdigit⟩)
  · exact .inr (.inr (by rw [shapeOf, if_neg halpha, if_neg hdigit]))

@[simp] theorem isBlank_shapeOf (c : Char) : Text.isBlank (shapeOf c) = Text.isBlank c := by
  rcases shapeOf_cases c with ⟨h, hc⟩ | ⟨h, hc⟩ | hc
  · rw [hc, isBlank_of_isAlpha h]
    rfl
  · rw [hc, (plain_of_isDigit h).1]
    rfl
  · rw [hc]

@[simp] theorem isDigit_shapeOf (c : Char) : (shapeOf c).isDigit = c.isDigit := by
  rcases shapeOf_cases c with ⟨h, hc⟩ | ⟨h, hc⟩ | hc
  · rw [hc, isDigit_of_isAlpha h]
    rfl
  · rw [hc, h]
    rfl
  · rw [hc]

/-- Only letters and digits are no longer told apart. -/
theorem eq_of_shapeOf {c d : Char} (h : shapeOf c = d) (hletter : d ≠ 'a') (hdigit : d ≠ '0') :
    c = d := by
  rcases shapeOf_cases c with ⟨-, hc⟩ | ⟨-, hc⟩ | hc
  · exact absurd (h.symm.trans hc) hletter
  · exact absurd (h.symm.trans hc) hdigit
  · exact hc.symm.trans h

theorem trimLeft_shape (cs : List Char) : Text.trimLeft Text.isBlank (cs.map shapeOf) =
    (Text.trimLeft Text.isBlank cs).map shapeOf := by
  rw [Text.trimLeft, List.dropWhile_map, Text.trimLeft]
  exact congrArg (fun f => (cs.dropWhile f).map shapeOf) (funext isBlank_shapeOf)

theorem takeWhile_isDigit_shape (cs : List Char) :
    (cs.map shapeOf).takeWhile Char.isDigit = (cs.takeWhile Char.isDigit).map shapeOf := by
  rw [List.takeWhile_map]
  exact congrArg (fun f => (cs.takeWhile f).map shapeOf) (funext isDigit_shapeOf)

theorem natOf_shape (h : ∀ c ∈ cs, c.isDigit = true) : Decimal.natOf (cs.map shapeOf) = 0 := by
  have hzero : cs.map shapeOf = List.replicate cs.length '0' :=
    List.map_eq_replicate_iff.mpr fun c hc => shapeOf_of_isDigit (h c hc)
  rw [hzero]
  generalize cs.length = k
  unfold Decimal.natOf
  induction k with
  | zero => rfl
  | succ k ih => exact ih

theorem leadingDigits_shape (most : Option Nat) (cs : List Char) :
    leadingDigits most (cs.map shapeOf) = (leadingDigits most cs).map shapeOf := by
  cases most with
  | none => exact takeWhile_isDigit_shape cs
  | some n => rw [leadingDigits, ← List.map_take, takeWhile_isDigit_shape, leadingDigits]

/-- A number that is read from a text is read from its shape, and leaves the
shape of what it leaves of the text. -/
theorem number?_shape {least : Nat} {most : Option Nat} {n : Int}
    (h : number? least most cs = some (n, rest)) :
    number? least most (cs.map shapeOf) = some (0, rest.map shapeOf) := by
  rw [number?_eq_some_iff] at h ⊢
  rw [leadingDigits_shape, natOf_shape fun c => isDigit_of_mem_leadingDigits, List.length_map,
    h.2.2.2, List.map_drop]
  exact ⟨h.1, by decide, rfl, rfl⟩

theorem numberFor?_shape {part : NumberPart} {n : Int} (h : numberFor? part cs = some (n, rest)) :
    (numberFor? part (cs.map shapeOf)).map Prod.snd = some (rest.map shapeOf) := by
  simp only [numberFor?, trimLeft_shape] at h ⊢
  generalize Text.trimLeft Text.isBlank cs = ds at h ⊢
  generalize part.isSigned = signed at h ⊢
  split at h
  · obtain ⟨⟨m, rest'⟩, hnumber, heq⟩ := Option.map_eq_some_iff.mp h
    obtain ⟨-, rfl⟩ := Prod.mk.inj heq
    simp [show shapeOf '-' = '-' by decide, number?_shape hnumber]
  · simp [show shapeOf '+' = '+' by decide, number?_shape h]
  · next hminus hplus =>
    split
    · next hmap =>
      obtain ⟨c, behind, rfl, hc, -⟩ := List.map_eq_cons_iff.mp hmap
      exact absurd (eq_of_shapeOf hc (by decide) (by decide) ▸ rfl) (hminus behind rfl)
    · next hmap =>
      obtain ⟨c, behind, rfl, hc, -⟩ := List.map_eq_cons_iff.mp hmap
      exact absurd (eq_of_shapeOf hc (by decide) (by decide) ▸ rfl) (hplus behind rfl)
    · rw [number?_shape h, Option.map_some]

/-! ### Fitting -/

/-- The shape of what is written for an item. -/
def Item.shape : Item → List Char
  | .literal text => text.map shapeOf
  | .blanks => [' ']
  | .number part => List.replicate (part.width.getD 0) '0'
  | .monthName _ => ['a', 'a', 'a']
  | _ => []

/-- What is left of the shape of a text behind an item that is written, whatever
the item means. -/
def Item.skip? : Item → List Char → Option (List Char)
  | .literal text, cs => Text.afterLead (text.map shapeOf) cs
  | .blanks, cs => some (Text.trimLeft Text.isBlank cs)
  | .number part, cs => (numberFor? part cs).map Prod.snd
  | .monthName _, cs => Text.afterLead ['a', 'a', 'a'] cs
  | _, _ => none

/-- A text of this shape may fit the items. -/
def fits (items : List Item) (shape : List Char) : Bool :=
  items.foldlM (fun cs item => item.skip? cs) shape == some []

theorem map_shapeOf_padded (k n : Nat) :
    (Decimal.padded k n).map shapeOf = List.replicate k '0' := by
  refine (List.map_eq_replicate_iff.mpr fun c hc => ?_).trans
    (congrArg (List.replicate · '0') (Decimal.length_padded k n))
  exact shapeOf_of_isDigit (Decimal.isDigit_of_mem_padded hc)

theorem shape_of_writeItem? {item : Item} {text : List Char} (h : t.writeItem? item = some text) :
    text.map shapeOf = item.shape := by
  cases item with
  | literal literal =>
    cases h
    rfl
  | blanks =>
    cases h
    rfl
  | number part =>
    obtain ⟨n, -, rfl⟩ := Option.map_eq_some_iff.mp h
    exact map_shapeOf_padded _ n
  | monthName long =>
    cases long with
    | true => cases h
    | false =>
      obtain ⟨name, hname, rfl⟩ := Option.map_eq_some_iff.mp h
      have hnames : ∀ name ∈ LocalTime.monthNames,
          name.toList.map shapeOf = ['a', 'a', 'a'] := by decide
      exact hnames name (List.mem_of_getElem? hname)
  | _ => cases h

/-- All that is written for the items has one shape. -/
theorem shape_of_written {items : List Item} {text : List Char}
    (h : t.writeItems? items = some text) : text.map shapeOf = items.flatMap Item.shape := by
  induction items generalizing text with
  | nil =>
    cases h
    rfl
  | cons item items ih =>
    obtain ⟨first, rest, hfirst, hrest, rfl⟩ := writeItems?_cons h
    rw [List.map_append, shape_of_writeItem? hfirst, ih hrest, List.flatMap_cons]

/-- A name of letters leaves as many letters out of the shape. -/
theorem shape_of_afterName {name : String} (hname : name.toList.all Char.isAlpha = true)
    (h : afterName name cs = some rest) :
    cs.map shapeOf = List.replicate name.length 'a' ++ rest.map shapeOf := by
  unfold afterName at h
  split at h
  · next htake =>
    obtain rfl := Option.some.inj h
    have hlength : (cs.take name.length).length = name.length := by
      rw [← List.length_map (f := Char.toLower), htake, String.length_toList]
    have hletters : (cs.take name.length).map shapeOf = List.replicate name.length 'a' := by
      refine (List.map_eq_replicate_iff.mpr fun c hc => shapeOf_of_isAlpha ?_).trans
        (congrArg (List.replicate · 'a') hlength)
      rw [← Char.isAlpha_toLower_eq_isAlpha]
      exact List.all_eq_true.mp hname _ (htake ▸ List.mem_map_of_mem hc)
    rw [← hletters, ← List.map_append, List.take_append_drop]
  · cases h

theorem skip?_of_readItem? {item : Item} (hwritten : item.isWritten = true)
    (h : readItem? item p cs = some (p', rest)) :
    item.skip? (cs.map shapeOf) = some (rest.map shapeOf) := by
  cases item with
  | literal text =>
    obtain ⟨behind, hbehind, heq⟩ := Option.bind_eq_some_iff.mp h
    cases heq
    rw [Text.afterLead_eq_some.mp hbehind, List.map_append]
    exact Text.afterLead_eq_some.mpr rfl
  | blanks =>
    cases h
    exact congrArg some (trimLeft_shape cs)
  | number part =>
    obtain ⟨⟨n, behind⟩, hnumber, hput⟩ := Option.bind_eq_some_iff.mp h
    obtain ⟨q, -, heq⟩ := Option.bind_eq_some_iff.mp hput
    cases heq
    exact numberFor?_shape hnumber
  | monthName long =>
    cases long with
    | true => cases hwritten
    | false =>
      obtain ⟨⟨i, behind⟩, hname, hput⟩ := Option.bind_eq_some_iff.mp h
      obtain ⟨q, -, heq⟩ := Option.bind_eq_some_iff.mp hput
      cases heq
      obtain ⟨⟨⟨short, more⟩, j⟩, hmem, hshort⟩ := List.exists_of_findSome?_eq_some hname
      obtain ⟨behind, hbehind, heq⟩ := Option.map_eq_some_iff.mp hshort
      cases heq
      have hnames : ∀ name ∈ monthNames, name.1.toList.all Char.isAlpha = true ∧
          name.1.length = 3 := by decide
      obtain ⟨hletters, hthree⟩ := hnames _ (List.fst_mem_of_mem_zipIdx hmem)
      have hshape := shape_of_afterName hletters hbehind
      rw [hthree] at hshape
      exact Text.afterLead_eq_some.mpr hshape
  | _ => cases hwritten

theorem skips_of_reads {items : List Item} (hwritten : ∀ item ∈ items, item.isWritten = true)
    (h : items.foldlM (fun (p, cs) item => readItem? item p cs) (p, cs) = some (p', rest)) :
    items.foldlM (fun cs item => item.skip? cs) (cs.map shapeOf) = some (rest.map shapeOf) := by
  induction items generalizing p cs with
  | nil =>
    cases h
    rfl
  | cons item items ih =>
    rw [List.forall_mem_cons] at hwritten
    obtain ⟨⟨q, behind⟩, hread, hreads⟩ := Option.bind_eq_some_iff.mp h
    rw [List.foldlM_cons, skip?_of_readItem? hwritten.1 hread]
    exact ih hwritten.2 hreads

/-- A pattern under which a text is read fits the shape of the text. -/
theorem fits_of_local? {pattern : String} {items : List Item} {ms : Int}
    (hitems : items? pattern.toList = some items)
    (hwritten : ∀ item ∈ items, item.isWritten = true) (h : local? pattern cs = some ms) :
    fits items (cs.map shapeOf) = true := by
  obtain ⟨p, hparts, -⟩ := Option.bind_eq_some_iff.mp h
  obtain ⟨items', hitems', hparts⟩ := Option.bind_eq_some_iff.mp hparts
  obtain ⟨⟨q, rest⟩, hreads, hrest⟩ := Option.bind_eq_some_iff.mp hparts
  obtain rfl := Option.some.inj (hitems.symm.trans hitems')
  have hempty : rest = [] := by
    dsimp only at hrest
    split at hrest
    · next hnil => exact List.isEmpty_iff.mp hnil
    · cases hrest
  rw [fits, skips_of_reads hwritten hreads, hempty]
  rfl

/-! ### Patterns in order -/

/-- The shape of what is written for items. -/
def shapeUnder (items : List Item) : List Char := items.flatMap Item.shape

/-- No blank stands at an end. -/
def hasEnds (cs : List Char) : Bool :=
  cs.head?.all (!Text.isBlank ·) && cs.getLast?.all (!Text.isBlank ·)

/-- Patterns, with their items, under which a text is read as it was written:
what is written is shorter than a full moment and has no blanks at its ends, and
no pattern fits the shape of another. -/
structure ReadBack (patterns : List String) (itemss : List (List Item)) : Prop where
  items : patterns.map (items? ·.toList) = itemss.map some
  dates : ∀ items ∈ itemss, isDatePattern items = true
  short : ∀ items ∈ itemss, (shapeUnder items).length < 20
  ends : ∀ items ∈ itemss, hasEnds (shapeUnder items) = true
  apart : itemss.Pairwise fun items others =>
    fits items (shapeUnder others) = false ∧ fits others (shapeUnder items) = false

/-- The items of the patterns that apply when none are given. -/
def defaultItems : List (List Item) :=
  let yearFirst (separator : Char) := Item.joined separator [.year, .month, .day]
  let dayFirst := Item.joined '/' [.day, .month, .year]
  let hourMinute := Item.joined ':' [.hour, .minute]
  let behindYear := [.number .year, .literal [','], .blanks] ++ hourMinute
  [yearFirst '-' ++ .blanks :: Item.clockTime, yearFirst '-' ++ .blanks :: hourMinute,
    yearFirst '-' ++ .literal ['T'] :: Item.clockTime, yearFirst '/' ++ .blanks :: Item.clockTime,
    yearFirst '/' ++ .blanks :: hourMinute, dayFirst ++ .blanks :: Item.clockTime,
    dayFirst ++ .blanks :: hourMinute,
    .monthName false :: .blanks :: .number .day :: .blanks :: behindYear,
    .number .day :: .blanks :: .monthName false :: .blanks :: behindYear,
    yearFirst '-', yearFirst '/', dayFirst]

theorem items_defaultPatterns :
    defaultPatterns.map (items? ·.toList) = defaultItems.map some := by
  simp only [defaultPatterns, defaultItems, List.map_cons, List.map_nil, List.cons.injEq, and_true]
  and_intros <;> exact items?_of_chars rfl rfl

set_option maxRecDepth 2000 in
theorem readBack_default : ReadBack defaultPatterns defaultItems where
  items := items_defaultPatterns
  dates := by decide
  short := by decide
  ends := by decide
  apart := by decide

theorem isWritten_of_isDatePattern {items : List Item} (h : isDatePattern items = true) :
    ∀ item ∈ items, item.isWritten = true := by
  simp only [isDatePattern, Bool.and_eq_true, List.all_eq_true] at h
  exact h.1.1.1

theorem ends_of_shape (h : hasEnds (cs.map shapeOf) = true) : Text.Ends Text.isBlank cs := by
  simp only [hasEnds, List.head?_map, List.getLast?_map, Bool.and_eq_true, Option.all_eq_true,
    Option.map_eq_some_iff, forall_exists_index, and_imp, forall_apply_eq_imp_iff₂, isBlank_shapeOf,
    Bool.not_eq_true'] at h
  exact ⟨h.1, h.2⟩

variable {patterns before after : List String} {itemss : List (List Item)}
variable {pattern text lead trail : String} {offset ms : Int}

/-- A text is read under none of the patterns if its shape fits none of their items. -/
theorem local?_eq_none (hitems : patterns.map (items? ·.toList) = itemss.map some)
    (hdates : ∀ items ∈ itemss, isDatePattern items = true)
    (hunfit : ∀ items ∈ itemss, fits items (cs.map shapeOf) = false) :
    ∀ pattern ∈ patterns, local? pattern cs = none := by
  intro pattern hmem
  refine Option.eq_none_iff_forall_ne_some.mpr fun ms hms => ?_
  have hread : items? pattern.toList ∈ itemss.map some := hitems ▸ List.mem_map_of_mem hmem
  obtain ⟨items, hmem', heq⟩ := List.mem_map.mp hread
  have hfits := fits_of_local? heq.symm (isWritten_of_isDatePattern (hdates items hmem')) hms
  rw [hunfit items hmem'] at hfits
  cases hfits

/-- A time is written under each of the patterns, and the text is read under
that pattern and under no other. -/
theorem ReadBack.written (h : ReadBack (before ++ pattern :: after) itemss) (t : LocalTime) :
    ∃ text, t.write? pattern = some text ∧ text.toList.length < 20 ∧
      Text.Ends Text.isBlank text.toList ∧
      (∀ other ∈ before ++ after, local? other text.toList = none) ∧
      local? pattern text.toList = some (t.shownIn pattern).millis := by
  obtain ⟨before', behind, rfl, hbefore, hbehind⟩ := List.map_eq_append_iff.mp
    (h.items.symm.trans List.map_append)
  obtain ⟨items, after', rfl, hfirst, hafter⟩ := List.map_eq_cons_iff.mp hbehind
  have hitems : items? pattern.toList = some items := hfirst.symm
  have hmem : items ∈ before' ++ items :: after' := by simp
  obtain ⟨text, htext, hread⟩ := local?_written t hitems (h.dates items hmem)
  have hshape : text.map shapeOf = shapeUnder items := shape_of_written htext
  have hshort := h.short items hmem
  have hends := h.ends items hmem
  rw [← hshape] at hshort hends
  rw [List.length_map] at hshort
  refine ⟨String.ofList text, ?_, ?_⟩
  · rw [LocalTime.write?, hitems, Option.bind_some, htext, Option.map_some]
  rw [String.toList_ofList]
  refine ⟨hshort, ends_of_shape hends, ?_, hread⟩
  have hothers : (before ++ after).map (items? ·.toList) = (before' ++ after').map some := by
    rw [List.map_append, List.map_append, hbefore, hafter]
  have hsub : ∀ others ∈ before' ++ after', others ∈ before' ++ items :: after' := by
    intro others hmem'
    rw [List.mem_append, List.mem_cons]
    exact (List.mem_append.mp hmem').imp_right .inr
  obtain ⟨-, hbehind', hapart⟩ := List.pairwise_append.mp h.apart
  refine local?_eq_none hothers (fun others hmem' => h.dates others (hsub others hmem'))
    fun others hmem' => ?_
  rw [hshape]
  rcases List.mem_append.mp hmem' with hmem' | hmem'
  · exact (hapart others hmem' items List.mem_cons_self).1
  · exact ((List.pairwise_cons.mp hbehind').1 others hmem').2

/-! ### Offsets -/

/-- Blanks around a text are not read. -/
theorem trimBoth_surrounded (hlead : Text.isBlankText lead = true)
    (htrail : Text.isBlankText trail = true) (hends : Text.Ends Text.isBlank text.toList) :
    Text.trimBoth Text.isBlank (lead ++ text ++ trail).toList = text.toList := by
  have hlist : (lead ++ text ++ trail).toList = lead.toList ++ text.toList ++ trail.toList := by
    simp
  rw [hlist, Text.trimBoth_append (by simpa [Text.isBlankText] using htrail), Text.trimBoth,
    Text.trimLeft_append (by simpa [Text.isBlankText] using hlead)]
  exact hends.trimBoth_eq

/-- All that a text is read as is at least a day inside the calendar. -/
def ReadsInside (patterns : List String) (cs : List Char) : Prop :=
  ∀ pattern ∈ patterns, ∀ ms ∈ local? pattern cs,
    Moment.earliest + Moment.day ≤ ms ∧ ms < Moment.bound - Moment.day

/-- What is written under one of the patterns is read a day inside the calendar. -/
theorem ReadBack.readsInside (h : ReadBack (before ++ pattern :: after) itemss) {t : LocalTime}
    (hwritten : t.write? pattern = some text) :
    ReadsInside (before ++ pattern :: after) text.toList := by
  obtain ⟨text', htext, -, -, hothers, hread⟩ := h.written t
  obtain rfl := Option.some.inj (hwritten.symm.trans htext)
  intro other hother ms hms
  by_cases hsame : other = pattern
  · subst hsame
    obtain rfl := Option.some.inj (hread.symm.trans hms)
    exact (t.shownIn other).millis_inside
  · have hnone := hothers other (by simpa [hsame] using hother)
    cases hnone.symm.trans hms

/-- A local time is as much earlier in UTC as its offset says. -/
theorem findSome?_ofLocal? (hoffset : offset.natAbs < 86400) (h : ReadsInside patterns cs) :
    (patterns.findSome? fun pattern => (local? pattern cs).bind (Moment.ofLocal? offset)) =
      (patterns.findSome? (local? · cs)).map (· - offset * Moment.second) := by
  induction patterns with
  | nil => rfl
  | cons pattern patterns ih =>
    obtain ⟨hpattern, hpatterns⟩ := List.forall_mem_cons.mp h
    rw [List.findSome?_cons, List.findSome?_cons, ih hpatterns]
    cases hread : local? pattern cs with
    | none => rfl
    | some ms =>
      obtain ⟨hearly, hlate⟩ := hpattern ms hread
      rw [Option.bind_some, Moment.ofLocal?_of_inside hoffset hearly hlate, Option.map_some]

/-- A text that is shorter than a full moment and fits no pattern names no moment. -/
theorem ReadBack.parse?_eq_none (h : ReadBack patterns itemss)
    (hshort : (Text.trimBoth Text.isBlank text.toList).length < 20)
    (hunfit : ∀ items ∈ itemss,
      fits items ((Text.trimBoth Text.isBlank text.toList).map shapeOf) = false) :
    parse? patterns offset text = none := by
  have hread := local?_eq_none h.items h.dates hunfit
  rw [parse?, moment?_eq_none hshort, Option.none_or, List.findSome?_eq_none_iff]
  intro pattern hmem
  rw [hread pattern hmem, Option.bind_none]

/-- A full moment is the same whatever offset local times have. -/
theorem parse?_of_moment? (h : moment? (Text.trimBoth Text.isBlank text.toList) = some ms)
    (patterns : List String) (offset : Int) : parse? patterns offset text = some ms := by
  rw [parse?, h, Option.some_or]

/-- Any other text is read as a local time. -/
theorem parse?_eq (h : moment? (Text.trimBoth Text.isBlank text.toList) = none)
    (hinside : ReadsInside patterns (Text.trimBoth Text.isBlank text.toList))
    (hoffset : offset.natAbs < 86400) : parse? patterns offset text =
      (patterns.findSome? (local? · (Text.trimBoth Text.isBlank text.toList))).map
        (· - offset * Moment.second) := by
  rw [parse?, h, Option.none_or, findSome?_ofLocal? hoffset hinside]

/-- A time that is written under one of the patterns is read as far as it is
shown, as much earlier as the offset says. -/
theorem ReadBack.parse?_written (h : ReadBack (before ++ pattern :: after) itemss) (t : LocalTime)
    (hlead : Text.isBlankText lead = true) (htrail : Text.isBlankText trail = true)
    (hoffset : offset.natAbs < 86400) :
    ∃ text, t.write? pattern = some text ∧
      (∀ other ∈ before ++ after, local? other text.toList = none) ∧
      parse? (before ++ pattern :: after) offset (lead ++ text ++ trail) =
        some ((t.shownIn pattern).millis - offset * Moment.second) := by
  obtain ⟨text, htext, hshort, hends, hothers, hread⟩ := h.written t
  refine ⟨text, htext, hothers, ?_⟩
  have hbefore : before.findSome?
      (fun pattern => (local? pattern text.toList).bind (Moment.ofLocal? offset)) = none :=
    List.findSome?_eq_none_iff.mpr fun other hmem => by
      rw [hothers other (List.mem_append_left _ hmem), Option.bind_none]
  obtain ⟨hearly, hlate⟩ := (t.shownIn pattern).millis_inside
  rw [parse?, trimBoth_surrounded hlead htrail hends, moment?_eq_none hshort, Option.none_or,
    List.findSome?_append, hbefore, Option.none_or, List.findSome?_cons, hread, Option.bind_some,
    Moment.ofLocal?_of_inside hoffset hearly hlate]

/-- The patterns that apply when none are given read back what is written under
any of them, and no other one reads it. At an offset every local time is as
much earlier, and a full moment is the same. -/
theorem defaultPatterns_read_back (t : LocalTime)
    (hpatterns : defaultPatterns = before ++ pattern :: after)
    (hlead : Text.isBlankText lead = true) (htrail : Text.isBlankText trail = true)
    (hoffset : offset.natAbs < 86400) :
    (∃ text, t.write? pattern = some text ∧
      (∀ other ∈ before ++ after, local? other text.toList = none) ∧
      parse? defaultPatterns offset (lead ++ text ++ trail) =
        some ((t.shownIn pattern).millis - offset * Moment.second)) ∧
    (∀ zone patterns,
      parse? patterns offset (lead ++ String.ofList (t.writeMoment zone) ++ trail) =
        some (t.millis - zone.elim 0 Zone.seconds * Moment.second)) ∧
    ∀ text,
      (∀ ms, moment? (Text.trimBoth Text.isBlank text.toList) = some ms →
        ∀ patterns, parse? patterns offset text = some ms) ∧
      (moment? (Text.trimBoth Text.isBlank text.toList) = none →
        ReadsInside defaultPatterns (Text.trimBoth Text.isBlank text.toList) →
        parse? defaultPatterns offset text =
          (parse? defaultPatterns 0 text).map (· - offset * Moment.second)) := by
  refine ⟨?_, fun zone patterns => ?_, fun text => ⟨fun ms h patterns => ?_, fun h hinside => ?_⟩⟩
  · have hread := readBack_default
    rw [hpatterns] at hread ⊢
    exact hread.parse?_written t hlead htrail hoffset
  · have hends : Text.Ends Text.isBlank (String.ofList (t.writeMoment zone)).toList := by
      rw [String.toList_ofList]
      exact ends_writeMoment t zone
    refine parse?_of_moment? ?_ patterns offset
    rw [trimBoth_surrounded hlead htrail hends, String.toList_ofList]
    exact moment?_written t zone
  · exact parse?_of_moment? h patterns offset
  · have hutc : parse? defaultPatterns 0 text = _ := parse?_eq h hinside (by decide)
    simp only [Int.zero_mul, Int.sub_zero, Option.map_id_fun', id] at hutc
    rw [parse?_eq h hinside hoffset, hutc]

/-- Two seconds before the end of a leap day. -/
def leapDay : LocalTime where
  date := ⟨2024, 2, 29⟩
  hour := 23
  minute := 59
  second := 58
  isValid := ⟨by decide, by decide⟩
  year_mem := by decide
  hour_lt := by decide
  minute_lt := by decide
  second_le := by decide

theorem defaultPatterns_read_back_of_leap_day :
    Text.isBlankText "  " = true ∧ Text.isBlankText "\n" = true ∧ Int.natAbs 28800 < 86400 ∧
      leapDay.write? "%d/%m/%Y %H:%M" = some "29/02/2024 23:59" ∧
      parse? defaultPatterns 28800 ("  " ++ "29/02/2024 23:59" ++ "\n") = some 1709222340000 ∧
      parse? defaultPatterns 28800 ("  " ++ String.ofList (leapDay.writeMoment none) ++ "\n") =
        some 1709251198000 ∧
      parse? defaultPatterns 28800 "29/02/2024 23:59" =
        (parse? defaultPatterns 0 "29/02/2024 23:59").map (· - 28800 * Moment.second) := by
  have hlead : Text.isBlankText "  " = true := by decide
  have htrail : Text.isBlankText "\n" = true := by decide
  have hoffset : Int.natAbs 28800 < 86400 := by decide
  have hsplit : defaultPatterns =
      defaultPatterns.take 6 ++ "%d/%m/%Y %H:%M" :: defaultPatterns.drop 7 := rfl
  have hwritten : leapDay.write? "%d/%m/%Y %H:%M" = some "29/02/2024 23:59" := by
    rw [LocalTime.write?, items?_eq_itemsWithin (Nat.le_refl _)]
    rfl
  obtain ⟨⟨text, htext, -, hread⟩, hmoment, hany⟩ :=
    defaultPatterns_read_back leapDay hsplit hlead htrail hoffset
  obtain rfl := Option.some.inj (hwritten.symm.trans htext)
  have hshown : (leapDay.shownIn "%d/%m/%Y %H:%M").millis - 28800 * Moment.second =
      1709222340000 := by
    simp only [LocalTime.millis, LocalTime.shownIn, shownParts, items?_eq_itemsWithin (Nat.le_refl _)]
    decide
  have hfull : leapDay.millis - (none : Option Zone).elim 0 Zone.seconds * Moment.second =
      1709251198000 := by decide
  have htrim : Text.trimBoth Text.isBlank "29/02/2024 23:59".toList = "29/02/2024 23:59".toList := rfl
  have hpatterns : ReadBack (defaultPatterns.take 6 ++ "%d/%m/%Y %H:%M" :: defaultPatterns.drop 7)
      defaultItems := readBack_default
  have hplain := (hany "29/02/2024 23:59").2
  rw [htrim] at hplain
  exact ⟨hlead, htrail, hoffset, hwritten, hshown ▸ hread, hfull ▸ hmoment none defaultPatterns,
    hplain (moment?_eq_none (by decide)) (hpatterns.readsInside hwritten)⟩

end SiteScrape.Time
