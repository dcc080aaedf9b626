import SiteScrape.Proofs.DatePatterns
import SiteScrape.Schema.Labels

/-!
# Times that cannot be read

Amounts without a known unit come to no age at all, and the moment no time
before now is now (`Age.parse_of_unknown_units`). So of a statistic that shows
neither a date nor an age, the moment of reading is taken for the time
(`time_of_unreadable`).
-/

namespace SiteScrape

namespace Age

variable {text : String} {now : Int}

theorem add_of_unknown {e : Entry} (h : (extent? (String.ofList e.unit)).isSome = false)
    (age : Total) : age.add e = age := by
  rw [Option.isSome_eq_false_iff, Option.isNone_iff_eq_none] at h
  unfold Total.add
  rw [h]

/-- Amounts without a known unit add nothing. -/
theorem total_of_unknown_units (h : hasKnownUnit text = false) : total text = ⟨0.0, 0.0⟩ := by
  have hunknown : ∀ e ∈ entries text.toList, (extent? (String.ofList e.unit)).isSome = false :=
    fun e he => Bool.eq_false_iff.mpr (List.any_eq_false.mp h e he)
  unfold total
  generalize entries text.toList = es at hunknown
  generalize (⟨0.0, 0.0⟩ : Total) = age
  induction es with
  | nil => rfl
  | cons e es ih =>
    rw [List.foldl_cons, add_of_unknown (hunknown e List.mem_cons_self)]
    exact ih fun e he => hunknown e (List.mem_cons_of_mem _ he)

/-- The moment no time before now is now. -/
theorem before?_nothing (h : Moment.within? now = some now) : before? now ⟨0.0, 0.0⟩ = some now := by
  have hmonths : min (Double.truncate 0.0) 0xffffffff = 0 := by decide
  have hmillis : min (Double.truncate (0.0 + Double.fraction 0.0 * 30.0 * 86400000.0))
      0x7fffffffffffffff = 0 := by decide
  have hmoment : Moment.monthsBefore? now (0 : Int).toNat = some now := Moment.monthsBefore?_zero h
  unfold before?
  simp only [hmonths, hmillis, hmoment]
  rw [if_neg (by decide)]
  show Moment.within? (now - 0) = some now
  rw [Int.sub_zero, h]

theorem parse_of_unknown_units (hnow : Moment.within? now = some now)
    (h : hasKnownUnit text = false) : parse text now = now := by
  rw [parse, total_of_unknown_units h, before?_nothing hnow, Option.getD_some]

end Age

namespace Labels

variable {offset now : Int} {source : Source} {labels : List String}

/-- What the page shows behind a label is no time: neither a date in the title of
an element inside, nor a date in the text, nor an amount in a known unit. -/
structure Unreadable (offset : Int) (source : Source) (labels : List String) : Prop where
  title : ∀ e, element? source labels = some e → titleMoment? offset e = none
  date : ∀ s, text? source labels = some s → moment? offset s = none
  age : ∀ s, text? source labels = some s → Age.hasKnownUnit s = false

theorem time_of_text {s : String} (h : Unreadable offset source labels)
    (hnow : Moment.within? now = some now) (hs : text? source labels = some s) :
    time offset now source labels = .ofInt now := by
  obtain ⟨e, he, -⟩ := Option.bind_eq_some_iff.mp hs
  simp only [time, he, h.title e he, hs, h.date s hs, Option.getD_none,
    Age.parse_of_unknown_units hnow (h.age s hs)]

theorem time_of_no_text (h : Unreadable offset source labels) (hs : text? source labels = none) :
    time offset now source labels = .null := by
  unfold time
  split
  · rfl
  · next e he => rw [h.title e he, hs]

/-- A time that cannot be read is absent exactly if nothing stands behind the
label. Else it is the moment of reading, and so it is collected. -/
theorem time_of_unreadable (h : Unreadable offset source labels)
    (hnow : Moment.within? now = some now) :
    time offset now source labels =
        (if (text? source labels).isSome then .ofInt now else .null) ∧
      Field.isNothing (time offset now source labels) = (text? source labels).isNone := by
  cases hs : text? source labels with
  | none => rw [time_of_no_text h hs]; exact ⟨rfl, rfl⟩
  | some s => rw [time_of_text h hnow hs]; exact ⟨rfl, rfl⟩

/-- A list that shows one statistic. -/
def oneStatistic (text : String) : Source :=
  .element { tag := ⟨0, .html, "ul", []⟩, children := [.element ⟨1, .html, "li", []⟩ [.text text]] }

/-- A short text that fits no pattern and holds no date names no moment. -/
theorem moment?_of_no_date {text : String}
    (hshort : (Text.trimBoth Text.isBlank text.toList).length < 20)
    (hunfit : ∀ items ∈ Time.defaultItems,
      Time.fits items ((Text.trimBoth Text.isBlank text.toList).map Time.shapeOf) = false)
    (hdate : firstDate? text.toList = none) : moment? offset text = none := by
  rw [moment?, Time.readBack_default.parse?_eq_none hshort hunfit, hdate, Option.bind_none,
    Option.none_or]

theorem unreadable_of_shown {shown : Option String}
    (htitle : (element? source labels).map (titleMoment? offset) = some none)
    (htext : text? source labels = shown)
    (hshown : ∀ s, shown = some s → moment? offset s = none ∧ Age.hasKnownUnit s = false) :
    Unreadable offset source labels := by
  refine ⟨fun e he => ?_, fun s hs => (hshown s (htext ▸ hs)).1,
    fun s hs => (hshown s (htext ▸ hs)).2⟩
  rw [he] at htitle
  exact Option.some.inj htitle

/-- What is shown behind a label with a word, and behind a bare label. -/
theorem shown_soon_bare :
    ((element? (oneStatistic "Joined: soon") ["Joined"]).map (titleMoment? 0) = some none ∧
      text? (oneStatistic "Joined: soon") ["Joined"] = some "soon" ∧
      Age.hasKnownUnit "soon" = false) ∧
    (element? (oneStatistic "Joined:") ["Joined"]).map (titleMoment? 0) = some none ∧
      text? (oneStatistic "Joined:") ["Joined"] = none := by
  decide +kernel

theorem unreadable_soon : Unreadable 0 (oneStatistic "Joined: soon") ["Joined"] := by
  obtain ⟨⟨htitle, htext, hunit⟩, -⟩ := shown_soon_bare
  refine unreadable_of_shown htitle htext fun s hs => ?_
  obtain rfl := Option.some.inj hs
  exact ⟨moment?_of_no_date (by decide) (by decide) (by decide), hunit⟩

/-- A bare label gives no time, a label before a word the moment of reading. -/
theorem time_of_unreadable_of_soon :
    let bare := oneStatistic "Joined:"
    let soon := oneStatistic "Joined: soon"
    Moment.within? 1717200000000 = some 1717200000000 ∧
      Unreadable 0 bare ["Joined"] ∧ text? bare ["Joined"] = none ∧
      time 0 1717200000000 bare ["Joined"] = .null ∧
      Unreadable 0 soon ["Joined"] ∧ text? soon ["Joined"] = some "soon" ∧
      time 0 1717200000000 soon ["Joined"] = .ofInt 1717200000000 := by
  intro bare soon
  have hnow : Moment.within? 1717200000000 = some 1717200000000 := by decide
  obtain ⟨⟨-, hsoon, -⟩, htitle, hnone⟩ := shown_soon_bare
  have hbare : Unreadable 0 bare ["Joined"] :=
    unreadable_of_shown htitle hnone fun s hs => by cases hs
  have hnull := (time_of_unreadable hbare hnow).1
  have hread := (time_of_unreadable unreadable_soon hnow).1
  rw [hnone] at hnull
  rw [hsoon] at hread
  exact ⟨hnow, hbare, hnone, hnull, unreadable_soon, hsoon, hread⟩

/-- Someone who joined soon joined now. -/
theorem time_of_soon :
    Unreadable 0 (oneStatistic "Joined: soon") ["Joined"] ∧
      time 0 1717200000000 (oneStatistic "Joined: soon") ["Joined"] = .ofInt 1717200000000 :=
  ⟨unreadable_soon, time_of_text unreadable_soon (by decide) shown_soon_bare.1.2.1⟩

end Labels

end SiteScrape
