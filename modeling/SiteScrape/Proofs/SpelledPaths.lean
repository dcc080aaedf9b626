import SiteScrape.Json.Path
import SiteScrape.Proofs.Coercions
import SiteScrape.Proofs.WrittenNumbers

/-!
# Texts that spell paths

The text of a path is made of words, dots and brackets: `Spells` is its grammar, and
what is read of a text is what the text spells (`spells_iff`). An index stands in
brackets, a key without `]` there in quotes, and a key without `.` and `[` may stand
alone (`ofText_written`). No text spells another segment, and those that can be
spelled can be mixed (`exists_ofText_iff`).
-/

namespace SiteScrape

namespace Decimal

theorem lt_of_index? {text : String} {i : Nat} (h : index? text = some i) :
    i < 0x10000000000000000 := by
  simpa using (Option.filter_eq_some_iff.mp h).2

end Decimal

namespace Segment

/-- A segment in brackets, and a key there in quotes. -/
def inBrackets : Segment → String
  | .key name => "['" ++ name ++ "']"
  | .index i => "[" ++ toString i ++ "]"

/-- Brackets end at the first `]`, and their numbers have 64 bits. -/
def FitsBrackets : Segment → Prop
  | .key name => ']' ∉ name.toList
  | .index i => i < 0x10000000000000000

instance : DecidablePred FitsBrackets
  | .key name => inferInstanceAs (Decidable (']' ∉ name.toList))
  | .index i => inferInstanceAs (Decidable (i < 0x10000000000000000))

theorem exists_inBrackets_eq (s : Segment) : ∃ rest, s.inBrackets.toList = '[' :: rest := by
  cases s with
  | key name => exact ⟨'\'' :: (name.toList ++ ['\'', ']']), by simp [inBrackets]⟩
  | index i => exact ⟨(toString i).toList ++ [']'], by simp [inBrackets]⟩

end Segment

namespace Path

variable {cs word inner rest : List Char} {p : Path} {s : Segment} {i : Nat}

/-- A word that is a key without brackets around it. -/
structure IsPlain (word : List Char) : Prop where
  ne_nil : word ≠ []
  dotless : '.' ∉ word
  bracketless : '[' ∉ word

instance : DecidablePred IsPlain := fun word =>
  decidable_of_iff (word ≠ [] ∧ '.' ∉ word ∧ '[' ∉ word)
    ⟨fun ⟨hne, hdot, hbracket⟩ => ⟨hne, hdot, hbracket⟩, fun ⟨hne, hdot, hbracket⟩ =>
      ⟨hne, hdot, hbracket⟩⟩

/-- A word ends in front of a dot, in front of a bracket, and with the text. -/
def EndsWord (rest : List Char) : Prop := ∀ c, rest.head? = some c → c = '.' ∨ c = '['

theorem endsWord_nil : EndsWord [] := fun _ hc => by cases hc

theorem endsWord_dot (rest : List Char) : EndsWord ('.' :: rest) :=
  fun _ hc => .inl (Option.some.inj hc).symm

theorem endsWord_bracket (rest : List Char) : EndsWord ('[' :: rest) :=
  fun _ hc => .inr (Option.some.inj hc).symm

/-- The texts of a path. A dot says nothing but that a word ends, and a bracket may stay
open at the end. -/
inductive Spells : List Char → Path → Prop where
  | done : Spells [] []
  | word {word rest : List Char} {p : Path} : IsPlain word → EndsWord rest → Spells rest p →
      Spells (word ++ rest) (.key (String.ofList word) :: p)
  | dot {rest : List Char} {p : Path} : Spells rest p → Spells ('.' :: rest) p
  | brackets {inner rest : List Char} {p : Path} : ']' ∉ inner → Spells rest p →
      Spells ('[' :: inner ++ ']' :: rest) (bracketed inner ++ p)
  | unclosed {inner : List Char} : ']' ∉ inner → Spells ('[' :: inner) (bracketed inner)

/-! ### Reading follows the grammar -/

theorem pending_of_ne_nil (h : word ≠ []) :
    pending word = [.key (String.ofList word.reverse)] :=
  if_neg (by simpa using h)

theorem read_word_append (hdot : '.' ∉ cs) (hbracket : '[' ∉ cs) (word rest : List Char) :
    read (.outside word) (cs ++ rest) = read (.outside (cs.reverse ++ word)) rest := by
  induction cs generalizing word with
  | nil => rfl
  | cons c cs ih =>
    rw [List.mem_cons, not_or] at hdot hbracket
    rw [List.cons_append, read, if_neg (Ne.symm hdot.1), if_neg (Ne.symm hbracket.1),
      ih hdot.2 hbracket.2, List.reverse_cons, List.append_assoc, List.singleton_append]

theorem read_inner_append (h : ']' ∉ inner) (word rest : List Char) :
    read (.inside word) (inner ++ rest) = read (.inside (inner.reverse ++ word)) rest := by
  induction inner generalizing word with
  | nil => rfl
  | cons c inner ih =>
    rw [List.mem_cons, not_or] at h
    rw [List.cons_append, read, if_neg (Ne.symm h.1), ih h.2, List.reverse_cons,
      List.append_assoc, List.singleton_append]

/-- Where a word ends it is a segment, and the rest is read by itself. -/
theorem read_of_endsWord (h : EndsWord rest) (word : List Char) :
    read (.outside word) rest = pending word ++ read (.outside []) rest := by
  cases rest with
  | nil => simp [read, pending]
  | cons c rest => obtain rfl | rfl := h c rfl <;> simp [read, pending]

theorem Spells.read_eq (h : Spells cs p) : read (.outside []) cs = p := by
  induction h with
  | done => rfl
  | word hword hends _ ih =>
    rw [read_word_append hword.dotless hword.bracketless, List.append_nil, read_of_endsWord hends,
      pending_of_ne_nil (by simpa using hword.ne_nil), List.reverse_reverse, ih,
      List.singleton_append]
  | dot _ ih => exact ih
  | @brackets inner rest p hinner _ ih =>
    calc read (.outside []) ('[' :: inner ++ ']' :: rest)
        = read (.inside []) (inner ++ ']' :: rest) := rfl
      _ = read (.inside inner.reverse) (']' :: rest) := by
        rw [read_inner_append hinner, List.append_nil]
      _ = bracketed inner ++ p := by rw [read, if_pos rfl, List.reverse_reverse, ih]
  | @unclosed inner hinner =>
    calc read (.outside []) ('[' :: inner)
        = read (.inside []) (inner ++ []) := by rw [List.append_nil]; rfl
      _ = bracketed inner := by
        rw [read_inner_append hinner, List.append_nil, read, List.reverse_reverse]

/-- A pending word may be empty. -/
theorem Spells.pending_append (hdot : '.' ∉ word) (hbracket : '[' ∉ word) (hends : EndsWord rest)
    (h : Spells rest p) : Spells (word.reverse ++ rest) (pending word ++ p) := by
  by_cases hnil : word = []
  · subst hnil
    exact h
  · have hplain : IsPlain word.reverse :=
      ⟨by simpa using hnil, by simpa using hdot, by simpa using hbracket⟩
    rw [pending_of_ne_nil hnil]
    exact .word hplain hends h

/-- What is read from within a word or a bracket on is spelled by the text from its
start on. -/
theorem spells_read (cs : List Char) :
    (∀ word, '.' ∉ word → '[' ∉ word → Spells (word.reverse ++ cs) (read (.outside word) cs)) ∧
      ∀ inner, ']' ∉ inner → Spells ('[' :: inner.reverse ++ cs) (read (.inside inner) cs) := by
  induction cs with
  | nil =>
    refine ⟨fun word hdot hbracket => ?_, fun inner hinner => ?_⟩
    · rw [read, ← List.append_nil (pending word)]
      exact .pending_append hdot hbracket endsWord_nil .done
    · rw [read, List.append_nil]
      exact .unclosed (by simpa using hinner)
  | cons c cs ih =>
    obtain ⟨hword, hinside⟩ := ih
    refine ⟨fun word hdot hbracket => ?_, fun inner hinner => ?_⟩
    · rw [read]
      by_cases hc : c = '.'
      · subst hc
        rw [if_pos rfl]
        exact .pending_append hdot hbracket (endsWord_dot cs)
          (.dot (hword [] List.not_mem_nil List.not_mem_nil))
      rw [if_neg hc]
      by_cases hopens : c = '['
      · subst hopens
        rw [if_pos rfl]
        exact .pending_append hdot hbracket (endsWord_bracket cs) (hinside [] List.not_mem_nil)
      rw [if_neg hopens]
      have hlonger := hword (c :: word) (by simp [Ne.symm hc, hdot])
        (by simp [Ne.symm hopens, hbracket])
      rwa [List.reverse_cons, List.append_assoc, List.singleton_append] at hlonger
    · rw [read]
      by_cases hc : c = ']'
      · subst hc
        rw [if_pos rfl]
        exact .brackets (by simpa using hinner) (hword [] List.not_mem_nil List.not_mem_nil)
      rw [if_neg hc]
      have hlonger := hinside (c :: inner) (by simp [Ne.symm hc, hinner])
      rwa [List.reverse_cons, ← List.cons_append, List.append_assoc, List.singleton_append]
        at hlonger

/-- A text spells the path that is read of it, and no other. -/
theorem spells_iff : Spells cs p ↔ read (.outside []) cs = p :=
  ⟨Spells.read_eq, fun h => h ▸ (spells_read cs).1 [] List.not_mem_nil List.not_mem_nil⟩

/-! ### What brackets hold -/

theorem bracketed_quoted (key : List Char) :
    bracketed ('\'' :: (key ++ ['\''])) = [.key (String.ofList key)] := by
  have hends : Text.Ends Text.isBlank ('\'' :: (key ++ ['\''])) := by
    refine ⟨fun c hc => ?_, fun c hc => ?_⟩
    · obtain rfl := Option.some.inj hc
      decide
    · rw [← List.cons_append, List.getLast?_concat] at hc
      obtain rfl := Option.some.inj hc
      decide
  have hunquoted : unquote? ('\'' :: (key ++ ['\''])) = some key := by simp [unquote?]
  simp only [bracketed, hends.trimBoth_eq, hunquoted]

theorem bracketed_digits (h : i < 0x10000000000000000) :
    bracketed (Nat.toDigits 10 i) = [.index i] := by
  have hdigit := Json.areDigits_toDigits i
  have hends : Text.Ends Text.isBlank (Nat.toDigits 10 i) :=
    ⟨fun c hc => Text.isBlank_of_isDigit (hdigit c (List.mem_of_head? hc)),
      fun c hc => Text.isBlank_of_isDigit (hdigit c (List.mem_of_getLast? hc))⟩
  have hunquoted : unquote? (Nat.toDigits 10 i) = none := by
    cases hdigits : Nat.toDigits 10 i with
    | nil => rfl
    | cons q rest =>
      have hq : q.isDigit = true := hdigit q (hdigits ▸ List.mem_cons_self)
      have hquote : q ≠ '\'' ∧ q ≠ '"' := by
        constructor <;> rintro rfl <;> exact absurd hq (by decide)
      simp [unquote?, hquote]
  simp only [bracketed, hends.trimBoth_eq, hunquoted, Json.index?_toDigits h]

theorem unquote?_subset {key : List Char} (h : unquote? cs = some key) : key ⊆ cs := by
  cases cs with
  | nil => cases h
  | cons q rest =>
    obtain ⟨-, hkey⟩ := Option.ite_none_right_eq_some.mp h
    obtain rfl := Option.some.inj hkey
    exact List.subset_cons_of_subset q (List.dropLast_subset rest)

theorem fitsBrackets_of_mem_bracketed (hinner : ']' ∉ inner) (h : s ∈ bracketed inner) :
    s.FitsBrackets := by
  have hcore : ']' ∉ Text.trimBoth Text.isBlank inner := fun hmem =>
    hinner (Text.trimBoth_subset _ _ hmem)
  rw [bracketed] at h
  generalize Text.trimBoth Text.isBlank inner = core at h hcore
  cases hkey : unquote? core with
  | some key =>
    simp only [hkey, List.mem_singleton] at h
    have hclosed : ']' ∉ key := fun hmem => hcore (unquote?_subset hkey hmem)
    simpa [h, Segment.FitsBrackets] using hclosed
  | none =>
    cases hindex : Decimal.index? (String.ofList core) with
    | some i =>
      simp only [hkey, hindex, List.mem_singleton] at h
      exact h ▸ Decimal.lt_of_index? hindex
    | none =>
      simp only [hkey, hindex] at h
      split at h
      · cases h
      · simpa [List.mem_singleton.mp h, Segment.FitsBrackets] using hcore

/-! ### Written paths -/

theorem Spells.inBrackets (hs : s.FitsBrackets) (h : Spells cs p) :
    Spells (s.inBrackets.toList ++ cs) (s :: p) := by
  cases s with
  | key name =>
    have hname : ']' ∉ name.toList := hs
    have hinner : ']' ∉ '\'' :: (name.toList ++ ['\'']) := by simp [hname]
    have hspells := Spells.brackets hinner h
    rw [bracketed_quoted, String.ofList_toList] at hspells
    simpa [Segment.inBrackets] using hspells
  | index i =>
    have hdigits : ']' ∉ Nat.toDigits 10 i := fun hmem =>
      absurd (Json.areDigits_toDigits i _ hmem) (by decide)
    have hspells := Spells.brackets hdigits h
    rw [bracketed_digits hs] at hspells
    simpa [Segment.inBrackets, Nat.toString_eq_ofList_toDigits] using hspells

theorem spells_inBrackets (h : ∀ s ∈ p, s.FitsBrackets) :
    Spells (String.join (p.map Segment.inBrackets)).toList p := by
  rw [String.toList_join]
  induction p with
  | nil => exact .done
  | cons s p ih =>
    obtain ⟨hs, hp⟩ := List.forall_mem_cons.mp h
    exact .inBrackets hs (ih hp)

theorem spells_dotted {keys : List String} (h : ∀ key ∈ keys, IsPlain key.toList) :
    Spells (".".intercalate keys).toList (keys.map .key) := by
  rw [String.toList_intercalate]
  induction keys with
  | nil => exact .done
  | cons key keys ih =>
    obtain ⟨hkey, hkeys⟩ := List.forall_mem_cons.mp h
    have hword {rest : List Char} {p : Path} (hends : EndsWord rest) (hrest : Spells rest p) :
        Spells (key.toList ++ rest) (.key key :: p) := by
      simpa using Spells.word hkey hends hrest
    cases keys with
    | nil => simpa using hword endsWord_nil .done
    | cons next keys =>
      simpa [List.intercalate_cons_cons] using hword (endsWord_dot _) (.dot (ih hkeys))

/-- Reading gives back what is written: indices in brackets and keys without `]` in
brackets and quotes, one after the other; and keys without `.` and `[` that are not
empty, with dots between them. -/
theorem ofText_written :
    (∀ p : Path, (∀ s ∈ p, s.FitsBrackets) →
      ofText (String.join (p.map Segment.inBrackets)) = p) ∧
    ∀ keys : List String, (∀ key ∈ keys, IsPlain key.toList) →
      ofText (".".intercalate keys) = keys.map .key :=
  ⟨fun _ h => (spells_inBrackets h).read_eq, fun _ h => (spells_dotted h).read_eq⟩

/-- Quotes hold dots, brackets, blanks, quotes and nothing; a key that stands alone may
have a closing bracket, and one that looks like a number is a key. -/
theorem ofText_written_of_odd_keys :
    let p : Path := [.key "a.b[0", .index 7, .key "", .key " 'x' \""]
    let keys := ["data", "a]b", "0"]
    (∀ s ∈ p, s.FitsBrackets) ∧ (∀ key ∈ keys, IsPlain key.toList) ∧
      ofText "['a.b[0'][7][''][' 'x' \"']" = p ∧ ofText "data.a]b.0" = keys.map .key := by
  intro p keys
  have hp : ∀ s ∈ p, s.FitsBrackets := by decide
  have hkeys : ∀ key ∈ keys, IsPlain key.toList := by decide
  obtain ⟨hbrackets, hdots⟩ := ofText_written
  exact ⟨hp, hkeys, hbrackets p hp, hdots keys hkeys⟩

/-! ### All paths that have a text -/

theorem Spells.forall_mem (h : Spells cs p) :
    ∀ s ∈ p, s.FitsBrackets ∨ ∃ name, s = .key name ∧ IsPlain name.toList := by
  induction h with
  | done => exact List.forall_mem_nil _
  | word hword _ _ ih => exact List.forall_mem_cons.mpr ⟨.inr ⟨_, rfl, by simpa using hword⟩, ih⟩
  | dot _ ih => exact ih
  | brackets hinner _ ih =>
    exact List.forall_mem_append.mpr
      ⟨fun s hs => .inl (fitsBrackets_of_mem_bracketed hinner hs), ih⟩
  | unclosed hinner => exact fun s hs => .inl (fitsBrackets_of_mem_bracketed hinner hs)

/-- A path has a text if brackets hold each of its segments, or it is a plain key. -/
theorem exists_ofText_iff : (∃ text, ofText text = p) ↔
    ∀ s ∈ p, s.FitsBrackets ∨ ∃ name, s = .key name ∧ IsPlain name.toList := by
  constructor
  · rintro ⟨text, htext⟩
    exact (spells_iff.mpr htext).forall_mem
  · intro h
    -- with a dot in front of each word, a word may stand before any segment
    have hspells : ∃ cs, EndsWord cs ∧ Spells cs p := by
      induction p with
      | nil => exact ⟨[], endsWord_nil, .done⟩
      | cons s p ih =>
        obtain ⟨hs, hp⟩ := List.forall_mem_cons.mp h
        obtain ⟨cs, hends, hcs⟩ := ih hp
        rcases hs with hfits | ⟨name, rfl, hplain⟩
        · have hbrackets := hcs.inBrackets hfits
          obtain ⟨rest, hrest⟩ := s.exists_inBrackets_eq
          rw [hrest] at hbrackets
          exact ⟨_, endsWord_bracket _, hbrackets⟩
        · refine ⟨_, endsWord_dot (name.toList ++ cs), .dot ?_⟩
          simpa using Spells.word hplain hends hcs
    obtain ⟨cs, -, hcs⟩ := hspells
    exact ⟨String.ofList cs, by simpa [ofText] using hcs.read_eq⟩

end Path

end SiteScrape
