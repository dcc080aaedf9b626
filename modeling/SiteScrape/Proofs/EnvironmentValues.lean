import SiteScrape.Config.Address
import SiteScrape.Config.Environment
import SiteScrape.Proofs.Coercions
import SiteScrape.Proofs.WrittenHosts
import SiteScrape.Proofs.WrittenNumbers

/-!
# Values of variables

What stands in a variable is read as it looks: in quotes as the text that it
spells (`valueOf_quote`), of digits as a number (`valueOf_toString`). A path needs no
quotes (`valueOf_path`), and neither does an address, for it has a colon or more than
one point and so is no number (`valueOf_address`).
-/

namespace SiteScrape

namespace Environment

variable {c : Char} {cs : List Char} {s : String} {v : Json}

/-! ### Texts in quotes -/

/-- A character as it stands in quotes. -/
def escaped (c : Char) : List Char := if c = '"' ∨ c = '\\' then ['\\', c] else [c]

/-- A text in quotes. -/
def quote (s : String) : String := String.ofList ('"' :: (s.toList.flatMap escaped ++ ['"']))

theorem quoted?_escaped (cs rest : List Char) :
    quoted? (cs.flatMap escaped ++ '"' :: rest) = some (cs.flatMap escaped, rest) := by
  induction cs with
  | nil => rfl
  | cons c cs ih =>
    by_cases hc : c = '"' ∨ c = '\\'
    · have hescaped : escaped c = ['\\', c] := if_pos hc
      simp only [List.flatMap_cons, hescaped, List.cons_append, List.nil_append, quoted?, ih,
        Option.map_some]
    · have hescaped : escaped c = [c] := if_neg hc
      rw [not_or] at hc
      simp only [List.flatMap_cons, hescaped, List.cons_append, List.nil_append]
      rw [quoted?, ih]
      · rfl
      · exact hc.1
      · rintro _ _ rfl
        exact absurd rfl hc.2

theorem unescape?_escaped {fuel : Nat} (h : (cs.flatMap escaped).length < fuel) :
    unescape? fuel (cs.flatMap escaped) = some cs := by
  induction cs generalizing fuel with
  | nil =>
    obtain ⟨fuel, rfl⟩ := Nat.exists_eq_add_one_of_ne_zero (Nat.ne_zero_of_lt h)
    rfl
  | cons c cs ih =>
    obtain ⟨fuel, rfl⟩ := Nat.exists_eq_add_one_of_ne_zero (Nat.ne_zero_of_lt h)
    by_cases hc : c = '"' ∨ c = '\\'
    · have hescaped : escaped c = ['\\', c] := if_pos hc
      simp only [List.flatMap_cons, hescaped, List.cons_append, List.nil_append,
        List.length_cons] at h ⊢
      have hback : Toml.escape? (c :: cs.flatMap escaped) = some (c, cs.flatMap escaped) := by
        rcases hc with rfl | rfl <;> rfl
      rw [unescape?, hback]
      simp only [Option.bind_eq_bind, Option.bind_some]
      rw [ih (by omega)]
      rfl
    · have hescaped : escaped c = [c] := if_neg hc
      rw [not_or] at hc
      simp only [List.flatMap_cons, hescaped, List.cons_append, List.nil_append,
        List.length_cons] at h ⊢
      rw [unescape?, ih (by omega)]
      · rfl
      · rintro rfl
        exact hc.2 rfl

/-- A text in quotes stands for the text. -/
theorem valueOf_quote (s : String) : valueOf (quote s) = .str s := by
  have hquoted : string? ('"' :: (s.toList.flatMap escaped ++ ['"'])) = some (s, []) := by
    rw [string?, quoted?_escaped]
    simp only [Option.bind_eq_bind, Option.bind_some]
    rw [unescape?_escaped (Nat.lt_succ_self _), Option.bind_some, String.ofList_toList]
  have hskip : skipSpace ('"' :: (s.toList.flatMap escaped ++ ['"'])) =
      '"' :: (s.toList.flatMap escaped ++ ['"']) := List.dropWhile_cons_of_neg (by decide)
  unfold valueOf quote
  rw [String.toList_ofList, value?, hskip]
  simp only [hquoted, Option.map_some]
  rfl

/-! ### Words -/

/-- A text without quotes, brackets and commas, and no truth value: what it stands for
depends only on whether it spells a number. -/
structure IsWord (cs : List Char) : Prop where
  whole : ∀ c ∈ cs, isSeparator c = false
  ends : Text.Ends Text.isBlank cs
  unquoted : ∀ c, cs.head? = some c → c ≠ '"' ∧ c ≠ '\''
  not_true : ¬ "true".toList <+: cs
  not_false : ¬ "false".toList <+: cs

theorem isBlank_of_isSpace (h : isSpace c = true) : Text.isBlank c = true := by
  simp only [isSpace, Bool.or_eq_true, beq_iff_eq] at h
  rcases h with (((rfl | rfl) | rfl) | rfl) | rfl <;> decide

theorem valueOf_word (h : IsWord s.toList) : valueOf s = bare s.toList := by
  have hskip : skipSpace s.toList = s.toList := Text.dropWhile_eq_self fun c hc =>
    Bool.eq_false_iff.mpr fun hspace =>
      absurd ((isBlank_of_isSpace hspace).symm.trans (h.ends.head c hc)) (by decide)
  have hword : s.toList.takeWhile (fun c => !isSeparator c) = s.toList :=
    List.takeWhile_eq_self_iff.mpr fun c hc => by simp [h.whole c hc]
  have hapart (c : Char) (hc : isSeparator c = true) : c ∉ s.toList := fun hmem => by
    rw [h.whole c hmem] at hc
    cases hc
  have hvalue : value? (s.length + 1) s.toList = some (bare s.toList, []) := by
    rw [value?, hskip]
    -- no other kind of value begins as a word does
    split
    case h_8 => simp only [hword, h.ends.trimBoth_eq, List.drop_length]; rfl
    case h_1 rest heq => exact absurd ⟨rest, heq.symm⟩ h.not_true
    case h_2 rest heq => exact absurd ⟨rest, heq.symm⟩ h.not_false
    case h_3 heq => exact absurd (heq ▸ List.mem_cons_self) (hapart '\x7b' (by decide))
    case h_4 heq => exact absurd (heq ▸ List.mem_cons_self) (hapart '[' (by decide))
    case h_5 heq => exact absurd rfl (h.unquoted '"' (heq ▸ rfl)).1
    case h_6 heq => exact absurd rfl (h.unquoted '\'' (heq ▸ rfl)).2
    case h_7 heq => exact absurd rfl (h.unquoted '\'' (heq ▸ rfl)).2
  rw [valueOf, hvalue]

/-- A word that is no number is the text of it. -/
theorem bare_of_not_number (hplus : cs.head? ≠ some '+') (hminus : cs.head? ≠ some '-')
    (hdigits : Decimal.digits? cs = none) (hfraction : fractional? cs = none) :
    bare cs = .str (String.ofList cs) := by
  have hindex : Decimal.index? (String.ofList cs) = none := by
    rw [Decimal.index?, Decimal.natBelow?, String.toList_ofList]
    split
    · exact absurd rfl hplus
    · rw [hdigits]; rfl
  have hint : Decimal.int64? (String.ofList cs) = none := by
    rw [Decimal.int64?, String.toList_ofList]
    split
    · exact absurd rfl hminus
    · exact absurd rfl hplus
    · rw [hdigits]; rfl
  have hnone : (if cs.contains '.' then fractional? cs else none) = none := by simp [hfraction]
  rw [bare, hnone]
  simp only [hindex, hint]

/-- A path from the root without brackets and commas, and without a blank at its end. -/
structure IsPath (s : String) : Prop where
  root : s.toList.head? = some '/'
  whole : ∀ c ∈ s.toList, isSeparator c = false
  last : ∀ c, s.toList.getLast? = some c → Text.isBlank c = false

/-- Such a path stands for itself. -/
theorem valueOf_path (h : IsPath s) : valueOf s = .str s := by
  have hroot := h.root
  obtain ⟨rest, hrest⟩ := List.head?_eq_some_iff.mp hroot
  have hword : IsWord s.toList := {
    whole := h.whole
    ends := ⟨fun c hc => by rw [hroot] at hc; cases hc; decide, h.last⟩
    unquoted := fun c hc => by rw [hroot] at hc; cases hc; decide
    not_true := fun ⟨tail, htail⟩ => by rw [← htail] at hroot; cases hroot
    not_false := fun ⟨tail, htail⟩ => by rw [← htail] at hroot; cases hroot }
  have hdigits : Decimal.digits? s.toList = none := by rw [hrest]; rfl
  have hfraction : fractional? s.toList = none := by rw [hrest]; rfl
  rw [valueOf_word hword, bare_of_not_number (by simp [hroot]) (by simp [hroot]) hdigits hfraction,
    String.ofList_toList]

/-- A digit of base sixteen, a point or a colon. -/
def isAddressChar (c : Char) : Bool := (Url.Percent.hexValue? c).isSome || c == '.' || c == ':'

theorem lt_of_isAddressChar (h : isAddressChar c = true) : c.toNat < 128 := by
  by_contra hlt
  have hval : c.val.toNat = c.toNat := rfl
  simp only [isAddressChar, Url.Percent.hexValue?, Char.le_def, UInt32.le_iff_toNat_le, hval,
    Bool.or_eq_true, beq_iff_eq] at h
  rcases h with (h | rfl) | rfl
  · simp only [Bool.and_eq_true, decide_eq_true_eq] at h
    simp only [Char.reduceVal, UInt32.reduceToNat] at h
    rw [if_neg (by omega), if_neg (by omega), if_neg (by omega)] at h
    cases h
  · exact hlt (by decide)
  · exact hlt (by decide)

/-- Such a character is no blank, no delimiter, no sign and in no truth value alone. -/
theorem of_isAddressChar (h : isAddressChar c = true) :
    Text.isBlank c = false ∧ isSeparator c = false ∧ c ∉ ['"', '\'', 't', 'l', '+', '-'] :=
  Text.forall_ascii (p := fun c => isAddressChar c = true → Text.isBlank c = false ∧
    isSeparator c = false ∧ c ∉ ['"', '\'', 't', 'l', '+', '-'])
    (by decide +kernel) (lt_of_isAddressChar h) h

theorem isWord_of_isAddressChar (h : ∀ c ∈ cs, isAddressChar c = true) : IsWord cs where
  whole c hc := (of_isAddressChar (h c hc)).2.1
  ends := ⟨fun c hc => (of_isAddressChar (h c (List.mem_of_head? hc))).1,
    fun c hc => (of_isAddressChar (h c (List.mem_of_getLast? hc))).1⟩
  unquoted c hc := by
    have hother := (of_isAddressChar (h c (List.mem_of_head? hc))).2.2
    constructor <;> rintro rfl <;> exact hother (by decide)
  not_true hlead := (of_isAddressChar (h 't' (hlead.subset (by decide)))).2.2 (by decide)
  not_false hlead := (of_isAddressChar (h 'l' (hlead.subset (by decide)))).2.2 (by decide)

/-! ### Numbers -/

theorem isAddressChar_of_isDigit (h : c.isDigit = true) : isAddressChar c = true := by
  simp only [Char.isDigit, Bool.and_eq_true, decide_eq_true_eq, ge_iff_le] at h
  have hvalue : Url.Percent.hexValue? c = some (c.toNat - '0'.toNat) :=
    if_pos (by simpa [Char.le_def] using h)
  rw [isAddressChar, hvalue]
  rfl

/-- A whole number in digits. -/
theorem valueOf_toString {n : Nat} (h : n < 0x10000000000000000) :
    valueOf (toString n) = .ofInt n := by
  have htext : (toString n).toList = Nat.toDigits 10 n := by
    rw [Nat.toString_eq_ofList_toDigits, String.toList_ofList]
  have hdigit : ∀ c ∈ Nat.toDigits 10 n, c.isDigit = true := fun c =>
    Nat.isDigit_of_mem_toDigits (by decide) (by decide)
  have hchar : ∀ c ∈ (toString n).toList, isAddressChar c = true := fun c hc =>
    isAddressChar_of_isDigit (hdigit c (htext ▸ hc))
  have hpoint : (Nat.toDigits 10 n).contains '.' = false := by
    rw [List.contains_eq_mem, decide_eq_false_iff_not]
    exact fun hmem => absurd (hdigit _ hmem) (by decide)
  rw [valueOf_word (isWord_of_isAddressChar hchar), htext, bare, hpoint]
  simp only [Bool.false_eq_true, if_false, Json.index?_toDigits h]

/-! ### Addresses -/

/-- The points and colons of a text. -/
def marks (cs : List Char) : List Char := cs.filter fun c => c == '.' || c == ':'

theorem marks_cons_of_ne (hpoint : c ≠ '.') (hcolon : c ≠ ':') (cs : List Char) :
    marks (c :: cs) = marks cs := List.filter_cons_of_neg (by simp [hpoint, hcolon])

theorem marks_eq_nil (h : ∀ c ∈ cs, c ≠ '.' ∧ c ≠ ':') : marks cs = [] :=
  List.filter_eq_nil_iff.mpr fun c hc => by simp [h c hc]

theorem marks_of_digits (h : ∀ c ∈ cs, c.isDigit = true) : marks cs = [] :=
  marks_eq_nil fun c hc => by
    constructor <;> rintro rfl <;> exact absurd (h _ hc) (by decide)

/-- Digits at the start have neither. -/
theorem marks_dropWhile (cs : List Char) : marks (cs.dropWhile Char.isDigit) = marks cs := by
  have hdigits : marks (cs.takeWhile Char.isDigit) = [] :=
    marks_of_digits fun c hc => List.mem_takeWhile_imp hc
  have hcs : marks cs = marks (cs.takeWhile Char.isDigit) ++ marks (cs.dropWhile Char.isDigit) := by
    rw [marks, marks, marks, ← List.filter_append, List.takeWhile_append_dropWhile]
  rw [hcs, hdigits, List.nil_append]

/-- Nor has a sign with digits behind it. -/
theorem marks_of_sign (h : (Toml.sign cs).2.all Char.isDigit = true) : marks cs = [] := by
  rw [List.all_eq_true] at h
  unfold Toml.sign at h
  split at h
  · rw [marks_cons_of_ne (by decide) (by decide)]
    exact marks_of_digits h
  · rw [marks_cons_of_ne (by decide) (by decide)]
    exact marks_of_digits h
  · exact marks_of_digits h

/-- A text that is read as a number with a point has no other point, and no colon. -/
theorem marks_of_fractional? (hsign : Toml.sign cs = (false, cs)) (h : fractional? cs = some v) :
    marks cs = [] ∨ marks cs = ['.'] := by
  unfold fractional? at h
  rw [hsign] at h
  simp only [Option.bind_eq_bind] at h
  -- after the digits and perhaps a point with digits there is at most an exponent
  suffices hend : ∃ rest, marks rest = [] ∧
      (marks cs = marks rest ∨ marks cs = '.' :: marks rest) by
    obtain ⟨rest, hrest, hcs⟩ := hend
    rwa [hrest] at hcs
  rw [← marks_dropWhile cs]
  split at h
  case' h_1 rest heq =>
    rw [heq]
    refine ⟨rest.dropWhile Char.isDigit, ?_,
      .inr ((List.filter_cons_of_pos rfl).trans (congrArg _ (marks_dropWhile rest).symm))⟩
  case' h_2 => refine ⟨cs.dropWhile Char.isDigit, ?_, .inl rfl⟩
  all_goals
    dsimp only at h
    split at h
    · cases h
    · split at h
      · next hnil => rw [hnil]; rfl
      · next e rest hcons =>
        split at h
        · next hexponent =>
          simp only [Bool.and_eq_true, Bool.or_eq_true, beq_iff_eq] at hexponent
          obtain ⟨⟨he, -⟩, hdigits⟩ := hexponent
          have hmark : e ≠ '.' ∧ e ≠ ':' := by rcases he with rfl | rfl <;> decide
          rw [hcons, marks_cons_of_ne hmark.1 hmark.2, marks_of_sign hdigits]
        · cases h

theorem digits?_of_marks (h : marks cs ≠ []) : Decimal.digits? cs = none := by
  refine if_neg fun hdigits => h (marks_of_digits ?_)
  rw [Bool.and_eq_true, List.all_eq_true] at hdigits
  exact hdigits.2

/-- A word with a colon, or with several points, is no number. -/
theorem bare_of_marks (hchars : ∀ c ∈ cs, isAddressChar c = true) (hsome : marks cs ≠ [])
    (hmany : marks cs ≠ ['.']) : bare cs = .str (String.ofList cs) := by
  have hplus : cs.head? ≠ some '+' := fun hhead =>
    (of_isAddressChar (hchars '+' (List.mem_of_head? hhead))).2.2 (by decide)
  have hminus : cs.head? ≠ some '-' := fun hhead =>
    (of_isAddressChar (hchars '-' (List.mem_of_head? hhead))).2.2 (by decide)
  have hsign : Toml.sign cs = (false, cs) := by
    unfold Toml.sign
    split
    · exact absurd rfl hminus
    · exact absurd rfl hplus
    · rfl
  have hfraction : fractional? cs = none := by
    cases hv : fractional? cs with
    | none => rfl
    | some v => rcases marks_of_fractional? hsign hv with h | h <;> contradiction
  exact bare_of_not_number hplus hminus (digits?_of_marks hsome) hfraction

/-! ### What addresses are made of -/

section Addresses

open Url.Host

variable {radix n : Nat} {groups : List Nat}

theorem exists_of_mem_mapM {α β : Type} {f : β → Option α} {items : List β} {read : List α}
    {b : β} (h : items.mapM f = some read) (hb : b ∈ items) : ∃ a, f b = some a := by
  induction items generalizing read with
  | nil => cases hb
  | cons v rest ih =>
    rw [List.mapM_cons] at h
    obtain ⟨a, ha, h⟩ := Option.bind_eq_some_iff.mp h
    obtain ⟨more, hmore, -⟩ := Option.bind_eq_some_iff.mp h
    rcases List.mem_cons.mp hb with rfl | hb
    · exact ⟨a, ha⟩
    · exact ih hmore hb

/-- The parts of an address are made of digits. -/
theorem digit_of_radixNat? (h : radixNat? radix cs = some n) :
    ∀ c ∈ cs, isAddressChar c = true ∧ c ≠ '.' ∧ c ≠ ':' := by
  unfold radixNat? at h
  generalize 0 = start at h
  induction cs generalizing start with
  | nil => simp
  | cons c rest ih =>
    rw [List.foldlM_cons] at h
    obtain ⟨next, hnext, h⟩ := Option.bind_eq_some_iff.mp h
    obtain ⟨d, hd, -⟩ := Option.bind_eq_some_iff.mp hnext
    refine List.forall_mem_cons.mpr ⟨⟨by simp [isAddressChar, hd], ?_, ?_⟩, ih next h⟩
    all_goals
      rintro rfl
      cases hd

/-- Parts between points and colons leave just these. -/
theorem marks_point (h : ∀ c ∈ cs, isAddressChar c = true ∧ c ≠ '.' ∧ c ≠ ':') (rest : List Char) :
    marks (cs ++ '.' :: rest) = '.' :: marks rest := by
  have hcs : cs.filter (fun c => c == '.' || c == ':') = [] := marks_eq_nil fun c hc => (h c hc).2
  rw [marks, List.filter_append, hcs, List.nil_append, List.filter_cons_of_pos (by rfl)]
  rfl

theorem chars_of_embeddedIpv4? (h : embeddedIpv4? cs = some groups) :
    (∀ c ∈ cs, isAddressChar c = true) ∧ marks cs = ['.', '.', '.'] := by
  unfold embeddedIpv4? at h
  rw [Text.splitBy_singleton] at h
  simp only [Option.bind_eq_bind] at h
  split at h
  · cases h
  · next hlength =>
    obtain ⟨numbers, hnumbers, -⟩ := Option.bind_eq_some_iff.mp h
    have hpart : ∀ part ∈ cs.splitOn '.', ∀ c ∈ part,
        isAddressChar c = true ∧ c ≠ '.' ∧ c ≠ ':' := by
      intro part hmem
      obtain ⟨n, hn⟩ := exists_of_mem_mapM hnumbers hmem
      split at hn
      · cases hn
      · obtain ⟨n, hn, -⟩ := Option.bind_eq_some_iff.mp hn
        exact digit_of_radixNat? hn
    obtain ⟨a, b, c, d, hparts⟩ := List.length_eq_four.mp (not_not.mp hlength)
    have hcs : cs = a ++ '.' :: (b ++ '.' :: (c ++ '.' :: d)) := by
      have hback : ['.'].intercalate (cs.splitOn '.') = cs := List.intercalate_splitOn '.'
      rw [← hback, hparts]
      simp [List.intercalate]
    rw [hparts] at hpart
    simp only [List.forall_mem_cons] at hpart
    obtain ⟨ha, hb, hc, hd, -⟩ := hpart
    constructor
    · rw [hcs]
      simp only [List.forall_mem_append, List.forall_mem_cons]
      exact ⟨fun x hx => (ha x hx).1, rfl, fun x hx => (hb x hx).1, rfl, fun x hx => (hc x hx).1,
        rfl, fun x hx => (hd x hx).1⟩
    · rw [hcs, marks_point ha, marks_point hb, marks_point hc,
        marks_eq_nil fun x hx => (hd x hx).2]

theorem length_of_embeddedIpv4? (h : embeddedIpv4? cs = some groups) : groups.length = 2 := by
  unfold embeddedIpv4? at h
  simp only [Option.bind_eq_bind] at h
  split at h
  · cases h
  · obtain ⟨numbers, -, h⟩ := Option.bind_eq_some_iff.mp h
    split at h
    · cases h; rfl
    · cases h

theorem chars_of_wholeGroup {part : List Char} {n : Nat} (h : (if part.isEmpty || part.length > 4
      then none else radixNat? 16 part) = some n) : ∀ c ∈ part, isAddressChar c = true := by
  split at h
  · cases h
  · exact fun c hc => (digit_of_radixNat? h c hc).1

/-- The characters between the colons, the last of which may hold an address of
four parts. -/
theorem chars_of_mem_groups? (h : groups? cs = some groups) :
    ∀ part ∈ cs.splitOn ':', ∀ c ∈ part, isAddressChar c = true := by
  unfold groups? at h
  rw [Text.splitBy_singleton] at h
  split at h
  · next hnil =>
    rw [List.isEmpty_iff.mp hnil]
    simp
  · dsimp only at h
    split at h
    · next last hlast =>
      split at h
      · obtain ⟨lead, hlead, h⟩ := Option.bind_eq_some_iff.mp h
        obtain ⟨tail, htail, -⟩ := Option.bind_eq_some_iff.mp h
        intro part hpart
        rw [← List.dropLast_append_getLast? last hlast, List.mem_append,
          List.mem_singleton] at hpart
        rcases hpart with hpart | rfl
        · obtain ⟨n, hn⟩ := exists_of_mem_mapM hlead hpart
          exact chars_of_wholeGroup hn
        · exact (chars_of_embeddedIpv4? htail).1
      · intro part hpart
        obtain ⟨n, hn⟩ := exists_of_mem_mapM h hpart
        exact chars_of_wholeGroup hn
    · next hlast =>
      rw [List.getLast?_eq_none_iff.mp hlast]
      simp

theorem chars_of_groups? (h : groups? cs = some groups) : ∀ c ∈ cs, isAddressChar c = true := by
  intro c hc
  have hback : [':'].intercalate (cs.splitOn ':') = cs := List.intercalate_splitOn ':'
  rw [← hback] at hc
  rcases Text.of_mem_intercalate hc with rfl | ⟨part, hpart, hc⟩
  · rfl
  · exact chars_of_mem_groups? h part hpart c hc

/-- Without a colon there is at most one group, or the two of an address of four parts. -/
theorem length_of_groups? (h : groups? cs = some groups) (hcolon : ':' ∉ cs) :
    groups.length ≤ 2 := by
  unfold groups? at h
  rw [Text.splitBy_singleton, List.splitOn_eq_singleton hcolon] at h
  split at h
  · cases h
    exact Nat.zero_le 2
  · dsimp only [List.getLast?_singleton] at h
    split at h
    · obtain ⟨lead, hlead, h⟩ := Option.bind_eq_some_iff.mp h
      obtain ⟨tail, htail, h⟩ := Option.bind_eq_some_iff.mp h
      cases hlead
      cases h
      exact (length_of_embeddedIpv4? htail).le
    · obtain ⟨n, -, h⟩ := Option.bind_eq_some_iff.mp h
      cases h
      exact Nat.le_succ 1

theorem chars_of_ipv6? (h : ipv6? cs = some groups) :
    (∀ c ∈ cs, isAddressChar c = true) ∧ ':' ∈ cs := by
  unfold ipv6? at h
  split at h
  · next before rest hcut =>
    obtain ⟨lead, hlead, h⟩ := Option.bind_eq_some_iff.mp h
    obtain ⟨tail, htail, -⟩ := Option.bind_eq_some_iff.mp h
    rw [Text.append_of_cut hcut]
    refine ⟨?_, by simp⟩
    simp only [List.forall_mem_append, List.forall_mem_cons]
    exact ⟨⟨chars_of_groups? hlead, rfl, rfl, by simp⟩, chars_of_groups? htail⟩
  · obtain ⟨hgroups, hlength⟩ := Option.filter_eq_some_iff.mp h
    refine ⟨chars_of_groups? hgroups, by_contra fun hcolon => ?_⟩
    have hshort := length_of_groups? hgroups hcolon
    rw [beq_iff_eq] at hlength
    omega

end Addresses

/-- The text of an address stands for itself. -/
theorem valueOf_address {a : Address} (h : Address.read? s = some a) : valueOf s = .str s := by
  obtain ⟨hchars, hsome, hmany⟩ : (∀ c ∈ s.toList, isAddressChar c = true) ∧
      marks s.toList ≠ [] ∧ marks s.toList ≠ ['.'] := by
    unfold Address.read? at h
    split at h
    · next hread =>
      obtain ⟨hchars, hmarks⟩ := chars_of_embeddedIpv4? hread
      rw [hmarks]
      exact ⟨hchars, by decide, by decide⟩
    · obtain ⟨groups, hread, -⟩ := Option.map_eq_some_iff.mp h
      obtain ⟨hchars, hcolon⟩ := chars_of_ipv6? hread
      have hmem : ':' ∈ marks s.toList := List.mem_filter.mpr ⟨hcolon, rfl⟩
      refine ⟨hchars, List.ne_nil_of_mem hmem, fun hone => ?_⟩
      rw [hone] at hmem
      exact absurd hmem (by decide)
  rw [valueOf_word (isWord_of_isAddressChar hchars), bare_of_marks hchars hsome hmany,
    String.ofList_toList]

end Environment

end SiteScrape
