import SiteScrape.Proofs.EncodedLabels
import SiteScrape.Proofs.EscapedTexts
import SiteScrape.Proofs.ReadBack
import SiteScrape.Url.Host

/-!
# Written hosts

The text of a host that was read is read as the same host (`again_of_domain?`,
`again_of_uninterpreted?`). A domain has labels that stand for themselves
(`IsLabel`), an address is written in numbers that are read again
(`named?_addressLabels`, `ipv6?_ipv6Text`), and no host is written with a
delimiter outside brackets (`IsText`).
-/

namespace SiteScrape.Url.Host

variable {cs label l d : List Char} {c x : Char} {host : Host}

/-! ### Characters of domains -/

/-- Code points that a domain in ASCII letters is not made of: capitals of ASCII,
and the refused ones. -/
def outside : List (Nat × Nat) :=
  [(0x41, 0x5a), (0x7f, 0x9f), (0xa0, 0xa0), (0x1680, 0x1680), (0x2000, 0x200a),
    (0x2028, 0x2029), (0x202f, 0x202f), (0x205f, 0x205f), (0x3000, 0x3000), (0xe000, 0xf8ff),
    (0xfffd, 0xfffd), (0xf0000, 0x10ffff)]

/-- A character that a label may hold when case and width no longer count. -/
def isLabelChar (c : Char) : Bool := !isRefused c && !c.isUpper

theorem isUpper_iff : c.isUpper = true ↔ 65 ≤ c.toNat ∧ c.toNat ≤ 90 := by
  have hval : c.val.toNat = c.toNat := rfl
  simp only [Char.isUpper, decide_eq_true_eq, ge_iff_le, UInt32.le_iff_toNat_le, hval]
  exact Iff.rfl

theorem isLabelChar_of_outside (h : ∀ range ∈ outside, c.toNat < range.1 ∨ range.2 < c.toNat) :
    isLabelChar c = true := by
  have hlt := Text.Utf8.char_toNat_lt c
  have hval : c.val.toNat = c.toNat := rfl
  simp only [outside, List.forall_mem_cons, List.not_mem_nil, false_imp_iff, implies_true,
    and_true] at h
  simp only [isLabelChar, isRefused, Text.isBlank, Char.isUpper, Char.le_def, ge_iff_le,
    UInt32.le_iff_toNat_le, ← Char.toNat_inj, hval, Bool.and_eq_true, Bool.not_eq_true',
    Bool.or_eq_false_iff, Bool.and_eq_false_iff, decide_eq_false_iff_not, beq_eq_false_iff_ne,
    ne_eq]
  simp only [Char.reduceToNat, Char.reduceVal, UInt32.reduceToNat]
  omega

theorem isLabelChar_ofNat {n : Nat} (h : ∀ range ∈ outside, n < range.1 ∨ range.2 < n) :
    isLabelChar (Char.ofNat n) = true := by
  by_cases hvalid : n.isValidChar
  · have hn : (Char.ofNat n).toNat = n := by
      rw [Char.ofNat, dif_pos hvalid]
      rfl
    exact isLabelChar_of_outside (by rwa [hn])
  · rw [Char.ofNat, dif_neg hvalid]
    decide

/-- Small letters are none of the characters outside. -/
theorem outside_of_shiftIn {n m : Nat} (h : Text.shiftIn Text.lowerRuns n = some m) :
    ∀ range ∈ outside, m < range.1 ∨ range.2 < m := by
  have hruns : ∀ run ∈ Text.lowerRuns, 0 ≤ (run.first : Int) + run.shift ∧ ∀ range ∈ outside,
      ((run.last : Int) + run.shift).toNat < range.1 ∨
        range.2 < ((run.first : Int) + run.shift).toNat := by
    decide +kernel
  obtain ⟨run, hrun, rfl⟩ := Option.map_eq_some_iff.mp h
  have hcovers := List.find?_some hrun
  simp only [Bool.and_eq_true, decide_eq_true_eq] at hcovers
  intro range hrange
  obtain ⟨hpos, hdistinct⟩ := hruns run (List.mem_of_find?_eq_some hrun)
  have := hdistinct range hrange
  omega

/-- What holds of the characters of ASCII is checked of each. -/
theorem of_ascii (hc : c.toNat < 128) :
    (isRefused c = false → isLabelChar c.toLower = true) ∧
      (c.isUpper = false → mapChar c = [c]) ∧
      ((c.isLower || c.isDigit) = true → c.isUpper = false) ∧ (c ≠ '\x7f' → isRefused c = false) :=
  Text.forall_ascii
    (p := fun c => (isRefused c = false → isLabelChar c.toLower = true) ∧
      (c.isUpper = false → mapChar c = [c]) ∧
      ((c.isLower || c.isDigit) = true → c.isUpper = false) ∧ (c ≠ '\x7f' → isRefused c = false))
    (by decide) hc

theorem isLabelChar_of_lowerChar (hc : isRefused c = false) (hx : x ∈ Text.lowerChar c) :
    isLabelChar x = true := by
  unfold Text.lowerChar at hx
  by_cases hlt : c.toNat < 0x80
  · rw [if_pos hlt] at hx
    rw [List.mem_singleton.mp hx]
    exact (of_ascii hlt).1 hc
  rw [if_neg hlt] at hx
  split at hx
  · simp only [List.mem_cons, List.not_mem_nil, or_false] at hx
    rcases hx with rfl | rfl <;> decide
  · rw [List.mem_singleton.mp hx]
    cases hshift : Text.shiftIn Text.lowerRuns c.toNat with
    | none =>
      have hupper : c.isUpper = false := Bool.eq_false_iff.mpr fun hupper => by
        have := isUpper_iff.mp hupper
        omega
      simp [isLabelChar, hc, hupper]
    | some m => exact isLabelChar_ofNat (outside_of_shiftIn hshift)

theorem isLabelChar_of_mapChar (hc : isRefused c = false) (hx : x ∈ mapChar c) :
    isLabelChar x = true := by
  unfold mapChar at hx
  split at hx
  · cases hx
  split at hx
  · rw [List.mem_singleton.mp hx]
    decide
  split at hx
  · next hwide =>
    have hascii : ∀ n < 0x5e, isRefused (Char.ofNat (n + 0x21)) = false := by decide
    have hval : c.val.toNat = c.toNat := rfl
    simp only [Bool.and_eq_true, decide_eq_true_eq, Char.le_def, UInt32.le_iff_toNat_le,
      hval] at hwide
    simp only [Char.reduceVal, UInt32.reduceToNat] at hwide
    have hnarrow := hascii (c.toNat - 0xff01) (by omega)
    exact isLabelChar_of_lowerChar hnarrow hx
  · exact isLabelChar_of_lowerChar hc hx

/-- A small character of ASCII stands for itself. -/
theorem mapChar_of_ascii (hc : c.toNat < 128) (hupper : c.isUpper = false) : mapChar c = [c] :=
  (of_ascii hc).2.1 hupper

/-! ### Labels -/

/-- A character of a label in ASCII letters. -/
def IsSmall (c : Char) : Prop := c.toNat < 128 ∧ c.isUpper = false

theorem isSmall_of_spells (h : (c.isLower || c.isDigit) = true) : IsSmall c := by
  have hlt := Punycode.toNat_lt_of_spells h
  exact ⟨hlt, (of_ascii hlt).2.2.1 h⟩

/-- A label that has been read. -/
structure IsLabel (l : List Char) : Prop where
  again : asciiLabel? l = some l
  small : ∀ c ∈ l, IsSmall c
  dotless : '.' ∉ l

theorem isLabel_encoded (hchars : ∀ c ∈ label, isLabelChar c = true) (hdot : '.' ∉ label)
    (hbeyond : label.any (·.toNat ≥ 128) = true) :
    IsLabel (encodedMark ++ Punycode.encode label) := by
  have hrefused : label.any isRefused = false := by
    rw [List.any_eq_false]
    exact fun c hc => by simpa using (Bool.and_eq_true_iff.mp (hchars c hc)).1
  have hmem {c : Char} (hc : c ∈ encodedMark ++ Punycode.encode label) :
      c ∈ label ∧ c.toNat < 128 ∨ c = '-' ∨ (c.isLower || c.isDigit) = true := by
    rcases List.mem_append.mp hc with hc | hc
    · right
      simp only [encodedMark, List.mem_cons, List.not_mem_nil, or_false] at hc
      rcases hc with rfl | rfl | rfl | rfl <;> decide
    · exact Punycode.cases_of_mem_encode hc
  refine ⟨?_, fun c hc => ?_, fun hc => ?_⟩
  · have hfound : Text.afterLead encodedMark (encodedMark ++ Punycode.encode label) =
        some (Punycode.encode label) := Text.afterLead_eq_some.mpr rfl
    unfold asciiLabel?
    rw [hfound]
    dsimp only
    rw [Punycode.decode?_encode, Option.bind_some, if_pos (by rw [hbeyond, hrefused]; rfl)]
  · rcases hmem hc with ⟨hc, hlt⟩ | rfl | hspells
    · exact ⟨hlt, by simpa using (Bool.and_eq_true_iff.mp (hchars c hc)).2⟩
    · exact ⟨by decide, by decide⟩
    · exact isSmall_of_spells hspells
  · rcases hmem hc with ⟨hc, -⟩ | hc | hc
    · exact hdot hc
    · cases hc
    · cases hc

theorem isLabel_of_asciiLabel? (hchars : ∀ c ∈ label, isLabelChar c = true) (hdot : '.' ∉ label)
    (h : asciiLabel? label = some l) : IsLabel l := by
  have hupper : ∀ c ∈ label, c.isUpper = false := fun c hc => by
    simpa using (Bool.and_eq_true_iff.mp (hchars c hc)).2
  have hagain := h
  unfold asciiLabel? at h
  cases hlead : Text.afterLead encodedMark label with
  | some code =>
    rw [hlead] at h
    obtain ⟨plain, hdecode, hif⟩ := Option.bind_eq_some_iff.mp h
    obtain rfl : label = l := by
      split at hif
      · exact Option.some.inj hif
      · cases hif
    have hcode : code.all (·.toNat < Punycode.initialCode) = true := by
      unfold Punycode.decode? at hdecode
      split at hdecode
      · assumption
      · cases hdecode
    refine ⟨hagain, fun c hc => ⟨?_, hupper c hc⟩, hdot⟩
    rw [Text.afterLead_eq_some.mp hlead] at hc
    rcases List.mem_append.mp hc with hc | hc
    · have hmark : encodedMark.all (·.toNat < 128) = true := by decide
      exact of_decide_eq_true (List.all_eq_true.mp hmark c hc)
    · exact of_decide_eq_true (List.all_eq_true.mp hcode c hc)
  | none =>
    rw [hlead] at h
    dsimp only at h
    split at h
    · next hbeyond =>
      cases h
      exact isLabel_encoded hchars hdot hbeyond
    · next hascii =>
      cases h
      refine ⟨hagain, fun c hc => ⟨?_, hupper c hc⟩, hdot⟩
      simpa using List.any_eq_false.mp (Bool.eq_false_iff.mpr hascii) c hc

/-! ### Domains -/

theorem asciiDomain?_eq_some_iff : asciiDomain? cs = some d ↔ cs.any isRefused = false ∧
    ∃ labels, ((cs.flatMap mapChar).splitOn '.').mapM asciiLabel? = some labels ∧
      ['.'].intercalate labels = d := by
  unfold asciiDomain?
  rw [Text.splitBy_singleton]
  cases cs.any isRefused with
  | true => simp
  | false => simp [Option.bind_eq_some_iff]

/-- A domain in labels that have been read. -/
structure IsDomain (labels : List (List Char)) : Prop where
  ne_nil : labels ≠ []
  label : ∀ l ∈ labels, IsLabel l

theorem exists_of_asciiDomain? (h : asciiDomain? cs = some d) :
    ∃ labels, IsDomain labels ∧ ['.'].intercalate labels = d := by
  obtain ⟨hrefused, labels, hlabels, hjoined⟩ := asciiDomain?_eq_some_iff.mp h
  refine ⟨labels, ⟨?_, fun l hl => ?_⟩, hjoined⟩
  · rintro rfl
    obtain ⟨first, rest, hparts⟩ :=
      List.exists_cons_of_ne_nil (List.splitOn_ne_nil '.' (cs.flatMap mapChar))
    rw [hparts, List.mapM_cons] at hlabels
    obtain ⟨_, -, hlabels⟩ := Option.bind_eq_some_iff.mp hlabels
    obtain ⟨_, -, hlabels⟩ := Option.bind_eq_some_iff.mp hlabels
    cases hlabels
  · obtain ⟨label, hlabel, hread⟩ := Decode.exists_of_mapM hlabels hl
    obtain ⟨hdot, hsubset⟩ := Text.of_mem_splitOn hlabel
    refine isLabel_of_asciiLabel? (fun x hx => ?_) hdot hread
    obtain ⟨c, hc, hx⟩ := List.mem_flatMap.mp (hsubset hx)
    exact isLabelChar_of_mapChar (by simpa using List.any_eq_false.mp hrefused c hc) hx

namespace IsDomain

variable {labels : List (List Char)} (h : IsDomain labels)
include h

theorem splitOn_eq : (['.'].intercalate labels).splitOn '.' = labels :=
  List.splitOn_intercalate '.' (fun l hl => (h.label l hl).dotless) h.ne_nil

theorem small : ∀ c ∈ ['.'].intercalate labels, IsSmall c := by
  intro c hc
  rcases Text.of_mem_intercalate hc with rfl | ⟨l, hl, hc⟩
  · exact ⟨by decide, by decide⟩
  · exact (h.label l hl).small c hc

theorem asciiDomain?_eq (hdelete : '\x7f' ∉ ['.'].intercalate labels) :
    asciiDomain? (['.'].intercalate labels) = some (['.'].intercalate labels) := by
  have hsame (cs : List Char) (hcs : ∀ c ∈ cs, IsSmall c) : cs.flatMap mapChar = cs := by
    induction cs with
    | nil => rfl
    | cons c cs ih =>
      obtain ⟨hlt, hupper⟩ := hcs c List.mem_cons_self
      rw [List.flatMap_cons, mapChar_of_ascii hlt hupper,
        ih fun d hd => hcs d (List.mem_cons_of_mem _ hd), List.singleton_append]
  refine asciiDomain?_eq_some_iff.mpr ⟨?_, labels, ?_, rfl⟩
  · refine List.any_eq_false.mpr fun c hc => ?_
    simpa using (of_ascii (h.small c hc).1).2.2.2 fun hdel => hdelete (hdel ▸ hc)
  · rw [hsame _ h.small, h.splitOn_eq]
    have hread : (labels.map id).mapM asciiLabel? = some labels :=
      Decode.mapM_map_write fun l hl => (h.label l hl).again
    simpa using hread

end IsDomain

/-- The host that a domain in ASCII letters names. -/
def named? (d : List Char) : Option Host :=
  if d.isEmpty || d.any isForbiddenInDomain then none
  else if endsInNumber d then (ipv4? d).map .ipv4
  else some (.name (String.ofList d))

theorem domain?_eq (hhead : cs.head? ≠ some '[') : domain? cs =
    (asciiDomain? (Text.Utf8.decodeLossy (Percent.decodeBytes cs)).toList).bind named? := by
  unfold domain?
  rw [if_neg hhead]
  refine Option.bind_congr fun d _ => ?_
  unfold named?
  split <;> rfl

/-- What a host outside brackets is read off. -/
theorem exists_of_domain? (hhead : cs.head? ≠ some '[') (h : domain? cs = some host) :
    ∃ labels, IsDomain labels ∧ named? (['.'].intercalate labels) = some host := by
  rw [domain?_eq hhead] at h
  obtain ⟨d, hd, hhost⟩ := Option.bind_eq_some_iff.mp h
  obtain ⟨labels, hlabels, rfl⟩ := exists_of_asciiDomain? hd
  exact ⟨labels, hlabels, hhost⟩

/-- A character that hosts are written with outside brackets. -/
def isNamed (c : Char) : Bool := isPlain c && !isDelimiter c

theorem keepsEscapes_isNamed : Percent.KeepsEscapes isNamed := ⟨by decide, by decide⟩

theorem isNamed_of_not_forbidden (hlt : c.toNat < 128) (h : isForbiddenInDomain c = false) :
    isNamed c = true :=
  Text.forall_ascii (p := fun c => isForbiddenInDomain c = false → isNamed c = true)
    (by decide) hlt h

/-- A domain is read as what it names. -/
theorem IsDomain.domain?_eq {labels : List (List Char)} (h : IsDomain labels)
    (hforbidden : (['.'].intercalate labels).any isForbiddenInDomain = false) :
    domain? (['.'].intercalate labels) = named? (['.'].intercalate labels) := by
  have hnot {c : Char} (hc : isForbiddenInDomain c = true) : c ∉ ['.'].intercalate labels :=
    fun hmem => List.any_eq_false.mp hforbidden c hmem hc
  have hhead : (['.'].intercalate labels).head? ≠ some '[' := fun hhead =>
    hnot (by decide) (List.mem_of_head? hhead)
  rw [Host.domain?_eq hhead, Percent.decodeBytes_of_not_mem (hnot (by decide)),
    Text.Utf8.decodeLossy_bytes, String.toList_ofList, h.asciiDomain?_eq (hnot (by decide)),
    Option.bind_some]

/-! ### Addresses of four parts -/

theorem isLabel_of_digits (h : ∀ c ∈ l, c.isDigit = true) : IsLabel l := by
  have hspells : ∀ c ∈ l, (c.isLower || c.isDigit) = true := fun c hc => by simp [h c hc]
  have hsmall : ∀ c ∈ l, IsSmall c := fun c hc => isSmall_of_spells (hspells c hc)
  refine ⟨?_, hsmall, fun hdot => absurd (h '.' hdot) (by decide)⟩
  have hlead : Text.afterLead encodedMark l = none := by
    cases hafter : Text.afterLead encodedMark l with
    | none => rfl
    | some rest =>
      rw [Text.afterLead_eq_some] at hafter
      exact absurd (h 'x' (by rw [hafter]; simp [encodedMark])) (by decide)
  have hascii : l.any (·.toNat ≥ 128) = false :=
    List.any_eq_false.mpr fun c hc => by simpa using (hsmall c hc).1
  unfold asciiLabel?
  rw [hlead]
  dsimp only
  rw [hascii]
  rfl

theorem addressPart?_toDigits : ∀ n < 256, addressPart? (Nat.toDigits 10 n) = some n := by
  decide +kernel

theorem length_of_mapM {α β : Type} {f : α → Option β} {items : List α} {read : List β}
    (h : items.mapM f = some read) : read.length = items.length := by
  induction items generalizing read with
  | nil => cases h; rfl
  | cons a items ih =>
    rw [List.mapM_cons] at h
    obtain ⟨b, -, h⟩ := Option.bind_eq_some_iff.mp h
    obtain ⟨more, hmore, h⟩ := Option.bind_eq_some_iff.mp h
    cases h
    rw [List.length_cons, List.length_cons, ih hmore]

/-- Leading parts of a byte each add up to less than the places they stand at. -/
theorem foldl_parts_le {lead : List Nat} {i : Nat} (hbytes : ∀ a ∈ lead, a ≤ 255)
    (hlength : i + lead.length ≤ 4) (acc : Nat) :
    ((lead.zipIdx i).map fun p => p.1 <<< (8 * (3 - p.2))).foldl (· + ·) acc +
        2 ^ (8 * (4 - (i + lead.length))) ≤ acc + 2 ^ (8 * (4 - i)) := by
  induction lead generalizing i acc with
  | nil => exact Nat.le_refl _
  | cons a lead ih =>
    obtain ⟨ha, hbytes⟩ := List.forall_mem_cons.mp hbytes
    rw [List.length_cons] at hlength ⊢
    have hrest := ih (i := i + 1) hbytes (by omega) (acc + a <<< (8 * (3 - i)))
    have hplace : 2 ^ (8 * (4 - i)) = 256 * 2 ^ (8 * (3 - i)) := by
      rw [show 8 * (4 - i) = 8 + 8 * (3 - i) by omega, Nat.pow_add]
    have hpart : a * 2 ^ (8 * (3 - i)) ≤ 255 * 2 ^ (8 * (3 - i)) := Nat.mul_le_mul_right _ ha
    rw [Nat.shiftLeft_eq, show 4 - (i + 1) = 3 - i by omega] at hrest
    rw [List.zipIdx_cons, List.map_cons, List.foldl_cons, Nat.shiftLeft_eq,
      show i + (lead.length + 1) = i + 1 + lead.length by omega, hplace]
    dsimp only
    omega

theorem lt_of_ipv4? {n : Nat} (h : ipv4? cs = some n) : n < 2 ^ 32 := by
  unfold ipv4? at h
  simp only [Option.bind_eq_bind] at h
  split at h
  · cases h
  next hlength =>
  obtain ⟨numbers, hnumbers, h⟩ := Option.bind_eq_some_iff.mp h
  obtain ⟨last, hlast, h⟩ := Option.bind_eq_some_iff.mp h
  split at h
  · cases h
  next hbounds =>
  have hthree : 0 + numbers.dropLast.length ≤ 4 := by
    have hsame := length_of_mapM hnumbers
    rw [List.length_dropLast]
    omega
  simp only [Bool.or_eq_true, List.any_eq_true, decide_eq_true_eq, not_or, not_exists, not_and,
    Nat.not_lt, ge_iff_le, Nat.not_le, Nat.shiftLeft_eq, Nat.one_mul] at hbounds
  obtain ⟨hbytes, hrest⟩ := hbounds
  have hsum := foldl_parts_le hbytes hthree last
  rw [Nat.zero_add] at hsum
  rw [← Option.some.inj h]
  omega

/-- The labels of a written address. -/
def addressLabels (n : Nat) : List (List Char) :=
  [n / 0x1000000, n / 0x10000 % 256, n / 0x100 % 256, n % 256].map (Nat.toDigits 10)

theorem toList_ipv4Text (n : Nat) :
    (ipv4Text n).toList = ['.'].intercalate (addressLabels n) := by
  rw [ipv4Text, String.toList_intercalate, List.map_map, addressLabels]
  refine congrArg _ (List.map_congr_left fun k _ => ?_)
  rw [Function.comp_apply, Nat.toString_eq_ofList_toDigits, String.toList_ofList]

theorem isDomain_addressLabels (n : Nat) : IsDomain (addressLabels n) := by
  refine ⟨by simp [addressLabels], fun l hl => ?_⟩
  obtain ⟨k, -, rfl⟩ := List.mem_map.mp hl
  exact isLabel_of_digits fun c hc => Nat.isDigit_of_mem_toDigits (by decide) (by decide) hc

theorem dottedParts_addressLabels (n : Nat) :
    dottedParts (['.'].intercalate (addressLabels n)) = addressLabels n := by
  unfold dottedParts
  rw [Text.splitBy_singleton, (isDomain_addressLabels n).splitOn_eq]
  exact if_neg (by simp [addressLabels, Nat.toDigits_ne_nil])

theorem not_forbidden_of_isDigit (h : c.isDigit = true) : isForbiddenInDomain c = false :=
  Text.forall_ascii (p := fun c => c.isDigit = true → isForbiddenInDomain c = false)
    (by decide) (Punycode.toNat_lt_of_spells (by simp [h])) h

theorem not_forbidden_addressLabels (n : Nat) :
    (['.'].intercalate (addressLabels n)).any isForbiddenInDomain = false := by
  refine List.any_eq_false.mpr fun c hc => ?_
  rcases Text.of_mem_intercalate hc with rfl | ⟨l, hl, hc⟩
  · decide
  · obtain ⟨k, -, rfl⟩ := List.mem_map.mp hl
    have hdigit := Nat.isDigit_of_mem_toDigits (by decide) (by decide) hc
    simpa using not_forbidden_of_isDigit hdigit

theorem addressLabels_ne_nil (n : Nat) : ['.'].intercalate (addressLabels n) ≠ [] := fun hnil => by
  have hsplit := (isDomain_addressLabels n).splitOn_eq
  rw [hnil, List.splitOn_nil] at hsplit
  simpa [addressLabels] using congrArg List.length hsplit

theorem named?_addressLabels {n : Nat} (h : n < 2 ^ 32) :
    named? (['.'].intercalate (addressLabels n)) = some (.ipv4 n) := by
  have hnumber : endsInNumber (['.'].intercalate (addressLabels n)) = true := by
    have hdigits : (Nat.toDigits 10 (n % 256)).all Char.isDigit = true :=
      List.all_eq_true.mpr fun c hc => Nat.isDigit_of_mem_toDigits (by decide) (by decide) hc
    rw [endsInNumber, dottedParts_addressLabels]
    simp [addressLabels, Nat.toDigits_ne_nil, hdigits]
  have hvalue : ipv4? (['.'].intercalate (addressLabels n)) = some n := by
    rw [ipv4?, dottedParts_addressLabels, addressLabels]
    simp [addressPart?_toDigits _ (by omega : n / 0x1000000 < 256),
      addressPart?_toDigits _ (by omega : n / 0x10000 % 256 < 256),
      addressPart?_toDigits _ (by omega : n / 0x100 % 256 < 256),
      addressPart?_toDigits _ (by omega : n % 256 < 256), Nat.shiftLeft_eq]
    omega
  unfold named?
  rw [hnumber, hvalue, not_forbidden_addressLabels,
    List.isEmpty_eq_false_iff.mpr (addressLabels_ne_nil n)]
  rfl

/-! ### Addresses of eight groups -/

theorem radixNat?_append {radix n k : Nat} (h : radixNat? radix cs = some n)
    (hc : Percent.hexValue? c = some k) (hk : k < radix) :
    radixNat? radix (cs ++ [c]) = some (n * radix + k) := by
  unfold radixNat? at h ⊢
  rw [List.foldlM_append, h, Option.bind_eq_bind, Option.bind_some, List.foldlM_cons, hc]
  simp [hk]

theorem hexValue?_digitChar : ∀ n < 16, Percent.hexValue? (Nat.digitChar n) = some n := by
  decide

/-- A number is read off its digits. -/
theorem radixNat?_toDigits {radix : Nat} (hlo : 1 < radix) (hhi : radix ≤ 16) (n : Nat) :
    radixNat? radix (Nat.toDigits radix n) = some n := by
  induction n using Nat.strongRecOn with
  | _ n ih =>
    by_cases hn : n < radix
    · rw [Nat.toDigits_of_lt_base hn]
      have h : radixNat? radix ([] ++ [Nat.digitChar n]) = some (0 * radix + n) :=
        radixNat?_append rfl (hexValue?_digitChar n (by omega)) hn
      rwa [List.nil_append, Nat.zero_mul, Nat.zero_add] at h
    · have hmod := Nat.mod_lt n (Nat.zero_lt_of_lt hlo)
      have hdiv := ih (n / radix) (Nat.div_lt_self (by omega) hlo)
      have hlast := radixNat?_append hdiv (hexValue?_digitChar (n % radix) (by omega)) hmod
      rw [Nat.toDigits_of_base_le hlo (by omega), hlast, Nat.mul_comm, Nat.div_add_mod]

theorem lt_of_radixNat? {radix n : Nat} (h : radixNat? radix cs = some n) :
    n < radix ^ cs.length := by
  -- a number that goes on from `start`
  have hgo (cs : List Char) (start : Nat) (h : cs.foldlM (fun n c => do
      let d ← Percent.hexValue? c
      if d < radix then some (n * radix + d) else none) start = some n) :
      n + 1 ≤ (start + 1) * radix ^ cs.length := by
    induction cs generalizing start with
    | nil =>
      obtain rfl : start = n := by simpa using h
      simp
    | cons c cs ih =>
      rw [List.foldlM_cons] at h
      obtain ⟨next, hnext, h⟩ := Option.bind_eq_some_iff.mp h
      obtain ⟨d, -, hnext⟩ := Option.bind_eq_some_iff.mp hnext
      split at hnext
      · next hd =>
        cases hnext
        have hle : start * radix + d + 1 ≤ (start + 1) * radix := by
          rw [Nat.add_mul, Nat.one_mul]
          omega
        calc n + 1 ≤ (start * radix + d + 1) * radix ^ cs.length := ih _ h
          _ ≤ (start + 1) * radix * radix ^ cs.length := Nat.mul_le_mul_right _ hle
          _ = (start + 1) * radix ^ (c :: cs).length := by
            rw [List.length_cons, Nat.pow_succ, Nat.mul_assoc, Nat.mul_comm radix]
      · cases hnext
  have hlt := hgo cs 0 h
  omega

/-- The groups of an address, as they are written between colons. -/
def groupsText (groups : List Nat) : List Char :=
  [':'].intercalate (groups.map (Nat.toDigits 16))

/-- A group that was read. -/
def IsGroup (g : Nat) : Prop := g < 0x10000

theorem isGroup_of_whole {part : List Char} {g : Nat} (hlength : part.length ≤ 4)
    (h : radixNat? 16 part = some g) : IsGroup g :=
  Nat.lt_of_lt_of_le (lt_of_radixNat? h) (Nat.pow_le_pow_right (by decide) hlength)

theorem isGroup_of_embeddedIpv4? {groups : List Nat} (h : embeddedIpv4? cs = some groups) :
    ∀ g ∈ groups, IsGroup g := by
  unfold embeddedIpv4? at h
  simp only [Option.bind_eq_bind] at h
  split at h
  · cases h
  obtain ⟨numbers, hnumbers, h⟩ := Option.bind_eq_some_iff.mp h
  have hbyte : ∀ n ∈ numbers, n < 256 := fun n hn => by
    obtain ⟨part, -, hpart⟩ := Decode.exists_of_mapM hnumbers hn
    split at hpart
    · cases hpart
    obtain ⟨m, -, hif⟩ := Option.bind_eq_some_iff.mp hpart
    split at hif
    · cases hif
      assumption
    · cases hif
  split at h
  · next a b c d =>
    cases h
    simp only [List.forall_mem_cons] at hbyte
    simp only [List.forall_mem_cons, IsGroup]
    refine ⟨by omega, by omega, by simp⟩
  · cases h

theorem isGroup_of_groups? {groups : List Nat} (h : groups? cs = some groups) :
    ∀ g ∈ groups, IsGroup g := by
  have hwhole {part : List Char} {g : Nat} (hpart : (if part.isEmpty || part.length > 4 then none
      else radixNat? 16 part) = some g) : IsGroup g := by
    split at hpart
    · cases hpart
    · next hlength =>
      simp only [Bool.or_eq_true, decide_eq_true_eq, not_or, Nat.not_lt] at hlength
      exact isGroup_of_whole hlength.2 hpart
  unfold groups? at h
  split at h
  · cases h
    simp
  dsimp only at h
  split at h
  · split at h
    · obtain ⟨lead, hlead, h⟩ := Option.bind_eq_some_iff.mp h
      obtain ⟨tail, htail, h⟩ := Option.bind_eq_some_iff.mp h
      cases h
      intro g hg
      rcases List.mem_append.mp hg with hg | hg
      · obtain ⟨part, -, hpart⟩ := Decode.exists_of_mapM hlead hg
        exact hwhole hpart
      · exact isGroup_of_embeddedIpv4? htail g hg
    · intro g hg
      obtain ⟨part, -, hpart⟩ := Decode.exists_of_mapM h hg
      exact hwhole hpart
  · cases h
    simp

/-- A character of a written group. -/
theorem spells_of_mem_toDigits {g : Nat} (h : c ∈ Nat.toDigits 16 g) :
    (c.isLower || c.isDigit) = true := by
  have hdigit : ∀ n < 16, ((Nat.digitChar n).isLower || (Nat.digitChar n).isDigit) = true := by
    decide
  induction g using Nat.strongRecOn with
  | _ g ih =>
    by_cases hg : g < 16
    · rw [Nat.toDigits_of_lt_base hg] at h
      rw [List.mem_singleton.mp h]
      exact hdigit g hg
    · rw [Nat.toDigits_of_base_le (by decide) (by omega)] at h
      rcases List.mem_append.mp h with h | h
      · exact ih _ (Nat.div_lt_self (by omega) (by decide)) h
      · rw [List.mem_singleton.mp h]
        exact hdigit _ (Nat.mod_lt g (by decide))

theorem splitOn_groupsText {groups : List Nat} (hne : groups ≠ []) :
    (groupsText groups).splitOn ':' = groups.map (Nat.toDigits 16) := by
  refine List.splitOn_intercalate ':' (fun l hl hcolon => ?_) (by simpa using hne)
  obtain ⟨g, -, rfl⟩ := List.mem_map.mp hl
  exact absurd (spells_of_mem_toDigits hcolon) (by decide)

theorem groupsText_ne_nil {groups : List Nat} (hne : groups ≠ []) : groupsText groups ≠ [] :=
  fun hnil => by
    have hsplit := splitOn_groupsText hne
    rw [hnil, List.splitOn_nil] at hsplit
    have hmem : [] ∈ groups.map (Nat.toDigits 16) := hsplit ▸ List.mem_singleton_self []
    obtain ⟨g, -, hg⟩ := List.mem_map.mp hmem
    exact Nat.toDigits_ne_nil hg

theorem point_not_mem_toDigits (g : Nat) : (Nat.toDigits 16 g).contains '.' = false := by
  rw [List.contains_eq_mem, decide_eq_false_iff_not]
  exact fun hpoint => absurd (spells_of_mem_toDigits hpoint) (by decide)

theorem point_not_mem_groupsText (groups : List Nat) : '.' ∉ groupsText groups := fun hpoint => by
  rcases Text.of_mem_intercalate hpoint with hcolon | ⟨l, hl, hpoint⟩
  · cases hcolon
  · obtain ⟨g, -, rfl⟩ := List.mem_map.mp hl
    exact absurd (spells_of_mem_toDigits hpoint) (by decide)

theorem groups?_groupsText {groups : List Nat} (h : ∀ g ∈ groups, IsGroup g) :
    groups? (groupsText groups) = some groups := by
  by_cases hne : groups = []
  · rw [hne]
    rfl
  have hlast : (groups.map (Nat.toDigits 16)).getLast? =
      some (Nat.toDigits 16 (groups.getLast hne)) := by
    rw [List.getLast?_map, List.getLast?_eq_some_getLast hne, Option.map_some]
  have hwhole : ∀ g ∈ groups, (if (Nat.toDigits 16 g).isEmpty || (Nat.toDigits 16 g).length > 4
      then none else radixNat? 16 (Nat.toDigits 16 g)) = some g := by
    intro g hg
    have hlength : (Nat.toDigits 16 g).length ≤ 4 :=
      (Nat.length_toDigits_le_iff (by decide) (by decide)).mpr (h g hg)
    rw [if_neg (by simp [Nat.toDigits_ne_nil, hlength])]
    exact radixNat?_toDigits (by decide) (by decide) g
  unfold groups?
  rw [if_neg (by simp [groupsText_ne_nil hne]), Text.splitBy_singleton, splitOn_groupsText hne]
  dsimp only
  rw [hlast]
  dsimp only
  rw [point_not_mem_toDigits, if_neg Bool.false_ne_true]
  exact Decode.mapM_map_write hwhole

/-- No two colons follow each other in written groups, nor does one follow on
one at their end. -/
theorem not_infix_groupsText (groups : List Nat) :
    ¬ [':', ':'] <:+: groupsText groups ++ [':'] := by
  by_cases hne : groups = []
  · rw [hne]
    decide
  rintro ⟨before, after, h⟩
  -- between the two colons there would be an empty group
  have hleft : (before ++ [':', ':'] ++ after).splitOn ':' =
      before.splitOn ':' ++ [] :: after.splitOn ':' := by
    rw [List.append_assoc, List.cons_append, List.splitOn_append_cons_self, List.cons_append,
      List.nil_append, List.splitOn_cons_eq_if_modifyHead]
    rfl
  have hright : (groupsText groups ++ [':']).splitOn ':' =
      groups.map (Nat.toDigits 16) ++ [[]] := by
    rw [List.splitOn_append_cons_self, splitOn_groupsText hne, List.splitOn_nil]
  have hsame := congrArg List.dropLast (hleft.symm.trans ((congrArg _ h).trans hright))
  rw [List.dropLast_concat, List.dropLast_append_of_ne_nil (List.cons_ne_nil _ _),
    List.dropLast_cons_of_ne_nil (List.splitOn_ne_nil _ _)] at hsame
  have hmem : [] ∈ groups.map (Nat.toDigits 16) := by
    rw [← hsame]
    simp
  obtain ⟨g, -, hg⟩ := List.mem_map.mp hmem
  exact Nat.toDigits_ne_nil hg

/-! ### Zeros -/

/-- So many zeros follow each other, at least two. -/
def IsZeros (groups : List Nat) (run : Nat × Nat) : Prop :=
  2 ≤ run.2 ∧ run.2 = ((groups.drop run.1).takeWhile (· == 0)).length

theorem isZeros_of_longestZeros {groups : List Nat} {run : Nat × Nat}
    (h : longestZeros groups = some run) : IsZeros groups run := by
  unfold longestZeros at h
  refine List.foldlRecOn (motive := fun best => ∀ run, best = some run → IsZeros groups run) _ _
    (by simp) (fun best hbest next hnext found hfound => ?_) run h
  obtain ⟨i, -, rfl⟩ := List.mem_map.mp hnext
  split at hfound
  · exact hbest found hfound
  · next hlong =>
    split at hfound
    · split at hfound
      · cases hfound
        exact ⟨Nat.le_of_not_lt hlong, rfl⟩
      · exact hbest found hfound
    · cases hfound
      exact ⟨Nat.le_of_not_lt hlong, rfl⟩

/-- What is left of the groups, with zeros in the gap. -/
theorem IsZeros.fill {groups : List Nat} {i n : Nat} (h : IsZeros groups (i, n)) :
    groups.take i ++ List.replicate n 0 ++ groups.drop (i + n) = groups ∧
      i + n ≤ groups.length := by
  obtain ⟨hn, hrun⟩ := h
  dsimp only at hn hrun
  have hprefix : (groups.drop i).takeWhile (· == 0) <+: groups.drop i := List.takeWhile_prefix _
  have hzeros : (groups.drop i).take n = List.replicate n 0 := by
    rw [hrun, ← List.prefix_iff_eq_take.mp hprefix]
    exact List.eq_replicate_iff.mpr ⟨rfl, fun g hg => by
      simpa using List.all_eq_true.mp List.all_takeWhile g hg⟩
  have hle := hprefix.length_le
  rw [List.length_drop] at hle
  refine ⟨?_, by omega⟩
  rw [← hzeros, List.append_assoc, ← List.drop_drop, List.take_append_drop, List.take_append_drop]

theorem toList_ipv6Text (groups : List Nat) : (ipv6Text groups).toList =
    match longestZeros groups with
    | some (i, n) => groupsText (groups.take i) ++ [':', ':'] ++ groupsText (groups.drop (i + n))
    | none => groupsText groups := by
  have htext (gs : List Nat) : (":".intercalate (gs.map hexText)).toList = groupsText gs := by
    rw [String.toList_intercalate, List.map_map, groupsText]
    refine congrArg _ (List.map_congr_left fun g _ => ?_)
    rw [Function.comp_apply, hexText, String.toList_ofList]
  unfold ipv6Text
  cases longestZeros groups with
  | none => exact htext groups
  | some run =>
    dsimp only
    rw [String.toList_append, String.toList_append, htext, htext]
    rfl

theorem ipv6?_ipv6Text {groups : List Nat} (hlength : groups.length = 8)
    (h : ∀ g ∈ groups, IsGroup g) : ipv6? (ipv6Text groups).toList = some groups := by
  rw [toList_ipv6Text]
  cases hzeros : longestZeros groups with
  | none =>
    have hcut : Text.cut [':', ':'] (groupsText groups) = none :=
      Text.cut_eq_none_iff.mpr fun hin =>
        not_infix_groupsText groups (hin.trans (List.prefix_append _ _).isInfix)
    dsimp only
    unfold ipv6?
    rw [hcut]
    simp [groups?_groupsText h, hlength]
  | some run =>
    obtain ⟨i, n⟩ := run
    have hgap := isZeros_of_longestZeros hzeros
    obtain ⟨hfill, hle⟩ := hgap.fill
    have htwo : 2 ≤ n := hgap.1
    have hcut := Text.cut_of_not_infix (not_infix_groupsText (groups.take i))
      (groupsText (groups.drop (i + n)))
    have hpoint : (groupsText (groups.take i)).contains '.' = false := by
      rw [List.contains_eq_mem, decide_eq_false_iff_not]
      exact point_not_mem_groupsText _
    have hlead : (groups.take i).length = i := by
      rw [List.length_take]
      omega
    have htail : (groups.drop (i + n)).length = 8 - i - n := by
      rw [List.length_drop]
      omega
    have hmissing : 8 - i - (8 - i - n) = n := by omega
    dsimp only
    unfold ipv6?
    rw [hcut]
    dsimp only
    rw [groups?_groupsText fun g hg => h g (List.mem_of_mem_take hg),
      groups?_groupsText fun g hg => h g (List.mem_of_mem_drop hg)]
    simp only [Option.bind_eq_bind, Option.bind_some]
    rw [if_neg (by rw [hpoint, Bool.false_or, decide_eq_true_eq]; omega), hlead, htail, hmissing,
      hfill]

theorem of_ipv6? {groups : List Nat} (h : ipv6? cs = some groups) :
    groups.length = 8 ∧ ∀ g ∈ groups, IsGroup g := by
  unfold ipv6? at h
  split at h
  · simp only [Option.bind_eq_bind] at h
    obtain ⟨lead, hlead, h⟩ := Option.bind_eq_some_iff.mp h
    obtain ⟨tail, htail, h⟩ := Option.bind_eq_some_iff.mp h
    split at h
    · cases h
    · next hlength =>
      simp only [Bool.or_eq_true, decide_eq_true_eq, not_or, Nat.not_lt] at hlength
      cases h
      refine ⟨?_, fun g hg => ?_⟩
      · simp only [List.length_append, List.length_replicate]
        omega
      · rcases List.mem_append.mp hg with hg | hg
        · rcases List.mem_append.mp hg with hg | hg
          · exact isGroup_of_groups? hlead g hg
          · rw [List.eq_of_mem_replicate hg]
            exact Nat.zero_lt_succ _
        · exact isGroup_of_groups? htail g hg
  · obtain ⟨hgroups, hlength⟩ := Option.filter_eq_some_iff.mp h
    exact ⟨by simpa using hlength, isGroup_of_groups? hgroups⟩

theorem toList_text_ipv6 (groups : List Nat) :
    (Host.ipv6 groups).text.toList = '[' :: ((ipv6Text groups).toList ++ [']']) := by
  simp [text]

theorem bracketed?_text {groups : List Nat} (hlength : groups.length = 8)
    (h : ∀ g ∈ groups, IsGroup g) :
    bracketed? (Host.ipv6 groups).text.toList = some (.ipv6 groups) := by
  have hlast : ('[' :: ((ipv6Text groups).toList ++ [']'])).getLast? = some ']' := by
    rw [← List.cons_append, List.getLast?_concat]
  unfold bracketed?
  rw [toList_text_ipv6, if_pos hlast, List.drop_succ_cons, List.drop_zero, List.dropLast_concat,
    ipv6?_ipv6Text hlength h, Option.map_some]

/-! ### Hosts -/

/-- How hosts are written: characters without a delimiter, or hexadecimal digits
and colons in brackets. -/
inductive IsText : List Char → Prop where
  | plain {cs : List Char} : (∀ c ∈ cs, isNamed c = true) → IsText cs
  | bracketed {inner : List Char} :
      (∀ c ∈ inner, c = ':' ∨ (c.isLower || c.isDigit) = true) → IsText ('[' :: (inner ++ [']']))

theorem isText_ipv6 (groups : List Nat) : IsText (Host.ipv6 groups).text.toList := by
  have hgroups (gs : List Nat) :
      ∀ c ∈ groupsText gs, c = ':' ∨ (c.isLower || c.isDigit) = true := by
    intro c hc
    rcases Text.of_mem_intercalate hc with hc | ⟨l, hl, hc⟩
    · exact .inl hc
    · obtain ⟨g, -, rfl⟩ := List.mem_map.mp hl
      exact .inr (spells_of_mem_toDigits hc)
  rw [toList_text_ipv6, toList_ipv6Text]
  refine .bracketed fun c hc => ?_
  split at hc
  · simp only [List.mem_append, List.mem_cons, List.not_mem_nil, or_false, or_self] at hc
    rcases hc with (hc | hc) | hc
    · exact hgroups _ c hc
    · exact .inl hc
    · exact hgroups _ c hc
  · exact hgroups _ c hc

/-- An address in brackets is read again off its text. -/
theorem again_of_bracketed? (h : bracketed? cs = some host) :
    bracketed? host.text.toList = some host ∧ IsText host.text.toList ∧
      host.text.toList.head? = some '[' := by
  unfold bracketed? at h
  split at h
  · obtain ⟨groups, hgroups, rfl⟩ := Option.map_eq_some_iff.mp h
    obtain ⟨hlength, hall⟩ := of_ipv6? hgroups
    exact ⟨bracketed?_text hlength hall, isText_ipv6 groups, by rw [toList_text_ipv6]; rfl⟩
  · cases h

theorem IsDomain.isText {labels : List (List Char)} (h : IsDomain labels)
    (hforbidden : (['.'].intercalate labels).any isForbiddenInDomain = false) :
    IsText (['.'].intercalate labels) := .plain fun c hc =>
  isNamed_of_not_forbidden (h.small c hc).1 (by simpa using List.any_eq_false.mp hforbidden c hc)

/-- A domain or address is read again off its text. -/
theorem again_of_domain? (h : domain? cs = some host) : domain? host.text.toList = some host ∧
    IsText host.text.toList ∧ host.text.toList ≠ [] := by
  by_cases hhead : cs.head? = some '['
  · unfold domain? at h
    rw [if_pos hhead] at h
    obtain ⟨hagain, htext, hbracket⟩ := again_of_bracketed? h
    refine ⟨?_, htext, fun hnil => ?_⟩
    · unfold domain?
      rw [if_pos hbracket, hagain]
    · rw [hnil] at hbracket
      cases hbracket
  · obtain ⟨labels, hlabels, hnamed⟩ := exists_of_domain? hhead h
    have hwhole := hnamed
    unfold named? at hnamed
    split at hnamed
    · cases hnamed
    next hallowed =>
    simp only [Bool.or_eq_true, not_or, Bool.not_eq_true, List.isEmpty_eq_false_iff] at hallowed
    split at hnamed
    · obtain ⟨n, hn, rfl⟩ := Option.map_eq_some_iff.mp hnamed
      have hlabels' := isDomain_addressLabels n
      have hforbidden := not_forbidden_addressLabels n
      have htext : (Host.ipv4 n).text.toList = ['.'].intercalate (addressLabels n) :=
        toList_ipv4Text n
      rw [htext, hlabels'.domain?_eq hforbidden, named?_addressLabels (lt_of_ipv4? hn)]
      exact ⟨rfl, hlabels'.isText hforbidden, addressLabels_ne_nil n⟩
    · cases hnamed
      have htext : (Host.name (String.ofList (['.'].intercalate labels))).text.toList =
        ['.'].intercalate labels := String.toList_ofList
      rw [htext, hlabels.domain?_eq hallowed.2, hwhole]
      exact ⟨rfl, hlabels.isText hallowed.2, hallowed.1⟩

theorem isNamed_of_mem_encodeChars (h : cs.any isDelimiter = false) :
    ∀ c ∈ Percent.encodeChars isPlain cs, isNamed c = true := by
  intro c hc
  rcases Percent.cases_of_mem_encodeChars hc with ⟨hc, hplain⟩ | ⟨bs, hc⟩
  · simpa [isNamed, hplain] using List.any_eq_false.mp h c hc
  · exact keepsEscapes_isNamed.of_mem_escapes hc

/-- So is any other host. -/
theorem again_of_uninterpreted? (h : uninterpreted? cs = some host) :
    uninterpreted? host.text.toList = some host ∧ IsText host.text.toList ∧
      (host.text.toList = [] → cs = []) := by
  unfold uninterpreted? at h
  split at h
  · obtain ⟨hagain, htext, hbracket⟩ := again_of_bracketed? h
    refine ⟨?_, htext, fun hnil => ?_⟩
    · unfold uninterpreted?
      rw [if_pos hbracket, hagain]
    · rw [hnil] at hbracket
      cases hbracket
  split at h
  · cases h
  · next hdelimiter =>
    cases h
    have hnamed := isNamed_of_mem_encodeChars (Bool.eq_false_iff.mpr hdelimiter)
    have htext : (Host.name (String.ofList (Percent.encodeChars
        (fun c => 32 ≤ c.toNat && c.toNat < 127) cs))).text.toList =
      Percent.encodeChars isPlain cs := String.toList_ofList
    have hhead : (Percent.encodeChars isPlain cs).head? ≠ some '[' := fun hhead =>
      absurd (hnamed '[' (List.mem_of_head? hhead)) (by decide)
    have hallowed : ¬ (Percent.encodeChars isPlain cs).any isDelimiter = true := by
      rw [Bool.not_eq_true, List.any_eq_false]
      exact fun c hc => by simpa using (Bool.and_eq_true_iff.mp (hnamed c hc)).2
    have hsame : Percent.encodeChars isPlain (Percent.encodeChars isPlain cs) =
        Percent.encodeChars isPlain cs :=
      Percent.encodeChars_eq_self fun c hc => (Bool.and_eq_true_iff.mp (hnamed c hc)).1
    rw [htext]
    refine ⟨?_, .plain hnamed, Percent.encodeChars_eq_nil_iff.mp⟩
    unfold uninterpreted?
    rw [if_neg hhead, if_neg hallowed]
    exact congrArg (fun cs => some (Host.name (String.ofList cs))) hsame

end SiteScrape.Url.Host
