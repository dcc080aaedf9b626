import Mathlib
import SiteScrape.Proofs.ByteOrder
import SiteScrape.Proofs.Occurrences
import SiteScrape.Url.Query

/-!
# Escaped texts

A text is read off its bytes (`decodeFrom_encodeChar`), and bytes are read off
their escapes (`decodeBytes_escapes`). So every text of a pair comes out of a
written query as it went in (`decodeText_encodeText`), and pairs that are
appended to a query stand behind those that it had (`decode_append`).
-/

namespace SiteScrape

/-- What holds of all characters of ASCII can be checked one by one. -/
theorem Text.forall_ascii {p : Char → Prop} (h : ∀ n < 128, p (Char.ofNat n)) {c : Char}
    (hc : c.toNat < 128) : p c :=
  Char.ofNat_toNat c ▸ h c.toNat hc

theorem Text.toNat_lt_of_isAlphanum {c : Char} (h : c.isAlphanum = true) : c.toNat < 128 := by
  have hval : c.val.toNat = c.toNat := rfl
  simp only [Char.isAlphanum, Char.isAlpha, Char.isUpper, Char.isLower, Char.isDigit,
    Bool.or_eq_true, Bool.and_eq_true, decide_eq_true_eq, ge_iff_le, UInt32.le_iff_toNat_le,
    hval] at h
  simp only [Char.reduceVal, UInt32.reduceToNat] at h
  omega

namespace Text.Utf8

variable {n : Nat} {b : UInt8} {rest : List UInt8}

theorem start_of_two (h : 0x80 ≤ n) (h' : n < 0x800) :
    start (n / 64 % 32 + 0xc0) = .sequence ⟨n / 64, 1, 0x80, 0xBF⟩ := by
  have hmod : n / 64 % 32 = n / 64 := by omega
  unfold start
  rw [hmod, if_neg (by omega), if_pos (by simp; omega), Nat.add_sub_cancel]

theorem start_of_three (h : 0x800 ≤ n) (h' : n < 0x10000) (hn : n < 0xd800 ∨ 0xdfff < n) :
    ∃ lo hi, start (n / 4096 % 16 + 0xe0) = .sequence ⟨n / 4096, 2, lo, hi⟩ ∧
      lo ≤ n / 64 % 64 + 0x80 ∧ n / 64 % 64 + 0x80 ≤ hi := by
  have hmod : n / 4096 % 16 = n / 4096 := by omega
  unfold start
  rw [hmod, if_neg (by omega), if_neg (by simp)]
  by_cases hE0 : n / 4096 + 0xe0 = 0xe0
  · have hzero : n / 4096 = 0 := by omega
    rw [if_pos hE0, hzero]
    exact ⟨_, _, rfl, by omega, by omega⟩
  rw [if_neg hE0]
  by_cases hED : n / 4096 + 0xe0 = 0xed
  · have hd : n / 4096 = 0xd := by omega
    rw [if_pos hED, hd]
    exact ⟨_, _, rfl, by omega, by omega⟩
  rw [if_neg hED, if_pos (by simp; omega), Nat.add_sub_cancel]
  exact ⟨_, _, rfl, by omega, by omega⟩

theorem start_of_four (h : 0x10000 ≤ n) (h' : n < 0x110000) :
    ∃ lo hi, start (n / 262144 % 8 + 0xf0) = .sequence ⟨n / 262144, 3, lo, hi⟩ ∧
      lo ≤ n / 4096 % 64 + 0x80 ∧ n / 4096 % 64 + 0x80 ≤ hi := by
  have hmod : n / 262144 % 8 = n / 262144 := by omega
  unfold start
  rw [hmod, if_neg (by omega), if_neg (by simp), if_neg (by omega), if_neg (by omega),
    if_neg (by simp)]
  by_cases hF0 : n / 262144 + 0xf0 = 0xf0
  · have hzero : n / 262144 = 0 := by omega
    rw [if_pos hF0, hzero]
    exact ⟨_, _, rfl, by omega, by omega⟩
  rw [if_neg hF0]
  by_cases hF4 : n / 262144 + 0xf0 = 0xf4
  · have hfour : n / 262144 = 4 := by omega
    rw [if_neg (by simp; omega), if_pos hF4, hfour]
    exact ⟨_, _, rfl, by omega, by omega⟩
  rw [if_pos (by simp; omega), Nat.add_sub_cancel]
  exact ⟨_, _, rfl, by omega, by omega⟩

section

variable {m value missing lo hi : Nat} (hm : m < 256)
include hm

theorem decodeFrom_start {p : Pending} (h : start m = .sequence p) (rest : List UInt8) :
    decodeFrom none (UInt8.ofNat m :: rest) = decodeFrom (some p) rest := by
  rw [decodeFrom, decodeFrom.first, UInt8.toNat_ofNat_of_lt' hm, h]

theorem decodeFrom_last (hlo : lo ≤ m) (hhi : m ≤ hi) (rest : List UInt8) :
    decodeFrom (some ⟨value, 1, lo, hi⟩) (UInt8.ofNat m :: rest) =
      some (Char.ofNat (value * 64 + (m - 0x80))) :: decodeFrom none rest := by
  rw [decodeFrom, UInt8.toNat_ofNat_of_lt' hm]
  dsimp only
  rw [if_pos (by simp [hlo, hhi]), if_pos rfl]

theorem decodeFrom_more (hlo : lo ≤ m) (hhi : m ≤ hi) (rest : List UInt8) :
    decodeFrom (some ⟨value, missing + 2, lo, hi⟩) (UInt8.ofNat m :: rest) =
      decodeFrom (some ⟨value * 64 + (m - 0x80), missing + 1, 0x80, 0xBF⟩) rest := by
  rw [decodeFrom, UInt8.toNat_ofNat_of_lt' hm]
  dsimp only
  rw [if_pos (by simp [hlo, hhi]), if_neg (by omega)]
  rfl

end

/-- A character is read off its bytes, whatever follows. -/
theorem decodeFrom_encodeChar (c : Char) (rest : List UInt8) :
    decodeFrom none (String.utf8EncodeChar c ++ rest) = some c :: decodeFrom none rest := by
  have hlt := char_toNat_lt c
  have hvalid : c.val.toNat < 0xd800 ∨ 0xdfff < c.val.toNat := by
    have h := c.valid
    simp only [UInt32.isValidChar, Nat.isValidChar] at h
    omega
  have hc : Char.ofNat c.val.toNat = c := Char.ofNat_toNat c
  unfold String.utf8EncodeChar
  generalize c.val.toNat = n at *
  dsimp only
  split
  · have hstart : start n = .char c := by rw [start, if_pos (by omega), hc]
    rw [List.cons_append, List.nil_append, decodeFrom, decodeFrom.first,
      UInt8.toNat_ofNat_of_lt' (by simp [UInt8.size]; omega), hstart]
  split
  · have hstart := start_of_two (n := n) (by omega) (by omega)
    have hvalue : n / 64 * 64 + (n % 64 + 0x80 - 0x80) = n := by omega
    simp only [List.cons_append, List.nil_append]
    rw [decodeFrom_start (by omega) hstart, decodeFrom_last (by omega) (by omega) (by omega),
      hvalue, hc]
  split
  · obtain ⟨lo, hi, hstart, hlo, hhi⟩ := start_of_three (n := n) (by omega) (by omega) hvalid
    have hvalue : (n / 4096 * 64 + (n / 64 % 64 + 0x80 - 0x80)) * 64 +
        (n % 64 + 0x80 - 0x80) = n := by
      omega
    simp only [List.cons_append, List.nil_append]
    rw [decodeFrom_start (by omega) hstart, decodeFrom_more (by omega) hlo hhi,
      decodeFrom_last (by omega) (by omega) (by omega), hvalue, hc]
  · obtain ⟨lo, hi, hstart, hlo, hhi⟩ := start_of_four (n := n) (by omega) hlt
    have hvalue : ((n / 262144 * 64 + (n / 4096 % 64 + 0x80 - 0x80)) * 64 +
        (n / 64 % 64 + 0x80 - 0x80)) * 64 + (n % 64 + 0x80 - 0x80) = n := by
      omega
    simp only [List.cons_append, List.nil_append]
    rw [decodeFrom_start (by omega) hstart, decodeFrom_more (by omega) hlo hhi,
      decodeFrom_more (by omega) (by omega) (by omega),
      decodeFrom_last (by omega) (by omega) (by omega), hvalue, hc]

theorem decodeFrom_bytes (cs : List Char) :
    decodeFrom none (cs.flatMap String.utf8EncodeChar) = cs.map some := by
  induction cs with
  | nil => rw [List.flatMap_nil, decodeFrom]; rfl
  | cons c cs ih => rw [List.flatMap_cons, decodeFrom_encodeChar, ih, List.map_cons]

/-- A text is read off its bytes. -/
theorem decodeLossy_bytes (cs : List Char) :
    decodeLossy (cs.flatMap String.utf8EncodeChar) = String.ofList cs := by
  rw [decodeLossy, decodeFrom_bytes, List.map_map]
  exact congrArg String.ofList (List.map_id cs)

end Text.Utf8

namespace Url.Percent

variable {keep : Char → Bool} {c : Char} {cs : List Char} {bs : List UInt8}

/-! ### Escapes -/

theorem hexValue?_hexDigit : ∀ n < 16, hexValue? (hexDigit n) = some n := by decide +kernel

theorem decodeBytes_escapeByte (b : UInt8) (cs : List Char) :
    decodeBytes (escapeByte b ++ cs) = b :: decodeBytes cs := by
  have hb : b.toNat < 256 := b.toNat_lt
  have hhi := hexValue?_hexDigit (b.toNat / 16) (by omega)
  have hlo := hexValue?_hexDigit (b.toNat % 16) (by omega)
  have hvalue : b.toNat / 16 * 16 + b.toNat % 16 = b.toNat := by omega
  simp only [escapeByte, List.cons_append, List.nil_append, decodeBytes, hhi, hlo, hvalue,
    UInt8.ofNat_toNat]

theorem decodeBytes_escapes (bs : List UInt8) (cs : List Char) :
    decodeBytes (bs.flatMap escapeByte ++ cs) = bs ++ decodeBytes cs := by
  induction bs with
  | nil => rfl
  | cons b bs ih =>
    rw [List.flatMap_cons, List.append_assoc, decodeBytes_escapeByte, ih, List.cons_append]

theorem decodeBytes_cons (h : c ≠ '%') (cs : List Char) :
    decodeBytes (c :: cs) = String.utf8EncodeChar c ++ decodeBytes cs := by
  rw [decodeBytes]
  rintro a b rest rfl
  exact absurd rfl h

theorem decodeBytes_of_not_mem (h : '%' ∉ cs) :
    decodeBytes cs = cs.flatMap String.utf8EncodeChar := by
  induction cs with
  | nil => rfl
  | cons c cs ih =>
    obtain ⟨hc, hcs⟩ := List.ne_and_not_mem_of_not_mem_cons h
    rw [decodeBytes_cons hc.symm, ih hcs, List.flatMap_cons]

theorem encodeChars_eq_self (h : ∀ c ∈ cs, keep c = true) : encodeChars keep cs = cs := by
  induction cs with
  | nil => rfl
  | cons c cs ih =>
    rw [encodeChars, List.flatMap_cons, encodeChar, if_pos (h c List.mem_cons_self)]
    exact congrArg (c :: ·) (ih fun d hd => h d (List.mem_cons_of_mem _ hd))

/-- Characters of escapes stay as they are. -/
structure KeepsEscapes (keep : Char → Bool) : Prop where
  percent : keep '%' = true
  digit : ∀ n < 16, keep (hexDigit n) = true

theorem KeepsEscapes.of_mem_escapes (h : KeepsEscapes keep) (hc : c ∈ bs.flatMap escapeByte) :
    keep c = true := by
  obtain ⟨b, -, hc⟩ := List.mem_flatMap.mp hc
  have hb : b.toNat < 256 := b.toNat_lt
  simp only [escapeByte, List.mem_cons, List.not_mem_nil, or_false] at hc
  rcases hc with rfl | rfl | rfl
  · exact h.percent
  · exact h.digit _ (by omega)
  · exact h.digit _ (by omega)

theorem cases_of_mem_encodeChars (hc : c ∈ encodeChars keep cs) :
    c ∈ cs ∧ keep c = true ∨ ∃ bs : List UInt8, c ∈ bs.flatMap escapeByte := by
  obtain ⟨d, hd, hc⟩ := List.mem_flatMap.mp hc
  unfold encodeChar at hc
  split at hc
  · next hkeep =>
    rw [List.mem_singleton.mp hc]
    exact .inl ⟨hd, hkeep⟩
  · exact .inr ⟨_, hc⟩

/-- An escaped text has kept characters only, so escaping it again changes nothing. -/
theorem KeepsEscapes.of_mem_encodeChars (h : KeepsEscapes keep) (hc : c ∈ encodeChars keep cs) :
    keep c = true := by
  rcases cases_of_mem_encodeChars hc with ⟨-, hkeep⟩ | ⟨bs, hc⟩
  · exact hkeep
  · exact h.of_mem_escapes hc

theorem encodeChars_eq_nil_iff : encodeChars keep cs = [] ↔ cs = [] := by
  constructor
  · intro h
    cases cs with
    | nil => rfl
    | cons c cs =>
      have hnil : encodeChar keep c = [] := List.flatMap_eq_nil_iff.mp h c List.mem_cons_self
      unfold encodeChar at hnil
      split at hnil
      · cases hnil
      · obtain ⟨b, bs, hb⟩ := List.exists_cons_of_ne_nil (String.utf8EncodeChar_ne_nil (c := c))
        rw [hb] at hnil
        cases hnil
  · rintro rfl
    rfl

end Url.Percent

namespace Url.Query

open Percent

variable {c : Char} {cs : List Char}

/-! ### Texts of a pair -/

/-- A character of a pair as it is written. -/
def written (c : Char) : List Char := if c = ' ' then ['+'] else encodeChar isKept c

/-- What a character stands for before escapes are read. -/
def unplus (c : Char) : Char := if c = '+' then ' ' else c

theorem keepsEscapes_isKept : KeepsEscapes fun c => isKept c || c = '%' :=
  ⟨by decide, by decide +kernel⟩

theorem unplus_of_isKept (h : (isKept c || c = '%') = true) : unplus c = c :=
  if_neg fun hplus => absurd (hplus ▸ h) (by decide)

theorem decodeBytes_unplus_written (c : Char) (cs : List Char) :
    decodeBytes ((written c ++ cs).map unplus) =
      String.utf8EncodeChar c ++ decodeBytes (cs.map unplus) := by
  rw [List.map_append, written]
  split
  · next hc =>
    rw [hc]
    exact decodeBytes_cons (by decide) _
  rw [encodeChar]
  split
  · next hc =>
    rw [List.map_singleton, unplus_of_isKept (by rw [hc]; rfl), List.singleton_append]
    exact decodeBytes_cons (fun hpercent => absurd (hpercent ▸ hc) (by decide)) _
  · have hsame : ((String.utf8EncodeChar c).flatMap escapeByte).map unplus =
        (String.utf8EncodeChar c).flatMap escapeByte :=
      (List.map_congr_left fun d hd =>
        unplus_of_isKept (keepsEscapes_isKept.of_mem_escapes hd)).trans (List.map_id _)
    rw [hsame, decodeBytes_escapes]

theorem toList_encodeText (s : String) : (encodeText s).toList = s.toList.flatMap written := by
  rw [encodeText, String.toList_ofList]
  rfl

/-- A text of a pair comes out as it went in. -/
theorem decodeText_encodeText (s : String) : decodeText (encodeText s).toList = s := by
  have hbytes (cs : List Char) : decodeBytes ((cs.flatMap written).map unplus) =
      cs.flatMap String.utf8EncodeChar := by
    induction cs with
    | nil => rfl
    | cons c cs ih => rw [List.flatMap_cons, decodeBytes_unplus_written, ih, List.flatMap_cons]
  rw [decodeText, toList_encodeText]
  show Text.Utf8.decodeLossy (decodeBytes ((s.toList.flatMap written).map unplus)) = s
  rw [hbytes, Text.Utf8.decodeLossy_bytes, String.ofList_toList]

/-- Characters of a written text. -/
theorem isKept_of_mem_encodeText {s : String} (h : c ∈ (encodeText s).toList) :
    (isKept c || c = '%') = true ∨ c = '+' := by
  rw [toList_encodeText] at h
  obtain ⟨d, -, hc⟩ := List.mem_flatMap.mp h
  unfold written encodeChar at hc
  split at hc
  · exact .inr (List.mem_singleton.mp hc)
  split at hc
  · next hd => rw [List.mem_singleton.mp hc, hd]; exact .inl rfl
  · exact .inl (keepsEscapes_isKept.of_mem_escapes hc)

theorem not_mem_encodeText (h : (isKept c || c = '%') = false) (hplus : c ≠ '+') (s : String) :
    c ∉ (encodeText s).toList := fun hc =>
  (isKept_of_mem_encodeText hc).elim (fun hkept => by rw [h] at hkept; cases hkept) hplus

/-! ### Pairs -/

variable (pair : String × String)

theorem toList_encodePair : (encodePair pair).toList =
    (encodeText pair.1).toList ++ '=' :: (encodeText pair.2).toList := by
  simp [encodePair]

theorem decodePair_encodePair : decodePair (encodePair pair).toList = pair := by
  have hkey : '=' ∉ (encodeText pair.1).toList := not_mem_encodeText (by decide) (by decide) _
  have hcut := Text.cut_append hkey [] (encodeText pair.2).toList
  rw [List.nil_append] at hcut
  unfold decodePair
  rw [toList_encodePair, hcut]
  simp only [decodeText_encodeText]

theorem ampersand_not_mem_encodePair : '&' ∉ (encodePair pair).toList := by
  have htext (s : String) : '&' ∉ (encodeText s).toList :=
    not_mem_encodeText (by decide) (by decide) s
  simp [toList_encodePair, htext]

/-! ### Queries -/

theorem decode_eq (query : String) :
    decode query = ((query.toList.splitOn '&').filter (!·.isEmpty)).map decodePair := by
  rw [decode, Text.splitBy_singleton]

variable {pair} (pairs : List (String × String))

theorem decode_written (hne : pairs ≠ []) :
    decode ("&".intercalate (pairs.map encodePair)) = pairs := by
  have hmark : "&".toList = ['&'] := by decide
  have hparts : ∀ l ∈ pairs.map (String.toList ∘ encodePair), '&' ∉ l := by
    intro _ hl
    obtain ⟨pair, -, rfl⟩ := List.mem_map.mp hl
    exact ampersand_not_mem_encodePair pair
  have hsplit := List.splitOn_intercalate '&' hparts (by simpa using hne)
  have hdecode : decodePair ∘ String.toList ∘ encodePair = id := by
    funext pair
    rw [Function.comp_apply, Function.comp_apply, decodePair_encodePair, id]
  rw [decode_eq, String.toList_intercalate, List.map_map, hmark, hsplit, List.filter_eq_self.mpr]
  · rw [List.map_map, hdecode, List.map_id]
  · rintro _ hl
    obtain ⟨pair, -, rfl⟩ := List.mem_map.mp hl
    simp [toList_encodePair]

/-- Appended pairs stand behind those of the query. -/
theorem decode_append (query : Option String) :
    decode ((append query pairs).getD "") = decode (query.getD "") ++ pairs := by
  cases hpairs : pairs with
  | nil => simp [append]
  | cons first rest =>
    rw [← hpairs]
    have hne : pairs ≠ [] := by simp [hpairs]
    have hempty : decode "" = [] := by rw [decode_eq]; simp
    have hwritten := decode_written pairs hne
    unfold append
    rw [if_neg (by simpa using hne)]
    cases query with
    | none => simpa [hempty] using hwritten
    | some q =>
      by_cases hq : q = ""
      · simpa [hq, hempty] using hwritten
      · have hlist : ("&".intercalate (q :: pairs.map encodePair)).toList =
            q.toList ++ '&' :: ("&".intercalate (pairs.map encodePair)).toList := by
          rw [String.intercalate_cons_of_ne_nil (by simpa using hne)]
          simp
        have hq' : q.isEmpty = false := by simpa using hq
        dsimp only
        rw [hq', if_neg Bool.false_ne_true, Option.getD_some, Option.getD_some, decode_eq, hlist,
          List.splitOn_append_cons_self, List.filter_append, List.map_append, ← decode_eq,
          ← decode_eq, hwritten]

end Url.Query

end SiteScrape
