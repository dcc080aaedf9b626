import SiteScrape.Text.Utf8

/-!
# The order of texts

Texts are ordered by code point. Their bytes in UTF-8 have the same order
(`bytes_lt_iff`), so a map that is sorted by the bytes of its keys is sorted by
the keys.
-/

namespace SiteScrape.Text.Utf8

theorem char_toNat_lt (c : Char) : c.val.toNat < 0x110000 := by
  have h := c.valid
  simp only [UInt32.isValidChar, Nat.isValidChar] at h
  omega

/-- Six bits at a time. -/
theorem div_sextets (n : Nat) : n / 4096 = n / 64 / 64 ∧ n / 262144 = n / 64 / 64 / 64 := by
  omega

/-- The bytes of a character tell it from all greater ones, whatever follows. -/
theorem encode_append_lt {c d : Char} (h : c < d) (xs ys : List UInt8) :
    String.utf8EncodeChar c ++ xs < String.utf8EncodeChar d ++ ys := by
  have hlt : c.val.toNat < d.val.toNat := h
  have hd := char_toNat_lt d
  unfold String.utf8EncodeChar
  generalize c.val.toNat = m at hlt
  generalize d.val.toNat = n at hlt hd
  obtain ⟨hm₂, hm₃⟩ := div_sextets m
  obtain ⟨hn₂, hn₃⟩ := div_sextets n
  simp only [hm₂, hm₃, hn₂, hn₃]
  clear hm₂ hm₃ hn₂ hn₃
  -- the first bytes tell numbers of different length apart, all of them numbers of one length
  split <;> split <;> try omega
  all_goals
    repeat' split
    all_goals
      simp only [List.cons_append, List.nil_append, List.cons_lt_cons_iff, UInt8.lt_iff_toNat_lt,
        ← UInt8.toNat_inj, UInt8.toNat_ofNat']
      omega

theorem bytes_lt {xs ys : List Char} (h : xs < ys) :
    xs.flatMap String.utf8EncodeChar < ys.flatMap String.utf8EncodeChar := by
  induction h with
  | nil =>
    next d ys =>
    obtain ⟨b, bs, hb⟩ := List.exists_cons_of_ne_nil (String.utf8EncodeChar_ne_nil (c := d))
    rw [List.flatMap_cons, hb]
    exact List.nil_lt_cons _ _
  | rel h => exact encode_append_lt h _ _
  | cons _ ih => exact List.append_left_lt ih

/-- The order of texts is that of their bytes. -/
theorem bytes_lt_iff {a b : String} : bytes a < bytes b ↔ a < b := by
  refine ⟨fun h => Decidable.not_not.mp fun hab => ?_, fun h => bytes_lt (String.lt_iff.mp h)⟩
  by_cases he : a = b
  · subst he
    exact List.lt_irrefl _ h
  · have hba : b < a := Std.lt_of_le_of_ne (String.not_lt.mp hab) (Ne.symm he)
    exact List.lt_asymm h (bytes_lt (String.lt_iff.mp hba))

theorem bytes_le_iff {a b : String} : bytes a ≤ bytes b ↔ a ≤ b := by
  rw [← List.not_lt, bytes_lt_iff, String.not_lt]

end SiteScrape.Text.Utf8
