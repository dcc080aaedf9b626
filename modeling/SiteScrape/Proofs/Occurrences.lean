import Mathlib.Data.List.Infix
import SiteScrape.Text.Find

/-!
# Runs and occurrences in texts

A run of characters of one kind is read up to the first character of another
kind, whatever follows (`takeWhile_append_stop`). A text is cut at the first
occurrence of a needle (`occurs_iff`, `cut_append`), and split at every occurrence
of a character (`splitBy_singleton`). An occurrence lies wholly on one side of a
character that the needle does not have (`infix_append_cons_iff`).
-/

namespace SiteScrape.Text

variable {needle cs before behind : List Char} {c : Char} {f : Char → Char}

/-! ### Runs -/

section

variable {p : Char → Bool} {tail : List Char} (h : ∀ c, tail.head? = some c → p c = false)
include h

theorem takeWhile_append_stop (cs : List Char) :
    (cs ++ tail).takeWhile p = cs.takeWhile p := by
  induction cs with
  | nil =>
    cases tail with
    | nil => rfl
    | cons c rest => rw [List.nil_append, List.takeWhile_cons_of_neg (by simp [h c rfl])]; rfl
  | cons c cs ih => cases hc : p c <;> simp [hc, ih]

theorem dropWhile_append_stop (cs : List Char) :
    (cs ++ tail).dropWhile p = cs.dropWhile p ++ tail := by
  induction cs with
  | nil =>
    cases tail with
    | nil => rfl
    | cons c rest => rw [List.nil_append, List.dropWhile_cons_of_neg (by simp [h c rfl])]; rfl
  | cons c cs ih => cases hc : p c <;> simp [hc, ih]

end

/-! ### Occurrences -/

theorem isSome_afterLead_iff {lead : List Char} : (afterLead lead cs).isSome ↔ lead <+: cs := by
  rw [Option.isSome_iff_exists]
  simp only [afterLead_eq_some]
  exact ⟨fun ⟨rest, h⟩ => ⟨rest, h.symm⟩, fun ⟨rest, h⟩ => ⟨rest, h.symm⟩⟩

/-- A needle is found exactly where it stands. -/
theorem occurs_iff : occurs needle cs = true ↔ needle <:+: cs := by
  unfold occurs
  induction cs with
  | nil => cases needle <;> simp [cut]
  | cons c cs ih =>
    rw [List.infix_cons_iff, ← ih, ← isSome_afterLead_iff, cut]
    cases afterLead needle (c :: cs) <;> simp

theorem cut_eq_none_iff : cut needle cs = none ↔ ¬ needle <:+: cs := by
  rw [← occurs_iff, occurs, Bool.not_eq_true, Option.isSome_eq_false_iff, Option.isNone_iff_eq_none]

/-- Nothing is found before the first character of a needle. -/
theorem cut_append (h : c ∉ before) (needle behind : List Char) :
    cut (c :: needle) (before ++ c :: (needle ++ behind)) = some (before, behind) := by
  induction before with
  | nil =>
    have hfound : afterLead (c :: needle) (c :: (needle ++ behind)) = some behind :=
      afterLead_eq_some.mpr rfl
    rw [List.nil_append, cut, hfound]
  | cons b before ih =>
    obtain ⟨hb, hbefore⟩ := List.ne_and_not_mem_of_not_mem_cons h
    have hnone : afterLead (c :: needle) (b :: (before ++ c :: (needle ++ behind))) = none := by
      rw [afterLead, if_neg hb]
    rw [List.cons_append, cut, hnone, ih hbefore]
    rfl

/-- Nor is anything found before a needle that occurs only there. -/
theorem cut_of_not_infix (h : ¬ c :: needle <:+: before ++ (c :: needle).dropLast)
    (behind : List Char) :
    cut (c :: needle) (before ++ (c :: needle) ++ behind) = some (before, behind) := by
  induction before with
  | nil =>
    have hfound : afterLead (c :: needle) (c :: needle ++ behind) = some behind :=
      afterLead_eq_some.mpr rfl
    rw [List.nil_append, List.cons_append, cut, ← List.cons_append, hfound]
  | cons b before ih =>
    have hnone : afterLead (c :: needle) (b :: before ++ (c :: needle) ++ behind) = none := by
      cases hfound : afterLead (c :: needle) (b :: before ++ (c :: needle) ++ behind) with
      | none => rfl
      | some rest =>
        rw [afterLead_eq_some] at hfound
        have hneedle : c :: needle <+: b :: before ++ (c :: needle) ++ behind :=
          ⟨rest, hfound.symm⟩
        have hshort : b :: before ++ (c :: needle).dropLast <+:
            b :: before ++ (c :: needle) ++ behind := by
          rw [List.append_assoc]
          exact (List.prefix_append_right_inj _).mpr
            ((List.dropLast_prefix _).trans (List.prefix_append _ _))
        exact absurd (List.prefix_of_prefix_length_le hneedle hshort (by simp)).isInfix h
    have hlater : ¬ c :: needle <:+: before ++ (c :: needle).dropLast := fun hin =>
      h (hin.trans (List.suffix_cons b _).isInfix)
    rw [List.cons_append, List.cons_append] at hnone ⊢
    rw [cut, hnone, ih hlater]
    rfl

/-- Splitting at a character is that of the core library. -/
theorem splitBy_singleton (c : Char) (cs : List Char) :
    splitBy [c] (List.cons_ne_nil c []) cs = cs.splitOn c := by
  induction hlength : cs.length using Nat.strong_induction_on generalizing cs with
  | _ length ih =>
    rw [splitBy]
    by_cases hc : c ∈ cs
    · obtain ⟨before, rest, rfl, hbefore⟩ := List.eq_append_cons_of_mem hc
      have hcut : cut [c] (before ++ c :: rest) = some (before, rest) := cut_append hbefore [] rest
      split
      · next hnone => rw [hcut] at hnone; cases hnone
      · next hsome =>
        rw [hcut] at hsome
        cases hsome
        rw [ih rest.length (by rw [← hlength]; simp; omega) rest rfl,
          List.splitOn_append_cons_self_of_not_mem hbefore]
    · have hcut : cut [c] cs = none :=
        cut_eq_none_iff.mpr fun hin => hc (hin.subset List.mem_cons_self)
      split
      · rw [List.splitOn_eq_singleton hc]
      · next hsome => rw [hcut] at hsome; cases hsome

theorem of_mem_splitOn {part : List Char} (h : part ∈ cs.splitOn c) : c ∉ part ∧ part ⊆ cs := by
  induction cs generalizing part with
  | nil =>
    rw [List.splitOn_nil, List.mem_singleton] at h
    simp [h]
  | cons b cs ih =>
    rw [List.splitOn_cons_eq_if_modifyHead] at h
    split at h
    · rcases List.mem_cons.mp h with rfl | h
      · simp
      · exact ⟨(ih h).1, List.subset_cons_of_subset b (ih h).2⟩
    · next hb =>
      obtain ⟨first, parts, hparts⟩ := List.exists_cons_of_ne_nil (List.splitOn_ne_nil c cs)
      rw [hparts, List.modifyHead_cons, List.mem_cons] at h
      rw [hparts] at ih
      rcases h with rfl | h
      · obtain ⟨hnot, hsubset⟩ := ih List.mem_cons_self
        have hne : c ≠ b := fun hcb => hb (by simp [hcb])
        exact ⟨by simp [hne, hnot], List.cons_subset_cons b hsubset⟩
      · have hpart := ih (List.mem_cons_of_mem _ h)
        exact ⟨hpart.1, List.subset_cons_of_subset b hpart.2⟩

theorem of_mem_intercalate {d : Char} {parts : List (List Char)}
    (h : d ∈ [c].intercalate parts) : d = c ∨ ∃ part ∈ parts, d ∈ part := by
  induction parts with
  | nil => cases h
  | cons part parts ih =>
    cases parts with
    | nil =>
      rw [List.intercalate_singleton] at h
      exact .inr ⟨part, List.mem_cons_self, h⟩
    | cons next parts =>
      rw [List.intercalate_cons_cons, List.append_assoc, List.mem_append] at h
      rcases h with h | h
      · exact .inr ⟨part, List.mem_cons_self, h⟩
      rcases List.mem_append.mp h with h | h
      · exact .inl (List.mem_singleton.mp h)
      · exact (ih h).imp_right fun ⟨part, hpart, hd⟩ => ⟨part, List.mem_cons_of_mem _ hpart, hd⟩

/-- Cutting does not see changes that leave the characters of the needle apart
from all others. -/
theorem cut_map (hf : ∀ l ∈ needle, ∀ c, f c = l ↔ c = l) (cs : List Char) :
    cut needle (cs.map f) = (cut needle cs).map fun p => (p.1.map f, p.2.map f) := by
  have hlead : ∀ cs, afterLead needle (cs.map f) = (afterLead needle cs).map (List.map f) := by
    induction needle with
    | nil => exact fun cs => rfl
    | cons l needle ih =>
      intro cs
      cases cs with
      | nil => rfl
      | cons c cs =>
        have hl : l = f c ↔ l = c := by
          rw [eq_comm, hf l List.mem_cons_self c, eq_comm]
        rw [List.map_cons, afterLead, afterLead,
          ih (fun l' hl' => hf l' (List.mem_cons_of_mem _ hl')) cs]
        by_cases h : l = c
        · rw [if_pos (hl.mpr h), if_pos h]
        · rw [if_neg (mt hl.mp h), if_neg h]
          rfl
  induction cs with
  | nil => cases needle <;> rfl
  | cons c cs ih =>
    have hfirst := hlead (c :: cs)
    rw [List.map_cons] at hfirst ⊢
    rw [cut, cut, hfirst, ih]
    cases afterLead needle (c :: cs) with
    | some rest => rfl
    | none => cases cut needle cs <;> rfl

/-- A needle without `c` stands on one side of it. -/
theorem infix_append_cons_iff (h : c ∉ needle) :
    needle <:+: before ++ c :: behind ↔ needle <:+: before ∨ needle <:+: behind := by
  -- a needle that starts before `c` ends before it
  have hstart (before : List Char) (hpre : needle <+: before ++ c :: behind) :
      needle <+: before := by
    have hupto : before ++ [c] <+: before ++ c :: behind := ⟨behind, by simp⟩
    rcases List.prefix_or_prefix_of_prefix hpre hupto with hle | hle
    · rcases List.prefix_concat_iff.mp hle with rfl | hle
      · exact absurd (by simp) h
      · exact hle
    · exact absurd (hle.subset (by simp)) h
  constructor
  · intro hin
    induction before with
    | nil =>
      rcases List.infix_cons_iff.mp hin with hpre | hin
      · exact .inl (hstart [] hpre).isInfix
      · exact .inr hin
    | cons b before ih =>
      rcases List.infix_cons_iff.mp hin with hpre | hin
      · exact .inl (hstart (b :: before) hpre).isInfix
      · exact (ih hin).imp_left fun hbefore => List.infix_cons_iff.mpr (.inr hbefore)
  · rintro (hin | hin)
    · exact hin.trans (List.prefix_append _ _).isInfix
    · exact hin.trans ⟨before ++ [c], [], by simp⟩

end SiteScrape.Text
