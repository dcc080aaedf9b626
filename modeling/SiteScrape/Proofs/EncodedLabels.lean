import SiteScrape.Proofs.EscapedTexts
import SiteScrape.Url.Punycode

/-!
# Labels in ASCII letters

The reader of an encoded label inserts its letters in the order in which the
writer counts them. `Follows` ties a writer in the middle of a label to the
reader of what it has written so far; every character that the writer passes
keeps it (`Follows.step`), and so does every code (`Waits.row`). So an encoded
label is read as the label that it was made from (`decode?_encode`).
-/

namespace SiteScrape.Url.Punycode

variable {k bias code n : Nat} {label lead done rest tail : List Char} {c : Char} {p : Progress}

/-! ### Numbers of variable length -/

theorem threshold_bounds (k bias : Nat) : 1 ≤ threshold k bias ∧ threshold k bias ≤ 26 := by
  unfold threshold tMin tMax
  split
  · omega
  split <;> omega

theorem digitValue?_digit : ∀ n < 36, digitValue? (digit n) = some n := by decide +kernel

theorem digit_spells : ∀ n < 36, ((digit n).isLower || (digit n).isDigit) = true := by
  decide +kernel

theorem number_eq (q k bias : Nat) : number q k bias =
    if q < threshold k bias then [digit q]
    else digit (threshold k bias + (q - threshold k bias) % (base - threshold k bias)) ::
      number ((q - threshold k bias) / (base - threshold k bias)) (k + base) bias := by
  have ht := threshold_bounds k bias
  have hbase : base = 36 := rfl
  rw [number]
  by_cases hq : q < threshold k bias
  · have hmin : min q 35 = q := by omega
    rw [dif_pos (.inl hq), if_pos hq, hmin]
  · rw [dif_neg (by omega), if_neg hq]

/-- The digits of a number are small letters and digits. -/
theorem spells_of_mem_number {q : Nat} (h : c ∈ number q k bias) :
    (c.isLower || c.isDigit) = true := by
  have ht := threshold_bounds k bias
  have hbase : base = 36 := rfl
  induction q using Nat.strongRecOn generalizing k with
  | _ q ih =>
    rw [number_eq] at h
    have ht := threshold_bounds k bias
    split at h
    · rw [List.mem_singleton.mp h]
      exact digit_spells q (by omega)
    · have hmod := Nat.mod_lt (q - threshold k bias) (y := base - threshold k bias) (by omega)
      have hdiv := Nat.div_le_self (q - threshold k bias) (base - threshold k bias)
      rcases List.mem_cons.mp h with rfl | h
      · exact digit_spells _ (by omega)
      · exact ih _ (by omega) h (threshold_bounds _ _)

/-! ### The reader -/

/-- A reader between two numbers. -/
structure Inserter where
  code : Nat
  place : Nat
  bias : Nat
  out : List Char

namespace Inserter

variable {r : Inserter}

/-- What a reader makes of the rest of a label. -/
def run (r : Inserter) (cs : List Char) : Option (List Char) :=
  decodeLoop r.code r.place r.bias r.place 1 base true r.out cs

/-- The reader behind a number that stands for `moved` places. -/
def insert (r : Inserter) (moved : Nat) : Inserter :=
  let size := r.out.length + 1
  let i := r.place + moved
  { code := r.code + i / size
    place := i % size + 1
    bias := adapt moved size (r.place == 0)
    out := r.out.take (i % size) ++ Char.ofNat (r.code + i / size) :: r.out.drop (i % size) }

/-- A number counts with the weight that its first digit has. -/
theorem decodeLoop_number (hvalid : (Char.ofNat (r.insert n).code).toNat = (r.insert n).code)
    {q i weight : Nat} {fresh : Bool} (hi : i + q * weight = r.place + n) :
    decodeLoop r.code i r.bias r.place weight k fresh r.out (number q k r.bias ++ tail) =
      (r.insert n).run tail := by
  have hbase : base = 36 := rfl
  induction q using Nat.strongRecOn generalizing i weight k fresh with
  | _ q ih =>
    have ht := threshold_bounds k r.bias
    rw [number_eq]
    by_cases hq : q < threshold k r.bias
    · have hlimit : ¬ (0x10FFFF < (r.insert n).code ∨
          0xD800 ≤ (r.insert n).code ∧ (r.insert n).code ≤ 0xDFFF) := by
        have h := (Char.ofNat (r.insert n).code).valid
        have hval : (Char.ofNat (r.insert n).code).val.toNat =
          (Char.ofNat (r.insert n).code).toNat := rfl
        simp only [UInt32.isValidChar, Nat.isValidChar, hval, hvalid] at h
        omega
      have hdelta : r.place + n - r.place = n := by omega
      rw [if_pos hq, List.singleton_append, decodeLoop, digitValue?_digit q (by omega)]
      simp only [Option.bind_eq_bind, Option.bind_some]
      rw [if_pos hq, hi, hdelta, if_neg (by simpa [insert] using hlimit)]
      rfl
    · have hmod := Nat.mod_lt (q - threshold k r.bias) (y := base - threshold k r.bias) (by omega)
      have hdiv := Nat.div_le_self (q - threshold k r.bias) (base - threshold k r.bias)
      have hsplit := Nat.mod_add_div (q - threshold k r.bias) (base - threshold k r.bias)
      rw [if_neg hq, List.cons_append, decodeLoop, digitValue?_digit _ (by omega)]
      simp only [Option.bind_eq_bind, Option.bind_some]
      rw [if_neg (by omega)]
      refine ih _ (by omega) ?_
      -- the digit and the rest of the number make up the number
      generalize (q - threshold k r.bias) % (base - threshold k r.bias) = low at hsplit
      generalize (q - threshold k r.bias) / (base - threshold k r.bias) = high at hsplit
      have hnumber : q = threshold k r.bias + low + (base - threshold k r.bias) * high := by omega
      rw [← hi, hnumber]
      ring

/-- The reader of the numbers behind the ASCII letters of a label. -/
def start (lead : List Char) : Inserter := ⟨initialCode, 0, initialBias, lead⟩

end Inserter

/-! ### The writer -/

/-- The writer behind one more character, on its way for one code. -/
def counted (basics code : Nat) (p : Progress) (c : Char) : Progress :=
  if c.toNat < code then { p with delta := p.delta + 1 }
  else if c.toNat = code then
    { delta := 0
      bias := adapt p.delta (p.handled + 1) (p.handled == basics)
      handled := p.handled + 1
      out := p.out ++ number p.delta base p.bias }
  else p

theorem insertCode_eq (basics code : Nat) (label : List Char) (p : Progress) :
    insertCode basics code label p = label.foldl (counted basics code) p := rfl

/-- The reader of what is written so far has inserted the letters below `code`,
and those of `code` itself up to the place that the writer has reached. -/
structure Follows (lead : List Char) (code : Nat) (done rest : List Char) (p : Progress)
    (r : Inserter) : Prop where
  read : ∀ tail, (Inserter.start lead).run (p.out ++ tail) = r.run tail
  bias : r.bias = p.bias
  out : r.out = done.filter (·.toNat ≤ code) ++ rest.filter (·.toNat < code)
  handled : p.handled = r.out.length
  first : r.place = 0 ↔ p.handled = lead.length
  le : lead.length ≤ p.handled
  code_le : r.code ≤ code
  delta : r.place + p.delta =
    (code - r.code) * (p.handled + 1) + (done.filter (·.toNat ≤ code)).length

/-- Where the next letter with the code of the writer goes: right behind the letters
inserted so far. -/
theorem Follows.split_delta {r : Inserter} (h : Follows lead code done rest p r) :
    (r.place + p.delta) % (r.out.length + 1) = (done.filter (·.toNat ≤ code)).length ∧
      (r.place + p.delta) / (r.out.length + 1) = code - r.code := by
  have hplace : (done.filter (·.toNat ≤ code)).length < r.out.length + 1 := by
    rw [h.out, List.length_append]
    omega
  have hsum := h.delta
  rw [h.handled] at hsum
  rw [hsum, Nat.mul_comm]
  constructor
  · rw [Nat.mul_add_mod, Nat.mod_eq_of_lt hplace]
  · rw [Nat.mul_add_div (by omega), Nat.div_eq_of_lt hplace, Nat.add_zero]

theorem Follows.code_insert {r : Inserter} (h : Follows lead code done rest p r) :
    (r.insert p.delta).code = code := by
  show r.code + (r.place + p.delta) / (r.out.length + 1) = code
  rw [h.split_delta.2]
  exact Nat.add_sub_cancel' h.code_le

theorem Follows.out_insert {r : Inserter} (h : Follows lead code done (c :: rest) p r)
    (hc : c.toNat = code) : (r.insert p.delta).out =
      (done ++ [c]).filter (·.toNat ≤ code) ++ rest.filter (·.toNat < code) := by
  have hchar : Char.ofNat code = c := by rw [← hc, Char.ofNat_toNat]
  have hrest : rest.filter (fun d => decide (d.toNat < code)) =
      (c :: rest).filter (·.toNat < code) := by simp [hc]
  show r.out.take ((r.place + p.delta) % (r.out.length + 1)) ++
    Char.ofNat (r.insert p.delta).code ::
      r.out.drop ((r.place + p.delta) % (r.out.length + 1)) = _
  rw [h.split_delta.1, h.code_insert, hchar, h.out, List.take_left, List.drop_left, ← hrest]
  simp [hc]

/-- Past a letter below its code the writer counts one place more. -/
theorem Follows.step_of_lt {r : Inserter} (h : Follows lead code done (c :: rest) p r)
    (hc : c.toNat < code) :
    Follows lead code (done ++ [c]) rest (counted lead.length code p c) r := by
  rw [counted, if_pos hc]
  have hout : r.out = (done ++ [c]).filter (·.toNat ≤ code) ++ rest.filter (·.toNat < code) := by
    simp [h.out, hc, Nat.le_of_lt hc]
  have hdelta := h.delta
  exact ⟨h.read, h.bias, hout, h.handled, h.first, h.le, h.code_le, by
    simp [Nat.le_of_lt hc, ← Nat.add_assoc, hdelta]⟩

/-- A letter with its code is written, and the reader inserts it. -/
theorem Follows.step_of_eq {r : Inserter} (h : Follows lead code done (c :: rest) p r)
    (hc : c.toNat = code) : Follows lead code (done ++ [c]) rest
      (counted lead.length code p c) (r.insert p.delta) := by
  have hchar : Char.ofNat code = c := by rw [← hc, Char.ofNat_toNat]
  rw [counted, if_neg (by omega), if_pos hc]
  refine ⟨fun tail => ?_, ?_, h.out_insert hc, ?_, ?_, Nat.le_succ_of_le h.le,
    Nat.le_of_eq h.code_insert, ?_⟩
  · rw [List.append_assoc, h.read, ← h.bias]
    exact Inserter.decodeLoop_number (by rw [h.code_insert, hchar, hc]) (by omega)
  · show adapt p.delta (r.out.length + 1) (r.place == 0) = _
    have hfirst : (r.place == 0) = (p.handled == lead.length) := by
      rw [Bool.eq_iff_iff, beq_iff_eq, beq_iff_eq, h.first]
    rw [hfirst, h.handled]
  · rw [h.out_insert hc, h.handled, h.out]
    simp [hc]
    omega
  · have := h.le
    show (r.place + p.delta) % (r.out.length + 1) + 1 = 0 ↔ p.handled + 1 = lead.length
    omega
  · show (r.place + p.delta) % (r.out.length + 1) + 1 + 0 = _
    rw [h.code_insert, h.split_delta.1, Nat.sub_self, Nat.zero_mul]
    simp [hc]

theorem Follows.step_of_gt {r : Inserter} (h : Follows lead code done (c :: rest) p r)
    (hc : code < c.toNat) :
    Follows lead code (done ++ [c]) rest (counted lead.length code p c) r := by
  rw [counted, if_neg (by omega), if_neg (by omega)]
  have hlt : ¬ c.toNat < code := by omega
  have hle : ¬ c.toNat ≤ code := by omega
  have hdelta := h.delta
  exact ⟨h.read, h.bias, by simp [h.out, hlt, hle], h.handled, h.first, h.le, h.code_le, by
    simp [hle, hdelta]⟩

/-- No character that the writer passes parts the two. -/
theorem Follows.step {r : Inserter} (h : Follows lead code done (c :: rest) p r) :
    ∃ r', Follows lead code (done ++ [c]) rest (counted lead.length code p c) r' := by
  rcases Nat.lt_trichotomy c.toNat code with hc | hc | hc
  · exact ⟨r, h.step_of_lt hc⟩
  · exact ⟨r.insert p.delta, h.step_of_eq hc⟩
  · exact ⟨r, h.step_of_gt hc⟩

theorem Follows.steps {r : Inserter} (h : Follows lead code done rest p r) :
    ∃ r', Follows lead code (done ++ rest) [] (rest.foldl (counted lead.length code) p) r' := by
  induction rest generalizing done p r with
  | nil => exact ⟨r, by rwa [List.append_nil]⟩
  | cons c rest ih =>
    obtain ⟨r', h'⟩ := h.step
    obtain ⟨r'', h''⟩ := ih h'
    exact ⟨r'', by simpa using h''⟩

/-- Between two codes, the reader has inserted the letters below `n`. -/
structure Waits (lead label : List Char) (n : Nat) (p : Progress) (r : Inserter) : Prop where
  read : ∀ tail, (Inserter.start lead).run (p.out ++ tail) = r.run tail
  bias : r.bias = p.bias
  out : r.out = label.filter (·.toNat < n)
  handled : p.handled = r.out.length
  first : r.place = 0 ↔ p.handled = lead.length
  le : lead.length ≤ p.handled
  code_le : r.code ≤ n
  delta : r.place + p.delta = (n - r.code) * (p.handled + 1)

/-- The writer behind all places of one code. -/
def row (basics : Nat) (label : List Char) (s : Progress × Nat) (code : Nat) : Progress × Nat :=
  let p := { s.1 with delta := s.1.delta + (code - s.2) * (s.1.handled + 1) }
  let p := insertCode basics code label p
  ({ p with delta := p.delta + 1 }, code + 1)

theorem Waits.row {r : Inserter} (h : Waits lead label n p r) (hn : n ≤ code)
    (hnext : ∀ c ∈ label, c.toNat < code → c.toNat < n) :
    ∃ r', Waits lead label (code + 1) (Punycode.row lead.length label (p, n) code).1 r' := by
  have hfollows : Follows lead code [] label
      { p with delta := p.delta + (code - n) * (p.handled + 1) } r := by
    have hsame : label.filter (·.toNat < n) = label.filter (·.toNat < code) :=
      List.filter_congr fun c hc => by
        have := hnext c hc
        exact decide_eq_decide.mpr ⟨fun hlt => by omega, this⟩
    refine ⟨h.read, h.bias, by rw [h.out, hsame]; rfl, h.handled, h.first, h.le,
      Nat.le_trans h.code_le hn, ?_⟩
    have hcode := h.code_le
    have hsub : code - r.code = n - r.code + (code - n) := by omega
    show r.place + (p.delta + (code - n) * (p.handled + 1)) = _
    rw [← Nat.add_assoc, h.delta, hsub, Nat.add_mul]
    rfl
  obtain ⟨r', hr'⟩ := hfollows.steps
  rw [List.nil_append, ← insertCode_eq] at hr'
  have hout : r'.out = label.filter (·.toNat < code + 1) := by
    rw [hr'.out, List.filter_nil, List.append_nil]
    exact List.filter_congr fun c _ => decide_eq_decide.mpr Nat.lt_succ_iff.symm
  refine ⟨r', hr'.read, hr'.bias, hout, hr'.handled, hr'.first, hr'.le,
    Nat.le_succ_of_le hr'.code_le, ?_⟩
  have hdelta := hr'.delta
  have hlength := hr'.handled
  rw [hr'.out, List.filter_nil, List.append_nil] at hlength
  have hsub : code + 1 - r'.code = code - r'.code + 1 := by
    have := hr'.code_le
    omega
  show r'.place + (_ + 1) = _
  rw [hsub, Nat.add_mul, Nat.one_mul, ← Nat.add_assoc, hdelta, ← hlength]
  rfl

theorem Waits.rows {codes : List Nat} {r : Inserter} (h : Waits lead label n p r)
    (hsorted : codes.Pairwise (· < ·)) (hge : ∀ code ∈ codes, n ≤ code)
    (hall : ∀ c ∈ label, n ≤ c.toNat → c.toNat ∈ codes) :
    ∃ r' : Inserter, (∀ tail, (Inserter.start lead).run
        ((codes.foldl (Punycode.row lead.length label) (p, n)).1.out ++ tail) = r'.run tail) ∧
      r'.out = label := by
  induction codes generalizing n p r with
  | nil =>
    refine ⟨r, h.read, ?_⟩
    rw [h.out]
    exact List.filter_eq_self.mpr fun c hc =>
      decide_eq_true (Nat.lt_of_not_le fun hle => List.not_mem_nil (hall c hc hle))
  | cons code codes ih =>
    obtain ⟨hlt, hsorted⟩ := List.pairwise_cons.mp hsorted
    have hn := hge code List.mem_cons_self
    obtain ⟨r', hr'⟩ := h.row hn fun c hc hcode => Nat.lt_of_not_le fun hle => by
      rcases List.mem_cons.mp (hall c hc hle) with heq | hmem
      · omega
      · have := hlt _ hmem
        omega
    refine ih hr' hsorted hlt fun c hc hle => ?_
    rcases List.mem_cons.mp (hall c hc (by omega)) with heq | hmem
    · omega
    · exact hmem

/-! ### Whole labels -/

theorem pairwise_lt_eraseDups {l : List Nat} (h : l.Pairwise (· ≤ ·)) :
    l.eraseDups.Pairwise (· < ·) := by
  induction hlength : l.length using Nat.strongRecOn generalizing l with
  | _ length ih =>
    cases l with
    | nil => simp
    | cons a l =>
      obtain ⟨ha, hl⟩ := List.pairwise_cons.mp h
      have hshort : (l.filter fun b => !b == a).length < length := by
        have := List.length_filter_le (fun b => !b == a) l
        simp only [List.length_cons] at hlength
        omega
      rw [List.eraseDups_cons, List.pairwise_cons]
      refine ⟨fun b hb => ?_, ih _ hshort (hl.filter _) rfl⟩
      obtain ⟨hmem, hne⟩ := List.mem_filter.mp (List.mem_eraseDups.mp hb)
      have hle := ha b hmem
      have hne : b ≠ a := by simpa using hne
      omega

theorem pairwise_codes (label : List Char) : (codes label).Pairwise (· < ·) := by
  refine pairwise_lt_eraseDups ?_
  have htrans : ∀ a b c : Nat, decide (a ≤ b) = true → decide (b ≤ c) = true →
      decide (a ≤ c) = true := by simpa using fun a b c => Nat.le_trans
  have htotal : ∀ a b : Nat, (decide (a ≤ b) || decide (b ≤ a)) = true := by
    simpa using Nat.le_total
  exact (List.pairwise_mergeSort htrans htotal _).imp of_decide_eq_true

theorem mem_codes {label : List Char} :
    n ∈ codes label ↔ initialCode ≤ n ∧ ∃ c ∈ label, c.toNat = n := by
  rw [codes, List.mem_eraseDups, List.mem_mergeSort, List.mem_filter, List.mem_map, and_comm,
    decide_eq_true_eq]

/-- The numbers behind the ASCII letters of a label. -/
def numbers (label : List Char) : List Char :=
  ((codes label).foldl (row (label.filter (·.toNat < initialCode)).length label)
    (⟨0, initialBias, (label.filter (·.toNat < initialCode)).length, []⟩, initialCode)).1.out

theorem run_numbers (label : List Char) :
    (Inserter.start (label.filter (·.toNat < initialCode))).run (numbers label) = some label := by
  have hstart : Waits (label.filter (·.toNat < initialCode)) label initialCode
      ⟨0, initialBias, (label.filter (·.toNat < initialCode)).length, []⟩
      (Inserter.start (label.filter (·.toNat < initialCode))) :=
    ⟨fun tail => rfl, rfl, rfl, rfl, by simp [Inserter.start], Nat.le_refl _, Nat.le_refl _, by
      simp [Inserter.start]⟩
  obtain ⟨r, hread, hout⟩ := hstart.rows (pairwise_codes label)
    (fun code hcode => (mem_codes.mp hcode).1) fun c hc hle => mem_codes.mpr ⟨hle, c, hc, rfl⟩
  have hend := hread []
  rw [List.append_nil] at hend
  exact hend.trans (congrArg some hout)

theorem spells_of_mem_out {basics : Nat} {codes : List Nat} {s : Progress × Nat}
    (h : ∀ c ∈ s.1.out, (c.isLower || c.isDigit) = true) :
    ∀ c ∈ (codes.foldl (row basics label) s).1.out, (c.isLower || c.isDigit) = true := by
  have hinsert (code : Nat) (chars : List Char) (p : Progress)
      (h : ∀ c ∈ p.out, (c.isLower || c.isDigit) = true) :
      ∀ c ∈ (chars.foldl (counted basics code) p).out, (c.isLower || c.isDigit) = true := by
    induction chars generalizing p with
    | nil => exact h
    | cons d chars ih =>
      refine ih _ ?_
      unfold counted
      split
      · exact h
      split
      · intro c hc
        exact (List.mem_append.mp hc).elim (h c) spells_of_mem_number
      · exact h
  induction codes generalizing s with
  | nil => exact h
  | cons code codes ih => exact ih (hinsert code label _ h)

theorem spells_of_mem_numbers (h : c ∈ numbers label) : (c.isLower || c.isDigit) = true :=
  spells_of_mem_out (by simp) c h

theorem encode_eq (label : List Char) :
    let basics := label.filter (·.toNat < initialCode)
    encode label = (if basics.isEmpty then [] else basics ++ ['-']) ++ numbers label := rfl

/-- An encoded label has characters of ASCII: those of the label, hyphens, and the
digits of numbers. -/
theorem cases_of_mem_encode (h : c ∈ encode label) :
    c ∈ label ∧ c.toNat < initialCode ∨ c = '-' ∨ (c.isLower || c.isDigit) = true := by
  rw [encode_eq] at h
  rcases List.mem_append.mp h with h | h
  · split at h
    · cases h
    · rcases List.mem_append.mp h with h | h
      · exact .inl (by simpa using List.mem_filter.mp h)
      · exact .inr (.inl (List.mem_singleton.mp h))
  · exact .inr (.inr (spells_of_mem_numbers h))

theorem toNat_lt_of_spells (h : (c.isLower || c.isDigit) = true) : c.toNat < 128 := by
  refine Text.toNat_lt_of_isAlphanum ?_
  rcases Bool.or_eq_true_iff.mp h with h | h <;> simp [Char.isAlphanum, Char.isAlpha, h]

theorem toNat_lt_of_mem_encode (h : c ∈ encode label) : c.toNat < initialCode := by
  rcases cases_of_mem_encode h with ⟨-, h⟩ | rfl | h
  · exact h
  · decide
  · exact toNat_lt_of_spells h

/-- An encoded label is read as the label that it was made from. -/
theorem decode?_encode (label : List Char) : decode? (encode label) = some label := by
  have hascii : (encode label).all (·.toNat < initialCode) = true :=
    List.all_eq_true.mpr fun c hc => decide_eq_true (toNat_lt_of_mem_encode hc)
  have hdigits : ∀ c ∈ (numbers label).reverse, decide (c ≠ '-') = true := fun c hc => by
    have hspells := spells_of_mem_numbers (List.mem_reverse.mp hc)
    exact decide_eq_true fun hhyphen => absurd (hhyphen ▸ hspells) (by decide)
  have hrun := run_numbers label
  unfold decode?
  rw [if_pos hascii]
  dsimp only
  rw [encode_eq]
  have htake (tail : List Char) : ((numbers label).reverse ++ tail).takeWhile (· ≠ '-') =
      (numbers label).reverse ++ tail.takeWhile (· ≠ '-') :=
    List.takeWhile_append_of_pos hdigits
  have hdrop (tail : List Char) : ((numbers label).reverse ++ tail).dropWhile (· ≠ '-') =
      tail.dropWhile (· ≠ '-') := List.dropWhile_append_of_pos hdigits
  cases hbasics : label.filter (·.toNat < initialCode) with
  | nil =>
    rw [hbasics] at hrun
    have hreverse : ([] ++ numbers label).reverse = (numbers label).reverse ++ [] := by simp
    rw [List.isEmpty_nil, if_pos rfl, hreverse, htake, hdrop, List.takeWhile_nil, List.append_nil,
      List.reverse_reverse]
    exact hrun
  | cons b basics =>
    rw [hbasics] at hrun
    have hreverse : ((b :: basics ++ ['-']) ++ numbers label).reverse =
        (numbers label).reverse ++ '-' :: (b :: basics).reverse := by simp
    rw [List.isEmpty_cons, if_neg Bool.false_ne_true, hreverse, htake, hdrop,
      List.takeWhile_cons_of_neg (by simp), List.dropWhile_cons_of_neg (by simp), List.append_nil,
      List.drop_succ_cons, List.drop_zero, List.reverse_reverse, List.reverse_reverse]
    exact hrun

end SiteScrape.Url.Punycode
