import SiteScrape.Proofs.WrittenNumbers

/-!
# JSON texts are read back

The text of a value is cut into the tokens of the value, and these drive the
reader to the value again, provided no more than 127 containers stand inside one
another; otherwise the text is refused (`parseEntries_text`). Only doubles may come
out differently: each as the double that its digits are read as (`asRead`).
-/

namespace SiteScrape.Json

/-! ### What a text stands for -/

/-- The number as its text is read; infinities and NaN are written as null. -/
def numberAsRead (n : Number) : Json := (bareValue? (numberText n).toList).getD .null

mutual

/-- A value as its text is read: all that may change are the doubles. -/
def asRead : Json → Json
  | .num n => numberAsRead n
  | .arr items => .arr (itemsAsRead items)
  | .obj fields => .obj (fieldsAsRead fields)
  | v => v

def itemsAsRead : List Json → List Json
  | [] => []
  | v :: rest => asRead v :: itemsAsRead rest

def fieldsAsRead : List (String × Json) → List (String × Json)
  | [] => []
  | (k, v) :: rest => (k, asRead v) :: fieldsAsRead rest

end

mutual

/-- How many containers stand inside one another. -/
def depth : Json → Nat
  | .arr items => itemsDepth items + 1
  | .obj fields => fieldsDepth fields + 1
  | _ => 0

def itemsDepth : List Json → Nat
  | [] => 0
  | v :: rest => max (depth v) (itemsDepth rest)

def fieldsDepth : List (String × Json) → Nat
  | [] => 0
  | (_, v) :: rest => max (depth v) (fieldsDepth rest)

end

theorem fieldsAsRead_eq (m : Fields) : fieldsAsRead m = m.mapValues asRead := by
  induction m with
  | nil => rfl
  | cons p rest ih => exact congrArg ((p.1, p.2.asRead) :: ·) ih

theorem itemsAsRead_eq (items : List Json) : itemsAsRead items = items.map asRead := by
  induction items with
  | nil => rfl
  | cons v rest ih => exact congrArg (v.asRead :: ·) ih

theorem fieldsDepth_le_iff {m : Fields} {n : Nat} : fieldsDepth m ≤ n ↔ ∀ p ∈ m, p.2.depth ≤ n := by
  induction m with
  | nil => simp [fieldsDepth]
  | cons p rest ih => rw [fieldsDepth, max_le_iff, ih, List.forall_mem_cons]

theorem itemsDepth_le_iff {items : List Json} {n : Nat} :
    itemsDepth items ≤ n ↔ ∀ v ∈ items, v.depth ≤ n := by
  induction items with
  | nil => simp [itemsDepth]
  | cons v rest ih => rw [itemsDepth, max_le_iff, ih, List.forall_mem_cons]

mutual

/-- The tokens of a value. -/
def tokens : Json → List Token
  | .str s => [.text s]
  | .arr items => .openArray :: (itemsTokens items ++ [.closeArray])
  | .obj fields => .openObject :: (fieldsTokens fields ++ [.closeObject])
  | .num n => [.value (numberAsRead n)]
  | v => [.value v]

def itemsTokens : List Json → List Token
  | [] => []
  | [v] => tokens v
  | v :: rest => tokens v ++ .comma :: itemsTokens rest

def fieldsTokens : List (String × Json) → List Token
  | [] => []
  | [(k, v)] => .text k :: .colon :: tokens v
  | (k, v) :: rest => .text k :: .colon :: (tokens v ++ .comma :: fieldsTokens rest)

end

/-! ### Words and quoted texts -/

variable {cs cs' : List Char} {ts ts' : List Token}

/-- The tokens so far, with those of a word that has come to its end. -/
def settled : LexState × List Token → Option (List Token)
  | (.between, ts) => some ts
  | (.bare word, ts) => (bareValue? word.reverse).map fun v => .value v :: ts
  | _ => none

/-- The characters are cut into these tokens, of which a word may end the last. -/
def Lexes (cs : List Char) (ts : List Token) : Prop :=
  ∀ before, ∃ st, cs.foldlM lexStep (.between, before) = some st ∧
    settled st = some (ts.reverse ++ before)

/-- The characters are cut into these tokens, whatever follows. -/
def LexesClosed (cs : List Char) (ts : List Token) : Prop :=
  ∀ before, cs.foldlM lexStep (.between, before) = some (.between, ts.reverse ++ before)

theorem LexesClosed.lexes (h : LexesClosed cs ts) : Lexes cs ts :=
  fun before => ⟨_, h before, rfl⟩

theorem lexesClosed_nil : LexesClosed [] [] := fun _ => rfl

theorem LexesClosed.append (h : LexesClosed cs ts) (h' : LexesClosed cs' ts') :
    LexesClosed (cs ++ cs') (ts ++ ts') := by
  intro before
  rw [List.foldlM_append, h before, List.reverse_append, List.append_assoc]
  exact h' _

theorem LexesClosed.append_lexes (h : LexesClosed cs ts) (h' : Lexes cs' ts') :
    Lexes (cs ++ cs') (ts ++ ts') := by
  intro before
  rw [List.foldlM_append, h before, List.reverse_append, List.append_assoc]
  exact h' _

/-- A character that is a token of its own. -/
structure IsMark (c : Char) (t : Token) : Prop where
  starts : ∀ ts, startToken c ts = some (.between, t :: ts)
  bare : isBareChar c = false

theorem isMark_openArray : IsMark '[' .openArray := ⟨fun _ => rfl, by decide⟩
theorem isMark_closeArray : IsMark ']' .closeArray := ⟨fun _ => rfl, by decide⟩
theorem isMark_openObject : IsMark '\x7b' .openObject := ⟨fun _ => rfl, by decide⟩
theorem isMark_closeObject : IsMark '\x7d' .closeObject := ⟨fun _ => rfl, by decide⟩
theorem isMark_colon : IsMark ':' .colon := ⟨fun _ => rfl, by decide⟩
theorem isMark_comma : IsMark ',' .comma := ⟨fun _ => rfl, by decide⟩

/-- A mark ends a word and stands for itself. -/
theorem Lexes.mark {c : Char} {t : Token} (h : Lexes cs ts) (hc : IsMark c t) :
    LexesClosed (cs ++ [c]) (ts ++ [t]) := by
  intro before
  obtain ⟨⟨st, after⟩, hfold, hsettled⟩ := h before
  have hstep : lexStep (st, after) c = some (.between, t :: (ts.reverse ++ before)) := by
    cases st with
    | between =>
      obtain rfl := Option.some.inj hsettled
      exact hc.starts _
    | bare word =>
      obtain ⟨v, hv, hafter⟩ := Option.map_eq_some_iff.mp hsettled
      simp only [lexStep, hc.bare, Bool.false_eq_true, if_false, hv, Option.bind_eq_bind,
        Option.bind_some, hc.starts, hafter]
    | text | escape | hex | pairBackslash | pairLetter => cases hsettled
  simp [List.foldlM_append, hfold, hstep]

theorem IsMark.lexesClosed {c : Char} {t : Token} (h : IsMark c t) : LexesClosed [c] [t] :=
  lexesClosed_nil.lexes.mark h

theorem startToken_word {c : Char} (h : c.isAlphanum = true ∨ c = '-') (ts : List Token) :
    startToken c ts = some (.bare [c], ts) := by
  have hword : (c.isAlphanum || decide (c = '-')) = true := by simpa using h
  unfold startToken
  split
  all_goals first
    | exact absurd hword (by decide)
    | exact if_pos hword

theorem foldlM_bare (h : ∀ c ∈ cs, isBareChar c = true) (word : List Char) (before : List Token) :
    cs.foldlM lexStep (.bare word, before) = some (.bare (cs.reverse ++ word), before) := by
  induction cs generalizing word with
  | nil => rfl
  | cons c rest ih =>
    obtain ⟨hc, hrest⟩ := List.forall_mem_cons.mp h
    have hstep : lexStep (.bare word, before) c = some (.bare (c :: word), before) := if_pos hc
    rw [List.foldlM_cons, hstep, List.reverse_cons, List.append_assoc]
    exact ih hrest _

theorem IsWord.lexes {v : Json} (h : IsWord cs v) : Lexes cs [.value v] := by
  intro before
  obtain ⟨c, rest, rfl⟩ : ∃ c rest, cs = c :: rest := List.exists_cons_of_ne_nil <| by
    rintro rfl
    cases h.value
  have hstart : lexStep (.between, before) c = some (.bare [c], before) :=
    startToken_word (h.opens c rfl) before
  have hvalue := h.value
  refine ⟨(.bare (rest.reverse ++ [c]), before), ?_, ?_⟩
  · rw [List.foldlM_cons, hstart]
    exact foldlM_bare (List.forall_mem_cons.mp h.bare).2 _ _
  · simp [settled, hvalue]

/-- The value of the digit that a number below sixteen is written with. -/
theorem hexValue?_hexDigit : ∀ n < 16, hexValue? (hexDigit n) = some n := by
  decide

/-- A character is read off its escape. -/
theorem foldlM_escapeChar (c : Char) (soFar : List Char) (before : List Token) :
    (escapeChar c).foldlM lexStep (.text soFar, before) = some (.text (c :: soFar), before) := by
  unfold escapeChar
  split_ifs with hquote hslash hn hr ht hb hf hcontrol
  · subst hquote; rfl
  · subst hslash; rfl
  · subst hn; rfl
  · subst hr; rfl
  · subst ht; rfl
  · subst hb; rfl
  · subst hf; rfl
  · have hhigh := hexValue?_hexDigit (c.toNat / 16) (by omega)
    have hlow := hexValue?_hexDigit (c.toNat % 16) (Nat.mod_lt _ (by decide))
    have hvalue : (c.toNat / 16) * 16 + c.toNat % 16 = c.toNat := Nat.div_add_mod' _ _
    have hfinish : finishHex soFar none c.toNat = some (.text (c :: soFar)) := by
      have hnot : ¬ 0xDC00 ≤ c.toNat := by omega
      have hnot' : ¬ 0xD800 ≤ c.toNat := by omega
      simp [finishHex, hnot, hnot', Char.ofNat_toNat]
    have hzero : hexValue? '0' = some 0 := by decide
    simp [lexStep, hhigh, hlow, hzero, hvalue, hfinish]
  · have hstep : lexStep (.text soFar, before) c = some (.text (c :: soFar), before) := by
      simp [lexStep, hquote, hslash, hcontrol]
    simp [hstep]

theorem foldlM_escaped (cs soFar : List Char) (before : List Token) :
    (cs.flatMap escapeChar).foldlM lexStep (.text soFar, before) =
      some (.text (cs.reverse ++ soFar), before) := by
  induction cs generalizing soFar with
  | nil => rfl
  | cons c rest ih =>
    rw [List.flatMap_cons, List.foldlM_append, foldlM_escapeChar, List.reverse_cons, List.append_assoc]
    exact ih _

theorem lexesClosed_quote (s : String) : LexesClosed (quote s).toList [.text s] := by
  intro before
  have hopen : lexStep (.between, before) '"' = some (.text [], before) := rfl
  have hclose : lexStep (.text s.toList.reverse, before) '"' = some (.between, .text s :: before) := by
    simp [lexStep]
  rw [quote, String.toList_ofList, List.cons_append, List.foldlM_cons, hopen]
  simp [List.foldlM_append, foldlM_escaped, hclose]

/-! ### The text of a value -/

theorem numberAsRead_of_number? {n m : Number} (h : number? (numberText n).toList = some m) :
    numberAsRead n = .num m := by
  rw [numberAsRead, (isWord_of_number? h).value, Option.getD_some]

theorem number?_numberText {f : Float} (h : Double.isFinite f = true) :
    ∃ g, number? (numberText (.float f)).toList = some (.float g) := by
  obtain ⟨cs, g, htext, hread⟩ := exists_number_ofFloat h
  exact ⟨g, by rw [numberText, htext, Option.getD_some, String.toList_ofList, hread]⟩

theorem numberText_of_not_finite {f : Float} (h : Double.isFinite f = false) :
    numberText (.float f) = "null" := by
  rw [Double.isFinite] at h
  rw [numberText, Decimal.ofFloat]
  cases hshape : Double.shape f with
  | finite => rw [hshape] at h; cases h
  | infinite => rfl
  | nan => rfl

/-- A whole number is read as it is. -/
theorem numberAsRead_int {n : Int} (lo : -0x8000000000000000 ≤ n) (hi : n < 0x10000000000000000) :
    numberAsRead (.int n lo hi) = .num (.int n lo hi) :=
  numberAsRead_of_number? (number?_int lo hi)

/-- A finite double is read as some double. -/
theorem exists_numberAsRead_float {f : Float} (h : Double.isFinite f = true) :
    ∃ g, numberAsRead (.float f) = .num (.float g) := by
  obtain ⟨g, hg⟩ := number?_numberText h
  exact ⟨g, numberAsRead_of_number? hg⟩

/-- The text of a number is a word for what it is read as. -/
theorem isWord_numberText (n : Number) : IsWord (numberText n).toList (numberAsRead n) := by
  suffices h : ∃ v, IsWord (numberText n).toList v by
    obtain ⟨v, hv⟩ := h
    rwa [numberAsRead, hv.value, Option.getD_some]
  cases n with
  | int n lo hi => exact ⟨_, isWord_of_number? (number?_int lo hi)⟩
  | float f =>
    cases h : Double.isFinite f with
    | true =>
      obtain ⟨g, hg⟩ := number?_numberText h
      exact ⟨_, isWord_of_number? hg⟩
    | false => exact ⟨_, numberText_of_not_finite h ▸ isWord_null⟩

mutual

theorem lexes_text : ∀ v : Json, Lexes v.text.toList v.tokens
  | .null => isWord_null.lexes
  | .bool b => (isWord_bool b).lexes
  | .num n => (isWord_numberText n).lexes
  | .str s => (lexesClosed_quote s).lexes
  | .arr items => by
    have hclosed := (isMark_openArray.lexesClosed.append_lexes (lexes_itemsText items)).mark isMark_closeArray
    simpa [text, tokens] using hclosed.lexes
  | .obj fields => by
    have hclosed := (isMark_openObject.lexesClosed.append_lexes (lexes_fieldsText fields)).mark
      isMark_closeObject
    simpa [text, tokens] using hclosed.lexes

theorem lexes_itemsText : ∀ items : List Json, Lexes (itemsText items).toList (itemsTokens items)
  | [] => lexesClosed_nil.lexes
  | [v] => lexes_text v
  | v :: w :: rest => by
    have h := ((lexes_text v).mark isMark_comma).append_lexes (lexes_itemsText (w :: rest))
    simpa [itemsText, itemsTokens] using h

theorem lexes_fieldsText : ∀ fields : List (String × Json),
    Lexes (fieldsText fields).toList (fieldsTokens fields)
  | [] => lexesClosed_nil.lexes
  | [(k, v)] => by
    have h := ((lexesClosed_quote k).lexes.mark isMark_colon).append_lexes (lexes_text v)
    simpa [fieldsText, fieldsTokens] using h
  | (k, v) :: w :: rest => by
    have h := ((((lexesClosed_quote k).lexes.mark isMark_colon).append_lexes (lexes_text v)).mark
      isMark_comma).append_lexes (lexes_fieldsText (w :: rest))
    simpa [fieldsText, fieldsTokens] using h

end

theorem lex_text (v : Json) : lex v.text.toList = some v.tokens := by
  obtain ⟨⟨st, after⟩, hfold, hsettled⟩ := lexes_text v []
  rw [List.append_nil] at hsettled
  rw [lex, hfold]
  cases st with
  | between =>
    obtain rfl := Option.some.inj hsettled
    simp
  | bare word =>
    obtain ⟨w, hw, hafter⟩ := Option.map_eq_some_iff.mp hsettled
    have hafter := congrArg List.reverse hafter
    simpa [hw] using hafter
  | text | escape | hex | pairBackslash | pairLetter => cases hsettled

/-! ### Reading the tokens -/

variable {stack : List Frame}

/-- The state, if the containers are not nested too deeply on the way to it. -/
def ReadState.within (nested : Nat) (st : ReadState) : Option ReadState :=
  if nested ≤ maxDepth then some st else none

theorem ReadState.within_of_le {nested : Nat} (h : nested ≤ maxDepth) (st : ReadState) :
    st.within nested = some st := if_pos h

theorem ReadState.within_of_lt {nested : Nat} (h : maxDepth < nested) (st : ReadState) :
    st.within nested = none := if_neg (Nat.not_le.mpr h)

/-- Of what came before and what follows the deeper counts. -/
theorem ReadState.within_bind {n m : Nat} {st st' : ReadState} {ts : List Token}
    (h : ts.foldlM step st = st'.within m) :
    (st.within n >>= fun st => ts.foldlM step st) = st'.within (max n m) := by
  by_cases hn : n ≤ maxDepth
  · rw [within_of_le hn]
    refine h.trans ?_
    simp only [within, max_le_iff, hn, true_and]
  · rw [within_of_lt (Nat.not_le.mp hn), within_of_lt (by omega)]
    rfl

theorem foldlM_scalar {t : Token} {v : Json} (hdepth : stack.length ≤ maxDepth)
    (h : ReadState.readValue stack t = some (.finish stack v)) :
    [t].foldlM ReadState.step ⟨stack, .value⟩ = (ReadState.finish stack v).within stack.length := by
  rw [ReadState.within_of_le hdepth]
  simp [ReadState.step, h]

/-- The tokens of a value begin with one that can only open a value. -/
theorem foldlM_valueOrClose (v : Json) (rest : List Token) :
    (v.tokens ++ rest).foldlM ReadState.step ⟨stack, .valueOrClose⟩ =
      (v.tokens ++ rest).foldlM ReadState.step ⟨stack, .value⟩ := by
  cases v with
  | null | bool | num | str | arr | obj => rfl

theorem exists_itemsTokens (v : Json) (rest : List Json) :
    ∃ ts, itemsTokens (v :: rest) = v.tokens ++ ts := by
  cases rest with
  | nil => exact ⟨[], (List.append_nil _).symm⟩
  | cons w rest => exact ⟨_, rfl⟩

/-- Inside an array that was just opened a value is read like behind a comma. -/
theorem foldlM_first_item (v : Json) (rest : List Json) (after : List Token) :
    (itemsTokens (v :: rest) ++ after).foldlM ReadState.step ⟨stack, .valueOrClose⟩ =
      (itemsTokens (v :: rest) ++ after).foldlM ReadState.step ⟨stack, .value⟩ := by
  obtain ⟨ts, hts⟩ := exists_itemsTokens v rest
  rw [hts, List.append_assoc]
  exact foldlM_valueOrClose v _

/-- Inside an object that was just opened a key is read like behind a comma. -/
theorem foldlM_first_field (k : String) (v : Json) (rest : List (String × Json))
    (after : List Token) :
    (fieldsTokens ((k, v) :: rest) ++ after).foldlM ReadState.step
        ⟨.object [] "" :: stack, .keyOrClose⟩ =
      (fieldsTokens ((k, v) :: rest) ++ after).foldlM ReadState.step ⟨stack, .key []⟩ := by
  cases rest with
  | nil => rfl
  | cons w rest => rfl

mutual

theorem foldlM_tokens : ∀ (v : Json) (stack : List Frame), stack.length ≤ maxDepth →
    v.tokens.foldlM ReadState.step ⟨stack, .value⟩ =
      (ReadState.finish stack v.asRead).within (stack.length + v.depth)
  | .null, _, h => foldlM_scalar h rfl
  | .bool _, _, h => foldlM_scalar h rfl
  | .num _, _, h => foldlM_scalar h rfl
  | .str _, _, h => foldlM_scalar h rfl
  | .arr items, stack, h => by
    -- the array is opened only if there is room for one more container
    rw [tokens, List.foldlM_cons, asRead, depth]
    by_cases hroom : stack.length < maxDepth
    · have hopen : ReadState.step ⟨stack, .value⟩ .openArray =
          some ⟨.array [] :: stack, .valueOrClose⟩ := if_pos hroom
      rw [hopen]
      cases items with
      | nil => exact (ReadState.within_of_le hroom _).symm
      | cons v rest =>
        exact (foldlM_first_item v rest _).trans (foldlM_itemsTokens v rest [] stack hroom)
    · have hfull : ReadState.step ⟨stack, .value⟩ .openArray = none := if_neg hroom
      rw [hfull, ReadState.within_of_lt (by omega)]
      rfl
  | .obj fields, stack, h => by
    rw [tokens, List.foldlM_cons, asRead, depth]
    by_cases hroom : stack.length < maxDepth
    · have hopen : ReadState.step ⟨stack, .value⟩ .openObject =
          some ⟨.object [] "" :: stack, .keyOrClose⟩ := if_pos hroom
      rw [hopen]
      cases fields with
      | nil => exact (ReadState.within_of_le hroom _).symm
      | cons p rest =>
        obtain ⟨k, v⟩ := p
        exact (foldlM_first_field k v rest _).trans (foldlM_fieldsTokens k v rest [] stack hroom)
    · have hfull : ReadState.step ⟨stack, .value⟩ .openObject = none := if_neg hroom
      rw [hfull, ReadState.within_of_lt (by omega)]
      rfl
termination_by v => sizeOf v

/-- The items of an open array, from any of them on, and its end. -/
theorem foldlM_itemsTokens : ∀ (v : Json) (rest before : List Json) (stack : List Frame),
    stack.length < maxDepth →
    (itemsTokens (v :: rest) ++ [Token.closeArray]).foldlM ReadState.step
        ⟨.array before :: stack, .value⟩ =
      (ReadState.finish stack (.arr (before.reverse ++ itemsAsRead (v :: rest)))).within
        (stack.length + itemsDepth (v :: rest) + 1)
  | v, [], before, stack, h => by
    have hclose : [Token.closeArray].foldlM ReadState.step
        (.finish (.array before :: stack) v.asRead) =
          (ReadState.finish stack (.arr (before.reverse ++ itemsAsRead [v]))).within 0 := by
      simp [ReadState.within, ReadState.finish, ReadState.step, itemsAsRead]
    rw [itemsTokens, List.foldlM_append, foldlM_tokens v (.array before :: stack) h]
    refine (ReadState.within_bind hclose).trans (congrArg (ReadState.within · _) ?_)
    show max (stack.length + 1 + v.depth) 0 = stack.length + max v.depth 0 + 1
    omega
  | v, w :: rest, before, stack, h => by
    have hrest : (Token.comma :: (itemsTokens (w :: rest) ++ [Token.closeArray])).foldlM ReadState.step
        (.finish (.array before :: stack) v.asRead) =
          (ReadState.finish stack (.arr ((v.asRead :: before).reverse ++ itemsAsRead (w :: rest)))).within
            (stack.length + itemsDepth (w :: rest) + 1) :=
      foldlM_itemsTokens w rest (v.asRead :: before) stack h
    have hitems : itemsTokens (v :: w :: rest) = v.tokens ++ Token.comma :: itemsTokens (w :: rest) := rfl
    rw [hitems, List.append_assoc, List.foldlM_append, foldlM_tokens v (.array before :: stack) h]
    refine (ReadState.within_bind hrest).trans ?_
    rw [List.reverse_cons, List.append_assoc]
    refine congrArg (ReadState.within · _) ?_
    show max (stack.length + 1 + v.depth) (stack.length + itemsDepth (w :: rest) + 1) =
      stack.length + max v.depth (itemsDepth (w :: rest)) + 1
    omega
termination_by v rest => sizeOf (v :: rest)

/-- The entries of an open object, from any of them on, and its end. -/
theorem foldlM_fieldsTokens : ∀ (k : String) (v : Json) (rest before : List (String × Json))
    (stack : List Frame), stack.length < maxDepth →
    (fieldsTokens ((k, v) :: rest) ++ [Token.closeObject]).foldlM ReadState.step ⟨stack, .key before⟩ =
      (ReadState.finish stack (.obj (before.reverse ++ fieldsAsRead ((k, v) :: rest)))).within
        (stack.length + fieldsDepth ((k, v) :: rest) + 1)
  | k, v, [], before, stack, h => by
    have hclose : [Token.closeObject].foldlM ReadState.step
        (.finish (.object before k :: stack) v.asRead) =
          (ReadState.finish stack (.obj (before.reverse ++ fieldsAsRead [(k, v)]))).within 0 := by
      simp [ReadState.within, ReadState.finish, ReadState.step, fieldsAsRead]
    have hkey : (fieldsTokens [(k, v)] ++ [Token.closeObject]).foldlM ReadState.step
        ⟨stack, .key before⟩ =
        (v.tokens ++ [Token.closeObject]).foldlM ReadState.step ⟨.object before k :: stack, .value⟩ := rfl
    rw [hkey, List.foldlM_append, foldlM_tokens v (.object before k :: stack) h]
    refine (ReadState.within_bind hclose).trans (congrArg (ReadState.within · _) ?_)
    show max (stack.length + 1 + v.depth) 0 = stack.length + max v.depth 0 + 1
    omega
  | k, v, (k', w) :: rest, before, stack, h => by
    have hrest : (Token.comma :: (fieldsTokens ((k', w) :: rest) ++ [Token.closeObject])).foldlM
        ReadState.step (.finish (.object before k :: stack) v.asRead) =
          (ReadState.finish stack (.obj (((k, v.asRead) :: before).reverse ++
            fieldsAsRead ((k', w) :: rest)))).within
              (stack.length + fieldsDepth ((k', w) :: rest) + 1) :=
      foldlM_fieldsTokens k' w rest ((k, v.asRead) :: before) stack h
    have hkey : (fieldsTokens ((k, v) :: (k', w) :: rest) ++ [Token.closeObject]).foldlM ReadState.step
        ⟨stack, .key before⟩ =
        (v.tokens ++ Token.comma :: fieldsTokens ((k', w) :: rest) ++ [Token.closeObject]).foldlM
          ReadState.step ⟨.object before k :: stack, .value⟩ := rfl
    rw [hkey, List.append_assoc, List.foldlM_append, foldlM_tokens v (.object before k :: stack) h]
    refine (ReadState.within_bind hrest).trans ?_
    rw [List.reverse_cons, List.append_assoc]
    refine congrArg (ReadState.within · _) ?_
    show max (stack.length + 1 + v.depth) (stack.length + fieldsDepth ((k', w) :: rest) + 1) =
      stack.length + max v.depth (fieldsDepth ((k', w) :: rest)) + 1
    omega
termination_by k v rest => sizeOf ((k, v) :: rest)

end

/-- The text of a value is read as the value, but for the last places of doubles, unless it is
nested too deeply. -/
theorem parseEntries_text (v : Json) :
    parseEntries v.text = if v.depth ≤ maxDepth then some v.asRead else none := by
  rw [parseEntries, lex_text]
  simp only [Option.bind_eq_bind, Option.bind_some]
  rw [foldlM_tokens v [] (Nat.zero_le _)]
  simp only [List.length_nil, Nat.zero_add, ReadState.within]
  split
  · rfl
  · rfl

end SiteScrape.Json
