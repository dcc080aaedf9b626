import SiteScrape.Proofs.Doubles
import SiteScrape.Proofs.LayerView
import SiteScrape.Proofs.WrittenRecords
import SiteScrape.Record.UserInfo

/-!
# Records carried over

A record gives its fields back for the next collection. Written and read again,
texts, moments and amounts are as they were, while counts pass through doubles
(`carryCount`), which keep their first fifty-three binary places
(`carryCount_eq_iff`). `data` lists the fields with the kinds of their values, so
what is so of a kind is said once (`uint64?_json?`, `text?_json?`), and a field is
looked up by its name (`get?_toFields`).
-/

namespace SiteScrape

namespace Double

/-! ### Whole numbers through doubles -/

/-- What is read off a count that was written: counts are read by way of doubles. -/
def carryCount (n : UInt64) : UInt64 := clampUInt64 (round (ofInt n.toNat))

theorem nearestWhole_shifted (n k : Nat) : nearestWhole (n <<< k) (-(k : Int)) = n := by
  cases k with
  | zero => rfl
  | succ k =>
    show (n <<< (k + 1) + 1 <<< k) >>> (k + 1) = n
    have hp : 0 < 2 ^ k := by positivity
    have hp' : 2 ^ (k + 1) = 2 * 2 ^ k := by ring
    rw [Nat.shiftLeft_eq, Nat.shiftLeft_eq, Nat.shiftRight_eq_div_pow, hp', one_mul]
    refine Nat.div_eq_of_lt_le (Nat.le_add_right _ _) ?_
    rw [Nat.succ_mul n]
    omega

theorem exists_roundedShape (r : Nat) {k : Nat} (hk : k + 1 ≤ 971) :
    ∃ m q, roundedShape false r k = .finite false m q ∧ nearestWhole m q = r * 2 ^ k := by
  unfold roundedShape
  by_cases h0 : r = 0
  · subst h0
    exact ⟨0, -1074, if_pos rfl, by rw [Nat.zero_mul]; decide⟩
  · rw [if_neg h0]
    by_cases hcarry : r = 0x20000000000000
    · subst hcarry
      refine ⟨0x10000000000000, k + 1, by rw [if_pos rfl, if_neg (by omega)], ?_⟩
      show 0x10000000000000 <<< (k + 1) = _
      rw [Nat.shiftLeft_eq]
      ring
    · refine ⟨r, k, by rw [if_neg hcarry, if_neg (by omega)], ?_⟩
      show r <<< k = _
      rw [Nat.shiftLeft_eq]

/-- Of a whole number of 64 bits a double keeps the first fifty-three places. -/
theorem exists_shape_ofInt {n : Nat} (h : n < 2 ^ 64) :
    ∃ r m q, IsNearest r n (excess n) ∧ shape (ofInt n) = .finite false m q ∧
      nearestWhole m q = r * 2 ^ excess n := by
  by_cases hshort : n < 2 ^ 53
  · have hself : IsNearest n n (excess n) := by
      rw [excess_eq_zero hshort]
      exact ⟨by omega, by omega, fun _ => by omega⟩
    have hwhole : n * 2 ^ excess n = n := by rw [excess_eq_zero hshort, pow_zero, mul_one]
    by_cases h0 : n = 0
    · subst h0
      exact ⟨0, 0, -1074, hself, by decide +kernel, by rw [hwhole]; decide⟩
    · refine ⟨n, _, _, hself, shape_ofNat_of_lt (Nat.pos_of_ne_zero h0) hshort, ?_⟩
      rw [hwhole, nearestWhole_shifted]
  · obtain ⟨r, hr, hshape⟩ := exists_shape_ofNat (Nat.le_of_not_lt hshort)
    have hexcess : excess n + 1 ≤ 971 := by
      have := (Nat.log2_lt (by omega)).mpr h
      unfold excess
      omega
    obtain ⟨m, q, hparts, hwhole⟩ := exists_roundedShape r hexcess
    exact ⟨r, m, q, hr, hshape.trans hparts, hwhole⟩

/-- Behind its first fifty-three places the number has only zeros, or it is the greatest. -/
def IsCarried (n : UInt64) : Prop := 2 ^ excess n.toNat ∣ n.toNat ∨ n = 0xffffffffffffffff

instance : DecidablePred IsCarried :=
  fun n => inferInstanceAs (Decidable (2 ^ excess n.toNat ∣ n.toNat ∨ n = 0xffffffffffffffff))

theorem carryCount_eq_iff (n : UInt64) : carryCount n = n ↔ IsCarried n := by
  have hlt : n.toNat < 2 ^ 64 := n.toNat_lt
  obtain ⟨r, m, q, hr, hshape, hwhole⟩ := exists_shape_ofInt hlt
  have hround : round (ofInt n.toNat) = (r * 2 ^ excess n.toNat : Nat) := by
    rw [round, signed, hshape, ← hwhole]
    rfl
  have hclamp : (carryCount n).toNat = min 0xffffffffffffffff (r * 2 ^ excess n.toNat) := by
    rw [carryCount, clampUInt64, hround, Int.toNat_natCast]
    exact UInt64.toNat_ofNat_of_lt' (lt_of_le_of_lt (Nat.min_le_left _ _) (by decide))
  have hgreatest : n = 0xffffffffffffffff ↔ n.toNat = 0xffffffffffffffff := UInt64.toNat_inj.symm
  rw [← UInt64.toNat_inj, hclamp, IsCarried, hgreatest]
  constructor
  · intro h
    by_cases hmax : n.toNat = 0xffffffffffffffff
    · exact .inr hmax
    · exact .inl ⟨r, by rw [Nat.mul_comm]; omega⟩
  · rintro (hdvd | hmax)
    · rw [hr.exact hdvd]
      omega
    · have hexcess : excess n.toNat = 11 := by rw [hmax]; decide +kernel
      have hge := hr.ge
      rw [hexcess] at hge ⊢
      omega

theorem le_of_shape {f : Float} {m : Nat} {q : Int} (h : shape f = .finite false m q) :
    (0.0 : Float) ≤ f := by
  have hzero : (0.0 : Float).toModel.unpack = .zero .positive := rfl
  show decide ((0.0 : Float).toModel ≤ f.toModel) = true
  refine decide_eq_true ?_
  show Float.Model.UnpackedFloat.le (0.0 : Float).toModel.unpack f.toModel.unpack = true
  rw [shape_eq] at h
  rw [hzero]
  cases hf : f.toModel.unpack with
  | infinity s => rw [hf] at h; cases h
  | notANumber => rw [hf] at h; cases h
  | zero s => rfl
  | finite s m q hm =>
    cases s with
    | positive => rfl
    | negative => rw [hf] at h; cases h

theorem le_ofInt {n : Nat} (h : n < 2 ^ 64) : (0.0 : Float) ≤ ofInt n := by
  obtain ⟨_, _, _, -, hshape, -⟩ := exists_shape_ofInt h
  exact le_of_shape hshape

end Double

/-! ### The fields of a record by kind -/

/-- A field of a record, by the kind of its values. -/
inductive Datum where
  | text (s : Option String)
  | count (n : Option UInt64)
  | whole (n : Option Int64)
  | amount (f : Option Float)

namespace Datum

/-- What is written. -/
def json? : Datum → Option Json
  | text s => s.map .str
  | count n => n.map .ofUInt64
  | whole n => n.map .ofInt64
  | amount f => f.map .ofFloat

/-- Texts have no blanks around them and are not empty; amounts are finite. -/
def IsPlain : Datum → Prop
  | text s => ∀ t ∈ s, Text.trim t = t ∧ t ≠ ""
  | amount f => ∀ a ∈ f, Double.isFinite a = true
  | _ => True

instance : DecidablePred IsPlain
  | text s => Option.decidableForallMem s
  | amount f => Option.decidableForallMem f
  | count _ | whole _ => inferInstanceAs (Decidable True)

/-- A count, if it is one, comes through a double. -/
def IsCarried : Datum → Prop
  | count n => ∀ a ∈ n, Double.IsCarried a
  | _ => True

instance : DecidablePred IsCarried
  | count n => Option.decidableForallMem n
  | text _ | whole _ | amount _ => inferInstanceAs (Decidable True)

/-- `g` applied to a count. -/
def mapCount (g : UInt64 → UInt64) : Datum → Datum
  | count n => count (n.map g)
  | d => d

theorem text?_json? {s : Option String} (h : (text s).IsPlain) :
    Lenient.text? ((text s).json?.getD .null) = s := by
  cases s with
  | none => rfl
  | some t =>
    obtain ⟨htrim, hne⟩ := h t rfl
    show (if (Text.trim t).isEmpty then none else some (Text.trim t)) = some t
    rw [htrim, if_neg (by simpa using hne)]

theorem float?_json? {f : Option Float} (h : (amount f).IsPlain) :
    Lenient.float? ((amount f).json?.getD .null) = f := by
  cases f with
  | none => rfl
  | some a =>
    show Lenient.float? (Json.ofFloat a) = some a
    rw [Json.ofFloat, if_pos (h a rfl)]
    rfl

theorem int64?_ofInt64 (n : Int64) : Lenient.int64? (.ofInt64 n) = some n := by
  have hfits : n.toInt < 0x8000000000000000 := n.toInt_lt
  show (if n.toInt < 0x8000000000000000 then some (Int64.ofInt n.toInt) else none).or _ = _
  rw [if_pos hfits, Int64.ofInt_toInt]
  rfl

theorem int64?_json? (n : Option Int64) : Lenient.int64? ((whole n).json?.getD .null) = n := by
  cases n with
  | none => rfl
  | some n => exact int64?_ofInt64 n

theorem moment?_json? (n : Option Int64) : Lenient.moment? ((whole n).json?.getD .null) = n := by
  cases n with
  | none => rfl
  | some n => exact int64?_ofInt64 n

/-- Counts are read by way of doubles, also where they are whole numbers. -/
theorem uint64?_json? (n : Option UInt64) :
    Lenient.uint64? ((count n).json?.getD .null) = n.map Double.carryCount := by
  cases n with
  | none => rfl
  | some n =>
    show ((some (Double.ofInt n.toNat)).filter (· ≥ 0.0)).map _ = _
    rw [Option.filter_some, if_pos (decide_eq_true (Double.le_ofInt n.toNat_lt))]
    rfl

end Datum

namespace UserInfo

/-- The fields by name, each with its kind. -/
def data (u : UserInfo) : Assoc Datum :=
  [("id", .text u.id), ("name", .text u.name), ("uploaded", .count u.uploaded),
    ("downloaded", .count u.downloaded), ("trueUploaded", .count u.trueUploaded),
    ("trueDownloaded", .count u.trueDownloaded), ("ratio", .amount u.ratio),
    ("trueRatio", .amount u.trueRatio), ("levelName", .text u.levelName),
    ("levelId", .whole u.levelId), ("bonus", .amount u.bonus),
    ("bonusPerHour", .amount u.bonusPerHour), ("seedingBonus", .amount u.seedingBonus),
    ("seedingBonusPerHour", .amount u.seedingBonusPerHour), ("uploads", .count u.uploads),
    ("snatches", .count u.snatches), ("seeding", .count u.seeding),
    ("seedingSize", .count u.seedingSize), ("leeching", .count u.leeching),
    ("joinTime", .whole u.joinTime), ("lastAccessAt", .whole u.lastAccessAt),
    ("messageCount", .count u.messageCount), ("invites", .count u.invites),
    ("hnrUnsatisfied", .count u.hnrUnsatisfied), ("hnrPreWarning", .count u.hnrPreWarning)]

variable {u : UserInfo} {key : String} {d : Datum}

theorem keys_data (u : UserInfo) : u.data.keys = fieldNames := rfl

theorem keysOnce_data (u : UserInfo) : u.data.KeysOnce := by
  show fieldNames.Nodup
  decide

theorem toFields_eq (u : UserInfo) :
    u.toFields = u.data.flatMap fun e => Json.optional e.1 e.2.json? := by
  rw [List.flatMap_eq_foldl]
  rfl

/-- `g` applied to every count. -/
def mapCounts (g : UInt64 → UInt64) (u : UserInfo) : UserInfo :=
  { u with
    uploaded := u.uploaded.map g
    downloaded := u.downloaded.map g
    trueUploaded := u.trueUploaded.map g
    trueDownloaded := u.trueDownloaded.map g
    uploads := u.uploads.map g
    snatches := u.snatches.map g
    seeding := u.seeding.map g
    seedingSize := u.seedingSize.map g
    leeching := u.leeching.map g
    messageCount := u.messageCount.map g
    invites := u.invites.map g
    hnrUnsatisfied := u.hnrUnsatisfied.map g
    hnrPreWarning := u.hnrPreWarning.map g }

theorem data_mapCounts (g : UInt64 → UInt64) (u : UserInfo) :
    (u.mapCounts g).data = u.data.mapValues (Datum.mapCount g) := rfl

/-- The fields that are worked out of others. -/
def ratioNames : List String := ["ratio", "trueRatio"]

theorem data_fillRatios (u : UserInfo) : (fillRatios u).data =
    (u.data.modify "ratio" fun _ => .amount (u.ratio.or (ratioOf u.uploaded u.downloaded))).modify
      "trueRatio" fun _ => .amount (u.trueRatio.or (ratioOf u.trueUploaded u.trueDownloaded)) := by
  simp [data, fillRatios, Assoc.modify]

/-! ### Fields written and read again -/

theorem get?_toFields (u : UserInfo) (key : String) :
    u.toFields.get? key = (u.data.get? key).bind Datum.json? := by
  rw [toFields_eq, get?_flatMap_optional Datum.json? u.keysOnce_data]

/-- Nothing of the record is lost in writing it. -/
def IsPlain (u : UserInfo) : Prop := ∀ e ∈ u.data, e.2.IsPlain

instance : DecidablePred IsPlain :=
  fun u => inferInstanceAs (Decidable (∀ e ∈ u.data, e.2.IsPlain))

/-- What is read of the written fields: the record with its counts read by way of
doubles, and the ratios that follow. -/
theorem ofFields_toFields (h : u.IsPlain) (now : Int) :
    ofFields u.site u.status u.toFields now =
      fillRatios { u.mapCounts Double.carryCount with updateAt := Double.clampInt64 now } := by
  have hview {key d} (hkey : u.data.get? key = some d) :
      (u.toFields.get? key).getD .null = d.json?.getD .null := by
    rw [get?_toFields, hkey]
    rfl
  have hplain {key d} (hkey : u.data.get? key = some d) : d.IsPlain :=
    h _ (Assoc.mem_of_get?_eq_some hkey)
  have text (key s) (hkey : u.data.get? key = some (.text s)) :
      Lenient.text? ((u.toFields.get? key).getD .null) = s := by
    rw [hview hkey, Datum.text?_json? (hplain hkey)]
  have count (key n) (hkey : u.data.get? key = some (.count n)) :
      Lenient.uint64? ((u.toFields.get? key).getD .null) = n.map Double.carryCount := by
    rw [hview hkey, Datum.uint64?_json?]
  have whole (key n) (hkey : u.data.get? key = some (.whole n)) :
      Lenient.int64? ((u.toFields.get? key).getD .null) = n := by
    rw [hview hkey, Datum.int64?_json?]
  have moment (key n) (hkey : u.data.get? key = some (.whole n)) :
      Lenient.moment? ((u.toFields.get? key).getD .null) = n := by
    rw [hview hkey, Datum.moment?_json?]
  have amount (key f) (hkey : u.data.get? key = some (.amount f)) :
      Lenient.float? ((u.toFields.get? key).getD .null) = f := by
    rw [hview hkey, Datum.float?_json? (hplain hkey)]
  unfold ofFields
  simp only [text "id" _ rfl, text "name" _ rfl, text "levelName" _ rfl,
    count "uploaded" _ rfl, count "downloaded" _ rfl, count "trueUploaded" _ rfl,
    count "trueDownloaded" _ rfl, count "uploads" _ rfl, count "snatches" _ rfl,
    count "seeding" _ rfl, count "seedingSize" _ rfl, count "leeching" _ rfl,
    count "messageCount" _ rfl, count "invites" _ rfl, count "hnrUnsatisfied" _ rfl,
    count "hnrPreWarning" _ rfl, whole "levelId" _ rfl, moment "joinTime" _ rfl,
    moment "lastAccessAt" _ rfl, amount "ratio" _ rfl, amount "trueRatio" _ rfl,
    amount "bonus" _ rfl, amount "bonusPerHour" _ rfl, amount "seedingBonus" _ rfl,
    amount "seedingBonusPerHour" _ rfl]
  rfl

/-! ### What agrees -/

/-- The record that is made of the written fields. -/
def carried (u : UserInfo) (now : Int) : UserInfo := ofFields u.site u.status u.toFields now

/-- What `v` has of the fields of `u`. -/
def Agrees (u v : UserInfo) : Prop :=
  ∀ key value, u.toFields.get? key = some value → v.toFields.get? key = some value

theorem get?_data_fillRatios (u : UserInfo) (hkey : key ∉ ratioNames) :
    (fillRatios u).data.get? key = u.data.get? key := by
  have hratio : "ratio" ≠ key := by rintro rfl; exact hkey (by decide)
  have htrue : "trueRatio" ≠ key := by rintro rfl; exact hkey (by decide)
  rw [data_fillRatios, Assoc.get?_modify, if_neg htrue, Assoc.get?_modify, if_neg hratio]

theorem get?_carried (h : u.IsPlain) (now : Int) (hkey : key ∉ ratioNames) :
    (u.carried now).toFields.get? key =
      (u.data.get? key).bind fun d => (d.mapCount Double.carryCount).json? := by
  rw [get?_toFields, carried, ofFields_toFields h, get?_data_fillRatios _ hkey]
  show ((u.mapCounts Double.carryCount).data.get? key).bind _ = _
  rw [data_mapCounts, Assoc.get?_mapValues, Option.bind_map]
  rfl

theorem get?_data_ratio (hkey : key ∈ ratioNames) : ∃ f, u.data.get? key = some (.amount f) := by
  simp only [ratioNames, List.mem_cons, List.not_mem_nil, or_false] at hkey
  rcases hkey with rfl | rfl
  · exact ⟨u.ratio, rfl⟩
  · exact ⟨u.trueRatio, rfl⟩

/-- A ratio that is known is kept. -/
theorem get?_carried_ratio (h : u.IsPlain) (now : Int) {v : Json} (hkey : key ∈ ratioNames)
    (hv : u.toFields.get? key = some v) : (u.carried now).toFields.get? key = some v := by
  have known {f g : Option Float} (hf : f.map Json.ofFloat = some v) :
      (f.or g).map Json.ofFloat = some v := by
    obtain ⟨a, rfl, ha⟩ := Option.map_eq_some_iff.mp hf
    exact congrArg some ha
  rw [get?_toFields] at hv ⊢
  rw [carried, ofFields_toFields h]
  simp only [ratioNames, List.mem_cons, List.not_mem_nil, or_false] at hkey
  rcases hkey with rfl | rfl
  · exact known hv
  · exact known hv

theorem ofUInt64_inj {m n : UInt64} (h : Json.ofUInt64 m = .ofUInt64 n) : m = n := by
  have hnumber : (m.toNat : Int) = n.toNat := by
    simpa only [Json.ofUInt64, Number.ofUInt64, Json.num.injEq, Number.int.injEq] using h
  exact UInt64.toNat_inj.mp (by omega)

theorem json?_mapCount_eq_some_iff {v : Json} (hv : d.json? = some v) :
    (d.mapCount Double.carryCount).json? = some v ↔ d.IsCarried := by
  cases d with
  | count n =>
    obtain ⟨a, rfl, rfl⟩ := Option.map_eq_some_iff.mp hv
    show some (Json.ofUInt64 (Double.carryCount a)) = some (Json.ofUInt64 a) ↔ _
    constructor
    · intro hg b hb
      cases hb
      exact (Double.carryCount_eq_iff a).mp (ofUInt64_inj (Option.some.inj hg))
    · intro hcarried
      rw [(Double.carryCount_eq_iff a).mpr (hcarried a rfl)]
  | _ => exact iff_of_true hv trivial

theorem isCarried_of_json?_eq_none (h : d.json? = none) : d.IsCarried := by
  cases d with
  | count n =>
    cases n with
    | none => exact fun a ha => nomatch ha
    | some n => cases h
  | _ => trivial

theorem agrees_carried_iff (h : u.IsPlain) (now : Int) :
    u.Agrees (u.carried now) ↔ ∀ e ∈ u.data, e.2.IsCarried := by
  constructor
  · rintro hagrees ⟨key, d⟩ hmem
    have hd : u.data.get? key = some d := u.keysOnce_data.get?_eq_some_iff.mpr hmem
    by_cases hkey : key ∈ ratioNames
    · obtain ⟨f, hf⟩ := get?_data_ratio (u := u) hkey
      rw [hd] at hf
      cases hf
      trivial
    · cases hv : d.json? with
      | none => exact isCarried_of_json?_eq_none hv
      | some v =>
        have hread := hagrees key v (by rw [get?_toFields, hd, Option.bind_some, hv])
        rw [get?_carried h now hkey, hd, Option.bind_some] at hread
        exact (json?_mapCount_eq_some_iff hv).mp hread
  · intro hcounts key v hv
    by_cases hkey : key ∈ ratioNames
    · exact get?_carried_ratio h now hkey hv
    · rw [get?_toFields] at hv
      rw [get?_carried h now hkey]
      obtain ⟨d, hd, hv⟩ := Option.bind_eq_some_iff.mp hv
      rw [hd]
      exact (json?_mapCount_eq_some_iff hv).mpr (hcounts _ (Assoc.mem_of_get?_eq_some hd))

theorem get?_carried_eq_none (h : u.IsPlain) (now : Int) (hkey : key ∉ ratioNames)
    (hnone : u.toFields.get? key = none) : (u.carried now).toFields.get? key = none := by
  rw [get?_toFields] at hnone
  rw [get?_carried h now hkey]
  cases hd : u.data.get? key with
  | none => rfl
  | some d =>
    rw [hd] at hnone
    cases d with
    | count n =>
      cases n with
      | none => rfl
      | some n => cases hnone
    | _ => exact hnone

/-- A record of which nothing is lost in writing is made again of its fields, but for
its counts, which are read by way of doubles, and for ratios, which may come in. It
agrees on all fields exactly if each count has only zeros behind its first
fifty-three binary places, or is the greatest there is. -/
theorem carried_record (h : u.IsPlain) (now : Int) :
    u.carried now =
      fillRatios { u.mapCounts Double.carryCount with updateAt := Double.clampInt64 now } ∧
    (u.Agrees (u.carried now) ↔ ∀ e ∈ u.data, e.2.IsCarried) ∧
    ∀ key, u.toFields.get? key = none → (u.carried now).toFields.get? key ≠ none →
      key ∈ ratioNames := by
  refine ⟨ofFields_toFields h now, agrees_carried_iff h now, fun key hnone hadded => ?_⟩
  by_contra hkey
  exact hadded (get?_carried_eq_none h now hkey hnone)

/-- A member who has uploaded twice what was downloaded. -/
def member : UserInfo where
  site := "demo"
  status := .success
  name := some "ada"
  uploaded := some 0x8000000000000000
  downloaded := some 0x4000000000000000
  bonus := some 2.5
  joinTime := some 9007199254740993

/-- What was uploaded comes through, as it is a power of two, and the ratio comes in. -/
theorem carried_record_of_member :
    member.IsPlain ∧ member.Agrees (member.carried 1) ∧
      (member.carried 1).uploaded = some 0x8000000000000000 ∧
      (member.carried 1).joinTime = some 9007199254740993 ∧
      member.toFields.get? "ratio" = none ∧ (member.carried 1).toFields.get? "ratio" ≠ none ∧
      "ratio" ∈ ratioNames := by
  have hplain : member.IsPlain := by decide +kernel
  obtain ⟨hcarried, hagrees, hadded⟩ := carried_record hplain 1
  have hnone : member.toFields.get? "ratio" = none := by rfl
  have hratio : (member.carried 1).toFields.get? "ratio" ≠ none := by
    rw [hcarried]
    exact Option.some_ne_none _
  refine ⟨hplain, hagrees.mpr (by decide +kernel), ?_, ?_, hnone, hratio, hadded _ hnone hratio⟩
  · rw [hcarried]
    decide +kernel
  · rw [hcarried]
    rfl

/-- The least count that no double holds comes back as the one before it. -/
theorem carried_record_of_odd_count :
    let u : UserInfo := { site := "d", status := .success, uploaded := some 9007199254740993 }
    u.IsPlain ∧ (u.carried 1).uploaded = some 9007199254740992 ∧ ¬ u.Agrees (u.carried 1) := by
  intro u
  have hplain : u.IsPlain := by decide +kernel
  have huploaded : (u.carried 1).uploaded = some 9007199254740992 := by decide +kernel
  refine ⟨hplain, huploaded, ?_⟩
  rw [agrees_carried_iff hplain]
  decide +kernel

end UserInfo

end SiteScrape
