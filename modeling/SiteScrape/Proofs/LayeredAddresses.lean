import SiteScrape.Proofs.EscapedTexts
import SiteScrape.Proofs.Occurrences
import SiteScrape.Proofs.ResolvedSites

/-!
# The addresses of all layers

Each layer may list addresses. Those of the user come first, then those of the
site and those of the schema (`ListsTexts.mergeValue`); all are made plain before
repeated ones are dropped, so of two spellings of one address the first place
counts (`plainUrls_ofStrings`). Making an address plain twice changes nothing
(`plainUrl_plainUrl`), for a plain one does not look hidden.
-/

namespace SiteScrape

open Decode Layers

namespace Definition

variable {key : String} {fields : Fields} {m : Metadata} {s : String} {texts : List String}

/-! ### Plain addresses -/

/-- Every letter thirteen places on, twice, is every letter as it was. -/
theorem rotate_rotate (c : Char) : rotate (rotate c) = c := by
  by_cases hc : c.toNat < 128
  · exact Text.forall_ascii (p := fun c => rotate (rotate c) = c) (by decide +kernel) hc
  · have hval : c.val.toNat = c.toNat := rfl
    have hother : rotate c = c := by
      simp only [rotate, Char.isLower, Char.isUpper, Bool.and_eq_true, decide_eq_true_eq, ge_iff_le,
        UInt32.le_iff_toNat_le, hval]
      simp only [Char.reduceVal, UInt32.reduceToNat]
      rw [if_neg (by omega), if_neg (by omega)]
    rw [hother, hother]

theorem toList_rotateText (s : String) : (rotateText s).toList = s.toList.map rotate :=
  String.toList_ofList

theorem rotateText_rotateText (s : String) : rotateText (rotateText s) = s := by
  have hchars : s.toList.map (rotate ∘ rotate) = s.toList :=
    (List.map_congr_left fun c _ => rotate_rotate c).trans (List.map_id _)
  rw [rotateText, toList_rotateText, List.map_map, hchars, String.ofList_toList]

/-- The text begins as hidden addresses do. -/
def IsHidden (s : String) : Prop := "uggc".toList <+: s.toList

theorem isSome_stripLead_iff {lead : String} :
    (Text.stripLead lead s).isSome = true ↔ lead.toList <+: s.toList := by
  rw [Text.stripLead, Option.isSome_map, Text.isSome_afterLead_iff]

theorem plainUrl_of_isHidden (h : IsHidden s) : plainUrl s = rotateText s :=
  if_pos (isSome_stripLead_iff.mpr h)

theorem plainUrl_of_not_isHidden (h : ¬ IsHidden s) : plainUrl s = s :=
  if_neg fun hlead => h (isSome_stripLead_iff.mp hlead)

theorem isHidden_rotateText (h : "http".toList <+: s.toList) : IsHidden (rotateText s) := by
  obtain ⟨rest, hrest⟩ := h
  refine ⟨rest.map rotate, ?_⟩
  rw [toList_rotateText, ← hrest, List.map_append]
  exact congrArg (· ++ rest.map rotate) (by decide)

/-- What is hidden begins as addresses do, once it is plain. -/
theorem not_isHidden_rotateText (h : IsHidden s) : ¬ IsHidden (rotateText s) := by
  obtain ⟨rest, hrest⟩ := h
  rintro ⟨rest', hrest'⟩
  rw [toList_rotateText, ← hrest, List.map_append] at hrest'
  have hhead : some 'u' = some (rotate 'u') := congrArg List.head? hrest'
  exact absurd hhead (by decide)

theorem plainUrl_rotateText (h : "http".toList <+: s.toList) : plainUrl (rotateText s) = s := by
  rw [plainUrl_of_isHidden (isHidden_rotateText h), rotateText_rotateText]

theorem plainUrl_plainUrl (s : String) : plainUrl (plainUrl s) = plainUrl s := by
  by_cases h : IsHidden s
  · rw [plainUrl_of_isHidden h, plainUrl_of_not_isHidden (not_isHidden_rotateText h)]
  · rw [plainUrl_of_not_isHidden h, plainUrl_of_not_isHidden h]

/-! ### Lists of addresses -/

theorem any_same_str (kept : List String) (s : String) :
    (kept.map Json.str).any (·.same (.str s)) = kept.any (s == ·) := by
  rw [List.any_map]
  congr 1
  funext t
  exact Bool.beq_comm

/-- Of texts the first of equal ones stays. -/
theorem withoutRepeats_ofStrings (texts : List String) :
    withoutRepeats (texts.map Json.str) = texts.eraseDups.map Json.str := by
  suffices ∀ kept : List String,
      ((texts.map Json.str).foldl
        (fun kept v => if kept.any (·.same v) then kept else v :: kept) (kept.map Json.str)).reverse =
      (List.eraseDupsBy.loop (· == ·) texts kept).map Json.str from this []
  induction texts with
  | nil => simp [List.eraseDupsBy.loop]
  | cons s rest ih =>
    intro kept
    rw [List.map_cons, List.foldl_cons, any_same_str, List.eraseDupsBy.loop]
    cases kept.any (s == ·) with
    | true => exact ih kept
    | false => exact ih (s :: kept)

theorem plainUrls_ofStrings (texts : List String) :
    plainUrls (.ofStrings texts) = .ofStrings (texts.map plainUrl).eraseDups := by
  have hplain : plainUrls (.ofStrings texts) =
      .arr (withoutRepeats ((texts.map plainUrl).map Json.str)) := by
    simp only [plainUrls, Json.ofStrings, List.map_map]
    rfl
  rw [hplain, withoutRepeats_ofStrings]
  rfl

/-- The keys at which addresses stand. -/
def addressKeys : List String := ["urls", "legacyUrls"]

theorem get?_addresses_complete (offset : Option String) (fields : Fields)
    (h : key ∈ addressKeys) :
    Assoc.get? (complete offset fields) key = (fields.get? key).map plainUrls := by
  simp only [addressKeys, List.mem_cons, List.not_mem_nil, or_false] at h
  unfold complete
  rcases h with rfl | rfl
  all_goals
    rw [get?_spliceCategories _ (by decide)]
    cases offset <;> simp [get?_orElse, Assoc.get?_modify]

end Definition

/-! ### Layers over each other -/

namespace Layers

variable {lower upper : Json} {layer : Option Json} {key : String} {l u : List String}

/-- The texts that a layer lists at a key; an absent layer and an absent key list none. -/
def ListsTexts (layer : Option Json) (key : String) (texts : List String) : Prop :=
  layer.bind (·.field? key) = none ∧ texts = [] ∨
    layer.bind (·.field? key) = some (.ofStrings texts)

/-- One over the other, the texts of the upper layer come first. -/
theorem ListsTexts.mergeValue (hl : IsRecord lower) (hu : IsRecord upper)
    (hkey : Rule.ofKey key ≠ .replace) (hlower : ListsTexts (some lower) key l)
    (hupper : ListsTexts (some upper) key u) :
    ListsTexts (some (mergeValue .deep lower upper)) key (u ++ l) := by
  have hview := field?_mergeValue hl hu key
  unfold ListsTexts at *
  simp only [Option.bind_some] at *
  rw [hview]
  rcases hupper with ⟨hupper, rfl⟩ | hupper
  · rw [hupper, overlay_none]
    exact hlower
  · rcases hlower with ⟨hlower, rfl⟩ | hlower
    · rw [hlower, hupper, List.append_nil]
      exact .inr rfl
    · rw [hlower, hupper, overlay_some, mergeValue_ofStrings hkey]
      exact .inr rfl

end Layers

namespace Definition

variable {schema site : Json} {user : Option Json} {offset : Option String} {m : Metadata}
  {key : String} {ofSchema ofSite ofUser : List String}

/-- The texts that all layers together list at a key. -/
theorem listsTexts_merge (hlayers : ∀ layer ∈ schema :: site :: user.toList, IsRecord layer)
    (hkey : Rule.ofKey key ≠ .replace) (hschema : ListsTexts (some schema) key ofSchema)
    (hsite : ListsTexts (some site) key ofSite) (huser : ListsTexts user key ofUser) :
    ListsTexts (some (Layers.merge schema (site :: user.toList))) key
      (ofUser ++ ofSite ++ ofSchema) := by
  have hrecord := hlayers schema List.mem_cons_self
  have hrecord' := hlayers site (List.mem_cons_of_mem _ List.mem_cons_self)
  have hdefinition := hschema.mergeValue hrecord hrecord' hkey hsite
  rw [List.append_assoc]
  cases user with
  | none =>
    rcases huser with ⟨-, rfl⟩ | huser
    · exact hdefinition
    · cases huser
  | some u => exact hdefinition.mergeValue (hrecord.mergeValue hrecord') (hlayers u (by simp)) hkey huser

/-- The list that stands at a key is, in plain form and without repeats, that of all layers. -/
theorem withDefault_addresses (hkey : key ∈ addressKeys)
    (hlayers : ∀ layer ∈ schema :: site :: user.toList, IsRecord layer)
    (hschema : ListsTexts (some schema) key ofSchema) (hsite : ListsTexts (some site) key ofSite)
    (huser : ListsTexts user key ofUser) :
    withDefault (entriesOf schema site user offset) key (list string) [] =
      some ((ofUser ++ ofSite ++ ofSchema).map plainUrl).eraseDups := by
  have hrule : Rule.ofKey key ≠ .replace := by
    have : ∀ key ∈ addressKeys, Rule.ofKey key ≠ .replace := by decide
    exact this key hkey
  have hview : Assoc.get? (entriesOf schema site user offset) key =
      ((Layers.merge schema (site :: user.toList)).field? key).map plainUrls := by
    rw [entriesOf, get?_addresses_complete offset _ hkey, get?_getD_asObject?]
  rw [withDefault, hview]
  rcases listsTexts_merge hlayers hrule hschema hsite huser with ⟨hnone, htexts⟩ | hlist
  · rw [Option.bind_some] at hnone
    rw [hnone, htexts]
    rfl
  · rw [Option.bind_some] at hlist
    rw [hlist, Option.map_some, plainUrls_ofStrings]
    exact list_ofStrings _

theorem legacyUrls_of_decode {fields : Fields} (h : Metadata.decode (.obj fields) = some m) :
    withDefault fields "legacyUrls" (list string) [] = some m.legacyUrls := by
  obtain ⟨e, he, h⟩ := Option.bind_eq_some_iff.mp h
  -- up to the addresses, and from there to the end
  iterate 7 obtain ⟨_, -, h⟩ := Option.bind_eq_some_iff.mp h
  obtain ⟨legacyUrls, hlegacy, h⟩ := Option.bind_eq_some_iff.mp h
  iterate 13 obtain ⟨_, -, h⟩ := Option.bind_eq_some_iff.mp h
  cases h
  rwa [eq_of_record he] at hlegacy

/-- What a definition is resolved to has, for its addresses and for its former
ones, those of the user, of the site and of the schema in this order, all in plain
form, each at its first place. An address is got back from its hidden form, and
making it plain again changes nothing. -/
theorem resolve_addresses (hlayers : ∀ layer ∈ schema :: site :: user.toList, IsRecord layer)
    (hm : resolve schema site user offset = .ok m) :
    (∀ key addresses, (key, addresses) ∈ [("urls", m.urls), ("legacyUrls", m.legacyUrls)] →
      ∀ ofSchema ofSite ofUser, ListsTexts (some schema) key ofSchema →
        ListsTexts (some site) key ofSite → ListsTexts user key ofUser →
        addresses = ((ofUser ++ ofSite ++ ofSchema).map plainUrl).eraseDups) ∧
    (∀ s : String, "http".toList <+: s.toList → plainUrl (rotateText s) = s) ∧
    ∀ s, plainUrl (plainUrl s) = plainUrl s := by
  obtain ⟨-, -, -, -, hdecode⟩ := resolve_eq_ok_iff.mp hm
  refine ⟨fun key addresses hkey ofSchema ofSite ofUser hschema hsite huser => ?_,
    fun s => plainUrl_rotateText, plainUrl_plainUrl⟩
  have hread : key ∈ addressKeys ∧
      withDefault (entriesOf schema site user offset) key (list string) [] = some addresses := by
    simp only [List.mem_cons, Prod.mk.injEq, List.not_mem_nil, or_false] at hkey
    rcases hkey with ⟨rfl, rfl⟩ | ⟨rfl, rfl⟩
    · exact ⟨by decide, (Metadata.readOff_of_decode hdecode).urls⟩
    · exact ⟨by decide, legacyUrls_of_decode hdecode⟩
  rw [withDefault_addresses hread.1 hlayers hschema hsite huser] at hread
  exact (Option.some.inj hread.2).symm

/-- An object that lists addresses and nothing else. -/
def listing (urls : List String) : Json := .obj [("urls", .ofStrings urls)]

/-- A site whose one address is hidden. -/
def hiddenSite : Json := .obj [("id", .str "demo"), ("urls", .ofStrings ["uggcf://qrzb.rknzcyr/"])]

/-- What the user names: the address that the site hides, and a mirror. -/
def mirrors : List String := ["https://demo.example/", "https://mirror.example/"]

theorem exists_resolve_hiddenSite : ∃ m, resolve (listing ["https://archive.example/"]) hiddenSite
    (some (listing mirrors)) none = .ok m := ⟨_, rfl⟩

/-- The hidden address of the site is that of the user. -/
theorem resolve_addresses_of_mirror :
    (∀ layer ∈ [listing ["https://archive.example/"], hiddenSite, listing mirrors],
      IsRecord layer) ∧
      "http".toList <+: "https://demo.example/".toList ∧
      plainUrl (rotateText "https://demo.example/") = "https://demo.example/" ∧
      ∃ m, resolve (listing ["https://archive.example/"]) hiddenSite (some (listing mirrors))
          none = .ok m ∧
        m.urls = mirrors ++ ["https://archive.example/"] ∧ m.legacyUrls = [] := by
  have hrecord : ∀ layer ∈ [listing ["https://archive.example/"], hiddenSite, listing mirrors],
      IsRecord layer := by
    intro layer hlayer
    simp only [List.mem_cons, List.not_mem_nil, or_false] at hlayer
    rcases hlayer with rfl | rfl | rfl
    all_goals exact ⟨_, rfl, by unfold Assoc.KeysOnce; decide⟩
  have hlead : "http".toList <+: "https://demo.example/".toList := ⟨"s://demo.example/".toList, rfl⟩
  obtain ⟨m, hm⟩ := exists_resolve_hiddenSite
  obtain ⟨haddresses, hback, -⟩ := resolve_addresses hrecord hm
  have hurls := haddresses "urls" m.urls List.mem_cons_self _ ["uggcf://qrzb.rknzcyr/"] mirrors
    (.inr rfl) (.inr rfl) (.inr rfl)
  have hlegacy := haddresses "legacyUrls" m.legacyUrls (by simp) [] [] []
    (.inl ⟨rfl, rfl⟩) (.inl ⟨rfl, rfl⟩) (.inl ⟨rfl, rfl⟩)
  exact ⟨hrecord, hlead, hback _ hlead, m, hm, hurls.trans (by decide +kernel), hlegacy⟩

end Definition

end SiteScrape
