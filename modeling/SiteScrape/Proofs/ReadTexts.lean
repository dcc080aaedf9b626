import SiteScrape.Proofs.Coercions
import SiteScrape.Proofs.KeysOnce
import SiteScrape.Proofs.RowShares

/-!
# Texts that rows are read for

Which text the rows of a share show for a field, themselves or by the group
that they stand in (`Reader.Reads`), and what of it stands in the record that
the share gives (`Reader.Gives.get?_of_reads`). `exists_torrent` leads from a
share to its torrent.
-/

namespace SiteScrape

namespace Rows

open SiteScrape.Html (Spot)

variable {r : Reader} {fields : Assoc Field} {source : Source} {key : String} {f : Field}
  {t : String} {share : Share} {record : Fields}

theorem mem_addKeys {known keys : List String} {k : String} :
    k ∈ addKeys known keys ↔ k ∈ known ∨ k ∈ keys := by
  unfold addKeys
  induction keys generalizing known with
  | nil => simp
  | cons key rest ih =>
    rw [List.foldl_cons, ih]
    split
    · next hknown =>
      have hknown : key ∈ known := by simpa using hknown
      simp only [List.mem_cons]
      constructor
      · rintro (h | h) <;> simp [h]
      · rintro (h | rfl | h) <;> simp_all
    · simp [or_assoc]

namespace Reader

/-- A field that no hook reads is in the record if it is described. -/
theorem get?_record (hhook : r.hooks.torrentFields.get? key = none)
    (hf : fields.get? key = some f) (hconf : f.isConfigured) :
    (r.record fields source).get? key = some (r.resolve f source (coercionOf key)) := by
  have hvalue : ∀ before, r.value? fields source before key =
      some (r.resolve f source (coercionOf key)) := by
    intro before
    simp [value?, hhook, hf, hconf, Option.filter_some]
  have hkey : key ∈ r.keys fields := by
    have hmem : key ∈ fields.keys := by
      by_contra hnone
      rw [Assoc.get?_eq_none_iff.mpr hnone] at hf
      cases hf
    exact mem_addKeys.mpr (.inl (mem_addKeys.mpr (.inr hmem)))
  have hwritten : ∀ keys before,
      (List.foldl (r.addField fields source) before keys).get? key =
        if key ∈ keys then some (r.resolve f source (coercionOf key)) else before.get? key := by
    intro keys
    induction keys with
    | nil => simp
    | cons k rest ih =>
      intro before
      rw [List.foldl_cons, ih]
      by_cases hk : k = key
      · subst hk
        simp [addField, hvalue, Assoc.get?_insert]
      · have hframe : (r.addField fields source before k).get? key = before.get? key := by
          unfold addField
          split <;> simp [Assoc.get?_insert, hk]
        simp [hframe, Ne.symm hk]
  rw [record, hwritten, if_pos hkey]

end Reader

/-! ### Texts that rows show -/

/-- The winning candidate of the description yields the text, and no filter
runs on it. -/
def Reader.Extracts (r : Reader) (f : Field) (source : Source) (t : String) : Prop :=
  ∃ place, f.winner? r.hooks.resolver r.context.now source = some (place, .str t) ∧
    f.filtersAt place = []

namespace Reader.Extracts

variable (h : r.Extracts f source t)
include h

theorem configured : f.isConfigured := by
  obtain ⟨place, hwin, -⟩ := h
  obtain ⟨candidate, hmem, -⟩ := List.exists_of_findSome?_eq_some hwin
  simp [Field.isConfigured, List.ne_nil_of_mem hmem]

theorem not_blank : Text.isBlankText t = false := by
  obtain ⟨place, hwin, -⟩ := h
  exact Field.not_blank_of_winner? hwin

theorem resolve_eq (c : Coercion) : r.resolve f source c = c.finish (.str t) := by
  obtain ⟨place, hwin, hfilters⟩ := h
  simp [Reader.resolve, Field.resolve, hwin, hfilters, Filter.Table.apply]

end Reader.Extracts

/-- The text is what a row shows for a field of its own. -/
def Reader.Shows (r : Reader) (fields : Assoc Field) (key : String) (t : String) (source : Source) :
    Prop :=
  ∃ f, fields.get? key = some f ∧ r.Extracts f source t

/-- The text is what a group shows for a field that its rows take from it. -/
def Reader.Hands (r : Reader) (g : Grouping) (fields : Assoc Field) (key : String) (t : String)
    (source : Source) : Prop :=
  key ∈ inheritedKeys g ∧
    ∃ f, (g.selectors.get? key).or (fields.get? key) = some f ∧ r.Extracts f source t

/-- The text is what the rows of a share show for a field, themselves or by
their group, which comes first. -/
inductive Reader.Reads (r : Reader) (fields : Assoc Field) (key : String) (t : String) :
    Share → Prop where
  | row {source : Source} (h : r.Shows fields key t source) : Reads r fields key t (.row source)
  | joined {rows : List Spot} {node : Spot} (hnode : merged? rows = some node)
      (h : r.Shows fields key t (.element node)) : Reads r fields key t (.joined rows)
  | alone {g : Grouping} {rows : List Spot} {p : Spot × Nat}
      (hhead : kindOf g p.1 = .member → r.headOf? g (rowsBefore rows p.2) p.1 = none)
      (h : r.Shows fields key t (.element p.1)) : Reads r fields key t (.member g rows p)
  | below {g : Grouping} {rows : List Spot} {p head : Spot × Nat} (hkind : kindOf g p.1 = .member)
      (hhead : r.headOf? g (rowsBefore rows p.2) p.1 = some head)
      (hnone : r.offered? g fields (.element head.1) key = none)
      (h : r.Shows fields key t (.element (readBelow g head.1 p.1))) :
      Reads r fields key t (.member g rows p)
  | header {g : Grouping} {rows : List Spot} {p head : Spot × Nat} (hkind : kindOf g p.1 = .member)
      (hhead : r.headOf? g (rowsBefore rows p.2) p.1 = some head)
      (h : r.Hands g fields key t (.element head.1)) : Reads r fields key t (.member g rows p)
  | child {g : Grouping} {group torrent : Json}
      (hnone : r.offered? g fields (.json group) key = none)
      (h : r.Shows fields key t (.json torrent)) : Reads r fields key t (.child g group torrent)
  | group {g : Grouping} {group torrent : Json} (h : r.Hands g fields key t (.json group)) :
      Reads r fields key t (.child g group torrent)

theorem Reader.Reads.not_blank (h : r.Reads fields key t share) : Text.isBlankText t = false := by
  cases h with
  | row h | joined _ h | alone _ h | below _ _ _ h | child _ h =>
    obtain ⟨f, -, hf⟩ := h
    exact hf.not_blank
  | header _ _ h | group h =>
    obtain ⟨-, f, -, hf⟩ := h
    exact hf.not_blank

theorem Reader.Reads.isFound (h : r.Reads fields key t share) : share.isFound := by
  cases h with
  | joined hnode => simp [Share.isFound, hnode]
  | _ => rfl

theorem Reader.Shows.get?_record (hhook : r.hooks.torrentFields.get? key = none)
    (h : r.Shows fields key t source) :
    (r.record fields source).get? key = some ((coercionOf key).finish (.str t)) := by
  obtain ⟨f, hf, hextracts⟩ := h
  rw [Reader.get?_record hhook hf hextracts.configured, hextracts.resolve_eq]

theorem Reader.Hands.offered? {g : Grouping} (h : r.Hands g fields key t source) :
    r.offered? g fields source key = some ((coercionOf key).finish (.str t)) := by
  obtain ⟨hkey, f, hf, hextracts⟩ := h
  simp [Reader.offered?, hkey, hf, hextracts.configured, hextracts.resolve_eq, Option.filter_some,
    isNothing_finish hextracts.not_blank]

theorem inherited?_eq_offered? (r : Reader) (g : Grouping) (fields : Assoc Field) (head : Spot)
    (key : String) : r.inherited? g fields head key = r.offered? g fields (.element head) key := rfl

/-- What a share shows for a field stands in the record that it gives. -/
theorem Reader.Gives.get?_of_reads (hhook : r.hooks.torrentFields.get? key = none)
    (hgives : r.Gives fields share record) (h : r.Reads fields key t share) :
    record.get? key = some ((coercionOf key).finish (.str t)) := by
  cases hgives with
  | row source =>
    cases h with
    | row h => exact h.get?_record hhook
  | joined hnode =>
    cases h with
    | joined hnode' h =>
      rw [hnode] at hnode'
      obtain rfl := Option.some.inj hnode'
      exact h.get?_record hhook
  | member hyields =>
    cases hyields with
    | single hkind =>
      cases h with
      | alone _ h => exact h.get?_record hhook
      | below hmember | header hmember => rw [hkind] at hmember; cases hmember
    | orphan hkind hnone =>
      cases h with
      | alone _ h => exact h.get?_record hhook
      | below _ hhead | header _ hhead => rw [hnone] at hhead; cases hhead
    | @member head _ hkind hhead hget =>
      rw [hget, inherited?_eq_offered?]
      cases h with
      | alone hnone => rw [hnone hkind] at hhead; cases hhead
      | below _ hhead' hnone h =>
        obtain rfl := Option.some.inj (hhead.symm.trans hhead')
        rw [hnone, Option.none_or, h.get?_record hhook]
      | header _ hhead' h =>
        obtain rfl := Option.some.inj (hhead.symm.trans hhead')
        rw [h.offered?, Option.some_or]
  | child hget =>
    rw [hget]
    cases h with
    | child hnone h => rw [hnone, Option.none_or, h.get?_record hhook]
    | group h => rw [h.offered?, Option.some_or]

/-! ### Records of a body -/

theorem keysOnce_record (r : Reader) (fields : Assoc Field) (source : Source) :
    Assoc.KeysOnce (r.record fields source) := by
  refine List.foldlRecOn _ _ Assoc.keysOnce_nil fun before h key _ => ?_
  unfold Reader.addField
  split
  · exact h.insert _ _
  · exact h

theorem keysOnce_inherit (keys : List String) (group : Fields) {record : Fields}
    (h : Assoc.KeysOnce record) : Assoc.KeysOnce (inherit keys group record) := by
  refine List.foldlRecOn _ _ h fun before h key _ => ?_
  split
  · exact h.insert _ _
  · exact h

theorem keysOnce_recordAt (r : Reader) (g : Grouping) (fields : Assoc Field) (rows : List Spot)
    (p : Spot × Nat) : Assoc.KeysOnce (r.recordAt g fields rows p) := by
  unfold Reader.recordAt Reader.memberRecord
  split
  · split
    · exact keysOnce_inherit _ _ (keysOnce_record ..)
    · exact keysOnce_record ..
  · exact keysOnce_record ..

theorem keysOnce_flattenItem {g : Grouping} {item : Json}
    (h : record ∈ r.flattenItem g fields item) : Assoc.KeysOnce record := by
  unfold Reader.flattenItem at h
  split at h
  · obtain ⟨torrent, -, rfl⟩ := List.mem_map.mp h
    exact keysOnce_inherit _ _ (keysOnce_record ..)
  · obtain rfl := List.mem_singleton.mp h
    exact keysOnce_record ..

/-- No key stands twice in a record. -/
theorem keysOnce_records {rows : RowSource} {body : Body}
    (h : record ∈ r.records fields rows body) : Assoc.KeysOnce record := by
  cases body with
  | page page =>
    replace h : record ∈ r.pageRecords fields rows page := h
    unfold Reader.pageRecords Reader.rowRecords at h
    split at h
    · rw [flattenRows_eq] at h
      obtain ⟨p, -, rfl⟩ := List.mem_map.mp h
      exact keysOnce_recordAt ..
    · obtain ⟨row, -, rfl⟩ := List.mem_map.mp h
      exact keysOnce_record ..
    · obtain ⟨row, -, rfl⟩ := List.mem_map.mp h
      exact keysOnce_record ..
  | json v =>
    replace h : record ∈ r.jsonRecords fields rows v := h
    unfold Reader.jsonRecords at h
    dsimp only at h
    split at h
    · obtain ⟨item, -, h⟩ := List.mem_flatMap.mp h
      exact keysOnce_flattenItem h
    · obtain ⟨item, -, rfl⟩ := List.mem_map.mp h
      exact keysOnce_record ..

variable {m : Metadata} {rows : RowSource} {body : Body} {shares : List Share} {n i : Nat}

/-- An item that is kept stands behind those before it that are kept. -/
theorem getElem?_filter_countP {α : Type} {p : α → Bool} {items : List α} {i : Nat} {a : α}
    (h : items[i]? = some a) (ha : p a) :
    (items.filter p)[(items.take i).countP p]? = some a := by
  induction items generalizing i with
  | nil => simp at h
  | cons item rest ih =>
    cases i with
    | zero =>
      obtain rfl : item = a := by simpa using h
      simp [ha]
    | succ i =>
      rw [List.getElem?_cons_succ] at h
      cases hitem : p item <;> simp [hitem, ih h]

/-- The torrent of a share of the body that is found. -/
theorem exists_torrent (fields : Assoc Field) (m : Metadata) (h : r.Divides rows body shares n)
    (hshare : shares[i]? = some share) (hfound : share.isFound) :
    ∃ torrents record, r.torrents m ⟨some rows, fields⟩ body = .ok torrents ∧
      torrents[(shares.take i).countP Share.isFound]? = some (r.torrent m record) ∧
      r.Gives (bodyFields rows fields body) share record ∧ Assoc.KeysOnce record := by
  have hgives := h.gives fields
  obtain ⟨hplace, hat⟩ := List.getElem?_eq_some_iff.mp (getElem?_filter_countP hshare hfound)
  have hplace' := hgives.length_eq ▸ hplace
  have htorrents : r.torrents m ⟨some rows, fields⟩ body =
      .ok ((r.records fields rows body).map (r.torrent m)) := by
    unfold Reader.torrents
    dsimp only
    split
    · next hnil => simp [hnil] at hplace'
    · rfl
  refine ⟨_, _, htorrents, by rw [List.getElem?_map, List.getElem?_eq_getElem hplace']; rfl, ?_,
    keysOnce_records (List.getElem_mem hplace')⟩
  rw [← hat]
  exact hgives.get hplace hplace'

end Rows

end SiteScrape
