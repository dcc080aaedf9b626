import SiteScrape.Proofs.ResolvedSites

/-!
# Hooks of the application

The hooks of an application lie on top of those of the schema, in every table
and for the login check and the authorizer (`Hooks.Over`). The one name that is
not theirs is that of the time filter: a site with an offset reads times with its
own (`Site.ownFilter?`), whatever was registered.
-/

namespace SiteScrape

namespace Assoc

variable {α : Type} {lower upper : Assoc α}

/-- `m` has at each key what `upper` has there, or else what `lower` has. -/
def IsOver (lower upper m : Assoc α) : Prop :=
  ∀ key, m.get? key = (upper.get? key).or (lower.get? key)

/-- Pairs written one after the other are on top, if no key stands twice. -/
theorem isOver_insertAll (lower : Assoc α) (h : upper.KeysOnce) :
    IsOver lower upper (lower.insertAll upper) := by
  intro key
  induction upper generalizing lower with
  | nil => rfl
  | cons p rest ih =>
    obtain ⟨k, v⟩ := p
    obtain ⟨hk, hrest⟩ := List.nodup_cons.mp h
    have hstep : (lower.insertAll ((k, v) :: rest)).get? key =
        (get? rest key).or ((lower.insert k v).get? key) := ih (lower.insert k v) hrest
    rw [hstep, get?_insert]
    by_cases hkey : k = key
    · subst hkey
      rw [get?_eq_none_iff.mpr hk]
      simp [get?]
    · simp [get?, hkey]

end Assoc

namespace Hooks

variable {lower upper : Hooks}

/-- No name stands twice in a table. -/
structure KeysOnce (h : Hooks) : Prop where
  torrentFields : h.torrentFields.KeysOnce
  accountFields : h.accountFields.KeysOnce
  processors : h.processors.KeysOnce
  transformers : h.transformers.KeysOnce
  rowFilters : h.rowFilters.KeysOnce
  filters : h.filters.KeysOnce

theorem keysOnce_empty : KeysOnce {} :=
  ⟨Assoc.keysOnce_nil, Assoc.keysOnce_nil, Assoc.keysOnce_nil, Assoc.keysOnce_nil,
    Assoc.keysOnce_nil, Assoc.keysOnce_nil⟩

/-- In everything but its filters, `h` has what `upper` has, or else what `lower` has. -/
structure Over (lower upper h : Hooks) : Prop where
  torrentFields : Assoc.IsOver lower.torrentFields upper.torrentFields h.torrentFields
  accountFields : Assoc.IsOver lower.accountFields upper.accountFields h.accountFields
  processors : Assoc.IsOver lower.processors upper.processors h.processors
  transformers : Assoc.IsOver lower.transformers upper.transformers h.transformers
  rowFilters : Assoc.IsOver lower.rowFilters upper.rowFilters h.rowFilters
  loginCheck : h.loginCheck = upper.loginCheck.or lower.loginCheck
  authorizer : h.authorizer = upper.authorizer.or lower.authorizer

theorem over_extend (lower : Hooks) (h : upper.KeysOnce) : Over lower upper (lower.extend upper) where
  torrentFields := Assoc.isOver_insertAll _ h.torrentFields
  accountFields := Assoc.isOver_insertAll _ h.accountFields
  processors := Assoc.isOver_insertAll _ h.processors
  transformers := Assoc.isOver_insertAll _ h.transformers
  rowFilters := Assoc.isOver_insertAll _ h.rowFilters
  loginCheck := rfl
  authorizer := rfl

theorem isOver_filters_extend (lower : Hooks) (h : upper.KeysOnce) :
    Assoc.IsOver lower.filters upper.filters (lower.extend upper).filters :=
  Assoc.isOver_insertAll _ h.filters

end Hooks

namespace Site

variable {definition : Json} {user : Option Json} {extra : Hooks} {s : Site}

/-- The filter that a site with an offset reads times with. -/
def ownFilter? (m : Metadata) (name : String) : Option Filter.Action :=
  if name = "parseTime" then (offset? m).map Filter.parseTime else none

/-- Making a site of metadata changes nothing of its hooks but the filters. -/
theorem over_ofMetadata {lower upper : Hooks} {h : Hooks} (m : Metadata)
    (hover : Hooks.Over lower upper h) : Hooks.Over lower upper (ofMetadata m h).hooks := by
  unfold ofMetadata
  split
  · exact { hover with }
  · exact hover

/-- Its own filter is on top of all others. -/
theorem get?_filters_ofMetadata (m : Metadata) (h : Hooks) (name : String) :
    (ofMetadata m h).hooks.filters.get? name = (ownFilter? m name).or (h.filters.get? name) := by
  unfold ofMetadata ownFilter?
  cases offset? m with
  | none =>
    dsimp only
    split <;> rfl
  | some offset =>
    dsimp only
    rw [Assoc.get?_insert]
    by_cases hname : name = "parseTime"
    · simp [hname]
    · simp [hname, Ne.symm hname]

/-- A site has the hooks of the application, and else those of the schema that its
definition names. A name of a filter stands for the own one of the site, where it
is that of the time filter and the site has an offset, or else for that of the
application, of the schema, or the built-in one. -/
theorem hooks_of_ofDefinition (hextra : extra.KeysOnce)
    (hs : ofDefinition definition user extra = .ok s) :
    ∃ schema, Schema.named? (Schema.nameIn definition) = some schema ∧
      Hooks.Over schema.hooks extra s.hooks ∧
      ∀ now name, s.hooks.filters.find? now name =
        (ownFilter? s.metadata name).or ((extra.filters.get? name).or
          ((schema.hooks.filters.get? name).or ((Filter.builtins now).get? name))) := by
  obtain ⟨schema, m, hnamed, -, rfl⟩ := ofDefinition_eq_ok_iff.mp hs
  refine ⟨schema, hnamed, over_ofMetadata m (Hooks.over_extend schema.hooks hextra),
    fun now name => ?_⟩
  unfold Filter.Table.find?
  rw [get?_filters_ofMetadata, metadata_ofMetadata,
    Hooks.isOver_filters_extend schema.hooks hextra name, Option.or_assoc, Option.or_assoc]

/-- A site that shows times of Shanghai. -/
def localDefinition : Json :=
  .obj [("id", .str "demo"), ("urls", .ofStrings ["https://demo.example/"]),
    ("timezoneOffset", .str "+0800")]

/-- Hooks for the title and for two filters, one of them that of times. -/
def titleHooks : Hooks where
  torrentFields := [("title", fun _ _ _ => .str "title")]
  filters := [("shorten", fun _ _ => .str "short"), ("parseTime", fun _ _ => .str "later")]

theorem keysOnce_titleHooks : titleHooks.KeysOnce :=
  { Hooks.keysOnce_empty with
    torrentFields := by unfold Assoc.KeysOnce; decide
    filters := by unfold Assoc.KeysOnce; decide }

theorem exists_ofDefinition_localDefinition (extra : Hooks) :
    ∃ s, ofDefinition localDefinition none extra = .ok s ∧ offset? s.metadata = some 28800 := by
  refine ⟨_, rfl, ?_⟩
  rw [metadata_ofMetadata]
  decide +kernel

theorem hooks_of_ofDefinition_of_title :
    titleHooks.KeysOnce ∧ ∃ s, ofDefinition localDefinition none titleHooks = .ok s ∧
      s.hooks.torrentFields.get? "title" = titleHooks.torrentFields.get? "title" ∧
      s.hooks.filters.find? 0 "shorten" = titleHooks.filters.get? "shorten" ∧
      s.hooks.filters.find? 0 "parseTime" = some (Filter.parseTime 28800) := by
  obtain ⟨s, hs, hoffset⟩ := exists_ofDefinition_localDefinition titleHooks
  obtain ⟨schema, -, hover, hfilters⟩ := hooks_of_ofDefinition keysOnce_titleHooks hs
  refine ⟨keysOnce_titleHooks, s, hs, hover.torrentFields "title", hfilters 0 "shorten", ?_⟩
  rw [hfilters, ownFilter?, if_pos rfl, hoffset]
  rfl

/-- A time filter of the application is not that of a site with an offset. -/
theorem registered_time_filter_unused :
    titleHooks.KeysOnce ∧ ∃ s filter, ofDefinition localDefinition none titleHooks = .ok s ∧
      titleHooks.filters.get? "parseTime" = some filter ∧
      s.hooks.filters.find? 0 "parseTime" ≠ some filter := by
  obtain ⟨s, hs, hoffset⟩ := exists_ofDefinition_localDefinition titleHooks
  refine ⟨keysOnce_titleHooks, s, _, hs, rfl, fun h => ?_⟩
  obtain ⟨schema, m, -, -, rfl⟩ := ofDefinition_eq_ok_iff.mp hs
  rw [metadata_ofMetadata] at hoffset
  rw [Filter.Table.find?, get?_filters_ofMetadata, ownFilter?, if_pos rfl, hoffset] at h
  -- what is no time stays as it is with the one, and not with the other
  have hnull : (Filter.parseTime 28800 .null [.str "%Y"]).isNull = true := by decide +kernel
  have hvalue : (Filter.parseTime 28800 .null [.str "%Y"]).isNull = false :=
    congrArg (fun filter : Filter.Action => (filter .null [.str "%Y"]).isNull) (Option.some.inj h)
  rw [hnull] at hvalue
  cases hvalue

end Site

end SiteScrape
