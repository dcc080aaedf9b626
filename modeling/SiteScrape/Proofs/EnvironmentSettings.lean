import SiteScrape.Config.Reading
import SiteScrape.Proofs.EnvironmentValues
import SiteScrape.Proofs.KeyOrder
import SiteScrape.Proofs.ReadBack

/-!
# Settings named by variables

The name of a variable is cut at every underscore, also at those of the setting
itself. So a setting of one word is set by its variable, while that of a setting of
several words leads past it and changes nothing (`load_variable`). Either way a
section that the file writes as a list of its settings is lost, for a table
replaces a list.
-/

namespace SiteScrape

open Decode Layers

/-- The tables of a document, sorted. -/
def Toml.document? (text : String) : Option Json := (read? text).map Json.sortKeys

/-! ### Sections -/

/-- A section of the configuration with settings of its own. -/
inductive Section where
  | server
  | engine
  | registry
  deriving DecidableEq

variable {σ : Section} {v w : Json} {e fields : Fields} {c : Config} {k other : String}

namespace Section

def name : Section → String
  | server => "server"
  | engine => "engine"
  | registry => "registry"

/-- The names of its settings. -/
def keys : Section → List String
  | server => ["host", "port"]
  | engine => ["timeout_secs", "user_agent", "requests_per_minute"]
  | registry => ["definitions"]

/-- What a section says, as a change of the configuration. -/
def change (σ : Section) (v : Json) : Option (Config → Config) :=
  match σ with
  | server => (ServerConfig.decode v).map fun server c => { c with server }
  | engine => (EngineConfig.decode v).map fun engine c => { c with engine }
  | registry => (RegistryConfig.decode v).map fun registry c => { c with registry }

/-- The configuration with the section as it is when nothing is said. -/
def reset : Section → Config → Config
  | server => fun c => { c with server := {} }
  | engine => fun c => { c with engine := {} }
  | registry => fun c => { c with registry := {} }

theorem change_nil (σ : Section) : σ.change (.obj []) = some σ.reset := by
  cases σ <;> rfl

/-- Only tables and lists say something. -/
theorem change_eq_none (hobj : v.isObject = false) (harr : v.asArray? = none) :
    σ.change v = none := by
  cases v with
  | obj => cases hobj
  | arr => cases harr
  | null | bool | num | str => cases σ <;> rfl

end Section

/-! ### One entry written in its place -/

section Entries

variable {α : Type} {d : Decoder α} {value : α}

theorem keysOnce_place (h : Assoc.Sorted e) (k : String) (w : Json) :
    Assoc.KeysOnce (Assoc.place e k w) :=
  (h.place k w).keysOnce

theorem withDefault_place : withDefault (Assoc.place e k w) k d value = d w := by
  rw [withDefault, Assoc.get?_place, if_pos rfl]

theorem withDefault_place_of_ne (h : k ≠ other) :
    withDefault (Assoc.place e k w) other d value = withDefault e other d value := by
  rw [withDefault, withDefault, Assoc.get?_place, if_neg h]

theorem optional_place_of_ne (h : k ≠ other) :
    Decode.optional (Assoc.place e k w) other d = Decode.optional e other d :=
  withDefault_place_of_ne h

end Entries

theorem ServerConfig.decode_obj (he : Assoc.KeysOnce e) :
    ServerConfig.decode (.obj e) = (do
      let host ← withDefault e "host" (fun v => v.asString?.bind Address.read?) (.v4 0 0)
      let port ← withDefault e "port" (natBelow 0x10000) 8080
      some { host, port }) := by
  unfold ServerConfig.decode
  rw [record_of_isRecord ⟨_, rfl, he⟩]
  rfl

theorem EngineConfig.decode_obj (he : Assoc.KeysOnce e) :
    EngineConfig.decode (.obj e) = (do
      let timeout ← withDefault e "timeout_secs" uint64 30
      let userAgent ← Decode.optional e "user_agent" string
      let requestsPerMinute ← withDefault e "requests_per_minute" uint32 20
      some { timeout, userAgent, requestsPerMinute }) := by
  unfold EngineConfig.decode
  rw [record_of_isRecord ⟨_, rfl, he⟩]
  rfl

theorem RegistryConfig.decode_obj (he : Assoc.KeysOnce e) :
    RegistryConfig.decode (.obj e) = (do
      let definitions ← withDefault e "definitions" string "sites"
      some { definitions }) := by
  unfold RegistryConfig.decode
  rw [record_of_isRecord ⟨_, rfl, he⟩]
  rfl

theorem Config.decode_obj (he : Assoc.KeysOnce e) :
    Config.decode (.obj e) = (do
      let server ← withDefault e "server" ServerConfig.decode {}
      let engine ← withDefault e "engine" EngineConfig.decode {}
      let registry ← withDefault e "registry" RegistryConfig.decode {}
      let sites ← withDefault e "sites" (list SiteConfig.decode) []
      some { server, engine, registry, sites }) := by
  unfold Config.decode
  rw [record_of_isRecord ⟨_, rfl, he⟩]
  rfl

namespace Section

/-- What stands at another key says nothing. -/
theorem change_place_of_not_mem (he : Assoc.Sorted e) (hk : k ∉ σ.keys) (w : Json) :
    σ.change (.obj (Assoc.place e k w)) = σ.change (.obj e) := by
  have honce := keysOnce_place he k w
  cases σ with
  | server =>
    simp only [keys, List.mem_cons, List.not_mem_nil, or_false, not_or] at hk
    simp only [change]
    rw [ServerConfig.decode_obj honce, ServerConfig.decode_obj he.keysOnce,
      withDefault_place_of_ne hk.1, withDefault_place_of_ne hk.2]
  | engine =>
    simp only [keys, List.mem_cons, List.not_mem_nil, or_false, not_or] at hk
    simp only [change]
    rw [EngineConfig.decode_obj honce, EngineConfig.decode_obj he.keysOnce,
      withDefault_place_of_ne hk.1, optional_place_of_ne hk.2.1,
      withDefault_place_of_ne hk.2.2]
  | registry =>
    simp only [keys, List.mem_cons, List.not_mem_nil, or_false] at hk
    simp only [change]
    rw [RegistryConfig.decode_obj honce, RegistryConfig.decode_obj he.keysOnce,
      withDefault_place_of_ne hk]

/-- The configuration with one section written. -/
theorem decode_place (hs : Assoc.Sorted fields) (hc : Config.decode (.obj fields) = some c)
    (v : Json) : Config.decode (.obj (Assoc.place fields σ.name v)) = (σ.change v).map (· c) := by
  rw [Config.decode_obj hs.keysOnce] at hc
  simp only [Option.bind_eq_bind, Option.bind_eq_some_iff, Option.some.injEq] at hc
  obtain ⟨server, hserver, engine, hengine, registry, hregistry, sites, hsites, rfl⟩ := hc
  rw [Config.decode_obj (keysOnce_place hs σ.name v)]
  cases σ with
  | server =>
    rw [name, withDefault_place, withDefault_place_of_ne (by decide),
      withDefault_place_of_ne (by decide), withDefault_place_of_ne (by decide), hengine,
      hregistry, hsites, change]
    cases ServerConfig.decode v <;> rfl
  | engine =>
    rw [name, withDefault_place, withDefault_place_of_ne (by decide),
      withDefault_place_of_ne (by decide), withDefault_place_of_ne (by decide), hserver,
      hregistry, hsites, change]
    cases EngineConfig.decode v <;> rfl
  | registry =>
    rw [name, withDefault_place, withDefault_place_of_ne (by decide),
      withDefault_place_of_ne (by decide), withDefault_place_of_ne (by decide), hserver,
      hengine, hsites, change]
    cases RegistryConfig.decode v <;> rfl

theorem of_withDefault {α : Type} {d : Decoder α} {value a : α}
    (h : withDefault fields k d value = some a) (hd : d (.obj []) = some value) :
    d ((Assoc.get? fields k).getD (.obj [])) = some a := by
  unfold withDefault at h
  cases hv : Assoc.get? fields k with
  | none => rw [hv] at h; exact hd.trans h
  | some v => rw [hv] at h; exact h

/-- What stands for a section makes of the configuration what it is. -/
theorem exists_change (σ : Section) (hs : Assoc.Sorted fields)
    (hc : Config.decode (.obj fields) = some c) :
    ∃ f, σ.change ((Assoc.get? fields σ.name).getD (.obj [])) = some f ∧ f c = c := by
  rw [Config.decode_obj hs.keysOnce] at hc
  simp only [Option.bind_eq_bind, Option.bind_eq_some_iff, Option.some.injEq] at hc
  obtain ⟨server, hserver, engine, hengine, registry, hregistry, sites, -, rfl⟩ := hc
  cases σ with
  | server => exact ⟨_, congrArg (Option.map _) (of_withDefault hserver rfl), rfl⟩
  | engine => exact ⟨_, congrArg (Option.map _) (of_withDefault hengine rfl), rfl⟩
  | registry => exact ⟨_, congrArg (Option.map _) (of_withDefault hregistry rfl), rfl⟩

/-- The entries of a section that is a table. -/
def entries (σ : Section) (fields : Fields) : Fields :=
  ((Assoc.get? fields σ.name).bind Json.asObject?).getD []

/-- The document writes the section as a list of its settings. -/
def isListed (σ : Section) (document : Option Json) : Bool :=
  ((document.bind (·.field? σ.name)).bind Json.asArray?).isSome

/-- The configuration that is left of a file when a table is laid over the section: a
list gives way to it. -/
def beneath (σ : Section) (text : String) (c : Config) : Config :=
  if σ.isListed (Toml.document? text) then σ.reset c else c

theorem beneath_of_not_listed {text : String} (h : σ.isListed (Toml.document? text) = false)
    (c : Config) : σ.beneath text c = c := by
  rw [beneath, h]
  rfl

theorem sorted_entries (h : ∀ e, Assoc.get? fields σ.name = some (.obj e) → Assoc.Sorted e) :
    Assoc.Sorted (σ.entries fields) := by
  unfold entries
  match hv : Assoc.get? fields σ.name with
  | some (.obj e) => exact h e hv
  | none | some .null | some (.bool _) | some (.num _) | some (.str _) | some (.arr _) =>
    exact Assoc.sorted_nil

/-- What the entries of a section make of the configuration. -/
theorem exists_change_entries (σ : Section) (hs : Assoc.Sorted fields)
    (hc : Config.decode (.obj fields) = some c) :
    ∃ f, σ.change (.obj (σ.entries fields)) = some f ∧
      f c = if σ.isListed (some (.obj fields)) then σ.reset c else c := by
  obtain ⟨f, hf, hfc⟩ := σ.exists_change hs hc
  unfold entries isListed
  rw [Option.bind_some, Json.field?_obj]
  match hv : Assoc.get? fields σ.name with
  | none | some (.obj _) =>
    rw [hv] at hf
    exact ⟨f, hf, hfc⟩
  | some (.arr _) => exact ⟨_, change_nil σ, rfl⟩
  | some .null | some (.bool _) | some (.num _) | some (.str _) =>
    rw [hv, Option.getD_some, change_eq_none rfl rfl] at hf
    cases hf

end Section

/-! ### Settings -/

/-- A scalar setting. -/
inductive Setting where
  | host
  | port
  | timeout
  | userAgent
  | requestsPerMinute
  | definitions
  deriving DecidableEq

namespace Setting

variable {s : Setting} {f g : Config → Config}

/-- The section that it stands in. -/
def home : Setting → Section
  | host | port => .server
  | timeout | userAgent | requestsPerMinute => .engine
  | definitions => .registry

def key : Setting → String
  | host => "host"
  | port => "port"
  | timeout => "timeout_secs"
  | userAgent => "user_agent"
  | requestsPerMinute => "requests_per_minute"
  | definitions => "definitions"

/-- What a value says for the setting, as a change of the configuration. -/
def change (s : Setting) (v : Json) : Option (Config → Config) :=
  match s with
  | host => (v.asString?.bind Address.read?).map fun host c => { c with server.host := host }
  | port => (natBelow 0x10000 v).map fun port c => { c with server.port := port }
  | timeout => (uint64 v).map fun timeout c => { c with engine.timeout := timeout }
  | userAgent =>
    (nullable string v).map fun userAgent c => { c with engine.userAgent := userAgent }
  | requestsPerMinute =>
    (uint32 v).map fun rate c => { c with engine.requestsPerMinute := rate }
  | definitions =>
    (string v).map fun definitions c => { c with registry.definitions := definitions }

/-- The key has no underscore. -/
def isOneWord (s : Setting) : Bool := !s.key.toList.contains '_'

/-- What the section says with the setting written in its place. -/
theorem change_place (he : Assoc.Sorted e) (hf : s.home.change (.obj e) = some f)
    (hword : s.isOneWord = true) (w : Json) :
    s.home.change (.obj (Assoc.place e s.key w)) = (s.change w).map (· ∘ f) := by
  have honce := keysOnce_place he s.key w
  cases s with
  | timeout | userAgent | requestsPerMinute => exact absurd hword (by decide)
  | host =>
    obtain ⟨_, hserver, rfl⟩ := Option.map_eq_some_iff.mp hf
    rw [ServerConfig.decode_obj he.keysOnce] at hserver
    obtain ⟨host, -, hserver⟩ := Option.bind_eq_some_iff.mp hserver
    obtain ⟨port, hport, hserver⟩ := Option.bind_eq_some_iff.mp hserver
    cases hserver
    simp only [home, key, Section.change, change] at honce ⊢
    rw [ServerConfig.decode_obj honce, withDefault_place, withDefault_place_of_ne (by decide),
      hport]
    cases w.asString?.bind Address.read? <;> rfl
  | port =>
    obtain ⟨_, hserver, rfl⟩ := Option.map_eq_some_iff.mp hf
    rw [ServerConfig.decode_obj he.keysOnce] at hserver
    obtain ⟨host, hhost, hserver⟩ := Option.bind_eq_some_iff.mp hserver
    obtain ⟨port, -, hserver⟩ := Option.bind_eq_some_iff.mp hserver
    cases hserver
    simp only [home, key, Section.change, change] at honce ⊢
    rw [ServerConfig.decode_obj honce, withDefault_place, withDefault_place_of_ne (by decide),
      hhost]
    cases natBelow 0x10000 w <;> rfl
  | definitions =>
    obtain ⟨_, hregistry, rfl⟩ := Option.map_eq_some_iff.mp hf
    rw [RegistryConfig.decode_obj he.keysOnce] at hregistry
    obtain ⟨definitions, -, hregistry⟩ := Option.bind_eq_some_iff.mp hregistry
    cases hregistry
    simp only [home, key, Section.change, change] at honce ⊢
    rw [RegistryConfig.decode_obj honce, withDefault_place]
    cases string w <;> rfl

end Setting

/-! ### One variable -/

namespace Environment

/-- A value on top of one that may be absent. -/
def onTop (below : Option Json) (w : Json) : Json :=
  match below with
  | some below => overlay below w
  | none => w

theorem overlay_obj (lower : Fields) (k : String) (w : Json) :
    overlay (.obj lower) (.obj [(k, w)]) = .obj (Assoc.place lower k (onTop (lower.get? k) w)) :=
  rfl

/-- One entry on top of a section joins those of a table, and replaces anything else. -/
theorem onTop_section (σ : Section) (fields : Fields) (k : String) (w : Json) :
    onTop (Assoc.get? fields σ.name) (.obj [(k, w)]) =
      .obj (Assoc.place (σ.entries fields) k (onTop (Assoc.get? (σ.entries fields) k) w)) := by
  unfold Section.entries
  match Assoc.get? fields σ.name with
  | none => rfl
  | some (.obj e) => exact overlay_obj e k w
  | some .null | some (.bool _) | some (.num _) | some (.str _) | some (.arr _) => rfl

theorem overlay_scalar (h : w.isObject = false) (lower : Json) : overlay lower w = w := by
  cases w with
  | obj => cases h
  | null | bool | num | str | arr => rfl

/-- What lies on top of anything is a table just if it was one. -/
theorem isObject_overlay (lower : Json) (upper : Fields) :
    (overlay lower (.obj upper)).isObject = true := by
  cases lower <;> rfl

/-- No setting is a table, so it does not matter what a value for it lies on. -/
theorem change_onTop (s : Setting) (below : Option Json) (w : Json) :
    s.change (onTop below w) = s.change w := by
  have htable (v : Json) (hv : v.isObject = true) : s.change v = none := by
    obtain ⟨m, rfl⟩ := isObject_eq_true_iff.mp hv
    cases s <;> rfl
  cases below with
  | none => rfl
  | some below =>
    cases hw : w.isObject with
    | false => rw [onTop, overlay_scalar hw]
    | true =>
      obtain ⟨upper, rfl⟩ := isObject_eq_true_iff.mp hw
      rw [onTop, htable _ (isObject_overlay below upper), htable _ rfl]

/-- A variable whose name leads into a section puts its value at the end of the way. -/
theorem apply_variable {name : String} {path : List String} {fields : Fields}
    (hpath : path? name = some (σ.name :: k :: path)) (raw : String) :
    apply (.obj fields) [(name, raw)] =
      .obj (Assoc.place fields σ.name (.obj (Assoc.place (σ.entries fields) k
        (onTop (Assoc.get? (σ.entries fields) k) (nested (valueOf raw) path))))) := by
  have hsettings : settings [(name, raw)] =
      .obj [(σ.name, .obj [(k, nested (valueOf raw) path)])] := by
    simp only [settings, List.foldl_cons, hpath, List.foldl_nil]
    exact overlay_obj [] _ _
  rw [apply, hsettings, overlay_obj, onTop_section]

end Environment

/-! ### The file -/

namespace Toml

/-- A document is a table, and so sorted are the tables inside. -/
theorem exists_document {text : String} (h : document? text = some v) :
    ∃ fields : Fields, v = .obj fields ∧ fields.Sorted ∧
      ∀ k e, Assoc.get? fields k = some (.obj e) → Assoc.Sorted e := by
  obtain ⟨u, hu, rfl⟩ := Option.map_eq_some_iff.mp h
  obtain ⟨m, rfl⟩ : ∃ m, u = .obj m := by
    obtain ⟨_, -, hu⟩ := Option.bind_eq_some_iff.mp hu
    obtain ⟨_, -, hu⟩ := Option.bind_eq_some_iff.mp hu
    obtain ⟨_, -, hu⟩ := Option.bind_eq_some_iff.mp hu
    cases hu
    exact ⟨_, rfl⟩
  refine ⟨_, Json.sortKeys_obj m, Assoc.sorted_sorted _, fun k e he => ?_⟩
  have hmem := Assoc.mem_of_mem_sorted (Assoc.mem_of_get?_eq_some he)
  obtain ⟨⟨_, w⟩, -, heq⟩ := List.mem_map.mp hmem
  have hw : w.sortKeys = .obj e := congrArg Prod.snd heq
  have hobj : w.isObject = true := by rw [← Json.isObject_sortKeys, hw]; rfl
  obtain ⟨inner, rfl⟩ := isObject_eq_true_iff.mp hobj
  rw [Json.sortKeys_obj] at hw
  cases hw
  exact Assoc.sorted_sorted _

end Toml

/-! ### Loading -/

namespace Setting

variable {s : Setting} {g : Config → Config}

/-- The variable for the setting: section and key in capitals. -/
def variableName (s : Setting) : String :=
  Environment.lead ++ String.ofList ((s.home.name ++ "_" ++ s.key).toList.map Char.toUpper)

/-- The parts of its key between underscores. -/
def words (s : Setting) : List String := Text.splitOn "_" s.key

theorem path?_variableName (s : Setting) :
    Environment.path? s.variableName = some (s.home.name :: s.words) := by
  cases s <;> decide +kernel

theorem words_eq (s : Setting) : s.words = match s with
    | .host => ["host"]
    | .port => ["port"]
    | .definitions => ["definitions"]
    | .timeout => ["timeout", "secs"]
    | .userAgent => ["user", "agent"]
    | .requestsPerMinute => ["requests", "per", "minute"] := by
  cases s <;> decide +kernel

theorem words_of_isOneWord (h : s.isOneWord = true) : s.words = [s.key] := by
  rw [words_eq]
  cases s with
  | host | port | definitions => rfl
  | timeout | userAgent | requestsPerMinute => exact absurd h (by decide)

/-- The first word of several is the key of no setting. -/
theorem exists_words_of_not (h : s.isOneWord = false) :
    ∃ k rest, s.words = k :: rest ∧ k ∉ s.home.keys := by
  rw [words_eq]
  cases s with
  | host | port | definitions => exact absurd h (by decide)
  | timeout | userAgent | requestsPerMinute => exact ⟨_, _, rfl, by decide⟩

theorem finite_change (h : s.change w = some g) (c : Config) : (g c).finite = g c.finite := by
  cases s
  all_goals
    obtain ⟨_, -, rfl⟩ := Option.map_eq_some_iff.mp h
    rfl

end Setting

theorem Section.finite_beneath (σ : Section) (text : String) (c : Config) :
    (σ.beneath text c).finite = σ.beneath text c.finite := by
  unfold Section.beneath
  split
  · cases σ <;> rfl
  · rfl

namespace Config

variable {path text : String} {s : Setting}

theorem load_eq (path text : String) (vars : List (String × String)) :
    load path (some text) vars =
      ofJson ((Toml.document? text).map fun v => Environment.apply v vars) := by
  rw [load, Toml.document?, Option.map_map]
  rfl

theorem exists_of_load (h : load path (some text) [] = .ok c) :
    ∃ fields c₀, Toml.document? text = some (.obj fields) ∧ Assoc.Sorted fields ∧
      (∀ k e, Assoc.get? fields k = some (.obj e) → Assoc.Sorted e) ∧
      decode (.obj fields) = some c₀ ∧ c = c₀.finite := by
  rw [load_eq] at h
  cases hv : Toml.document? text with
  | none => rw [hv] at h; cases h
  | some v =>
    obtain ⟨fields, rfl, hs, hinner⟩ := Toml.exists_document hv
    have happly : Environment.apply (.obj fields) [] = .obj fields := by
      simp [Environment.apply, Environment.settings, Environment.overlay,
        Environment.overlayFields]
    rw [hv, Option.map_some, happly, ofJson, Option.bind_some] at h
    cases hc : decode (.obj fields) with
    | none => rw [hc] at h; cases h
    | some c₀ => rw [hc] at h; cases h; exact ⟨fields, c₀, rfl, hs, hinner, hc, rfl⟩

/-- A file with one variable: what the section then says decides. -/
theorem load_variable_eq (h : load path (some text) [] = .ok c) (s : Setting) (raw : String)
    {words : List String} (hwords : s.words = k :: words) :
    ∃ c₀ f below, c = c₀.finite ∧ Assoc.Sorted below ∧
      s.home.change (.obj below) = some f ∧
      f c₀ = s.home.beneath text c₀ ∧
      load path (some text) [(s.variableName, raw)] =
        match s.home.change (.obj (Assoc.place below k (Environment.onTop (Assoc.get? below k)
          (Environment.nested (Environment.valueOf raw) words)))) with
        | some f => .ok (f c₀).finite
        | none => .error .unreadable := by
  obtain ⟨fields, c₀, hdocument, hs, hinner, hc, rfl⟩ := exists_of_load h
  obtain ⟨f, hf, hfc⟩ := s.home.exists_change_entries hs hc
  rw [← hdocument] at hfc
  refine ⟨c₀, f, s.home.entries fields, rfl, Section.sorted_entries (hinner _), hf, hfc, ?_⟩
  have hpath := s.path?_variableName
  rw [hwords] at hpath
  rw [load_eq, hdocument, Option.map_some, Environment.apply_variable hpath, ofJson,
    Option.bind_some, Section.decode_place hs hc]
  cases s.home.change _ <;> rfl

/-- A setting whose key is one word is set by its variable to what the value says;
if that is nothing, the file cannot be read. -/
theorem load_oneWord (h : load path (some text) [] = .ok c) (hword : s.isOneWord = true)
    (raw : String) : load path (some text) [(s.variableName, raw)] =
      match s.change (Environment.valueOf raw) with
      | some g => .ok (g (s.home.beneath text c))
      | none => .error .unreadable := by
  obtain ⟨c₀, f, below, rfl, hs, hf, hfc, hload⟩ :=
    load_variable_eq h s raw (Setting.words_of_isOneWord hword)
  rw [hload, Setting.change_place hs hf hword, Environment.change_onTop, Environment.nested]
  cases hg : s.change (Environment.valueOf raw) with
  | none => rfl
  | some g =>
    show Except.ok (g (f c₀)).finite = _
    rw [Setting.finite_change hg, hfc, Section.finite_beneath]

/-- The variable of a setting whose key is several words says nothing. -/
theorem load_severalWords (h : load path (some text) [] = .ok c) (hword : s.isOneWord = false)
    (raw : String) : load path (some text) [(s.variableName, raw)] =
      .ok (s.home.beneath text c) := by
  obtain ⟨k, words, hwords, hother⟩ := Setting.exists_words_of_not hword
  obtain ⟨c₀, f, below, rfl, hs, hf, hfc, hload⟩ := load_variable_eq h s raw hwords
  rw [hload, Section.change_place_of_not_mem hs hother, hf]
  show Except.ok (f c₀).finite = _
  rw [hfc, Section.finite_beneath]

/-- Of the scalar settings, host, port and definitions are set by their variables,
to whatever is written for them: an address, a number in digits, a path or any text in
quotes. A value that is none for them makes the file unreadable. The variables of the
other settings change nothing, whatever they say. Either way the rest of the file stays;
but where it writes the section as a list, that gives way to the table of the variable. -/
theorem load_variable (h : load path (some text) [] = .ok c) :
    (∀ t a, Address.read? t = some a →
      load path (some text) [(Setting.host.variableName, t)] =
        .ok { Section.server.beneath text c with server.host := a }) ∧
    (∀ n < 0x10000, load path (some text) [(Setting.port.variableName, toString n)] =
      .ok { Section.server.beneath text c with server.port := n }) ∧
    (∀ t raw, raw = Environment.quote t ∨ raw = t ∧ Environment.IsPath t →
      load path (some text) [(Setting.definitions.variableName, raw)] =
        .ok { Section.registry.beneath text c with registry.definitions := t }) ∧
    (∀ s ∈ [Setting.host, .port, .definitions], ∀ raw,
      load path (some text) [(s.variableName, raw)] =
        match s.change (Environment.valueOf raw) with
        | some g => .ok (g (s.home.beneath text c))
        | none => .error .unreadable) ∧
    (∀ s ∈ [Setting.timeout, .userAgent, .requestsPerMinute], ∀ raw,
      load path (some text) [(s.variableName, raw)] = .ok (Section.engine.beneath text c)) ∧
    ∀ σ : Section, σ.isListed (Toml.document? text) = false → σ.beneath text c = c := by
  refine ⟨fun t a ha => ?_, fun n hn => ?_, fun t raw ht => ?_, fun s hs raw => ?_,
    fun s hs raw => ?_, fun σ hσ => Section.beneath_of_not_listed hσ c⟩
  · have hchange : Setting.host.change (Environment.valueOf t) =
        some fun c => { c with server.host := a } := by
      rw [Environment.valueOf_address ha]
      exact congrArg (Option.map _) ha
    rw [load_oneWord h (by decide), hchange]
    rfl
  · have hchange : Setting.port.change (Environment.valueOf (toString n)) =
        some fun c => { c with server.port := n } := by
      have hnumber : Json.ofInt n = .num (.int n (by omega) (by omega)) := by
        rw [Json.ofInt, Number.ofInt, dif_pos ⟨by omega, by omega⟩]
      rw [Environment.valueOf_toString (by omega), hnumber, Setting.change, natBelow_int hn]
      rfl
    rw [load_oneWord h (by decide), hchange]
    rfl
  · have hvalue : Environment.valueOf raw = .str t := by
      rcases ht with rfl | ⟨rfl, ht⟩
      · exact Environment.valueOf_quote t
      · exact Environment.valueOf_path ht
    have hchange : Setting.definitions.change (Environment.valueOf raw) =
        some fun c => { c with registry.definitions := t } := by
      rw [hvalue]
      rfl
    rw [load_oneWord h (by decide), hchange]
    rfl
  · have hword : ∀ s ∈ [Setting.host, .port, .definitions], s.isOneWord = true := by decide
    exact load_oneWord h (hword s hs) raw
  · have hwords : ∀ s ∈ [Setting.timeout, .userAgent, .requestsPerMinute],
        s.isOneWord = false ∧ s.home = .engine := by decide
    obtain ⟨hword, hhome⟩ := hwords s hs
    rw [← hhome]
    exact load_severalWords h hword raw

/-- A file that says something for two sections. -/
def sampleFile : String := "[server]\nport = 3000\n\n[engine]\ntimeout_secs = 10\n"

theorem load_sampleFile : ∃ c, load "config.toml" (some sampleFile) [] = .ok c ∧
    c.server.port = 3000 ∧ c.engine.timeout = 10 := by
  have hload : (load "config.toml" (some sampleFile) []).toOption.map
      (fun c => (c.server.port, c.engine.timeout)) = some (3000, 10) := by decide +kernel
  cases hc : load "config.toml" (some sampleFile) [] with
  | error => rw [hc] at hload; cases hload
  | ok c =>
    rw [hc] at hload
    simp only [Except.toOption, Option.map_some, Option.some.injEq, Prod.mk.injEq] at hload
    exact ⟨c, rfl, hload⟩

theorem not_isListed_sampleFile (σ : Section) :
    σ.isListed (Toml.document? sampleFile) = false := by
  cases σ <;> decide +kernel

/-- The port of the file gives way to that of the variable, the timeout does not. -/
theorem load_variable_of_port : ∃ c, load "config.toml" (some sampleFile) [] = .ok c ∧
    load "config.toml" (some sampleFile) [("TRACKHUB_SERVER_PORT", "9000")] =
      .ok { c with server.port := 9000 } ∧
    load "config.toml" (some sampleFile) [("TRACKHUB_ENGINE_TIMEOUT_SECS", "60")] = .ok c := by
  obtain ⟨c, hc, -, -⟩ := load_sampleFile
  obtain ⟨-, hport, -, -, hignored, hkept⟩ := load_variable hc
  have hname : Setting.port.variableName = "TRACKHUB_SERVER_PORT" := by decide +kernel
  have hname' : Setting.timeout.variableName = "TRACKHUB_ENGINE_TIMEOUT_SECS" := by decide +kernel
  have hset := hport 9000 (by decide)
  have hsame := hignored .timeout (by decide) "60"
  rw [hkept _ (not_isListed_sampleFile _), hname] at hset
  rw [hkept _ (not_isListed_sampleFile _), hname'] at hsame
  exact ⟨c, hc, hset, hsame⟩

/-- The variable for the timeout says sixty seconds, and the ten of the file stay. -/
theorem timeout_not_set : ∃ c g, load "config.toml" (some sampleFile) [] = .ok c ∧
    Setting.timeout.change (Environment.valueOf "60") = some g ∧ (g c).engine.timeout = 60 ∧
    Setting.timeout.variableName = "TRACKHUB_ENGINE_TIMEOUT_SECS" ∧
    load "config.toml" (some sampleFile) [("TRACKHUB_ENGINE_TIMEOUT_SECS", "60")] = .ok c ∧
    c.engine.timeout = 10 := by
  obtain ⟨c, hc, -, htimeout⟩ := load_sampleFile
  have hname : Setting.timeout.variableName = "TRACKHUB_ENGINE_TIMEOUT_SECS" := by decide +kernel
  have hload := load_severalWords hc (by decide : Setting.timeout.isOneWord = false) "60"
  have hkept : Section.engine.beneath sampleFile c = c :=
    Section.beneath_of_not_listed (not_isListed_sampleFile .engine) c
  rw [hname] at hload
  exact ⟨c, _, hc, rfl, rfl, hname, hload.trans (congrArg Except.ok hkept), htimeout⟩

end Config

end SiteScrape
