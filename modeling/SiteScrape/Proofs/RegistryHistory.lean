import SiteScrape.Proofs.KeyOrder
import SiteScrape.Registry

/-!
# What a registry has been told

A registry comes from a directory, or begins empty, and is told definitions one
after the other. Each is kept under its own identifier, and the last one under
an identifier counts (`find?_after`); a call that fails changes nothing. A
directory is read as if its files were told in the order of their names
(`ofListing_eq`), up to the first one that is at fault.
-/

namespace SiteScrape

namespace Assoc

variable {α : Type} {m m' : Assoc α}

theorem KeysOnce.sorted_perm (h : m.KeysOnce) : (sorted m).Perm m := by
  have hsorted := (sorted_sorted m).keysOnce
  refine (List.perm_ext_iff_of_nodup hsorted.nodup h.nodup).mpr fun ⟨key, v⟩ => ?_
  rw [← hsorted.get?_eq_some_iff, ← h.get?_eq_some_iff, h.get?_sorted]

/-- Sorting does not see the order of the pairs. -/
theorem KeysOnce.sorted_congr (h : m.KeysOnce) (hp : m'.Perm m) : sorted m' = sorted m := by
  refine (sorted_sorted m').ext (sorted_sorted m) fun key => ?_
  rw [(h.of_perm hp.symm).get?_sorted, h.get?_sorted, h.get?_perm hp.symm]

end Assoc

section Runs

variable {α β ε : Type} {f : α → Except ε β}

theorem mapM_cons_eq (f : α → Except ε β) (a : α) (rest : List α) :
    (a :: rest).mapM f = match f a with
      | .ok b => (rest.mapM f).map (b :: ·)
      | .error e => .error e := by
  rw [List.mapM_cons]
  cases f a with
  | error e => rfl
  | ok b => cases rest.mapM f <;> rfl

/-- A list is read as a whole when each of its items is. -/
theorem mapM_eq_ok_iff {items : List α} {read : List β} :
    items.mapM f = .ok read ↔ items.map f = read.map .ok := by
  induction items generalizing read with
  | nil => cases read <;> simp [pure, Except.pure]
  | cons a rest ih =>
    rw [mapM_cons_eq, List.map_cons]
    constructor
    · intro h
      cases ha : f a with
      | error e => rw [ha] at h; cases h
      | ok b =>
        rw [ha] at h
        cases hrest : rest.mapM f with
        | error e => rw [hrest] at h; cases h
        | ok bs => rw [hrest] at h; cases h; rw [ih.mp hrest]; rfl
    · intro h
      cases read with
      | nil => cases h
      | cons b bs =>
        obtain ⟨ha, hrest⟩ := List.cons.inj h
        rw [ha, ih.mpr hrest]
        rfl

/-- It fails with the first item that does. -/
theorem mapM_eq_error_iff {items : List α} {e : ε} :
    items.mapM f = .error e ↔ ∃ before a behind, items = before ++ a :: behind ∧
      (∀ b ∈ before, ∃ d, f b = .ok d) ∧ f a = .error e := by
  induction items with
  | nil => simp [pure, Except.pure]
  | cons a rest ih =>
    rw [mapM_cons_eq]
    constructor
    · intro h
      cases ha : f a with
      | error e' => rw [ha] at h; cases h; exact ⟨[], a, rest, rfl, by simp, ha⟩
      | ok b =>
        rw [ha] at h
        have hrest : rest.mapM f = .error e := by
          cases hrest : rest.mapM f with
          | error e' => rw [hrest] at h; cases h; rfl
          | ok bs => rw [hrest] at h; cases h
        obtain ⟨before, a', behind, rfl, hbefore, ha'⟩ := ih.mp hrest
        refine ⟨a :: before, a', behind, rfl, fun x hx => ?_, ha'⟩
        rcases List.mem_cons.mp hx with rfl | hx
        · exact ⟨b, ha⟩
        · exact hbefore x hx
    · rintro ⟨before, a', behind, hitems, hbefore, ha'⟩
      cases before with
      | nil => cases hitems; rw [ha']
      | cons x before =>
        cases hitems
        obtain ⟨b, hb⟩ := hbefore a List.mem_cons_self
        have hrest := ih.mpr
          ⟨before, a', behind, rfl, fun y hy => hbefore y (List.mem_cons_of_mem _ hy), ha'⟩
        rw [hb, hrest]
        rfl

end Runs

namespace Registry

variable {r : Registry} {definition : Json} {id : String}

/-! ### Calls -/

theorem idOf?_eq_some_iff : idOf? definition = some id ↔
    definition.field? "id" = some (.str id) ∧ Text.isBlankText id = false := by
  unfold idOf?
  rw [Option.filter_eq_some_iff, Option.bind_eq_some_iff]
  refine and_congr ⟨?_, fun h => ⟨_, h, rfl⟩⟩ (by simp)
  rintro ⟨v, hv, htext⟩
  cases v with
  | str s => cases htext; exact hv
  | null | bool | num | arr | obj => cases htext

/-- A call keeps the definition under its identifier; without one it fails and
leaves the registry alone. -/
theorem run_insertCall (r : Registry) (definition : Json) :
    (insertCall definition).run.run r =
      match idOf? definition with
      | some id => (.ok (), ⟨r.definitions.place id definition⟩)
      | none => (.error (.missingId inlinePlace), r) := by
  have hrun (r' : Except RegistryError Registry) (h : r.insert definition = r') :
      (insertCall definition).run.run r =
        ((liftM r' : ExceptT RegistryError (StateM Registry) Registry) >>= set).run.run r := by
    subst h
    rfl
  rw [hrun _ rfl]
  unfold insert insertFrom
  cases idOf? definition <;> rfl

theorem after_cons (r : Registry) (definition : Json) (more : List Json) :
    r.after (definition :: more) = (r.after [definition]).after more := rfl

theorem find?_after_singleton (r : Registry) (definition : Json) (id : String) :
    (r.after [definition]).find? id =
      if idOf? definition = some id then some definition else r.find? id := by
  show ((insertCall definition).run.run r).2.find? id = _
  rw [run_insertCall]
  cases hid : idOf? definition with
  | none => simp
  | some other => simp [find?, Assoc.get?_place]

/-- The last definition with an identifier. -/
def lastWith (id : String) (ds : List Json) : Option Json :=
  (ds.filter fun d => idOf? d = some id).getLast?

theorem lastWith_cons (id : String) (d : Json) (ds : List Json) :
    lastWith id (d :: ds) = (lastWith id ds).or (if idOf? d = some id then some d else none) := by
  unfold lastWith
  by_cases hd : idOf? d = some id
  · rw [List.filter_cons_of_pos (by simpa using hd), List.getLast?_cons, if_pos hd]
    cases (List.filter (fun d => idOf? d = some id) ds).getLast? <;> rfl
  · rw [List.filter_cons_of_neg (by simpa using hd), if_neg hd, Option.or_none]

/-- Under an identifier stands the last definition that was told with it. -/
theorem find?_after (r : Registry) (ds : List Json) (id : String) :
    (r.after ds).find? id = (lastWith id ds).or (r.find? id) := by
  induction ds generalizing r with
  | nil => rfl
  | cons d rest ih =>
    rw [after_cons, ih, find?_after_singleton, lastWith_cons, Option.or_assoc]
    split <;> rfl

/-- Every definition is kept under its own identifier. -/
def IsKeyed (r : Registry) : Prop :=
  ∀ id definition, r.find? id = some definition → idOf? definition = some id

theorem isKeyed_empty : IsKeyed {} := by
  intro id definition h
  cases h

theorem IsKeyed.after (h : r.IsKeyed) (ds : List Json) : (r.after ds).IsKeyed := by
  intro id definition hfind
  rw [find?_after] at hfind
  rcases Option.or_eq_some_iff.mp hfind with hlast | ⟨-, hfind⟩
  · have hmem := List.mem_of_getLast? hlast
    simpa using (List.mem_filter.mp hmem).2
  · exact h id definition hfind

/-! ### Directories -/

/-- The definition of a file, if there is nothing wrong with it. -/
def checked (file : String × Option String) : Except RegistryError Json := do
  let definition ← readDefinition file.1 file.2
  if (idOf? definition).isSome then pure definition else throw (.missingId file.1)

theorem definitionIn_eq_error {kind : FileKind} {name text : String} {e : RegistryError}
    (h : definitionIn kind name text = .error e) : e = .malformed name := by
  unfold definitionIn at h
  cases kind with
  | json => cases hread : Json.parse text <;> rw [hread] at h <;> cases h; rfl
  | toml => cases hread : (Toml.read? text).map Toml.finite <;> rw [hread] at h <;> cases h; rfl

/-- A file can be out of reach, malformed, or without an identifier; the error
names it. -/
theorem checked_eq_error_iff {file : String × Option String} {e : RegistryError} :
    checked file = .error e ↔
      (file.2 = none ∧ e = .unreadable file.1) ∨
      (file.2.isSome ∧ readDefinition file.1 file.2 = .error e ∧ e = .malformed file.1) ∨
      ∃ d, readDefinition file.1 file.2 = .ok d ∧ idOf? d = none ∧ e = .missingId file.1 := by
  obtain ⟨name, text⟩ := file
  have hchecked : checked (name, text) = match readDefinition name text with
      | .ok d => if (idOf? d).isSome then .ok d else .error (.missingId name)
      | .error e => .error e := by
    unfold checked
    cases readDefinition name text <;> rfl
  rw [hchecked]
  cases hread : readDefinition name text with
  | error e' =>
    cases text with
    | none =>
      cases hread
      simp [eq_comm]
    | some text =>
      obtain rfl := definitionIn_eq_error hread
      simp [eq_comm]
  | ok d =>
    have htext : text ≠ none := by rintro rfl; cases hread
    cases hid : idOf? d with
    | none => simpa [hid, htext] using eq_comm
    | some id => simp [hid, htext]

/-- The files of a listing that hold definitions. -/
def definitionFiles (entries : List (String × Option String)) : List (String × Option String) :=
  entries.filter fun entry => (FileKind.ofName? entry.1).isSome

theorem addFile_eq (r : Registry) (file : String × Option String) :
    r.addFile file.1 file.2 = (checked file).map fun d => r.after [d] := by
  unfold addFile checked
  cases readDefinition file.1 file.2 with
  | error e => rfl
  | ok d =>
    have hafter : r.after [d] = ((insertCall d).run.run r).2 := rfl
    rw [run_insertCall] at hafter
    show r.insertFrom file.1 d = Except.map _ (if (idOf? d).isSome then .ok d else .error _)
    unfold insertFrom
    cases hid : idOf? d with
    | none => rfl
    | some id => rw [hid] at hafter; exact congrArg Except.ok hafter.symm

/-- Files are added up to the first that is at fault. -/
theorem foldlM_addFile (r : Registry) (files : List (String × Option String)) :
    files.foldlM (fun r file => r.addFile file.1 file.2) r = (files.mapM checked).map r.after := by
  induction files generalizing r with
  | nil => rfl
  | cons file rest ih =>
    rw [List.foldlM_cons, List.mapM_cons, addFile_eq]
    cases checked file with
    | error e => rfl
    | ok d =>
      show rest.foldlM _ (r.after [d]) = _
      rw [ih]
      cases rest.mapM checked <;> rfl

theorem ofListing_eq (entries : List (String × Option String)) :
    ofListing entries =
      ((Assoc.sorted (definitionFiles entries)).mapM checked).map (Registry.after {}) :=
  foldlM_addFile {} _

/-- A directory is taken as a whole, in the order of the names of its files, or
not at all. -/
theorem load_eq_ok_iff {directory : String} {entries : List (String × Option String)} :
    load directory (some entries) = .ok r ↔ ∃ definitions,
      (Assoc.sorted (definitionFiles entries)).map checked = definitions.map .ok ∧
        r = Registry.after {} definitions := by
  show ofListing entries = .ok r ↔ _
  rw [ofListing_eq]
  constructor
  · intro h
    cases hread : (Assoc.sorted (definitionFiles entries)).mapM checked with
    | error e => rw [hread] at h; cases h
    | ok definitions =>
      rw [hread] at h
      cases h
      exact ⟨definitions, mapM_eq_ok_iff.mp hread, rfl⟩
  · rintro ⟨definitions, hread, rfl⟩
    rw [mapM_eq_ok_iff.mpr hread]
    rfl

theorem load_eq_error_iff {directory : String} {entries : List (String × Option String)}
    {e : RegistryError} :
    load directory (some entries) = .error e ↔ ∃ before file behind,
      Assoc.sorted (definitionFiles entries) = before ++ file :: behind ∧
        (∀ f ∈ before, ∃ d, checked f = .ok d) ∧ checked file = .error e := by
  show ofListing entries = .error e ↔ _
  rw [ofListing_eq, ← mapM_eq_error_iff]
  cases (Assoc.sorted (definitionFiles entries)).mapM checked with
  | error e' => exact ⟨fun h => by cases h; rfl, fun h => by cases h; rfl⟩
  | ok definitions => exact ⟨nofun, nofun⟩

theorem isKeyed_load {directory : String} {entries : Option (List (String × Option String))}
    (h : load directory entries = .ok r) : r.IsKeyed := by
  cases entries with
  | none => cases h
  | some entries =>
    obtain ⟨definitions, -, rfl⟩ := load_eq_ok_iff.mp h
    exact isKeyed_empty.after definitions

end Registry

end SiteScrape
