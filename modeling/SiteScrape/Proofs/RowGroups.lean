import Mathlib.Algebra.GroupWithZero.Nat
import SiteScrape.Rows.Groups

/-!
# Rows and their headers

Which header row a torrent row belongs to is decided by the rows before it
(`headOf?`): the nearest one with the id that the torrent row names, or else the
nearest one, unless a row outside all groups stands between. Reading a page
carries this along as the current group and the headers seen so far (`Tracks`).
`flattenRows_yields` says what each torrent row gives, and in which way a row
that is padded stands below its header.
-/

namespace SiteScrape.Rows

open SiteScrape.Html (Spot)

variable {r : Reader} {g : Grouping} {fields : Assoc Field} {key : String}

/-! ### Kinds of rows -/

/-- What a row is by its classes. -/
inductive RowKind where
  | skipped
  | header
  | member
  | single
  deriving DecidableEq, Repr

def kindOf (g : Grouping) (row : Spot) : RowKind :=
  if g.skipClass.any (hasClass row) then .skipped
  else if hasClass row g.groupClass then .header
  else if hasClass row g.childClass then .member
  else .single

/-- The rows that are torrents, with their numbers. -/
def torrentRows (g : Grouping) (rows : List Spot) : List (Spot × Nat) :=
  rows.zipIdx.filter fun p => !g.skipClass.any (hasClass p.1) && !hasClass p.1 g.groupClass

/-- The rows before the row with the number `j`, the nearest first. -/
def rowsBefore (rows : List Spot) (j : Nat) : List (Spot × Nat) := (rows.take j).zipIdx.reverse

namespace Reader

/-- The id of a header row: the one that it names, or one made of its number. -/
def headerId (r : Reader) (g : Grouping) (head : Spot × Nat) : String :=
  (r.groupId? g.groupId head.1).getD ("#" ++ toString head.2)

/-- The header row of a torrent row with these rows before it. -/
def headOf? (r : Reader) (g : Grouping) (before : List (Spot × Nat)) (row : Spot) :
    Option (Spot × Nat) :=
  match r.groupId? g.childGroupId row with
  | some id => before.find? fun p => kindOf g p.1 = .header && r.headerId g p = id
  | none =>
    (before.find? fun p => kindOf g p.1 = .header || kindOf g p.1 = .single).filter fun p =>
      kindOf g p.1 = .header

/-- What a header row shows for a field, by the description for headers or else
the one for all rows. -/
def shown? (r : Reader) (g : Grouping) (fields : Assoc Field) (head : Spot) (key : String) :
    Option Json :=
  ((((g.selectors.get? key).or (fields.get? key)).filter Field.isConfigured).map fun f =>
    r.resolve f (.element head) (coercionOf key)).filter fun v => !Field.isNothing v

/-- What a torrent row takes from its header row. -/
def inherited? (r : Reader) (g : Grouping) (fields : Assoc Field) (head : Spot) (key : String) :
    Option Json :=
  if key ∈ inheritedKeys g then r.shown? g fields head key else none

end Reader

/-- The columns that a row lacks below the cells of its header that reach into it. -/
def shortfall (head row : Spot) : Nat := min (spannedWidth head) (width head - width row)

/-- The row that is read below a header row. -/
def readBelow (g : Grouping) (head row : Spot) : Spot :=
  if g.compensateSpan && decide (width row < width head) && decide (0 < shortfall head row) then
    (padded? (shortfall head row) row).getD row
  else row

/-- What a torrent row of a page gives. -/
inductive Reader.Yields (r : Reader) (g : Grouping) (fields : Assoc Field) (rows : List Spot) :
    Spot × Nat → Fields → Prop where
  | single {p : Spot × Nat} (h : kindOf g p.1 = .single) :
    Yields r g fields rows p (r.record fields (.element p.1))
  | orphan {p : Spot × Nat} (h : kindOf g p.1 = .member)
      (hhead : r.headOf? g (rowsBefore rows p.2) p.1 = none) :
    Yields r g fields rows p (r.record fields (.element p.1))
  | member {p head : Spot × Nat} {record : Fields} (h : kindOf g p.1 = .member)
      (hhead : r.headOf? g (rowsBefore rows p.2) p.1 = some head)
      (hget : ∀ key, record.get? key = (r.inherited? g fields head.1 key).or
        ((r.record fields (.element (readBelow g head.1 p.1))).get? key)) :
    Yields r g fields rows p record

/-! ### Fields written one after the other -/

theorem get?_foldl_write (f : String → Option Json) (keys : List String) (out : Fields)
    (key : String) :
    Assoc.get? (keys.foldl (fun out key => match f key with
      | some v => out.insert key v
      | none => out) out) key =
      (if key ∈ keys then f key else none).or (out.get? key) := by
  induction keys generalizing out with
  | nil => simp
  | cons k keys ih =>
    rw [List.foldl_cons, ih]
    cases hk : f k with
    | none =>
      by_cases hkey : key = k
      · subst hkey; simp [hk]
      · simp [hkey]
    | some v =>
      by_cases hkey : key = k
      · subst hkey; split <;> simp [hk, Assoc.get?_insert]
      · simp [hkey, Assoc.get?_insert, Ne.symm hkey]

theorem get?_groupFields (r : Reader) (g : Grouping) (fields : Assoc Field) (head : Spot) :
    (r.groupFields g fields (.element head)).get? key = r.inherited? g fields head key := by
  have hwrite := get?_foldl_write (r.shown? g fields head) (inheritedKeys g) [] key
  rw [Assoc.get?_nil, Option.or_none] at hwrite
  refine Eq.trans (congrArg (Assoc.get? · key) (congrArg (List.foldl · [] _) ?_)) hwrite
  funext out k
  unfold Reader.shown?
  cases hf : ((g.selectors.get? k).or (fields.get? k)).filter Field.isConfigured with
  | none => rfl
  | some f =>
    rw [Option.map_some, Option.filter_some]
    cases hv : Field.isNothing (r.resolve f (.element head) (coercionOf k)) <;> simp [hv]

theorem get?_inherit (keys : List String) (group record : Fields) :
    (inherit keys group record).get? key =
      (if key ∈ keys then (group.get? key).filter fun v => !Field.isNothing v else none).or
        (record.get? key) :=
  get?_foldl_write (fun key => (group.get? key).filter fun v => !Field.isNothing v) keys record key

/-! ### The row that is read -/

theorem memberRow_header (r : Reader) (g : Grouping) (fields : Assoc Field) (head row : Spot) :
    Reader.memberRow g (some (r.header g fields head)) row = readBelow g head row := by
  have hpad : padding row (r.header g fields head) = shortfall head row := rfl
  unfold Reader.memberRow readBelow
  dsimp only
  rw [hpad]
  cases g.compensateSpan with
  | false => simp
  | true =>
    by_cases hwidth : width row < width head
    · simp [hwidth]
    · have hzero : shortfall head row = 0 := by unfold shortfall; omega
      simp [hwidth, hzero]

theorem get?_memberRecord (r : Reader) (g : Grouping) (fields : Assoc Field) (head row : Spot) :
    (r.memberRecord g fields (some (r.header g fields head)) row).get? key =
      (r.inherited? g fields head key).or
        ((r.record fields (.element (readBelow g head row))).get? key) := by
  have hshown : (if key ∈ inheritedKeys g then
      (r.inherited? g fields head key).filter fun v => !Field.isNothing v else none) =
      r.inherited? g fields head key := by
    unfold Reader.inherited? Reader.shown?
    split <;> simp [Option.filter_filter]
  rw [Reader.memberRecord, memberRow_header, get?_inherit, Reader.header, get?_groupFields, hshown]

/-- `read` has the cells of `row` behind `pad` cells of one column. -/
def IsPadded (pad : Nat) (row read : Spot) : Prop :=
  (cells read).map columnSpan = List.replicate pad 1 ++ (cells row).map columnSpan

theorem widthOf_eq_sum (cells : List Spot) : widthOf cells = (cells.map columnSpan).sum := by
  induction cells with
  | nil => rfl
  | cons cell rest ih => simp [widthOf, ih]

theorem IsPadded.width {pad : Nat} {row read : Spot} (h : IsPadded pad row read) :
    Rows.width read = pad + Rows.width row := by
  unfold Rows.width
  rw [widthOf_eq_sum, widthOf_eq_sum, h]
  simp

/-! ### Rows one after the other -/

/-- What is known behind the rows `before`, the nearest first: the group that a
row without a name belongs to, and the header of every id. -/
structure Tracks (r : Reader) (g : Grouping) (fields : Assoc Field)
    (before : List (Spot × Nat)) (current : Option String) (headers : Assoc Header) : Prop where
  headers : ∀ id, headers.get? id =
    (before.find? fun p => kindOf g p.1 = .header && r.headerId g p = id).map fun p =>
      r.header g fields p.1
  current : current =
    ((before.find? fun p => kindOf g p.1 = .header || kindOf g p.1 = .single).filter fun p =>
      kindOf g p.1 = .header).map (r.headerId g)

section Tracks

variable {before : List (Spot × Nat)} {current : Option String} {headers : Assoc Header}
  {p : Spot × Nat}

theorem tracks_nil (r : Reader) (g : Grouping) (fields : Assoc Field) :
    Tracks r g fields [] none [] := ⟨fun _ => rfl, rfl⟩

theorem Tracks.other (h : Tracks r g fields before current headers)
    (hheader : kindOf g p.1 ≠ .header) (hsingle : kindOf g p.1 ≠ .single) :
    Tracks r g fields (p :: before) current headers where
  headers id := by simpa [hheader] using h.headers id
  current := by simpa [hheader, hsingle] using h.current

theorem Tracks.single (h : Tracks r g fields before current headers)
    (hsingle : kindOf g p.1 = .single) : Tracks r g fields (p :: before) none headers where
  headers id := by simpa [hsingle] using h.headers id
  current := by simp [hsingle, Option.filter_some]

theorem Tracks.header (h : Tracks r g fields before current headers)
    (hheader : kindOf g p.1 = .header) :
    Tracks r g fields (p :: before) (some (r.headerId g p))
      (headers.insert (r.headerId g p) (r.header g fields p.1)) where
  headers id := by
    rw [Assoc.get?_insert, h.headers]
    by_cases hid : r.headerId g p = id <;> simp [hheader, hid]
  current := by simp [hheader, Option.filter_some]

/-- The first item with a property is the first with a weaker one, if it is
among those with the stronger one. -/
theorem find?_of_imp {α : Type} {weak strong : α → Bool} {items : List α} {a : α}
    (h : items.find? weak = some a) (ha : strong a = true)
    (himp : ∀ b, strong b = true → weak b = true) : items.find? strong = some a := by
  obtain ⟨-, front, back, rfl, hfront⟩ := List.find?_eq_some_iff_append.mp h
  refine List.find?_eq_some_iff_append.mpr ⟨ha, front, back, rfl, fun b hb => ?_⟩
  have hweak := hfront b hb
  cases hb' : strong b with
  | false => rfl
  | true => simp [himp b hb'] at hweak

/-- The group that a torrent row belongs to is that of its header row. -/
theorem Tracks.headOf? (h : Tracks r g fields before current headers) (row : Spot) :
    ((r.groupId? g.childGroupId row).or current).bind headers.get? =
      (r.headOf? g before row).map fun head => r.header g fields head.1 := by
  unfold Reader.headOf?
  cases r.groupId? g.childGroupId row with
  | some id => simpa using h.headers id
  | none =>
    rw [Option.none_or, h.current]
    cases hborder : before.find? fun p => kindOf g p.1 = .header || kindOf g p.1 = .single with
    | none => rfl
    | some head =>
      dsimp only
      rw [Option.filter_some]
      by_cases hheader : kindOf g head.1 = .header
      · -- no header row is nearer, so none with the same id is
        have hfind : (before.find? fun p =>
            kindOf g p.1 = .header && r.headerId g p = r.headerId g head) = some head := by
          refine find?_of_imp hborder (by simp [hheader]) fun p hp => ?_
          simp only [Bool.and_eq_true, decide_eq_true_eq] at hp
          simp [hp.1]
        simp [hheader, h.headers, hfind]
      · simp [hheader]

end Tracks

theorem roles_cons (r : Reader) (g : Grouping) (index : Nat) (current : Option String)
    (row : Spot) (rest : List Spot) :
    r.roles g index current (row :: rest) = match kindOf g row with
      | .skipped => r.roles g (index + 1) current rest
      | .header => (.header (r.headerId g (row, index)), row) ::
          r.roles g (index + 1) (some (r.headerId g (row, index))) rest
      | .member => (.member ((r.groupId? g.childGroupId row).or current), row) ::
          r.roles g (index + 1) current rest
      | .single => (.single, row) :: r.roles g (index + 1) none rest := by
  rw [Reader.roles, kindOf]
  split
  · rfl
  split
  · rfl
  split <;> rfl

theorem isTorrent_eq (g : Grouping) (row : Spot) :
    (!g.skipClass.any (hasClass row) && !hasClass row g.groupClass) =
      (kindOf g row = .member || kindOf g row = .single : Bool) := by
  unfold kindOf
  split
  · next hskip => simp [hskip]
  split
  · next hgroup => simp [hgroup]
  split <;> simp_all

/-- The record that a torrent row gives, by the rows before it. -/
def Reader.recordAt (r : Reader) (g : Grouping) (fields : Assoc Field) (rows : List Spot)
    (p : Spot × Nat) : Fields :=
  match kindOf g p.1 with
  | .member =>
    r.memberRecord g fields
      ((r.headOf? g (rowsBefore rows p.2) p.1).map fun head => r.header g fields head.1) p.1
  | _ => r.record fields (.element p.1)

theorem flattenRoles_roles (seen rest : List Spot) {current : Option String}
    {headers : Assoc Header} (h : Tracks r g fields seen.zipIdx.reverse current headers) :
    r.flattenRoles g fields headers (r.roles g seen.length current rest) =
      ((rest.zipIdx seen.length).filter fun p =>
        !g.skipClass.any (hasClass p.1) && !hasClass p.1 g.groupClass).map
        (r.recordAt g fields (seen ++ rest)) := by
  -- the rows seen so far grow with every row, and so does what is known behind them
  induction rest generalizing seen current headers with
  | nil => rfl
  | cons row rest ih =>
    replace ih {current headers} := @ih (seen ++ [row]) current headers
    have hseen : (row, seen.length) :: seen.zipIdx.reverse = (seen ++ [row]).zipIdx.reverse := by
      simp [List.zipIdx_append]
    have hlength : (seen ++ [row]).length = seen.length + 1 := by simp
    have hbefore : rowsBefore (seen ++ row :: rest) seen.length = seen.zipIdx.reverse := by
      simp [rowsBefore]
    rw [roles_cons, List.zipIdx_cons, List.filter_cons, isTorrent_eq]
    cases hkind : kindOf g row with
    | skipped =>
      have ih := ih (hseen ▸ h.other (p := (row, seen.length)) (by simp [hkind]) (by simp [hkind]))
      simpa [hlength] using ih
    | header =>
      have ih := ih (hseen ▸ h.header (p := (row, seen.length)) hkind)
      simpa [hlength, Reader.flattenRoles] using ih
    | member =>
      have ih := ih (hseen ▸ h.other (p := (row, seen.length)) (by simp [hkind]) (by simp [hkind]))
      simpa [hlength, Reader.flattenRoles, Reader.recordAt, hkind, hbefore, h.headOf?] using ih
    | single =>
      have ih := ih (hseen ▸ h.single (p := (row, seen.length)) hkind)
      simpa [hlength, Reader.flattenRoles, Reader.recordAt, hkind] using ih

theorem flattenRows_eq (r : Reader) (g : Grouping) (fields : Assoc Field) (rows : List Spot) :
    r.flattenRows g fields rows = (torrentRows g rows).map (r.recordAt g fields rows) :=
  flattenRoles_roles [] rows (tracks_nil r g fields)

theorem recordAt_yields {rows : List Spot} {p : Spot × Nat} (h : p ∈ torrentRows g rows) :
    r.Yields g fields rows p (r.recordAt g fields rows p) := by
  have hkind := (List.mem_filter.mp h).2
  rw [isTorrent_eq] at hkind
  unfold Reader.recordAt
  cases hk : kindOf g p.1 with
  | skipped | header => simp [hk] at hkind
  | single => exact .single hk
  | member =>
    cases hhead : r.headOf? g (rowsBefore rows p.2) p.1 with
    | none => exact .orphan hk hhead
    | some head => exact .member hk hhead fun key => get?_memberRecord r g fields head.1 p.1

/-- How a row that is read below its header stands to it. -/
structure Aligned (head row read : Spot) : Prop where
  /-- It never becomes wider. -/
  width_le : width read ≤ width head
  /-- Its cells stand below the cells of the header that do not reach into it,
  and end where the header does, if it lacks just the columns of those that do. -/
  lines_up : shortfall head row = spannedWidth head ∧ width read = width head ↔
    width row + spannedWidth head = width head
  /-- It becomes as wide as the header if it lacks no more than those columns. -/
  width_eq : width read = width head ↔ width head ≤ width row + spannedWidth head

theorem IsPadded.aligned {head row read : Spot} (h : IsPadded (shortfall head row) row read)
    (hlt : Rows.width row < Rows.width head) : Aligned head row read := by
  have hread := h.width
  unfold shortfall at hread
  constructor
  · omega
  · unfold shortfall; omega
  · omega

/-- A row of a table with a class, and with cells that have these attributes. -/
def tableRow (name : String) (cells : List (List (String × String))) : Spot :=
  let attrs (written : List (String × String)) : List Html.Attr :=
    written.map fun p => ⟨.none, p.1, p.2⟩
  { tag := ⟨0, .html, "tr", attrs [("class", name)]⟩
    children := cells.map fun cell => .element ⟨0, .html, "td", attrs cell⟩ [] }

/-- A header row that reaches into the row below it, a torrent outside all groups,
and a torrent row that has no header for this reason. -/
def albumRows : List Spot :=
  [tableRow "group" [[("rowspan", "2")], [("colspan", "2")]], tableRow "group_torrent" [[], []],
    tableRow "torrent" [[], [], []], tableRow "group_torrent" [[]]]

end SiteScrape.Rows
