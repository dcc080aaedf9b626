/-!
# Finding, splitting and replacing texts

All of these work from left to right and without overlap: the first
occurrence wins and the search goes on behind it. An empty needle occurs
before every character and at the end.
-/

namespace SiteScrape.Text

/-- What follows `lead` in `cs`, when `cs` starts with it. -/
def afterLead : List Char → List Char → Option (List Char)
  | [], cs => some cs
  | _ :: _, [] => none
  | l :: lead, c :: cs => if l = c then afterLead lead cs else none

theorem afterLead_eq_some {lead cs rest : List Char} :
    afterLead lead cs = some rest ↔ cs = lead ++ rest := by
  induction lead generalizing cs with
  | nil => simp [afterLead, eq_comm]
  | cons l lead ih =>
    cases cs with
    | nil => simp [afterLead]
    | cons c cs => by_cases h : l = c <;> simp [afterLead, h, ih, eq_comm]

/-- The parts of `cs` around the first occurrence of `needle`. -/
def cut (needle : List Char) : List Char → Option (List Char × List Char)
  | [] => if needle.isEmpty then some ([], []) else none
  | c :: cs =>
    match afterLead needle (c :: cs) with
    | some rest => some ([], rest)
    | none => (cut needle cs).map fun (before, rest) => (c :: before, rest)

theorem append_of_cut {needle cs before rest : List Char}
    (h : cut needle cs = some (before, rest)) :
    cs = before ++ needle ++ rest := by
  induction cs generalizing before with
  | nil =>
    by_cases hn : needle.isEmpty <;> simp_all [cut]
  | cons c cs ih =>
    simp only [cut] at h
    split at h
    next r hr =>
      simp only [Option.some.injEq, Prod.mk.injEq] at h
      obtain ⟨rfl, rfl⟩ := h
      simpa using afterLead_eq_some.1 hr
    next =>
      simp only [Option.map_eq_some_iff, Prod.exists, Prod.mk.injEq] at h
      obtain ⟨b, r, hc, rfl, rfl⟩ := h
      simp [ih hc]

/-- The part behind an occurrence of a non-empty needle is shorter. -/
theorem length_lt_of_cut {needle cs before rest : List Char} (hn : needle ≠ [])
    (h : cut needle cs = some (before, rest)) : rest.length < cs.length := by
  have hl := congrArg List.length (append_of_cut h)
  have := List.length_pos_iff.2 hn
  simp only [List.length_append] at hl
  omega

/-- Whether `needle` occurs in `cs`. -/
def occurs (needle cs : List Char) : Bool :=
  (cut needle cs).isSome

/-- The parts of `cs` between the occurrences of a non-empty `needle`. -/
def splitBy (needle : List Char) (hn : needle ≠ []) (cs : List Char) : List (List Char) :=
  match _h : cut needle cs with
  | none => [cs]
  | some (before, rest) => before :: splitBy needle hn rest
termination_by cs.length
decreasing_by exact length_lt_of_cut hn _h

/-- The parts of `s` between the occurrences of `separator`; an empty separator
cuts at every place between characters and at both ends. -/
def splitOn (separator s : String) : List String :=
  if h : separator.toList = [] then
    "" :: s.toList.map String.singleton ++ [""]
  else
    (splitBy separator.toList h s.toList).map String.ofList

/-- `s` with every occurrence of a non-empty `needle` replaced. -/
def replaceAll (needle replacement s : String) : String :=
  replacement.intercalate (splitOn needle s)

/-- `s` with the first occurrence of `needle` replaced. -/
def replaceFirst (needle replacement s : String) : String :=
  match cut needle.toList s.toList with
  | some (before, rest) => String.ofList before ++ replacement ++ String.ofList rest
  | none => s

/-- Whether `needle` occurs in `s`. -/
def contains (s needle : String) : Bool :=
  occurs needle.toList s.toList

/-- What follows `lead` in `s`, when `s` starts with it. -/
def stripLead (lead s : String) : Option String :=
  (afterLead lead.toList s.toList).map String.ofList

/-- `s` without `tail` at its end, when it ends so. -/
def stripTail (tail s : String) : Option String :=
  (afterLead tail.toList.reverse s.toList.reverse).map fun cs => String.ofList cs.reverse

/-- `s` with ASCII capitals made small. -/
def asciiLower (s : String) : String :=
  String.ofList (s.toList.map Char.toLower)

/-- Equal but for the case of ASCII letters. -/
def sameIgnoringAsciiCase (a b : String) : Bool :=
  asciiLower a == asciiLower b

end SiteScrape.Text
