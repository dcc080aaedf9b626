/-!
# Punycode

A label with letters outside ASCII is written with ASCII letters only: its
ASCII letters first, then numbers of variable length that say where each other
letter goes in.
-/

namespace SiteScrape.Url.Punycode

def base : Nat := 36
def tMin : Nat := 1
def tMax : Nat := 26
def skew : Nat := 38
def damp : Nat := 700
def initialBias : Nat := 72
def initialCode : Nat := 128

/-- Divides until the delta is small, counting the divisions. -/
def adaptLoop (delta : Nat) (k : Nat) : Nat :=
  if _h : delta > ((base - tMin) * tMax) / 2 then
    adaptLoop (delta / (base - tMin)) (k + base)
  else k + (base - tMin + 1) * delta / (delta + skew)
termination_by delta
decreasing_by
  have : 0 < delta := by omega
  exact Nat.div_lt_self this (by decide)

/-- The bias for the next number. -/
def adapt (delta points : Nat) (first : Bool) : Nat :=
  let delta := if first then delta / damp else delta / 2
  adaptLoop (delta + delta / points) 0

/-- The digit for a number below 36. -/
def digit (n : Nat) : Char :=
  if n < 26 then Char.ofNat ('a'.toNat + n) else Char.ofNat ('0'.toNat + (n - 26))

/-- The threshold of the digit at position `k`. -/
def threshold (k bias : Nat) : Nat :=
  if k ≤ bias + tMin then tMin else if k ≥ bias + tMax then tMax else k - bias

/-- The digits of a number of variable length. -/
def number (q k bias : Nat) : List Char :=
  let t := threshold k bias
  if _h : q < t ∨ t = 0 ∨ base - t < 2 then [digit (min q 35)]
  else digit (t + (q - t) % (base - t)) :: number ((q - t) / (base - t)) (k + base) bias
termination_by q
decreasing_by
  simp only [not_or, Nat.not_lt] at _h
  have : 0 < q := by omega
  calc (q - t) / (base - t) ≤ q - t := Nat.div_le_self ..
    _ < q := by omega

/-- The state between two inserted letters. -/
structure Progress where
  delta : Nat
  bias : Nat
  handled : Nat
  out : List Char

/-- Writes the numbers for every place of `code` in the label. -/
def insertCode (basics code : Nat) (label : List Char) (p : Progress) : Progress :=
  label.foldl (fun p c =>
    if c.toNat < code then { p with delta := p.delta + 1 }
    else if c.toNat = code then
      { delta := 0
        bias := adapt p.delta (p.handled + 1) (p.handled == basics)
        handled := p.handled + 1
        out := p.out ++ number p.delta base p.bias }
    else p) p

/-- The codes outside ASCII, each once, in order. -/
def codes (label : List Char) : List Nat :=
  let all := (label.map Char.toNat).filter (initialCode ≤ ·)
  (all.mergeSort (· ≤ ·)).eraseDups

/-- The label in ASCII letters, without the prefix that marks it. -/
def encode (label : List Char) : List Char :=
  let basics := label.filter (·.toNat < initialCode)
  let lead := if basics.isEmpty then [] else basics ++ ['-']
  let start : Progress := ⟨0, initialBias, basics.length, []⟩
  let step (s : Progress × Nat) (code : Nat) : Progress × Nat :=
    let p := { s.1 with delta := s.1.delta + (code - s.2) * (s.1.handled + 1) }
    let p := insertCode basics.length code label p
    ({ p with delta := p.delta + 1 }, code + 1)
  lead ++ ((codes label).foldl step (start, initialCode)).1.out

/-- The value of a digit. -/
def digitValue? (c : Char) : Option Nat :=
  if 'a' ≤ c && c ≤ 'z' then some (c.toNat - 'a'.toNat)
  else if 'A' ≤ c && c ≤ 'Z' then some (c.toNat - 'A'.toNat)
  else if '0' ≤ c && c ≤ '9' then some (c.toNat - '0'.toNat + 26)
  else none

/-- Reads the numbers and inserts their letters. `i` is the place reached,
`weight` the weight of the next digit of the number that began at `old`. -/
def decodeLoop (code i bias old weight k : Nat) (fresh : Bool) (out : List Char) :
    List Char → Option (List Char)
  | [] => if fresh then some out else none
  | c :: rest => do
    let d ← digitValue? c
    let i := i + d * weight
    let t := threshold k bias
    if d < t then
      let size := out.length + 1
      let bias := adapt (i - old) size (old == 0)
      let code := code + i / size
      let place := i % size
      if 0x10FFFF < code || (0xD800 ≤ code && code ≤ 0xDFFF) then none
      else
        decodeLoop code (place + 1) bias (place + 1) 1 base true
          (out.take place ++ Char.ofNat code :: out.drop place) rest
    else decodeLoop code i bias old (weight * (base - t)) (k + base) false out rest

/-- The label that the ASCII letters stand for. -/
def decode? (cs : List Char) : Option (List Char) :=
  if cs.all (·.toNat < initialCode) then
    let tail := (cs.reverse.takeWhile (· ≠ '-')).reverse
    let lead := (cs.reverse.dropWhile (· ≠ '-')).drop 1 |>.reverse
    decodeLoop initialCode 0 initialBias 0 1 base true lead tail
  else none

end SiteScrape.Url.Punycode
