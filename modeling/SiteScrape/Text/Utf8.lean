/-!
# UTF-8

`bytes` writes a text, `decode?` reads bytes that are well formed, and
`decodeLossy` reads any bytes: every ill-formed sequence, taken as long as it
could still have become well formed, is read as one replacement character.
-/

namespace SiteScrape.Text.Utf8

/-- The bytes of a text. -/
def bytes (s : String) : List UInt8 :=
  s.toList.flatMap String.utf8EncodeChar

/-- A sequence that has begun: the bits so far, how many bytes are missing, and
the range that the next one must lie in. -/
structure Pending where
  value : Nat
  missing : Nat
  lo : Nat
  hi : Nat

/-- What a first byte stands for or begins. -/
inductive Start where
  | char (c : Char)
  | sequence (p : Pending)
  | illFormed

def start (b : Nat) : Start :=
  if b < 0x80 then .char (Char.ofNat b)
  else if 0xC2 ≤ b && b ≤ 0xDF then .sequence ⟨b - 0xC0, 1, 0x80, 0xBF⟩
  else if b = 0xE0 then .sequence ⟨0, 2, 0xA0, 0xBF⟩
  else if b = 0xED then .sequence ⟨0xD, 2, 0x80, 0x9F⟩
  else if 0xE1 ≤ b && b ≤ 0xEF then .sequence ⟨b - 0xE0, 2, 0x80, 0xBF⟩
  else if b = 0xF0 then .sequence ⟨0, 3, 0x90, 0xBF⟩
  else if 0xF1 ≤ b && b ≤ 0xF3 then .sequence ⟨b - 0xF0, 3, 0x80, 0xBF⟩
  else if b = 0xF4 then .sequence ⟨4, 3, 0x80, 0x8F⟩
  else .illFormed

/-- Reads bytes; `none` stands for an ill-formed sequence. -/
def decodeFrom (pending : Option Pending) : List UInt8 → List (Option Char)
  | [] => if pending.isSome then [none] else []
  | b :: rest =>
    match pending with
    | some p =>
      if p.lo ≤ b.toNat && b.toNat ≤ p.hi then
        let value := p.value * 64 + (b.toNat - 0x80)
        if p.missing = 1 then some (Char.ofNat value) :: decodeFrom none rest
        else decodeFrom (some ⟨value, p.missing - 1, 0x80, 0xBF⟩) rest
      else none :: first b rest
    | none => first b rest
where
  /-- A byte outside every sequence, and what follows it. -/
  first (b : UInt8) (rest : List UInt8) : List (Option Char) :=
    match start b.toNat with
    | .char c => some c :: decodeFrom none rest
    | .sequence p => decodeFrom (some p) rest
    | .illFormed => none :: decodeFrom none rest

/-- The text of well-formed bytes. -/
def decode? (bs : List UInt8) : Option String :=
  ((decodeFrom none bs).mapM id).map String.ofList

/-- The text of any bytes. -/
def decodeLossy (bs : List UInt8) : String :=
  String.ofList ((decodeFrom none bs).map fun c => c.getD '\ufffd')

/-- The number of bytes of a text. -/
def size (s : String) : Nat := (bytes s).length

end SiteScrape.Text.Utf8
