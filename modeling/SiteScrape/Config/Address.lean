import SiteScrape.Url.Host

/-!
# Addresses to listen at

An address of four decimal parts, or of eight groups. Written ones are short:
the longest run of zero groups becomes a double colon.
-/

namespace SiteScrape

/-- An address of a network interface. -/
inductive Address where
  | v4 (high low : Nat)
  | v6 (groups : List Nat)
  deriving DecidableEq, Repr

namespace Address

/-- The address that a text spells. -/
def read? (s : String) : Option Address :=
  match Url.Host.embeddedIpv4? s.toList with
  | some [high, low] => some (.v4 high low)
  | _ => (Url.Host.ipv6? s.toList).map .v6

/-- Four decimal parts. -/
def dotted (high low : Nat) : String :=
  ".".intercalate ([high / 256, high % 256, low / 256, low % 256].map toString)

/-- The written address; one that stands for a short address shows it. -/
def text : Address → String
  | .v4 high low => dotted high low
  | .v6 [0, 0, 0, 0, 0, 0xffff, high, low] => "::ffff:" ++ dotted high low
  | .v6 groups => Url.Host.ipv6Text groups

end Address

end SiteScrape
