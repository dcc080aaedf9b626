import SiteScrape.Assoc
import SiteScrape.Decimal.Double

/-!
# Throttling

Every site has a bucket of tokens, one for each request, that starts full and
fills at a constant rate. Times are whole milliseconds, waits are nanoseconds,
and the tokens are counted in single precision.
-/

namespace SiteScrape

/-- The tokens of one site. -/
structure Bucket where
  capacity : Float32
  tokens : Float32
  /-- Tokens per second. -/
  rate : Float32
  filledAt : Nat

namespace Bucket

/-- A full bucket. -/
def full (perMinute : UInt32) (now : Nat) : Bucket :=
  let capacity := Float32.ofNat (max perMinute.toNat 1)
  ⟨capacity, capacity, capacity / 60.0, now⟩

/-- Milliseconds as seconds in single precision. -/
def seconds (ms : Nat) : Float32 :=
  Float32.ofNat (ms / 1000) + Float32.ofNat (ms % 1000 * 1000000) / 1000000000.0

/-- The bucket with what has flowed in until `now`. -/
def refill (b : Bucket) (now : Nat) : Bucket :=
  let filled := b.tokens + seconds (now - b.filledAt) * b.rate
  { b with tokens := if filled < b.capacity then filled else b.capacity, filledAt := now }

/-- The whole number nearest to `n / d`; a half goes to the even neighbour. -/
def nearestEven (n d : Nat) : Nat :=
  let q := n / d
  let twice := 2 * (n % d)
  if twice < d || (twice = d && q % 2 = 0) then q else q + 1

/-- Seconds as the nearest nanoseconds. -/
def nanoseconds (s : Float32) : Nat :=
  match Double.shape s.toFloat with
  | .finite false m (.ofNat q) => (m <<< q) * 1000000000
  | .finite false m (.negSucc q) => nearestEven (m * 1000000000) (1 <<< (q + 1))
  | _ => 0

/-- Takes a token, or says how many nanoseconds are left until there is one. -/
def take (b : Bucket) (now : Nat) : Option Nat × Bucket :=
  let b := b.refill now
  if b.tokens ≥ 1.0 then (none, { b with tokens := b.tokens - 1.0 })
  else (some (nanoseconds ((1.0 - b.tokens) / b.rate)), b)

end Bucket

/-- The rates of all sites; without a rate nothing waits. -/
structure Throttle where
  perMinute : Option UInt32 := none
  siteRates : Assoc UInt32 := []
  buckets : Assoc Bucket := []

namespace Throttle

/-- A throttle that no site has used yet: a rate for all sites, and other rates
for some of them. -/
def ofRates (perMinute : UInt32) (siteRates : Assoc UInt32 := []) : Throttle where
  perMinute := some perMinute
  siteRates

/-- The rate of a site. -/
def rate? (t : Throttle) (site : String) : Option UInt32 :=
  t.perMinute.map fun r => (t.siteRates.get? site).getD r

/-- The bucket of a site, full when it is new. -/
def bucket (t : Throttle) (site : String) (rate : UInt32) (now : Nat) : Bucket :=
  (t.buckets.get? site).getD (Bucket.full rate now)

/-- The first whole millisecond at or behind a wait that begins at `now`. -/
def wakeTime (now wait : Nat) : Nat := now + (wait + 999999) / 1000000

/-- One look at the bucket of a site: it takes a token, or says how long to
wait for the next look. -/
def look (t : Throttle) (site : String) (now : Nat) : Option Nat × Throttle :=
  match t.rate? site with
  | none => (none, t)
  | some rate =>
    let (wait, b) := (t.bucket site rate now).take now
    (wait, { t with buckets := t.buckets.insert site b })

/-- Waits for a token of a site: the time then, and the throttle without that
token. A wait that rounding has made too short is followed by another, `tries`
times at most. -/
def acquire (t : Throttle) (site : String) (now : Nat) (tries : Nat := 100) : Nat × Throttle :=
  match t.look site now, tries with
  | (none, t), _ | (some _, t), 0 => (now, t)
  | (some wait, t), tries + 1 => acquire t site (wakeTime now wait) tries

end Throttle

end SiteScrape
