import SiteScrape.Filter.Number
import SiteScrape.Filter.Text
import SiteScrape.Time.Age
import SiteScrape.Time.Reading

/-!
# Time filters

Moments are milliseconds since 1970. `parseAge` counts back from `now`;
`parseTime` reads a date in local time at an offset.
-/

namespace SiteScrape.Filter

/-- The moment that a value names as an age; numbers stay as they are. -/
def parseAge (now : Int) (v : Json) : Json :=
  match v with
  | .num _ => v
  | _ => .ofInt (Age.parse v.asText now)

/-- The moment that a value names under the patterns of the arguments, or the
default ones. Numbers below `10^11` are seconds; what cannot be read stays. -/
def parseTime (offset : Int) (v : Json) (args : List Json) : Json :=
  match v with
  | .num n =>
    if n.toFloat.abs < 1.0e11 then .ofAmount (n.toFloat * 1000.0) else v
  | _ =>
    let patterns := textArgs args
    let patterns := if patterns.isEmpty then Time.defaultPatterns else patterns
    match Time.parse? patterns offset v.asText with
    | some ms => .ofInt ms
    | none => v

end SiteScrape.Filter
