import SiteScrape.Url.Basic
import SiteScrape.Text.Blank

/-!
# Reading URLs

`parse` reads an absolute URL, `join` a reference relative to a base. Blanks
and control characters around the text, and tabs and line breaks anywhere in
it, do not count. Dot segments are resolved while the path is read.
-/

namespace SiteScrape.Url

/-- Why a text is no URL. -/
inductive Fault where
  | relativeWithoutBase
  | emptyHost
  | invalidHost
  | invalidPort
  | opaqueBase
  deriving DecidableEq, Repr

/-- Printable ASCII. -/
def isPlain (c : Char) : Bool := 32 ≤ c.toNat && c.toNat < 127

/-- Characters that stay as they are in a fragment. -/
def keepInFragment (c : Char) : Bool :=
  isPlain c && !(c = ' ' || c = '"' || c = '<' || c = '>' || c = '\x60')

/-- Characters that stay as they are in a path segment. -/
def keepInPath (c : Char) : Bool :=
  keepInFragment c && !(c = '#' || c = '?' || c = '\x7b' || c = '\x7d')

/-- Characters that stay as they are in a user name or password. -/
def keepInUser (c : Char) : Bool :=
  keepInPath c && !(c = '/' || c = ':' || c = ';' || c = '=' || c = '@' || c = '[' || c = '\\' ||
    c = ']' || c = '^' || c = '|')

/-- Characters that stay as they are in a query. -/
def keepInQuery (k : SchemeKind) (c : Char) : Bool :=
  isPlain c && !(c = ' ' || c = '"' || c = '#' || c = '<' || c = '>' || (k.isSpecial && c = '\''))

/-- The characters that count. -/
def significant (s : String) : List Char :=
  (Text.trimBoth (fun c => c.toNat ≤ 32) s.toList).filter fun c => c ≠ '\t' && c ≠ '\n' && c ≠ '\r'

/-- A scheme in small letters, and what follows its colon. -/
def scheme? (cs : List Char) : Option (String × List Char) :=
  let name := cs.takeWhile fun c => c.isAlphanum || c = '+' || c = '-' || c = '.'
  match name, cs.dropWhile fun c => c.isAlphanum || c = '+' || c = '-' || c = '.' with
  | first :: _, ':' :: rest =>
    if first.isAlpha then some (String.ofList (name.map Char.toLower), rest) else none
  | _, _ => none

/-- `cs` up to the first character in `stop`, and from it on. -/
def splitAtAny (stop : Char → Bool) (cs : List Char) : List Char × List Char :=
  (cs.takeWhile fun c => !stop c, cs.dropWhile fun c => !stop c)

/-- Writes query and fragment into `u`. -/
def withTail (u : Url) (cs : List Char) : Url :=
  let (_, rest) := splitAtAny (fun c => c = '?' || c = '#') cs
  match rest with
  | '?' :: rest =>
    let (query, rest) := splitAtAny (· = '#') rest
    { u with
      query := some (String.ofList (Percent.encodeChars (keepInQuery u.kind) query))
      fragment := fragmentOf rest }
  | rest => { u with fragment := fragmentOf rest }
where
  fragmentOf : List Char → Option String
    | '#' :: rest => some (String.ofList (Percent.encodeChars keepInFragment rest))
    | _ => none

/-- Whether `c` divides path segments. -/
def isSlash (k : SchemeKind) (c : Char) : Bool := c = '/' || (k.isSpecial && c = '\\')

/-- A letter and a colon or bar. -/
def isDriveLetter (s : String) : Bool :=
  match s.toList with
  | [a, b] => a.isAlpha && (b = ':' || b = '|')
  | _ => false

/-- A letter and a colon. -/
def isNormalDriveLetter (s : String) : Bool :=
  match s.toList with
  | [a, b] => a.isAlpha && b = ':'
  | _ => false

/-- The path without its last segment; a drive letter stays. -/
def shorten (segments : List String) : List String :=
  if (segments.getLast?.map isDriveLetter).getD false then segments else segments.dropLast

/-- A dot, plain or escaped. -/
def isDot (s : String) : Bool := s == "." || Text.asciiLower s == "%2e"

/-- Two dots, each plain or escaped. -/
def isDoubleDot (s : String) : Bool :=
  let s := Text.asciiLower s
  s == ".." || s == ".%2e" || s == "%2e." || s == "%2e%2e"

/-- Adds a read segment to the path; `last` says that none follows. -/
def addSegment (k : SchemeKind) (segments : List String) (segment : String) (last : Bool) :
    List String :=
  if isDoubleDot segment then
    let shorter := shorten segments
    if last then shorter ++ [""] else shorter
  else if isDot segment then if last then segments ++ [""] else segments
  else if k == .file && segments.isEmpty && isDriveLetter segment then
    [String.ofList (segment.toList.take 1 ++ [':'])]
  else segments ++ [segment]

/-- Reads path segments behind `segments`; `word` is the segment being read, in
reverse and unescaped. Stops at a query or fragment. -/
def readSegments (k : SchemeKind) (segments : List String) (word : List Char) :
    List Char → List String
  | [] => addSegment k segments (segmentText word) true
  | c :: rest =>
    if c = '?' || c = '#' then addSegment k segments (segmentText word) true
    else if isSlash k c then
      readSegments k (addSegment k segments (segmentText word) false) [] rest
    else readSegments k segments (c :: word) rest
where
  segmentText (word : List Char) : String :=
    String.ofList (Percent.encodeChars keepInPath word.reverse)

/-- A file path has no empty segments in front. -/
def tidy (k : SchemeKind) (segments : List String) : List String :=
  if k == .file then
    match segments.dropWhile (·.isEmpty) with
    | [] => [""]
    | ss => ss
  else segments

/-- The path that `cs` spells behind `segments`; one slash in front belongs to it. -/
def pathFrom (k : SchemeKind) (segments : List String) (cs : List Char) : UrlPath :=
  let cs := match cs with
    | c :: rest => if isSlash k c then rest else cs
    | [] => []
  .segments (tidy k (readSegments k segments [] cs))

/-- The path behind an authority. -/
def pathBehindHost (k : SchemeKind) (cs : List Char) : UrlPath :=
  match cs with
  | [] => if k.isSpecial then .segments [""] else .segments []
  | c :: _ => if !k.isSpecial && (c = '?' || c = '#') then .segments [] else pathFrom k [] cs

/-- User name, password, and what follows them. -/
def userInfo? (k : SchemeKind) (cs : List Char) :
    Except Fault (String × String × List Char) :=
  let (authority, tail) := splitAtAny (fun c => isSlash k c || c = '?' || c = '#') cs
  let host := (authority.reverse.takeWhile (· ≠ '@')).reverse
  if authority.contains '@' then
    let user := authority.take (authority.length - host.length - 1)
    if user.isEmpty then
      if host.isEmpty && !tail.isEmpty then .error .emptyHost else .ok ("", "", host ++ tail)
    else
      let (name, password) := splitAtAny (· = ':') user
      let escape (cs : List Char) := String.ofList (Percent.encodeChars keepInUser cs)
      .ok (escape name, escape (password.drop 1), host ++ tail)
  else .ok ("", "", cs)

/-- The text of a host and what follows it. Colons inside brackets belong to it. -/
def splitHost (k : SchemeKind) (inside : Bool) : List Char → List Char × List Char
  | [] => ([], [])
  | c :: rest =>
    if (c = ':' && !inside) || isSlash k c || c = '?' || c = '#' then ([], c :: rest)
    else
      let inside := if c = '[' then true else if c = ']' then false else inside
      let (host, tail) := splitHost k inside rest
      (c :: host, tail)

/-- A port and what follows it; the scheme's own port is not kept. -/
def port? (scheme : String) (cs : List Char) :
    Except Fault (Option Nat × List Char) :=
  match cs with
  | ':' :: rest =>
    let digits := rest.takeWhile Char.isDigit
    let tail := rest.dropWhile Char.isDigit
    let ends := match tail with
      | [] => true
      | c :: _ => c = '/' || c = '\\' || c = '?' || c = '#'
    let n := Decimal.natOf digits
    if !ends || n ≥ 65536 then .error .invalidPort
    else if digits.isEmpty || defaultPort scheme == some n then .ok (none, tail)
    else .ok (some n, tail)
  | cs => .ok (none, cs)

/-- The URL whose authority begins at `cs`. -/
def behindSlashes (scheme : String) (cs : List Char) : Except Fault Url := do
  let k := SchemeKind.ofScheme scheme
  let (username, password, cs) ← userInfo? k cs
  let hasUser := !username.isEmpty || !password.isEmpty
  let (hostText, tail) := splitHost k false cs
  if hostText.isEmpty && (k.isSpecial || hasUser || tail.head? == some ':') then
    .error .emptyHost
  let host ←
    match if k.isSpecial then Host.domain? hostText else Host.uninterpreted? hostText with
    | some host => .ok host
    | none => .error .invalidHost
  let (port, tail) ← port? scheme tail
  let u : Url := { scheme, username, password, host := some host, port
                   path := pathBehindHost k tail }
  .ok (withTail u tail)

/-- A path that begins with a drive letter. -/
def startsWithDrive (cs : List Char) : Bool :=
  let (first, rest) := (cs.take 2, cs.drop 2)
  isDriveLetter (String.ofList first) &&
    (match rest with
      | [] => true
      | c :: _ => c = '/' || c = '\\' || c = '?' || c = '#')

/-- The `file` URL that `cs` spells behind the scheme. -/
def file (base : Option Url) (cs : List Char) : Except Fault Url := do
  let slash (c : Char) : Bool := c = '/' || c = '\\'
  let plain (path : UrlPath) : Url := { scheme := "file", host := some (.name ""), path }
  match cs with
  | a :: b :: rest =>
    if slash a && slash b then
      let (hostText, tail) := splitAtAny (fun c => slash c || c = '?' || c = '#') rest
      if isDriveLetter (String.ofList hostText) then
        .ok (withTail (plain (pathFrom .file [] rest)) rest)
      else if hostText.isEmpty then .ok (withTail (plain (pathBehindHost .file tail)) tail)
      else
        match Host.domain? hostText with
        | none => .error .invalidHost
        | some host =>
          let host := if host == .name "localhost" then .name "" else host
          let u := { plain (pathBehindHost .file tail) with host := some host }
          .ok (withTail u tail)
    else one slash plain
  | _ => one slash plain
where
  /-- At most one slash in front. -/
  one (slash : Char → Bool) (plain : UrlPath → Url) : Except Fault Url :=
    match cs with
    | c :: rest =>
      if slash c then
        let drive := match base.map (·.path) with
          | some (.segments (s :: _)) => if isNormalDriveLetter s then [s] else []
          | _ => []
        let u := plain (pathFrom .file (if startsWithDrive rest then [] else drive) cs)
        let host := if startsWithDrive rest || !drive.isEmpty then none else base.bind (·.host)
        .ok (withTail { u with host := some (host.getD (.name "")) } cs)
      else relative plain
    | [] => relative plain
  /-- No slash in front. -/
  relative (plain : UrlPath → Url) : Except Fault Url :=
    match base with
    | none => .ok (withTail (plain (pathFrom .file [] cs)) cs)
    | some base =>
      match cs with
      | [] => .ok { base with fragment := none }
      | '?' :: _ => .ok (withTail { base with query := none } cs)
      | '#' :: _ => .ok (withTail { base with fragment := none } cs |> fun u =>
          { u with query := base.query })
      | _ =>
        if startsWithDrive cs then .ok (withTail (plain (pathFrom .file [] cs)) cs)
        else
          let segments := match base.path with
            | .segments ss => shorten ss
            | .opaqueText _ => []
          .ok (withTail { base with path := pathFrom .file segments cs, query := none } cs)

/-- The reference `cs` relative to a base with a hierarchy. -/
def relativeTo (base : Url) (cs : List Char) : Except Fault Url :=
  let k := base.kind
  let slash (c : Char) : Bool := c = '/' || c = '\\'
  match cs with
  | [] => .ok { base with fragment := none }
  | '#' :: _ => .ok { withTail base cs with query := base.query }
  | '?' :: _ => .ok (withTail { base with query := none } cs)
  | c :: rest =>
    if slash c then
      if (rest.head?.map slash).getD false then
        match cs with
        | '/' :: '/' :: rest => behindSlashes base.scheme rest
        | cs => behindSlashes base.scheme (cs.dropWhile slash)
      else .ok (withTail { base with path := pathFrom k [] ('/' :: rest), query := none } cs)
    else
      let segments := match base.path with
        | .segments ss => ss.dropLast
        | .opaqueText _ => []
      .ok (withTail
        { base with path := .segments (readSegments k segments [] cs), query := none } cs)

/-- What follows a scheme. -/
def behindScheme (base : Option Url) (scheme : String) (cs : List Char) : Except Fault Url :=
  let k := SchemeKind.ofScheme scheme
  match k with
  | .file => file (base.filter (·.scheme == "file")) cs
  | .web =>
    let rest := cs.dropWhile fun c => c = '/' || c = '\\'
    match base with
    | some base =>
      if cs.length - rest.length < 2 && base.scheme == scheme then relativeTo base cs
      else behindSlashes scheme rest
    | none => behindSlashes scheme rest
  | .other =>
    match cs with
    | '/' :: '/' :: rest => behindSlashes scheme rest
    | '/' :: _ => .ok (withTail { scheme, path := pathFrom .other [] cs } cs)
    | _ =>
      let (path, _) := splitAtAny (fun c => c = '?' || c = '#') cs
      let u : Url :=
        { scheme, path := .opaqueText (String.ofList (Percent.encodeChars isPlain path)) }
      .ok (withTail u cs)

/-- The URL that a text spells, relative to a base if there is one. -/
def parseWith (base : Option Url) (s : String) : Except Fault Url :=
  let cs := significant s
  match scheme? cs with
  | some (scheme, rest) => behindScheme base scheme rest
  | none =>
    match base with
    | none => .error .relativeWithoutBase
    | some base =>
      match base.path, cs with
      | _, '#' :: _ => .ok { withTail { base with fragment := none } cs with query := base.query }
      | .opaqueText _, _ => .error .opaqueBase
      | .segments _, _ =>
        if base.scheme == "file" then file (some base) cs else relativeTo base cs

/-- The absolute URL that a text spells. -/
def parse (s : String) : Except Fault Url := parseWith none s

/-- The URL that a reference names, seen from a base. -/
def join (base : Url) (reference : String) : Except Fault Url := parseWith (some base) reference

/-- The absolute URL that a text spells. -/
def parse? (s : String) : Option Url := (parse s).toOption

end SiteScrape.Url
