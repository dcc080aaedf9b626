import SiteScrape.Html.Node
import SiteScrape.Html.Reference

/-!
# Tokens of markup

Markup is cut into tags, texts, comments and document types. What is cut next
depends on the element that is open: inside scripts, titles and the like
everything is text up to the end tag of that element.
-/

namespace SiteScrape.Html

/-- A start tag. -/
structure StartTag where
  name : String
  attrs : List Attr := []
  selfClosing : Bool := false
  deriving DecidableEq, Repr

/-- A document type, with a mark on a malformed one. -/
structure Doctype where
  name : String := ""
  publicId : Option String := none
  systemId : Option String := none
  malformed : Bool := false
  deriving DecidableEq, Repr

/-- A piece of markup. -/
inductive Token where
  | start (tag : StartTag)
  | finish (name : String)
  | text (cs : List Char)
  /-- A null character outside of any raw text. -/
  | nul
  | comment (s : String)
  | doctype (d : Doctype)
  | endOfMarkup
  deriving DecidableEq, Repr

/-- How the text of an element with raw text ends and what it may hold. -/
inductive RawKind where
  /-- References count, as in titles. -/
  | references
  | plain
  /-- A script, in which a comment may hide an end tag. -/
  | script
  deriving DecidableEq, Repr

/-- What the reading of tokens depends on. -/
inductive LexMode where
  | markup
  /-- Raw text of the element of this name. -/
  | raw (kind : RawKind) (name : String)
  /-- Nothing but text follows. -/
  | plainText
  deriving DecidableEq, Repr

/-- The blanks of markup. -/
def isSpace (c : Char) : Bool := c = ' ' || c = '\t' || c = '\n' || c = '\x0c' || c = '\r'

def withoutNul (c : Char) : Char := if c = '\x00' then replacement else c

def textOf (cs : List Char) : String := String.ofList cs

/-- Line ends become single line feeds, and a mark of the byte order at the
very start is dropped. -/
def normalize (s : String) : List Char :=
  lineFeeds (match s.toList with
    | '\ufeff' :: rest => rest
    | cs => cs)
where
  lineFeeds : List Char → List Char
    | '\r' :: '\n' :: rest => '\n' :: lineFeeds rest
    | '\r' :: rest => '\n' :: lineFeeds rest
    | c :: rest => c :: lineFeeds rest
    | [] => []

/-! ### Tags -/

/-- A character that a tag name ends before. -/
def endsTagName (c : Char) : Bool := isSpace c || c = '/' || c = '>'

/-- An attribute value and what follows; nothing when the markup ends in it. -/
def attrValue? (cs : List Char) : Option (List Char × List Char) :=
  let quoted (q : Char) (rest : List Char) : Option (List Char × List Char) :=
    match rest.dropWhile (· ≠ q) with
    | _ :: behind => some (rest.takeWhile (· ≠ q), behind)
    | [] => none
  match cs.dropWhile isSpace with
  | '"' :: rest => quoted '"' rest
  | '\'' :: rest => quoted '\'' rest
  | '>' :: rest => some ([], '>' :: rest)
  | rest =>
    let ends (c : Char) : Bool := isSpace c || c = '>'
    some (rest.takeWhile (!ends ·), rest.dropWhile (!ends ·))

/-- The value that the written one stands for. -/
def decodedValue (cs : List Char) : String :=
  textOf ((decodeReferences true cs).map withoutNul)

/-- An attribute at its first letter, and what follows. -/
def attr? (cs : List Char) : Option (Attr × List Char) := do
  let ends (c : Char) : Bool := isSpace c || c = '/' || c = '>' || c = '='
  let (lead, body) : List Char × List Char := match cs with
    | '=' :: rest => (['='], rest)
    | cs => ([], cs)
  let name := textOf ((lead ++ body.takeWhile (!ends ·)).map fun c => (withoutNul c).toLower)
  let rest := body.dropWhile (!ends ·)
  match rest.dropWhile isSpace with
  | '=' :: behind =>
    let (value, behind) ← attrValue? behind
    some ({ name, value := decodedValue value }, behind)
  | behind => some ({ name, value := "" }, behind)

/-- The inside of a tag behind its name: attributes, the first of each name,
whether it closes itself, and what follows; nothing when the markup ends in it. -/
def tagBody? (attrs : List Attr) (cs : List Char) : Option (List Attr × Bool × List Char) :=
  match cs with
  | [] => none
  | '>' :: rest => some (attrs, false, rest)
  | '/' :: '>' :: rest => some (attrs, true, rest)
  | c :: rest =>
    if isSpace c || c = '/' then tagBody? attrs rest
    else
      match attr? (c :: rest) with
      | none => none
      | some (a, behind) =>
        if _h : behind.length < (c :: rest).length then
          tagBody? (if attrs.any (·.name == a.name) then attrs else attrs ++ [a]) behind
        else none
termination_by cs.length
decreasing_by all_goals simp only [List.length_cons] at *; omega

/-- A tag at the first letter of its name: name, attributes, whether it closes
itself, and what follows. -/
def tag? (cs : List Char) : Option (String × List Attr × Bool × List Char) :=
  let name := textOf ((cs.takeWhile (!endsTagName ·)).map fun c => (withoutNul c).toLower)
  (tagBody? [] (cs.dropWhile (!endsTagName ·))).map fun (attrs, closing, rest) =>
    (name, attrs, closing, rest)

/-! ### Comments -/

/-- The text up to the end of a comment, and what follows that. -/
def commentBody (cs : List Char) : List Char × List Char :=
  match cs with
  | [] => ([], [])
  | '-' :: '-' :: '>' :: rest => ([], rest)
  | '-' :: '-' :: '!' :: '>' :: rest => ([], rest)
  | ['-', '-', '!'] | ['-', '-'] | ['-'] => ([], [])
  | c :: rest => let (body, behind) := commentBody rest; (c :: body, behind)

/-- A comment behind its opening `<!--`. -/
def commentToken (cs : List Char) : Token × List Char :=
  match cs with
  | '>' :: rest => (.comment "", rest)
  | '-' :: '>' :: rest => (.comment "", rest)
  | cs =>
    let (body, rest) := commentBody cs
    (.comment (textOf (body.map withoutNul)), rest)

/-- A malformed comment, up to the next `>`. -/
def bogusComment (cs : List Char) : Token × List Char :=
  (.comment (textOf ((cs.takeWhile (· ≠ '>')).map withoutNul)), (cs.dropWhile (· ≠ '>')).drop 1)

/-! ### Document types -/

/-- A quoted text, and what follows; an unclosed one is marked as malformed. -/
def quotedId? (cs : List Char) : Option (String × Bool × List Char) :=
  let body (q : Char) (rest : List Char) : String × Bool × List Char :=
    let ends (c : Char) : Bool := c = q || c = '>'
    let text := textOf (rest.takeWhile (!ends ·))
    match rest.dropWhile (!ends ·) with
    | [] => (text, false, [])
    | c :: behind => if c = q then (text, true, behind) else (text, false, c :: behind)
  match cs with
  | '"' :: rest => some (body '"' rest)
  | '\'' :: rest => some (body '\'' rest)
  | _ => none

/-- The system identifier of a document type, if one stands here. -/
def withSystemId (d : Doctype) (needed : Bool) (cs : List Char) : Doctype :=
  match cs.dropWhile isSpace with
  | [] => { d with malformed := true }
  | cs =>
    match quotedId? cs with
    | some (id, closed, _) => { d with systemId := some id, malformed := d.malformed || !closed }
    | none => { d with malformed := d.malformed || needed || cs.head? != some '>' }

/-- What a document type says behind its name. -/
def withIds (d : Doctype) (cs : List Char) : Doctype :=
  let keyword := textOf ((cs.take 6).map Char.toLower)
  if keyword == "public" then
    match quotedId? ((cs.drop 6).dropWhile isSpace) with
    | some (id, true, rest) => withSystemId { d with publicId := some id } false rest
    | some (id, false, _) => { d with publicId := some id, malformed := true }
    | none => { d with malformed := true }
  else if keyword == "system" then withSystemId d true (cs.drop 6)
  else { d with malformed := cs.head? != some '>' }

/-- A document type behind its keyword, up to the next `>`. -/
def doctypeToken (cs : List Char) : Token × List Char :=
  let inside := cs.takeWhile (· ≠ '>')
  let closed := inside.length < cs.length
  let content := (inside ++ (if closed then ['>'] else [])).dropWhile isSpace
  let ends (c : Char) : Bool := isSpace c || c = '>'
  let name := textOf ((content.takeWhile (!ends ·)).map fun c => (withoutNul c).toLower)
  let d := withIds { name } ((content.dropWhile (!ends ·)).dropWhile isSpace)
  (.doctype { d with malformed := d.malformed || !closed || name.isEmpty },
    cs.drop (inside.length + 1))

/-! ### Raw text -/

/-- `cs` starts with an end tag of this name. -/
def isEndTagOf (name : List Char) (cs : List Char) : Bool :=
  match cs with
  | '<' :: '/' :: rest =>
    (rest.take name.length).map Char.toLower == name &&
    match rest.drop name.length with
    | c :: _ => endsTagName c
    | [] => false
  | _ => false

/-- The text before the end tag of this name, and the rest from there on. -/
def untilEndTag (name : List Char) (cs : List Char) : List Char × List Char :=
  match cs with
  | [] => ([], [])
  | c :: rest =>
    if isEndTagOf name (c :: rest) then ([], c :: rest)
    else let (body, behind) := untilEndTag name rest; (c :: body, behind)

/-- Where the reading of a script stands with regard to comments in it. -/
inductive ScriptState where
  | code
  | comment
  /-- Inside a script inside a comment, where no end tag counts but its own. -/
  | nested
  deriving DecidableEq, Repr

/-- `cs` starts with `<script` or, if `closing`, with `</script`. -/
def isScriptTag (closing : Bool) (cs : List Char) : Bool :=
  let lead := if closing then ['<', '/'] else ['<']
  match Text.afterLead lead cs with
  | some rest =>
    (rest.take 6).map Char.toLower == "script".toList &&
    match rest.drop 6 with
    | c :: _ => endsTagName c
    | [] => false
  | none => false

/-- The text of a script before its end tag, and the rest from there on;
`dashes` counts hyphens just read inside a comment, up to two. -/
def untilScriptEnd (state : ScriptState) (dashes : Nat) (cs : List Char) :
    List Char × List Char :=
  match cs with
  | [] => ([], [])
  | c :: rest =>
    if state ≠ .nested && isEndTagOf "script".toList (c :: rest) then ([], c :: rest)
    else
      let (state', dashes') : ScriptState × Nat :=
        match state with
        | .code =>
          if (Text.afterLead "<!--".toList (c :: rest)).isSome then (.comment, 0) else (.code, 0)
        | _ =>
          if c = '>' && dashes ≥ 2 then (.code, 0)
          else if c = '-' then (state, min 2 (dashes + 1))
          else if state = .comment && isScriptTag false (c :: rest) then (.nested, 0)
          else if state = .nested && isScriptTag true (c :: rest) then (.comment, 0)
          else (state, 0)
      let (body, behind) := untilScriptEnd state' dashes' rest
      (c :: body, behind)

/-- The raw text of an element and the rest from its end tag on. -/
def rawText (kind : RawKind) (name : String) (cs : List Char) : List Char × List Char :=
  match kind with
  | .script => let (body, rest) := untilScriptEnd .code 0 cs; (body.map withoutNul, rest)
  | .plain => let (body, rest) := untilEndTag name.toList cs; (body.map withoutNul, rest)
  | .references =>
    let (body, rest) := untilEndTag name.toList cs
    ((decodeReferences false body).map withoutNul, rest)

/-! ### Markup -/

/-- What a declaration behind `<!` is; sections of raw characters count only
inside foreign elements. -/
def declaration (foreign : Bool) (cs : List Char) : Token × List Char :=
  match Text.afterLead ['-', '-'] cs with
  | some rest => commentToken rest
  | none =>
    if textOf ((cs.take 7).map Char.toLower) == "doctype" then doctypeToken (cs.drop 7)
    else
      match foreign, Text.afterLead "[CDATA[".toList cs with
      | true, some rest =>
        match Text.cut "]]>".toList rest with
        | some (body, behind) => (.text body, behind)
        | none => (.text rest, [])
      | _, _ => bogusComment cs

/-- The token at a `<`, given what follows it; `none` for a tag that the end of
the markup cuts off, and for an empty end tag. -/
def atAngle (foreign : Bool) (cs : List Char) : Option Token × List Char :=
  match cs with
  | '!' :: rest => let (t, rest) := declaration foreign rest; (some t, rest)
  | '?' :: _ => let (t, rest) := bogusComment cs; (some t, rest)
  | '/' :: rest =>
    match rest with
    | [] => (some (.text ['<', '/']), [])
    | '>' :: behind => (none, behind)
    | c :: _ =>
      if c.isAlpha then
        match tag? rest with
        | some (name, _, _, behind) => (some (.finish name), behind)
        | none => (none, [])
      else let (t, rest) := bogusComment rest; (some t, rest)
  | c :: _ =>
    if c.isAlpha then
      match tag? cs with
      | some (name, attrs, selfClosing, behind) =>
        (some (.start { name, attrs, selfClosing }), behind)
      | none => (none, [])
    else (some (.text ['<']), cs)
  | [] => (some (.text ['<']), [])

/-- The next token and the rest; `none` when there is none at this place. -/
def nextToken (mode : LexMode) (foreign : Bool) (cs : List Char) : Option Token × List Char :=
  match mode with
  | .plainText => (some (.text (cs.map withoutNul)), [])
  | .raw kind name =>
    match rawText kind name cs with
    | ([], '<' :: rest) => atAngle foreign rest
    | (body, rest) => (some (.text body), rest)
  | .markup =>
    match cs with
    | '<' :: rest => atAngle foreign rest
    | '\x00' :: rest => (some .nul, rest)
    | cs =>
      let ends (c : Char) : Bool := c = '<' || c = '\x00'
      (some (.text (decodeReferences false (cs.takeWhile (!ends ·)))), cs.dropWhile (!ends ·))

end SiteScrape.Html
