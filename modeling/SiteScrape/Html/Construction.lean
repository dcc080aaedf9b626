import SiteScrape.Html.Builder

/-!
# Reading a page

Each mode of reading says what a token does: it is dealt with, or it is dealt
with again in another mode. The modes of tables pass what they do not know to
the body, with such nodes going before the table.
-/

namespace SiteScrape.Html

/-- What has become of a token. -/
inductive Step where
  | done (b : Builder)
  /-- The token is to be read again in this mode. -/
  | again (mode : Mode) (b : Builder)

def allSpace (cs : List Char) : Bool := cs.all isSpace

namespace Builder

/-! ### Head -/

/-- Attributes of a further `html` tag go to the root. -/
def mergeRootAttrs (b : Builder) (t : StartTag) : Builder :=
  if b.hasOpen "template" then b
  else { b with arena := b.arena.addAttrs b.rootElement t.attrs }

def startTemplate (b : Builder) (t : StartTag) : Builder :=
  let b := (b.openTag t).pushMarker
  { b with
    framesetOk := false
    mode := .inTemplate
    templateModes := .inTemplate :: b.templateModes }

def endTemplate (b : Builder) : Builder :=
  if b.hasOpen "template" then
    let b := { b with stack := b.stack.dropWhile (b.isOneOf thoroughEndNames) }
    let b := (b.popThroughNamed "template").clearFormatting
    { b with templateModes := b.templateModes.tail }.resetMode
  else b

/-- A start tag that belongs into the head. -/
def startInHead (b : Builder) (t : StartTag) : Builder :=
  match t.name with
  | "title" => b.openRaw t .references
  | "noframes" | "style" | "noscript" => b.openRaw t .plain
  | "script" => b.openRaw t .script
  | "template" => b.startTemplate t
  | _ => b.putVoid t

def inHead (b : Builder) (token : Token) : Step :=
  match token with
  | .comment s => .done (b.putComment s)
  | .start t =>
    if t.name == "html" then .done (b.mergeRootAttrs t)
    else if t.name == "noscript" || headNames.contains t.name then .done (b.startInHead t)
    else if t.name == "head" then .done b
    else .again .afterHead b.pop
  | .finish name =>
    match name with
    | "head" => .done { b.pop with mode := .afterHead }
    | "template" => .done b.endTemplate
    | "body" | "html" | "br" => .again .afterHead b.pop
    | _ => .done b
  | .text cs => if allSpace cs then .done (b.putText cs) else .again .afterHead b.pop
  | _ => .again .afterHead b.pop

/-- Whether a start tag stands here for something in the head. -/
def isHeadTag (token : Token) : Bool :=
  match token with
  | .start t => headNames.contains t.name
  | .finish name => name == "template"
  | _ => false

/-! ### Before the body -/

def inInitial (b : Builder) (token : Token) : Step :=
  match token with
  | .comment s => .done (b.putCommentIn 0 s)
  | .text cs =>
    if allSpace cs then .done b else .again .beforeHtml { b with oldStyle := true }
  | _ => .again .beforeHtml { b with oldStyle := true }

/-- Makes the root element. -/
def makeRoot (b : Builder) (attrs : List Attr) : Builder :=
  let (b, i) := b.makeElement .html "html" attrs
  { b with arena := b.arena.append 0 (.node i), stack := [i] }

def inBeforeHtml (b : Builder) (token : Token) : Step :=
  let implied := Step.again .beforeHead (b.makeRoot [])
  match token with
  | .comment s => .done (b.putCommentIn 0 s)
  | .text cs => if allSpace cs then .done b else implied
  | .start t =>
    if t.name == "html" then .done { b.makeRoot t.attrs with mode := .beforeHead } else implied
  | .finish name => if ["head", "body", "html", "br"].contains name then implied else .done b
  | _ => implied

/-- Opens the head. -/
def openHead (b : Builder) (t : StartTag) : Builder :=
  let b := b.openTag t
  { b with head := b.stack.head? }

def inBeforeHead (b : Builder) (token : Token) : Step :=
  let implied := Step.again .inHead (b.openHead { name := "head" })
  match token with
  | .comment s => .done (b.putComment s)
  | .text cs => if allSpace cs then .done b else implied
  | .start t =>
    match t.name with
    | "html" => .done (b.mergeRootAttrs t)
    | "head" => .done { b.openHead t with mode := .inHead }
    | _ => implied
  | .finish name => if ["head", "body", "html", "br"].contains name then implied else .done b
  | _ => implied

/-- A tag of the head behind the head. -/
def lateHeadTag (b : Builder) (token : Token) : Step :=
  match b.head with
  | none => .done b
  | some head =>
    match (b.push head).inHead token with
    | .done b => .done (b.dropFromStack head)
    | .again m b => .again m (b.dropFromStack head)

def inAfterHead (b : Builder) (token : Token) : Step :=
  let implied := Step.again .inBody (b.openImplied "body")
  match token with
  | .comment s => .done (b.putComment s)
  | .text cs => if allSpace cs then .done (b.putText cs) else implied
  | .start t =>
    match t.name with
    | "html" => .done (b.mergeRootAttrs t)
    | "body" => .done { b.openTag t with framesetOk := false, mode := .inBody }
    | "frameset" => .done { b.openTag t with mode := .inFrameset }
    | "head" => .done b
    | name => if headNames.contains name then b.lateHeadTag token else implied
  | .finish name =>
    match name with
    | "template" => b.inHead token
    | "body" | "html" | "br" => implied
    | _ => .done b
  | _ => implied

/-! ### Body -/

/-- Closes the item of a list that a new one follows. -/
def closeItem (b : Builder) (names : List String) : Builder :=
  let stops (i : Nat) : Bool :=
    b.isOneOf names i || (b.isOneOf specialNames i && !b.isOneOf ["address", "div", "p"] i)
  match b.stack.find? stops with
  | some i =>
    if b.isOneOf names i then
      let name := (b.tag i).name
      (b.closeImplied impliedEndNames name).popThroughNamed name
    else b
  | none => b

/-- An `input` that is not shown. -/
def isHidden (t : StartTag) : Bool :=
  t.attrs.any fun a => a.name == "type" && Text.asciiLower a.value == "hidden"

/-- Opens an element of a foreign vocabulary. -/
def openForeign (b : Builder) (v : Vocabulary) (t : StartTag) : Builder :=
  let name := if v = .svg then respelled svgNames t.name else t.name
  let (b, i) := b.putElement v name (t.attrs.map (Attr.inForeign v))
  if t.selfClosing then b else b.push i

/-- A link inside a link closes it. -/
def closeLink (b : Builder) : Builder :=
  match b.recentFormatting.find? fun (_, i, _) => b.isHtml i "a" with
  | none => b
  | some (_, i, _) =>
    let b := b.adopt "a"
    let b := match b.formattingPlace? i with
      | some place => b.dropFormatting place
      | none => b
    b.dropFromStack i

/-- The mode of a selection that opens here. -/
def selectMode (m : Mode) : Mode :=
  match m with
  | .inTable | .inCaption | .inTableBody | .inRow | .inCell => .inSelectInTable
  | _ => .inSelect

def startForm (b : Builder) (t : StartTag) : Builder :=
  let inTemplate := b.hasOpen "template"
  if b.form.isSome && !inTemplate then b
  else
    let b := b.closeParagraph.openTag t
    if inTemplate then b else { b with form := b.stack.head? }

def startFrameset (b : Builder) (t : StartTag) : Builder :=
  match b.framesetOk, b.bodyElement? with
  | true, some body =>
    let b := { b with arena := b.arena.detach body, stack := [b.rootElement] }
    { b.openTag t with mode := .inFrameset }
  | _, _ => b

/-- A start tag in the body, other than those of the head. -/
def startInBody (b : Builder) (t : StartTag) : Builder :=
  match t.name with
  | "html" => b.mergeRootAttrs t
  | "body" =>
    match b.bodyElement? with
    | some body =>
      if b.hasOpen "template" then b
      else { b with framesetOk := false, arena := b.arena.addAttrs body t.attrs }
    | none => b
  | "frameset" => b.startFrameset t
  | "p" => b.closeParagraph.openTag t
  | "h1" | "h2" | "h3" | "h4" | "h5" | "h6" =>
    let b := b.closeParagraph
    (if b.currentIsOneOf headingNames then b.pop else b).openTag t
  | "pre" | "listing" =>
    { b.closeParagraph.openTag t with dropsLineFeed := true, framesetOk := false }
  | "form" => b.startForm t
  | "li" => ({ b with framesetOk := false }.closeItem ["li"]).closeParagraph.openTag t
  | "dd" | "dt" =>
    ({ b with framesetOk := false }.closeItem ["dd", "dt"]).closeParagraph.openTag t
  | "plaintext" => { b.closeParagraph.openTag t with lexMode := .plainText }
  | "button" =>
    let b := if b.hasInScope "button" then b.close "button" else b
    { b.reconstruct.openTag t with framesetOk := false }
  | "a" => b.closeLink.reconstruct.openFormatting t
  | "nobr" =>
    let b := b.reconstruct
    let b := if b.hasInScope "nobr" then (b.adopt "nobr").reconstruct else b
    b.openFormatting t
  | "applet" | "marquee" | "object" =>
    { (b.reconstruct.openTag t).pushMarker with framesetOk := false }
  | "table" =>
    let b := if b.oldStyle then b else b.closeParagraph
    { b.openTag t with framesetOk := false, mode := .inTable }
  | "area" | "br" | "embed" | "img" | "keygen" | "wbr" =>
    { b.reconstruct.putVoid t with framesetOk := false }
  | "input" =>
    let ok := b.framesetOk && isHidden t
    { b.reconstruct.putVoid t with framesetOk := ok }
  | "param" | "source" | "track" => b.putVoid t
  | "hr" => { b.closeParagraph.putVoid t with framesetOk := false }
  | "image" => { b.reconstruct.putVoid { t with name := "img" } with framesetOk := false }
  | "textarea" => { b.openRaw t .references with dropsLineFeed := true, framesetOk := false }
  | "xmp" => { b.closeParagraph.reconstruct with framesetOk := false }.openRaw t .plain
  | "iframe" => { b with framesetOk := false }.openRaw t .plain
  | "noembed" | "noscript" => b.openRaw t .plain
  | "select" => { b.reconstruct.openTag t with framesetOk := false, mode := selectMode b.mode }
  | "optgroup" | "option" => (if b.currentIs "option" then b.pop else b).reconstruct.openTag t
  | "rb" | "rtc" => (if b.hasInScope "ruby" then b.closeAllImplied else b).openTag t
  | "rp" | "rt" =>
    (if b.hasInScope "ruby" then b.closeImplied impliedEndNames "rtc" else b).openTag t
  | "math" => b.reconstruct.openForeign .mathml t
  | "svg" => b.reconstruct.openForeign .svg t
  | "frame" | "head" => b
  | name =>
    if blockNames.contains name then b.closeParagraph.openTag t
    else if formattingNames.contains name then b.reconstruct.openFormatting t
    else if tablePartNames.contains name then b
    else b.reconstruct.openTag t

def endForm (b : Builder) : Builder :=
  if b.hasOpen "template" then
    if b.hasInScope "form" then b.close "form" else b
  else
    match b.form with
    | none => b
    | some i =>
      let b := { b with form := none }
      if b.inScope (boundsScope []) fun _ j => j == i then b.closeAllImplied.dropFromStack i else b

/-- An end tag in the body, other than of the body and the root. -/
def finishInBody (b : Builder) (name : String) : Builder :=
  match name with
  | "form" => b.endForm
  | "p" =>
    let b := if b.hasInButtonScope "p" then b else b.openImplied "p"
    (b.closeImplied impliedEndNames "p").popThroughNamed "p"
  | "li" =>
    if b.hasInListScope "li" then (b.closeImplied impliedEndNames "li").popThroughNamed "li" else b
  | "dd" | "dt" =>
    if b.hasInScope name then (b.closeImplied impliedEndNames name).popThroughNamed name else b
  | "h1" | "h2" | "h3" | "h4" | "h5" | "h6" =>
    if b.inScope (boundsScope []) fun b i => b.isOneOf headingNames i then
      b.closeAllImplied.popThrough fun b i => b.isOneOf headingNames i
    else b
  | "applet" | "marquee" | "object" =>
    if b.hasInScope name then (b.close name).clearFormatting else b
  | "br" => { b.reconstruct.putVoid { name := "br" } with framesetOk := false }
  | "template" => b.endTemplate
  | name =>
    if blockNames.contains name || ["button", "listing", "pre"].contains name then
      if b.hasInScope name then b.close name else b
    else if formattingNames.contains name || ["a", "nobr"].contains name then b.adopt name
    else b.endTagInBody name

def textInBody (b : Builder) (cs : List Char) : Builder :=
  let b := b.reconstruct.putText cs
  if allSpace cs then b else { b with framesetOk := false }

/-- The end of the markup closes open templates. -/
def endInTemplate (b : Builder) : Step :=
  if b.hasOpen "template" then
    let b := (b.popThroughNamed "template").clearFormatting
    let b := { b with templateModes := b.templateModes.tail }.resetMode
    .again b.mode b
  else .done b

def inBody (b : Builder) (token : Token) : Step :=
  match token with
  | .text cs => .done (b.textInBody cs)
  | .nul | .doctype _ => .done b
  | .comment s => .done (b.putComment s)
  | .endOfMarkup => if b.templateModes.isEmpty then .done b else b.endInTemplate
  | .start t =>
    .done (if headNames.contains t.name then b.startInHead t else b.startInBody t)
  | .finish name =>
    match name with
    | "body" => .done (if b.hasInScope "body" then { b with mode := .afterBody } else b)
    | "html" => if b.hasInScope "body" then .again .afterBody b else .done b
    | name => .done (b.finishInBody name)

/-- Raw text, which ends at the end tag of its element. -/
def inText (b : Builder) (token : Token) : Step :=
  let back (b : Builder) : Builder := { b.pop with mode := b.returnMode, lexMode := .markup }
  match token with
  | .text cs => .done (b.putText cs)
  | .endOfMarkup => .again b.returnMode (back b)
  | .finish _ => .done (back b)
  | _ => .done b

/-! ### Tables -/

/-- Reads a token as in the body, with its nodes going before the table. -/
def foster (b : Builder) (token : Token) : Step :=
  match { b with fosters := true }.inBody token with
  | .done b => .done { b with fosters := false }
  | .again m b => .again m { b with fosters := false }

def isTablePart (b : Builder) : Bool :=
  b.currentIsOneOf ["table", "tbody", "tfoot", "thead", "tr"]

/-- Text in a table is held back until it is known whether it is all blank. -/
def textInTable (b : Builder) (token : Token) : Step :=
  if b.isTablePart then .again .inTableText { b with returnMode := b.mode }
  else b.foster token

def inTableContext : Builder → Nat → Bool := boundsTableScope
def inTableBodyContext (b : Builder) (i : Nat) : Bool :=
  b.isOneOf ["tbody", "tfoot", "thead", "template", "html"] i
def inRowContext (b : Builder) (i : Nat) : Bool := b.isOneOf ["tr", "template", "html"] i

/-- Puts the text held back into its place. -/
def flushTableText (b : Builder) : Builder :=
  let cs := b.tableText.reverse
  let b := { b with tableText := [], mode := b.returnMode }
  if allSpace cs then b.putText cs
  else { { b with fosters := true }.textInBody cs with fosters := false }

def inTableText (b : Builder) (token : Token) : Step :=
  match token with
  | .text cs => .done { b with tableText := cs.reverse ++ b.tableText }
  | .nul => .done b
  | _ => .again b.returnMode b.flushTableText

def startInTable (b : Builder) (t : StartTag) (token : Token) : Step :=
  let cleared := b.popUntilCurrent inTableContext
  match t.name with
  | "caption" => .done { cleared.pushMarker.openTag t with mode := .inCaption }
  | "colgroup" => .done { cleared.openTag t with mode := .inColumnGroup }
  | "col" => .again .inColumnGroup (cleared.openImplied "colgroup")
  | "tbody" | "tfoot" | "thead" => .done { cleared.openTag t with mode := .inTableBody }
  | "td" | "th" | "tr" => .again .inTableBody (cleared.openImplied "tbody")
  | "table" =>
    if b.hasInTableScope "table" then
      let b := (b.popThroughNamed "table").resetMode
      .again b.mode b
    else .done b
  | "style" | "script" | "template" => .done (b.startInHead t)
  | "input" => if isHidden t then .done (b.putVoid t) else b.foster token
  | "form" =>
    if b.hasOpen "template" || b.form.isSome then .done b
    else
      let (b, i) := b.putElement .html t.name t.attrs
      .done { b with form := some i }
  | _ => b.foster token

def inTable (b : Builder) (token : Token) : Step :=
  match token with
  | .text _ | .nul => b.textInTable token
  | .comment s => .done (b.putComment s)
  | .start t => b.startInTable t token
  | .finish name =>
    match name with
    | "table" =>
      .done (if b.hasInTableScope "table" then (b.popThroughNamed "table").resetMode else b)
    | "template" => .done b.endTemplate
    | name =>
      if tablePartNames.contains name || ["body", "html"].contains name then .done b
      else b.foster token
  | .endOfMarkup => b.inBody token
  | .doctype _ => .done b

/-- Closes the caption; the token then goes on in the table unless it was the
end tag of the caption. -/
def endCaption (b : Builder) (own : Bool) : Step :=
  if b.hasInTableScope "caption" then
    let b := (b.close "caption").clearFormatting
    if own then .done { b with mode := .inTable } else .again .inTable b
  else .done b

def inCaption (b : Builder) (token : Token) : Step :=
  match token with
  | .start t => if tablePartNames.contains t.name then b.endCaption false else b.inBody token
  | .finish name =>
    match name with
    | "caption" => b.endCaption true
    | "table" => b.endCaption false
    | name =>
      if tablePartNames.contains name || ["body", "html"].contains name then .done b
      else b.inBody token
  | _ => b.inBody token

def inColumnGroup (b : Builder) (token : Token) : Step :=
  let other := if b.currentIs "colgroup" then Step.again .inTable b.pop else .done b
  match token with
  | .text cs => if allSpace cs then .done (b.putText cs) else other
  | .comment s => .done (b.putComment s)
  | .start t =>
    match t.name with
    | "html" => .done (b.mergeRootAttrs t)
    | "col" => .done (b.putVoid t)
    | "template" => .done (b.startTemplate t)
    | _ => other
  | .finish name =>
    match name with
    | "colgroup" =>
      .done (if b.currentIs "colgroup" then { b.pop with mode := .inTable } else b)
    | "col" => .done b
    | "template" => .done b.endTemplate
    | _ => other
  | .endOfMarkup => b.inBody token
  | _ => other

/-- Leaves the row group, if one or a table is open. -/
def leaveTableBody (b : Builder) : Step :=
  if b.inScope boundsTableScope fun b i => b.isOneOf ["table", "tbody", "tfoot"] i then
    .again .inTable (b.popUntilCurrent inTableBodyContext).pop
  else .done b

def inTableBody (b : Builder) (token : Token) : Step :=
  let cleared := b.popUntilCurrent inTableBodyContext
  match token with
  | .start t =>
    match t.name with
    | "tr" => .done { cleared.openTag t with mode := .inRow }
    | "th" | "td" => .again .inRow (cleared.openImplied "tr")
    | "caption" | "col" | "colgroup" | "tbody" | "tfoot" | "thead" => b.leaveTableBody
    | _ => b.inTable token
  | .finish name =>
    match name with
    | "tbody" | "tfoot" | "thead" =>
      .done (if b.hasInTableScope name then { cleared.pop with mode := .inTable } else b)
    | "table" => b.leaveTableBody
    | "body" | "caption" | "col" | "colgroup" | "html" | "td" | "th" | "tr" => .done b
    | _ => b.inTable token
  | _ => b.inTable token

/-- Leaves the row, if one is open. -/
def leaveRow (b : Builder) : Step :=
  if b.hasInTableScope "tr" then .again .inTableBody (b.popUntilCurrent inRowContext).pop
  else .done b

def inRow (b : Builder) (token : Token) : Step :=
  let cleared := b.popUntilCurrent inRowContext
  match token with
  | .start t =>
    match t.name with
    | "th" | "td" => .done ({ cleared.openTag t with mode := .inCell }.pushMarker)
    | "caption" | "col" | "colgroup" | "tbody" | "tfoot" | "thead" | "tr" => b.leaveRow
    | _ => b.inTable token
  | .finish name =>
    match name with
    | "tr" =>
      .done (if b.hasInTableScope "tr" then { cleared.pop with mode := .inTableBody } else b)
    | "table" => b.leaveRow
    | "tbody" | "tfoot" | "thead" => if b.hasInTableScope name then b.leaveRow else .done b
    | "body" | "caption" | "col" | "colgroup" | "html" | "td" | "th" => .done b
    | _ => b.inTable token
  | _ => b.inTable token

/-- Closes the cell. -/
def closeCell (b : Builder) : Builder :=
  (b.closeAllImplied.popThrough fun b i => b.isOneOf ["td", "th"] i).clearFormatting

def inCell (b : Builder) (token : Token) : Step :=
  match token with
  | .start t =>
    if tablePartNames.contains t.name then
      if b.inScope boundsTableScope fun b i => b.isOneOf ["td", "th"] i then
        .again .inRow b.closeCell
      else .done b
    else b.inBody token
  | .finish name =>
    match name with
    | "td" | "th" =>
      .done (if b.hasInTableScope name then
        { (b.close name).clearFormatting with mode := .inRow } else b)
    | "body" | "caption" | "col" | "colgroup" | "html" => .done b
    | "table" | "tbody" | "tfoot" | "thead" | "tr" =>
      if b.hasInTableScope name then .again .inRow b.closeCell else .done b
    | _ => b.inBody token
  | _ => b.inBody token

/-! ### Selections -/

def hasInSelectScope (b : Builder) : Bool :=
  b.inScope boundsSelectScope fun b i => b.isHtml i "select"

/-- Closes the selection. -/
def closeSelect (b : Builder) : Builder := (b.popThroughNamed "select").resetMode

def popIf (b : Builder) (name : String) : Builder := if b.currentIs name then b.pop else b

def finishOptgroup (b : Builder) : Builder :=
  let b := match b.stack with
    | i :: j :: _ => if b.isHtml i "option" && b.isHtml j "optgroup" then b.pop else b
    | _ => b
  b.popIf "optgroup"

def inSelect (b : Builder) (token : Token) : Step :=
  match token with
  | .text cs => .done (b.putText cs)
  | .comment s => .done (b.putComment s)
  | .start t =>
    match t.name with
    | "html" => .done (b.mergeRootAttrs t)
    | "option" => .done ((b.popIf "option").openTag t)
    | "optgroup" => .done (((b.popIf "option").popIf "optgroup").openTag t)
    | "select" => .done (if b.hasInSelectScope then b.closeSelect else b)
    | "input" | "keygen" | "textarea" =>
      if b.hasInSelectScope then
        let b := b.closeSelect
        .again b.mode b
      else .done b
    | "script" | "template" => .done (b.startInHead t)
    | _ => .done b
  | .finish name =>
    match name with
    | "optgroup" => .done b.finishOptgroup
    | "option" => .done (b.popIf "option")
    | "select" => .done (if b.hasInSelectScope then b.closeSelect else b)
    | "template" => .done b.endTemplate
    | _ => .done b
  | .endOfMarkup => b.inBody token
  | _ => .done b

/-- Parts of a table that end a selection inside it. -/
def selectBreakNames : List String :=
  ["caption", "table", "tbody", "tfoot", "thead", "tr", "td", "th"]

def inSelectInTable (b : Builder) (token : Token) : Step :=
  let leave := let b := b.closeSelect; Step.again b.mode b
  match token with
  | .start t => if selectBreakNames.contains t.name then leave else b.inSelect token
  | .finish name =>
    if selectBreakNames.contains name then
      if b.hasInTableScope name then leave else .done b
    else b.inSelect token
  | _ => b.inSelect token

/-! ### Templates, frames and the end -/

/-- Goes on as in another mode for the rest of the template. -/
def inTemplateAs (b : Builder) (m : Mode) : Step :=
  .again m { b with templateModes := m :: b.templateModes.tail }

def inTemplate (b : Builder) (token : Token) : Step :=
  match token with
  | .start t =>
    if headNames.contains t.name then .done (b.startInHead t)
    else
      match t.name with
      | "caption" | "colgroup" | "tbody" | "tfoot" | "thead" => b.inTemplateAs .inTable
      | "col" => b.inTemplateAs .inColumnGroup
      | "tr" => b.inTemplateAs .inTableBody
      | "td" | "th" => b.inTemplateAs .inRow
      | _ => b.inTemplateAs .inBody
  | .finish name => .done (if name == "template" then b.endTemplate else b)
  | .endOfMarkup => b.endInTemplate
  | _ => b.inBody token

def inAfterBody (b : Builder) (token : Token) : Step :=
  match token with
  | .text cs => if allSpace cs then b.inBody token else .again .inBody b
  | .comment s => .done (b.putCommentIn b.rootElement s)
  | .start t => if t.name == "html" then .done (b.mergeRootAttrs t) else .again .inBody b
  | .finish name =>
    if name == "html" then .done (if b.isFragment then b else { b with mode := .afterAfterBody })
    else .again .inBody b
  | .endOfMarkup => .done b
  | _ => .again .inBody b

def inFrameset (b : Builder) (token : Token) : Step :=
  match token with
  | .text cs => .done (if allSpace cs then b.putText cs else b)
  | .comment s => .done (b.putComment s)
  | .start t =>
    match t.name with
    | "html" => .done (b.mergeRootAttrs t)
    | "frameset" => .done (b.openTag t)
    | "frame" => .done (b.putVoid t)
    | "noframes" => .done (b.startInHead t)
    | _ => .done b
  | .finish name =>
    if name == "frameset" && b.stack.length > 1 then
      let b := b.pop
      .done (if !b.isFragment && !b.currentIs "frameset" then
        { b with mode := .afterFrameset } else b)
    else .done b
  | _ => .done b

def inAfterFrameset (b : Builder) (token : Token) : Step :=
  match token with
  | .text cs => .done (if allSpace cs then b.putText cs else b)
  | .comment s => .done (b.putComment s)
  | .start t =>
    match t.name with
    | "html" => .done (b.mergeRootAttrs t)
    | "noframes" => .done (b.startInHead t)
    | _ => .done b
  | .finish name => .done (if name == "html" then { b with mode := .afterAfterFrameset } else b)
  | _ => .done b

def inAfterAfterBody (b : Builder) (token : Token) : Step :=
  match token with
  | .text cs => if allSpace cs then b.inBody token else .again .inBody b
  | .comment s => .done (b.putCommentIn 0 s)
  | .start t => if t.name == "html" then .done (b.mergeRootAttrs t) else .again .inBody b
  | .endOfMarkup => .done b
  | _ => .again .inBody b

def inAfterAfterFrameset (b : Builder) (token : Token) : Step :=
  match token with
  | .text cs => if allSpace cs then b.inBody token else .done b
  | .comment s => .done (b.putCommentIn 0 s)
  | .start t =>
    match t.name with
    | "html" => .done (b.mergeRootAttrs t)
    | "noframes" => .done (b.startInHead t)
    | _ => .done b
  | _ => .done b

/-- What a token does in the present mode. -/
def inMode (b : Builder) (token : Token) : Step :=
  match b.mode with
  | .initial => b.inInitial token
  | .beforeHtml => b.inBeforeHtml token
  | .beforeHead => b.inBeforeHead token
  | .inHead => b.inHead token
  | .afterHead => b.inAfterHead token
  | .inBody => b.inBody token
  | .text => b.inText token
  | .inTable => b.inTable token
  | .inTableText => b.inTableText token
  | .inCaption => b.inCaption token
  | .inColumnGroup => b.inColumnGroup token
  | .inTableBody => b.inTableBody token
  | .inRow => b.inRow token
  | .inCell => b.inCell token
  | .inSelect => b.inSelect token
  | .inSelectInTable => b.inSelectInTable token
  | .inTemplate => b.inTemplate token
  | .afterBody => b.inAfterBody token
  | .inFrameset => b.inFrameset token
  | .afterFrameset => b.inAfterFrameset token
  | .afterAfterBody => b.inAfterAfterBody token
  | .afterAfterFrameset => b.inAfterAfterFrameset token

/-! ### Foreign content -/

/-- The current node is outside of HTML. -/
def currentIsForeign (b : Builder) : Bool :=
  (b.stack.head?.map fun i => (b.tag i).vocabulary != .html).getD false

/-- The token is read by the rules of foreign content. -/
def readsForeign (b : Builder) (token : Token) : Bool :=
  match b.stack with
  | [] => false
  | i :: _ =>
    if (b.tag i).vocabulary = .html then false
    else
      match token with
      | .endOfMarkup => false
      | .text _ | .nul => !(b.isMathText i || b.isSvgHtml i)
      | .start t =>
        !((b.isMathText i && t.name != "mglyph" && t.name != "malignmark") || b.isSvgHtml i ||
          ((b.tag i).vocabulary = .mathml && (b.tag i).name == "annotation-xml" && t.name == "svg"))
      | _ => true

/-- Pops to the nearest element that may hold HTML. -/
def leaveForeign (b : Builder) : Builder :=
  b.popUntilCurrent fun b i => (b.tag i).vocabulary = .html || b.isMathText i || b.isSvgHtml i

/-- An end tag in foreign content: `below` are the open elements from the
current one on. -/
def finishForeign (b : Builder) (name : String) (token : Token) (first : Bool) : List Nat → Step
  | [] | [_] => .done b
  | i :: rest =>
    if !first && (b.tag i).vocabulary = .html then b.inMode token
    else if Text.asciiLower (b.tag i).name == name then .done { b with stack := rest }
    else finishForeign b name token false rest

/-- What a token does in foreign content. -/
def inForeign (b : Builder) (token : Token) : Step :=
  match token with
  | .nul => .done (b.putText [replacement])
  | .text cs =>
    let b := b.putText cs
    .done (if allSpace cs then b else { b with framesetOk := false })
  | .comment s => .done (b.putComment s)
  | .start t =>
    let breaksFont := t.name == "font" &&
      t.attrs.any fun a => ["color", "face", "size"].contains a.name
    if foreignBreakNames.contains t.name || breaksFont then b.leaveForeign.inMode token
    else .done (b.openForeign ((b.stack.head?.map fun i => (b.tag i).vocabulary).getD .html) t)
  | .finish name =>
    if name == "br" || name == "p" then b.leaveForeign.inMode token
    else b.finishForeign name token true b.stack
  | _ => .done b

/-! ### The whole page -/

/-- Reads a token, again and again if need be; `fuel` bounds how often. -/
def feed (fuel : Nat) (b : Builder) (token : Token) : Builder :=
  match fuel with
  | 0 => b
  | fuel + 1 =>
    match (if b.readsForeign token then b.inForeign token else b.inMode token) with
    | .done b => b
    | .again mode b => feed fuel { b with mode } token

/-- Bound for how often one token is read: every time something is closed or
opened on the way. -/
def patience (b : Builder) : Nat := 8 * (b.stack.length + 8)

/-- The maximal runs of blanks and of other characters. -/
def runs (cs : List Char) : List (List Char) :=
  cs.splitBy fun a b => isSpace a == isSpace b

/-- Text is told apart into blanks and other characters. -/
def splitsText (m : Mode) : Bool :=
  match m with
  | .initial | .beforeHtml | .beforeHead | .inHead | .afterHead | .inColumnGroup | .afterBody
  | .inFrameset | .afterFrameset | .afterAfterBody | .afterAfterFrameset => true
  | _ => false

/-- Old document types put a page in the old style. -/
def isOld (d : Doctype) : Bool :=
  let id := d.publicId.map Text.asciiLower
  let startsWith (leads : List String) : Bool :=
    match id with
    | some s => leads.any fun lead => (Text.stripLead lead s).isSome
    | none => false
  d.malformed || d.name != "html" || (id.map oldWholeIds.contains).getD false ||
    startsWith oldIds || (startsWith oldAloneIds && d.systemId.isNone)

/-- Reads the next token of the page. -/
def read (b : Builder) (token : Token) : Builder :=
  let dropsLineFeed := b.dropsLineFeed
  let b := { b with dropsLineFeed := false }
  match token with
  | .doctype d =>
    if b.mode = .initial then { b with oldStyle := isOld d, mode := .beforeHtml } else b
  | .text cs =>
    let cs := match dropsLineFeed, cs with
      | true, '\n' :: rest => rest
      | _, cs => cs
    if cs.isEmpty then b
    else if splitsText b.mode then
      (runs cs).foldl (fun b run => b.feed b.patience (.text run)) b
    else b.feed b.patience (.text cs)
  | token => b.feed b.patience token

/-- Reads all markup up to its end. -/
def readAll (b : Builder) (cs : List Char) : Builder :=
  match cs with
  | [] => b.read .endOfMarkup
  | c :: more =>
    match nextToken b.lexMode b.currentIsForeign (c :: more) with
    | (token, rest) =>
      let b := match token with
        | some token => b.read token
        | none => b
      if _h : rest.length < (c :: more).length then b.readAll rest else b
termination_by cs.length
decreasing_by simp only [List.length_cons] at *; omega

end Builder

namespace Page

/-- The page that markup spells. -/
def ofMarkup (s : String) : Page :=
  (({} : Builder).readAll (normalize s)).arena.toPage false

/-- The fragment that markup spells where it stands in a body. -/
def fragmentOfMarkup (s : String) : Page :=
  let (arena, _) := Arena.empty.make (.element ⟨1, .html, "body", []⟩)
  let b : Builder := { arena, isFragment := true }
  let b := b.makeRoot []
  (({ b with mode := .inBody } : Builder).readAll (normalize s)).arena.toPage true

end Page

end SiteScrape.Html
