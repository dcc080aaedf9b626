import SiteScrape.Definition.Basic

/-!
# Writing site definitions

The written form of a definition leaves out what is absent, and of lists and
maps those that need not stand when empty.
-/

namespace SiteScrape

open SiteScrape.Field (unlessEmpty)

def Field.encodeMap (fields : Assoc Field) : Json := .obj (fields.mapValues Field.encode)

/-- An absent text leaves no entry. -/
def optionalText (key : String) (s : Option String) : Fields :=
  Json.optional key (s.map .str)

def optionalBool (key : String) (b : Option Bool) : Fields :=
  Json.optional key (b.map .bool)

def Access.encode : Access → Json
  | .membersOnly => .str "private"
  | .anyone => .str "public"

def CategoryOption.encode (o : CategoryOption) : Json :=
  .obj [("name", .str o.name), ("value", o.value)]

def Category.encode (c : Category) : Json :=
  .obj [("name", .str c.name), ("key", .str c.key),
    ("options", .arr (c.options.map CategoryOption.encode)), ("cross", .bool c.cross)]

def TaggedKeywords.encode (t : TaggedKeywords) : Json :=
  .obj (optionalBool "enabled" t.enabled ++ Json.optional "requestConfig" t.requestConfig ++
    optionalText "requestConfigTransformer" t.transformer ++
    optionalText "keywordPath" t.keywordPath)

def KeywordRule.encode : KeywordRule → Json
  | .flag enabled => .bool enabled
  | .described entry => entry.encode

def Grouping.encode (g : Grouping) : Json :=
  .obj ([("groupClass", .str g.groupClass), ("childClass", .str g.childClass)] ++
    optionalText "skipClass" g.skipClass ++
    [("groupId", g.groupId.encode), ("childGroupId", g.childGroupId.encode)] ++
    optionalText "childrenPath" g.childrenPath ++
    [("inherit", .ofStrings g.inherit), ("compensateSpan", .bool g.compensateSpan)] ++
    unlessEmpty "selectors" g.selectors.isEmpty (Field.encodeMap g.selectors))

def ColumnMarks.encode (c : ColumnMarks) : Json :=
  .obj [("header", .ofStrings c.header), ("markers", .obj (c.markers.mapValues .ofStrings))]

def RowSource.encode (r : RowSource) : Json :=
  .obj ([("selector", .ofStrings r.selectors)] ++ optionalText "filter" r.filter ++
    Json.optional "merge" (r.merge.map fun n => .ofInt n) ++
    Json.optional "group" (r.group.map Grouping.encode) ++
    Json.optional "columns" (r.columns.map ColumnMarks.encode))

def RowReading.encode (r : RowReading) : Json :=
  .obj (Json.optional "rows" (r.rows.map RowSource.encode) ++ r.fields.mapValues Field.encode)

def SearchEntry.encode (s : SearchEntry) : Json :=
  .obj (optionalText "id" s.id ++ optionalText "name" s.name ++ optionalBool "enabled" s.enabled ++
    Json.optional "requestConfig" s.requestConfig ++
    optionalText "requestConfigTransformer" s.transformer ++
    optionalText "keywordPath" s.keywordPath ++
    unlessEmpty "advanceKeywordParams" s.keywordRules.isEmpty
      (.obj (s.keywordRules.mapValues KeywordRule.encode)) ++
    Json.optional "selectors" (s.selectors.map RowReading.encode) ++
    unlessEmpty "categories" s.categories.isEmpty (.arr (s.categories.map Category.encode)))

def AccountStep.encode (s : AccountStep) : Json :=
  .obj ([("requestConfig", s.requestConfig), ("fields", .ofStrings s.fields)] ++
    unlessEmpty "assertion" s.assertion.isEmpty (.obj (s.assertion.mapValues .str)) ++
    Json.optional "selectors" (s.selectors.map Field.encodeMap) ++
    optionalText "requestConfigTransformer" s.transformer)

def AccountPlan.encode (p : AccountPlan) : Json :=
  .obj [("pickLast", .ofStrings p.pickLast), ("process", .arr (p.process.map AccountStep.encode)),
    ("selectors", Field.encodeMap p.selectors)]

def DetailPage.encode (d : DetailPage) : Json :=
  .obj (Json.optional "requestConfig" d.requestConfig ++
    [("selectors", Field.encodeMap d.selectors)])

def ListPage.encode (l : ListPage) : Json :=
  .obj ([("urlPattern", .ofStrings l.urlPatterns),
    ("mergeSearchSelectors", .bool l.mergeSearchSelectors)] ++
    Json.optional "selectors" (l.selectors.map RowReading.encode))

def LevelRequirement.encode (r : LevelRequirement) : Json :=
  .obj ([("id", .ofInt r.id.toNat), ("name", .str r.name)] ++
    Json.optional "interval" (r.interval.map fun n => .ofInt n.toNat) ++
    optionalText "uploaded" r.uploaded ++ optionalText "downloaded" r.downloaded ++
    Json.optional "ratio" (r.ratio.map .ofFloat) ++ Json.optional "bonus" (r.bonus.map .ofFloat) ++
    Json.optional "uploads" (r.uploads.map .ofUInt64) ++ optionalText "privilege" r.privilege)

def Metadata.encode (m : Metadata) : Json :=
  .obj ([("id", .str m.id), ("name", .str m.name)] ++ optionalText "description" m.description ++
    unlessEmpty "tags" m.tags.isEmpty (.ofStrings m.tags) ++
    [("schema", .str m.schema), ("type", m.access.encode), ("urls", .ofStrings m.urls)] ++
    unlessEmpty "legacyUrls" m.legacyUrls.isEmpty (.ofStrings m.legacyUrls) ++
    optionalText "timezoneOffset" m.timezoneOffset ++ [("isOffline", .bool m.isOffline)] ++
    optionalBool "allowSearch" m.searchAllowed ++
    optionalBool "allowQueryUserInfo" m.userInfoAllowed ++
    [("strictLoginCheck", .bool m.strictLoginCheck)] ++
    unlessEmpty "userInput" m.userInput.isEmpty (.obj (m.userInput.mapValues .str)) ++
    unlessEmpty "category" m.categories.isEmpty (.arr (m.categories.map Category.encode)) ++
    Json.optional "search" (m.search.map SearchEntry.encode) ++
    unlessEmpty "searchEntry" m.searchEntries.isEmpty
      (.obj (m.searchEntries.mapValues SearchEntry.encode)) ++
    Json.optional "userInfo" (m.userInfo.map AccountPlan.encode) ++
    Json.optional "detail" (m.detail.map DetailPage.encode) ++
    unlessEmpty "list" m.lists.isEmpty (.arr (m.lists.map ListPage.encode)) ++
    unlessEmpty "levelRequirements" m.levelRequirements.isEmpty
      (.arr (m.levelRequirements.map LevelRequirement.encode)))

end SiteScrape
