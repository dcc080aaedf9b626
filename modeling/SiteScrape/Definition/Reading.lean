import SiteScrape.Definition.Basic

/-!
# Reading site definitions

Every part of a definition is read off a JSON value; what does not have the
form of its part is refused as a whole.
-/

namespace SiteScrape

open Decode

/-- Field descriptions by name, sorted. -/
def Field.decodeMap : Decoder (Assoc Field) := sortedMap Field.decode

def Access.decode : Decoder Access := oneOf [("private", .membersOnly), ("public", .anyone)]

def CategoryOption.decode : Decoder CategoryOption := fun v => do
  let e ← record ["name", "value"] v
  some { name := ← required e "name" string, value := ← required e "value" any }

def Category.decode : Decoder Category := fun v => do
  let e ← record ["name", "key", "options", "cross"] v
  some {
    name := ← required e "name" string
    key := ← required e "key" string
    options := ← withDefault e "options" (list CategoryOption.decode) []
    cross := ← withDefault e "cross" bool false }

def TaggedKeywords.decode : Decoder TaggedKeywords := fun v => do
  let e ← record ["enabled", "requestConfig", "requestConfigTransformer", "keywordPath"] v
  some {
    enabled := ← Decode.optional e "enabled" bool
    requestConfig := ← Decode.optional e "requestConfig" any
    transformer := ← Decode.optional e "requestConfigTransformer" string
    keywordPath := ← Decode.optional e "keywordPath" string }

def KeywordRule.decode : Decoder KeywordRule
  | .bool enabled => some (.flag enabled)
  | v => (TaggedKeywords.decode v).map .described

def Grouping.decode : Decoder Grouping := fun v => do
  let e ← record ["groupClass", "childClass", "skipClass", "groupId", "childGroupId",
    "childrenPath", "inherit", "compensateSpan", "selectors"] v
  let plain : Grouping := {}
  some {
    groupClass := ← withDefault e "groupClass" string plain.groupClass
    childClass := ← withDefault e "childClass" string plain.childClass
    skipClass := ← Decode.optional e "skipClass" string
    groupId := ← withDefault e "groupId" Field.decode {}
    childGroupId := ← withDefault e "childGroupId" Field.decode {}
    childrenPath := ← Decode.optional e "childrenPath" string
    inherit := ← withDefault e "inherit" (list string) plain.inherit
    compensateSpan := ← withDefault e "compensateSpan" bool true
    selectors := ← withDefault e "selectors" Field.decodeMap [] }

def ColumnMarks.decode : Decoder ColumnMarks := fun v => do
  let e ← record ["header", "markers"] v
  some {
    header := ← withDefault e "header" oneOrMany []
    markers := ← withDefault e "markers" (sortedMap (list string)) [] }

def RowSource.decode : Decoder RowSource := fun v => do
  let e ← record ["selector", "filter", "merge", "group", "columns"] v
  some {
    selectors := ← withDefault e "selector" oneOrMany []
    filter := ← Decode.optional e "filter" string
    merge := ← Decode.optional e "merge" (natBelow 0x10000000000000000)
    group := ← Decode.optional e "group" Grouping.decode
    columns := ← Decode.optional e "columns" ColumnMarks.decode }

/-- The entry `rows` locates rows; every other entry describes a field. -/
def RowReading.decode : Decoder RowReading := fun v => do
  let e ← openRecord ["rows"] v
  some {
    rows := ← Decode.optional e "rows" RowSource.decode
    fields := ← sortedPairs Field.decode (e.filter (·.1 != "rows")) }

def SearchEntry.decode : Decoder SearchEntry := fun v => do
  let e ← record ["id", "name", "enabled", "requestConfig", "requestConfigTransformer",
    "keywordPath", "advanceKeywordParams", "selectors", "categories"] v
  some {
    id := ← Decode.optional e "id" string
    name := ← Decode.optional e "name" string
    enabled := ← Decode.optional e "enabled" bool
    requestConfig := ← Decode.optional e "requestConfig" any
    transformer := ← Decode.optional e "requestConfigTransformer" string
    keywordPath := ← Decode.optional e "keywordPath" string
    keywordRules := ← withDefault e "advanceKeywordParams" (sortedMap KeywordRule.decode) []
    selectors := ← Decode.optional e "selectors" RowReading.decode
    categories := ← withDefault e "categories" (list Category.decode) [] }

def AccountStep.decode : Decoder AccountStep := fun v => do
  let e ← record ["requestConfig", "fields", "assertion", "selectors",
    "requestConfigTransformer"] v
  let assertion ← withDefault e "assertion" (orderedMap string) ⟨[], .nil⟩
  some {
    requestConfig := ← withDefault e "requestConfig" any .null
    fields := ← withDefault e "fields" (list string) []
    assertion := assertion.1
    assertion_sorted := assertion.2
    selectors := ← Decode.optional e "selectors" Field.decodeMap
    transformer := ← Decode.optional e "requestConfigTransformer" string }

def AccountPlan.decode : Decoder AccountPlan := fun v => do
  let e ← record ["pickLast", "process", "selectors"] v
  some {
    pickLast := ← withDefault e "pickLast" (list string) []
    process := ← withDefault e "process" (list AccountStep.decode) []
    selectors := ← withDefault e "selectors" Field.decodeMap [] }

def DetailPage.decode : Decoder DetailPage := fun v => do
  let e ← record ["requestConfig", "selectors"] v
  some {
    requestConfig := ← Decode.optional e "requestConfig" any
    selectors := ← withDefault e "selectors" Field.decodeMap [] }

def ListPage.decode : Decoder ListPage := fun v => do
  let e ← record ["urlPattern", "mergeSearchSelectors", "selectors"] v
  some {
    urlPatterns := ← withDefault e "urlPattern" oneOrMany []
    mergeSearchSelectors := ← withDefault e "mergeSearchSelectors" bool true
    selectors := ← Decode.optional e "selectors" RowReading.decode }

def LevelRequirement.decode : Decoder LevelRequirement := fun v => do
  let e ← record ["id", "name", "interval", "uploaded", "downloaded", "ratio", "bonus",
    "uploads", "privilege"] v
  some {
    id := ← required e "id" uint32
    name := ← required e "name" string
    interval := ← Decode.optional e "interval" uint32
    uploaded := ← Decode.optional e "uploaded" string
    downloaded := ← Decode.optional e "downloaded" string
    ratio := ← Decode.optional e "ratio" float
    bonus := ← Decode.optional e "bonus" float
    uploads := ← Decode.optional e "uploads" uint64
    privilege := ← Decode.optional e "privilege" string }

def Metadata.decode : Decoder Metadata := fun v => do
  let e ← record ["id", "name", "description", "tags", "schema", "type", "urls", "legacyUrls",
    "timezoneOffset", "isOffline", "allowSearch", "allowQueryUserInfo", "strictLoginCheck",
    "userInput", "category", "search", "searchEntry", "userInfo", "detail", "list",
    "levelRequirements"] v
  some {
    id := ← required e "id" string
    name := ← withDefault e "name" string ""
    description := ← Decode.optional e "description" string
    tags := ← withDefault e "tags" (list string) []
    schema := ← withDefault e "schema" string "common"
    access := ← withDefault e "type" Access.decode .membersOnly
    urls := ← withDefault e "urls" (list string) []
    legacyUrls := ← withDefault e "legacyUrls" (list string) []
    timezoneOffset := ← Decode.optional e "timezoneOffset" string
    isOffline := ← withDefault e "isOffline" bool false
    searchAllowed := ← Decode.optional e "allowSearch" bool
    userInfoAllowed := ← Decode.optional e "allowQueryUserInfo" bool
    strictLoginCheck := ← withDefault e "strictLoginCheck" bool false
    userInput := ← withDefault e "userInput" (sortedMap string) []
    categories := ← withDefault e "category" (list Category.decode) []
    search := ← Decode.optional e "search" SearchEntry.decode
    searchEntries := ← withDefault e "searchEntry" (sortedMap SearchEntry.decode) []
    userInfo := ← Decode.optional e "userInfo" AccountPlan.decode
    detail := ← Decode.optional e "detail" DetailPage.decode
    lists := ← withDefault e "list" (list ListPage.decode) []
    levelRequirements := ← withDefault e "levelRequirements" (list LevelRequirement.decode) [] }

end SiteScrape
