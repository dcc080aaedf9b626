import SiteScrape.Field.Basic

/-!
# Site definitions

What the engine knows about one site: its addresses, how to build search
requests, how to read torrents off pages, and how to collect account data.
-/

namespace SiteScrape

/-- Whether anyone may join. -/
inductive Access where
  | membersOnly
  | anyone
  deriving DecidableEq, Repr

/-- One choice of a search filter. -/
structure CategoryOption where
  name : String
  value : Json

/-- A search filter that a site offers. -/
structure Category where
  name : String
  key : String
  options : List CategoryOption
  /-- Several options may be chosen at once. -/
  cross : Bool

/-- What to do with keywords that begin with a tag such as `imdb|`. -/
structure TaggedKeywords where
  enabled : Option Bool := none
  requestConfig : Option Json := none
  transformer : Option String := none
  keywordPath : Option String := none

/-- Handling of one tag: switched on or off, or described. -/
inductive KeywordRule where
  | flag (enabled : Bool)
  | described (entry : TaggedKeywords)

namespace KeywordRule

def isEnabled : KeywordRule → Bool
  | .flag enabled => enabled
  | .described entry => entry.enabled.getD true

/-- The description, when there is one. -/
def entry? : KeywordRule → Option TaggedKeywords
  | .flag _ => none
  | .described entry => some entry

end KeywordRule

/-- Rows in groups: a header row, or object, and the torrents below it. -/
structure Grouping where
  /-- Class of header rows. -/
  groupClass : String := "group"
  /-- Class of torrent rows below a header. -/
  childClass : String := "group_torrent"
  /-- Class of rows to leave out. -/
  skipClass : Option String := none
  groupId : Field := {}
  childGroupId : Field := {}
  /-- Where a group object holds its torrents. -/
  childrenPath : Option String := none
  /-- Fields that a torrent takes from its group. -/
  inherit : List String := ["title", "category"]
  /-- Pad torrent rows that cells of the header row reach into. -/
  compensateSpan : Bool := true
  /-- Fields of the header row. -/
  selectors : Assoc Field := []

/-- Columns found by marks in the header cells. -/
structure ColumnMarks where
  header : List String := []
  /-- For each field, texts to look for in the markup of a header cell. -/
  markers : Assoc (List String) := []

/-- Where the rows of a page are. -/
structure RowSource where
  selectors : List String := []
  filter : Option String := none
  /-- How many consecutive rows form one torrent. -/
  merge : Option Nat := none
  group : Option Grouping := none
  columns : Option ColumnMarks := none

/-- How to read torrents off a page. -/
structure RowReading where
  rows : Option RowSource := none
  fields : Assoc Field := []

/-- One way to search a site. -/
structure SearchEntry where
  id : Option String := none
  name : Option String := none
  enabled : Option Bool := none
  /-- Parts of the request, on top of the basic one. -/
  requestConfig : Option Json := none
  transformer : Option String := none
  keywordPath : Option String := none
  keywordRules : Assoc KeywordRule := []
  selectors : Option RowReading := none
  categories : List Category := []

namespace SearchEntry

def isEnabled (e : SearchEntry) : Bool := e.enabled.getD true

/-- Where keywords go in the request. -/
def keywordsAt (e : SearchEntry) : String := e.keywordPath.getD "params.keywords"

end SearchEntry

/-- One request of an account query. -/
structure AccountStep where
  requestConfig : Json := .null
  fields : List String := []
  /-- Fields that must be known, and where they go in the request. -/
  assertion : Assoc String := []
  assertion_sorted : assertion.Sorted := by exact Assoc.sorted_nil
  selectors : Option (Assoc Field) := none
  transformer : Option String := none

/-- How account data is collected. -/
structure AccountPlan where
  /-- Fields carried over from the record before. -/
  pickLast : List String := []
  process : List AccountStep := []
  selectors : Assoc Field := []

/-- The page of one torrent. -/
structure DetailPage where
  requestConfig : Option Json := none
  selectors : Assoc Field := []

/-- A page of torrents other than a search. -/
structure ListPage where
  /-- Patterns of the addresses of such pages. -/
  urlPatterns : List String := []
  /-- Its readings stand on top of those of the search. -/
  mergeSearchSelectors : Bool := true
  selectors : Option RowReading := none

/-- What an account needs to reach a level. -/
structure LevelRequirement where
  id : UInt32
  name : String
  /-- Weeks since joining. -/
  interval : Option UInt32 := none
  uploaded : Option String := none
  downloaded : Option String := none
  ratio : Option Float := none
  bonus : Option Float := none
  uploads : Option UInt64 := none
  privilege : Option String := none

/-- All that the engine knows about one site. -/
structure Metadata where
  id : String
  name : String := ""
  description : Option String := none
  tags : List String := []
  schema : String := "common"
  access : Access := .membersOnly
  urls : List String := []
  legacyUrls : List String := []
  /-- Offset from UTC of the times that the site shows. -/
  timezoneOffset : Option String := none
  isOffline : Bool := false
  searchAllowed : Option Bool := none
  userInfoAllowed : Option Bool := none
  /-- Also take short pages with a login form for logged out. -/
  strictLoginCheck : Bool := false
  /-- Keys and names that the user gave. -/
  userInput : Assoc String := []
  categories : List Category := []
  search : Option SearchEntry := none
  searchEntries : Assoc SearchEntry := []
  userInfo : Option AccountPlan := none
  detail : Option DetailPage := none
  lists : List ListPage := []
  levelRequirements : List LevelRequirement := []

namespace Metadata

/-- Searching is switched on and the site is online. -/
def allowsSearch (m : Metadata) : Bool := !m.isOffline && m.searchAllowed.getD false

/-- Account queries are switched on and the site is online. -/
def allowsUserInfo (m : Metadata) : Bool := !m.isOffline && m.userInfoAllowed.getD false

/-- The address that requests go to. -/
def baseUrl? (m : Metadata) : Option String := m.urls.head?

end Metadata

end SiteScrape
