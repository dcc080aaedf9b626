import SiteScrape.Schema.Labels
import SiteScrape.Schema.Plain
import SiteScrape.Time.Offset

/-!
# NexusPHP

Sites of this kind show torrents in one table whose columns differ, and their
profile pages have labels in several languages. Times are those of China.
-/

namespace SiteScrape.Schema.NexusPhp

def offsetText : String := "+0800"

def offset : Int := (Time.offsetOfText? offsetText).getD 0

def uploaded : List String := ["上传量", "上傳量", "Uploaded"]
def downloaded : List String := ["下载量", "下載量", "Downloaded"]
def bonus : List String := ["魔力值", "魔力", "Bonus", "Karma"]
def seeding : List String := ["当前做种", "當前做種", "Seeding"]
def level : List String := ["等级", "等級", "Class"]
def joined : List String := ["加入日期", "Join date"]

/-- The time of a row: the title of a span, or else the text as an age. -/
def rowTime (now : Int) (source : Source) : Json :=
  match source.element? with
  | none => .null
  | some cell =>
    match (Labels.select cell "span[title]").head?.bind fun s => s.attr? "title" with
    | some title => .str (Text.trim title)
    | none =>
      let text := Text.trim cell.text
      if text.isEmpty then .null else .ofInt (Age.parse text now)

def detailLink : String := "a[href*='details.php?id=']"

/-- The text of the name cell without the title in it. -/
def subTitle (source : Source) : Json :=
  let cell := source.element?.bind fun table =>
    (Labels.select table "td.embedded").findSome? fun cell =>
      (Labels.select cell detailLink).head?.map fun link => (cell, link)
  match cell with
  | some (cell, link) => .str (Text.collapse (Text.replaceFirst link.text "" cell.text))
  | none => .null

/-- The class of an account: the title of its icon, or the text. -/
def levelName (source : Source) : Json :=
  match Labels.element? source level with
  | none => .null
  | some row =>
    match (Labels.select row "img").head?.bind fun icon =>
        (icon.attr? "title").or (icon.attr? "alt") with
    | some name => .str (Text.trim name)
    | none => Labels.text source level

/-- The row is not the header of the table. -/
def isTorrentRow (source : Source) : Bool :=
  !source.element?.any fun row => !(Labels.select row "td.colhead").isEmpty

def layer : Json :=
  .obj [
    ("schema", .str "nexusphp"),
    ("search", .obj [
      ("keywordPath", .str "params.search"),
      ("requestConfig", .obj [
        ("url", .str "/torrents.php"),
        ("params", .obj [("notnewword", .ofInt 1)])]),
      ("advanceKeywordParams", .obj [
        ("imdb", .obj [("requestConfig", .obj [("params", .obj [("search_area", .ofInt 4)])])])]),
      ("selectors", .obj [
        ("rows", .obj [
          ("selector", .str "table.torrents > tbody > tr"),
          ("filter", .str "nexusphpTorrentRow"),
          ("columns", .obj [
            ("header", .str "table.torrents > tbody > tr:first-child"),
            ("markers", .obj [
              ("comments", .ofStrings ["sort=3"]),
              ("time", .ofStrings ["sort=4"]),
              ("size", .ofStrings ["sort=5"]),
              ("seeders", .ofStrings ["sort=7"]),
              ("leechers", .ofStrings ["sort=8"]),
              ("completed", .ofStrings ["sort=6"])])])]),
        ("id", .obj [
          ("selector", .str "a[href*='details.php?id=']"),
          ("attr", .str "href"),
          ("filters", .arr [.obj [("name", .str "querystring"), ("args", .ofStrings ["id"])]])]),
        ("title", .obj [
          ("selector", .ofStrings [
            "table.torrentname a[href*='details.php?id='] b", "a[href*='details.php?id=']"])]),
        ("subTitle", .obj [
          ("selector", .str "table.torrentname"),
          ("elementProcess", .str "nexusphpSubTitle")]),
        ("url", .obj [("selector", .str "a[href*='details.php?id=']"), ("attr", .str "href")]),
        ("link", .obj [("selector", .str "a[href*='download.php?id=']"), ("attr", .str "href")]),
        ("category", .obj [
          ("selector", .ofStrings ["a[href*='cat='] img", "img[class^='c_']"]),
          ("attr", .str "alt")]),
        ("time", .obj [("elementProcess", .str "nexusphpTime")])])]),
    ("userInfo", .obj [
      ("process", .arr [
        .obj [
          ("requestConfig", .obj [("url", .str "/index.php"), ("responseType", .str "document")]),
          ("fields", .ofStrings ["id", "name", "messageCount"])],
        .obj [
          ("requestConfig", .obj [
            ("url", .str "/userdetails.php"),
            ("params", .obj [("id", .str "$id$")]),
            ("responseType", .str "document")]),
          ("assertion", .obj [("id", .str "params.id")]),
          ("fields", .ofStrings [
            "uploaded", "downloaded", "levelName", "bonus", "joinTime", "seeding"])]]),
      ("selectors", .obj [
        ("id", .obj [
          ("selector", .ofStrings [
            "#info_block a[href*='userdetails.php']", "a[href*='userdetails.php']"]),
          ("attr", .str "href"),
          ("filters", .arr [.obj [("name", .str "querystring"), ("args", .ofStrings ["id"])]])]),
        ("name", .obj [
          ("selector", .ofStrings [
            "#info_block a[href*='userdetails.php']", "a[href*='userdetails.php']"])]),
        ("messageCount", .obj [
          ("selector", .str "a[href*='messages.php'] font[color='red'], a[href*='messages.php'] b"),
          ("filters", .ofStrings ["parseNumber"])])])])]

def hooks : Hooks where
  processors := [("nexusphpTime", rowTime), ("nexusphpSubTitle", fun _ => subTitle)]
  rowFilters := [("nexusphpTorrentRow", isTorrentRow)]
  accountFields := [
    ("uploaded", fun _ _ source => Labels.size source uploaded),
    ("downloaded", fun _ _ source => Labels.size source downloaded),
    ("bonus", fun _ _ source => Labels.number source bonus),
    ("seeding", fun _ _ source => Labels.number source seeding),
    ("levelName", fun _ _ source => levelName source),
    ("joinTime", fun now _ source => Labels.time offset now source joined)]

end NexusPhp

/-- Sites that run NexusPHP. -/
def nexusPhp : Schema where
  name := "nexusphp"
  defaults := Layers.merge privateDefaults [NexusPhp.layer]
  hooks := NexusPhp.hooks
  offset := some NexusPhp.offsetText

end SiteScrape.Schema
