import SiteScrape.Schema.Labels
import SiteScrape.Schema.Plain

/-!
# Gazelle

Sites of this kind show releases as groups: a header row, and below it one row
for each torrent, whose class names the group.
-/

namespace SiteScrape.Schema

namespace Gazelle

def groupLead : String := "groupid_"

/-- The least of the groups that the classes of a row name. -/
def groupId (source : Source) : Json :=
  let names := (source.element?.map Css.classesOf).getD []
  let groups := names.filterMap fun name => Text.stripLead groupLead (String.ofList name)
  ((groups.mergeSort fun a b => a ≤ b).head?.map Json.str).getD .null

def layer : Json :=
  .obj [
    ("schema", .str "gazelle"),
    ("search", .obj [
      ("keywordPath", .str "params.searchstr"),
      ("requestConfig", .obj [
        ("url", .str "/torrents.php"),
        ("responseType", .str "document"),
        ("params", .obj [("searchsubmit", .ofInt 1)])]),
      ("selectors", .obj [
        ("rows", .obj [
          ("selector", .ofStrings [
            "table#torrent_table > tbody > tr:not(.colhead)",
            "table.torrent_table > tbody > tr:not(.colhead)"]),
          ("group", .obj [
            ("groupClass", .str "group"),
            ("childClass", .str "group_torrent"),
            ("skipClass", .str "edition"),
            ("groupId", .obj [
              ("selector", .str "a[href*='torrents.php?id=']"),
              ("attr", .str "href"),
              ("filters", .arr [
                .obj [("name", .str "querystring"), ("args", .ofStrings ["id"])]])]),
            ("childGroupId", .obj [
              ("selector", .str ":self"),
              ("elementProcess", .str "gazelleGroupId")]),
            ("inherit", .ofStrings ["title", "category", "time"]),
            ("selectors", .obj [
              ("title", .obj [
                ("selector", .str "a[href*='torrents.php?id=']:not([href*='torrentid'])")]),
              ("category", .obj [
                ("selector", .str "td.cats_col div[title]"),
                ("attr", .str "title")])])])]),
        ("id", .obj [
          ("selector", .ofStrings ["a[href*='torrentid=']", "a[href*='action=download']"]),
          ("attr", .str "href"),
          ("filters", .arr [
            .obj [("name", .str "querystring"), ("args", .ofStrings ["torrentid", "id"])]])]),
        ("title", .obj [("selector", .str "a[href*='torrents.php?id=']")]),
        ("subTitle", .obj [("selector", .str "a[href*='torrentid=']")]),
        ("url", .obj [("selector", .str "a[href*='torrentid=']"), ("attr", .str "href")]),
        ("link", .obj [("selector", .str "a[href*='action=download']"), ("attr", .str "href")]),
        ("time", .obj [("selector", .str "span.time[title]"), ("attr", .str "title")]),
        ("size", .obj [("selector", .str "td:nth-last-child(4)")]),
        ("completed", .obj [
          ("selector", .str "td:nth-last-child(3)"),
          ("filters", .ofStrings ["parseNumber"])]),
        ("seeders", .obj [
          ("selector", .str "td:nth-last-child(2)"),
          ("filters", .ofStrings ["parseNumber"])]),
        ("leechers", .obj [
          ("selector", .str "td:nth-last-child(1)"),
          ("filters", .ofStrings ["parseNumber"])])])]),
    ("userInfo", .obj [
      ("process", .arr [
        .obj [
          ("requestConfig", .obj [("url", .str "/index.php"), ("responseType", .str "document")]),
          ("fields", .ofStrings ["id", "name"])],
        .obj [
          ("requestConfig", .obj [
            ("url", .str "/user.php"),
            ("params", .obj [("id", .str "$id$")]),
            ("responseType", .str "document")]),
          ("assertion", .obj [("id", .str "params.id")]),
          ("fields", .ofStrings [
            "uploaded", "downloaded", "levelName", "joinTime", "uploads", "snatches", "seeding",
            "leeching"])]]),
      ("selectors", .obj [
        ("id", .obj [
          ("selector", .ofStrings ["#nav_userinfo a.username", "a.username"]),
          ("attr", .str "href"),
          ("filters", .arr [.obj [("name", .str "querystring"), ("args", .ofStrings ["id"])]])]),
        ("name", .obj [("selector", .ofStrings ["#nav_userinfo a.username", "a.username"])]),
        ("uploads", .obj [
          ("selector", .str "#comm_upload"),
          ("filters", .ofStrings ["parseNumber"])]),
        ("snatches", .obj [
          ("selector", .str "#comm_snatched"),
          ("filters", .ofStrings ["parseNumber"])]),
        ("seeding", .obj [
          ("selector", .str "#comm_seeding"),
          ("filters", .ofStrings ["parseNumber"])]),
        ("leeching", .obj [
          ("selector", .str "#comm_leeching"),
          ("filters", .ofStrings ["parseNumber"])])])])]

def hooks : Hooks where
  processors := [("gazelleGroupId", fun _ => groupId)]
  accountFields := [
    ("uploaded", fun _ _ source => Labels.size source ["Uploaded"]),
    ("downloaded", fun _ _ source => Labels.size source ["Downloaded"]),
    ("levelName", fun _ _ source => Labels.text source ["Class"]),
    ("joinTime", fun now _ source => Labels.time 0 now source ["Joined"])]

end Gazelle

/-- Sites that run Gazelle, read off their pages. -/
def gazelle : Schema where
  name := "gazelle"
  defaults := Layers.merge privateDefaults [Gazelle.layer]
  hooks := Gazelle.hooks

end SiteScrape.Schema
