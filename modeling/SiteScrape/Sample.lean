import SiteScrape.Json.Basic
import SiteScrape.Transport.Response

/-!
# A sample site

A definition and pages of a small site, for trying things out.
-/

namespace SiteScrape.Sample

def baseUrl : String := "https://tracker.example/"

/-- A site that shows one torrent a row in a plain table. -/
def definition : Json :=
  .obj [
    ("id", .str "demo"),
    ("name", .str "Demo"),
    ("urls", .ofStrings [baseUrl]),
    ("allowSearch", .bool true),
    ("search", .obj [
      ("requestConfig", .obj [("url", .str "/torrents.php")]),
      ("selectors", .obj [
        ("rows", .obj [("selector", .str "table.torrents > tbody > tr.torrent")]),
        ("id", .obj [
          ("selector", .str "a.title"),
          ("attr", .str "href"),
          ("filters", .arr [
            .obj [("name", .str "querystring"), ("args", .ofStrings ["id"])]])]),
        ("title", .obj [("selector", .str "a.title")]),
        ("url", .obj [("selector", .str "a.title"), ("attr", .str "href")]),
        ("link", .obj [("selector", .str "a.dl"), ("attr", .str "href")]),
        ("size", .obj [("selector", .str "td.size")]),
        ("seeders", .obj [("selector", .str "td.seeders")]),
        ("time", .obj [("selector", .str "td.time")])])])]

/-- Lines, those behind the first at some indentation. -/
def lines (indent : Nat) (first : String) (more : List String) : String :=
  ("\n" ++ String.ofList (List.replicate indent ' ')).intercalate (first :: more)

/-- A page with some content, as a visitor who is logged in sees it. -/
def page (content : String) : String :=
  lines 17 "<!DOCTYPE html><html><head><title>Tracker</title></head><body>"
    ["<div id=\"nav\"><a href=\"/logout.php\">Logout</a></div>", content] ++
  lines 15 "" ["</body></html>"]

/-- A torrent in a table. -/
def row (id title size : String) : String :=
  lines 25 "<tr class=\"torrent\">"
    ["<td><a class=\"title\" href=\"/details.php?id=" ++ id ++ "\">" ++ title ++ "</a>"] ++
  lines 29 "" ["<a class=\"dl\" href=\"/download.php?id=" ++ id ++ "\">DL</a></td>"] ++
  lines 25 "" ["<td class=\"time\">2024-01-02 03:04:05</td>",
    "<td class=\"size\">" ++ size ++ "</td>", "<td class=\"seeders\">10</td>"] ++
  lines 23 "" ["</tr>"]

/-- A page with a table of torrents. -/
def table (rows : List (String × String × String)) : String :=
  page (lines 17 "<table class=\"torrents\"><tbody>"
    ["<tr class=\"header\"><td>Name</td><td>Time</td><td>Size</td><td>Seeders</td></tr>",
      String.join (rows.map fun (id, title, size) => row id title size)] ++
    lines 15 "" ["</tbody></table>"])

/-- The page that a visitor who is not logged in sees. -/
def loginForm : String :=
  page ("<form action=\"takelogin.php\" method=\"post\">" ++
    "<input type=\"password\" name=\"password\"/></form>")

/-- A response that came from elsewhere in the end. -/
def redirected (finalUrl body : String) : Response := { finalUrl, body }

end SiteScrape.Sample
