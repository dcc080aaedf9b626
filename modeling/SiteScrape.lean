import SiteScrape.Assoc
import SiteScrape.Config.Address
import SiteScrape.Config.Basic
import SiteScrape.Config.Environment
import SiteScrape.Config.Reading
import SiteScrape.Config.Validation
import SiteScrape.Css.Basic
import SiteScrape.Css.Matching
import SiteScrape.Css.Reading
import SiteScrape.Css.Token
import SiteScrape.Decimal.Double
import SiteScrape.Decimal.Power
import SiteScrape.Decimal.Reading
import SiteScrape.Decimal.Shortest
import SiteScrape.Decimal.Whole
import SiteScrape.Definition.Basic
import SiteScrape.Definition.Layers
import SiteScrape.Definition.Reading
import SiteScrape.Definition.Resolve
import SiteScrape.Definition.Writing
import SiteScrape.Field.Basic
import SiteScrape.Field.Resolve
import SiteScrape.Filter.Number
import SiteScrape.Filter.Table
import SiteScrape.Filter.Text
import SiteScrape.Filter.Time
import SiteScrape.Html.Arena
import SiteScrape.Html.Builder
import SiteScrape.Html.Construction
import SiteScrape.Html.NamedCharacters
import SiteScrape.Html.Names
import SiteScrape.Html.Node
import SiteScrape.Html.Reference
import SiteScrape.Html.Token
import SiteScrape.Html.Writer
import SiteScrape.Json.Basic
import SiteScrape.Json.Decode
import SiteScrape.Json.Path
import SiteScrape.Json.Reader
import SiteScrape.Json.Writer
import SiteScrape.Pattern.Match
import SiteScrape.Pattern.Reading
import SiteScrape.Pattern.Syntax
import SiteScrape.Proofs.AbsentField
import SiteScrape.Proofs.AccountAge
import SiteScrape.Proofs.AccountWalk
import SiteScrape.Proofs.Addresses
import SiteScrape.Proofs.CalendarDays
import SiteScrape.Proofs.CarriedRecords
import SiteScrape.Proofs.Coercions
import SiteScrape.Proofs.Collecting
import SiteScrape.Proofs.ConfiguredSites
import SiteScrape.Proofs.Conversation
import SiteScrape.Proofs.DatePatterns
import SiteScrape.Proofs.DeployedSites
import SiteScrape.Proofs.DetectedColumns
import SiteScrape.Proofs.Doubles
import SiteScrape.Proofs.EncodedLabels
import SiteScrape.Proofs.EnvironmentSettings
import SiteScrape.Proofs.EnvironmentValues
import SiteScrape.Proofs.EscapedTexts
import SiteScrape.Proofs.Exchange
import SiteScrape.Proofs.ExtendedHooks
import SiteScrape.Proofs.FirstPlace
import SiteScrape.Proofs.FullMoments
import SiteScrape.Proofs.HiddenInputs
import SiteScrape.Proofs.HookOrder
import SiteScrape.Proofs.InputTexts
import SiteScrape.Proofs.Interleaving
import SiteScrape.Proofs.JointSearch
import SiteScrape.Proofs.KeyOrder
import SiteScrape.Proofs.KeyPaths
import SiteScrape.Proofs.KeyUpdates
import SiteScrape.Proofs.KeysOnce
import SiteScrape.Proofs.LayerView
import SiteScrape.Proofs.LayeredAddresses
import SiteScrape.Proofs.LayeredLookup
import SiteScrape.Proofs.LoginAddresses
import SiteScrape.Proofs.LoginMarks
import SiteScrape.Proofs.MovedKeywords
import SiteScrape.Proofs.NextLevel
import SiteScrape.Proofs.Occurrences
import SiteScrape.Proofs.OneNode
import SiteScrape.Proofs.PathUpdates
import SiteScrape.Proofs.Positional
import SiteScrape.Proofs.PremergedLayers
import SiteScrape.Proofs.ReadBack
import SiteScrape.Proofs.ReadTexts
import SiteScrape.Proofs.ReadingAnswers
import SiteScrape.Proofs.RegistryHistory
import SiteScrape.Proofs.RequestStages
import SiteScrape.Proofs.ResolvedSites
import SiteScrape.Proofs.ReturnedTorrents
import SiteScrape.Proofs.RowArithmetic
import SiteScrape.Proofs.RowGroups
import SiteScrape.Proofs.RowLayers
import SiteScrape.Proofs.RowSettings
import SiteScrape.Proofs.RowShares
import SiteScrape.Proofs.ScaledNumbers
import SiteScrape.Proofs.SearchBlocks
import SiteScrape.Proofs.SearchOutcome
import SiteScrape.Proofs.SentPairs
import SiteScrape.Proofs.SideBySide
import SiteScrape.Proofs.SilentNulls
import SiteScrape.Proofs.SiteBuckets
import SiteScrape.Proofs.SpelledPaths
import SiteScrape.Proofs.SplicedCategories
import SiteScrape.Proofs.StagedRuns
import SiteScrape.Proofs.Subtrees
import SiteScrape.Proofs.TaggedKeywords
import SiteScrape.Proofs.TextFields
import SiteScrape.Proofs.Throttling
import SiteScrape.Proofs.TokenProtocol
import SiteScrape.Proofs.UnitBlanks
import SiteScrape.Proofs.UnreadableTimes
import SiteScrape.Proofs.UntouchedEntries
import SiteScrape.Proofs.UrlParts
import SiteScrape.Proofs.WebUrls
import SiteScrape.Proofs.WrittenHosts
import SiteScrape.Proofs.WrittenJson
import SiteScrape.Proofs.WrittenNumbers
import SiteScrape.Proofs.WrittenRecords
import SiteScrape.Proofs.WrittenTimes
import SiteScrape.Proofs.WrittenTorrents
import SiteScrape.Proofs.WrittenUrls
import SiteScrape.Record.Found
import SiteScrape.Record.Lenient
import SiteScrape.Record.Level
import SiteScrape.Record.Torrent
import SiteScrape.Record.UserInfo
import SiteScrape.Registry
import SiteScrape.Rows.Cells
import SiteScrape.Rows.Columns
import SiteScrape.Rows.Groups
import SiteScrape.Rows.Locate
import SiteScrape.Rows.Page
import SiteScrape.Rows.Record
import SiteScrape.Sample
import SiteScrape.Schema.Avistaz
import SiteScrape.Schema.Basic
import SiteScrape.Schema.Builtin
import SiteScrape.Schema.Gazelle
import SiteScrape.Schema.GazelleApi
import SiteScrape.Schema.Labels
import SiteScrape.Schema.NexusPhp
import SiteScrape.Schema.Plain
import SiteScrape.Service.Answer
import SiteScrape.Service.Call
import SiteScrape.Service.Deployment
import SiteScrape.Site.Account
import SiteScrape.Site.Basic
import SiteScrape.Site.Credentials
import SiteScrape.Site.Download
import SiteScrape.Site.Error
import SiteScrape.Site.Hooks
import SiteScrape.Site.ListPage
import SiteScrape.Site.Login
import SiteScrape.Site.Search
import SiteScrape.Site.Talk
import SiteScrape.Text.Blank
import SiteScrape.Text.Case
import SiteScrape.Text.CaseTable
import SiteScrape.Text.Find
import SiteScrape.Text.Utf8
import SiteScrape.Throttle
import SiteScrape.Time.Age
import SiteScrape.Time.Calendar
import SiteScrape.Time.Fields
import SiteScrape.Time.Moment
import SiteScrape.Time.Offset
import SiteScrape.Time.Pattern
import SiteScrape.Time.Reading
import SiteScrape.Toml.Reading
import SiteScrape.Toml.Scalar
import SiteScrape.Toml.Table
import SiteScrape.Transport.Request
import SiteScrape.Transport.Response
import SiteScrape.Transport.Scripted
import SiteScrape.Url.Basic
import SiteScrape.Url.Host
import SiteScrape.Url.Percent
import SiteScrape.Url.Punycode
import SiteScrape.Url.Query
import SiteScrape.Url.Reading
