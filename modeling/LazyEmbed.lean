import LazyEmbed.Captured.Address
import LazyEmbed.Captured.Duration
import LazyEmbed.Captured.Host
import LazyEmbed.Captured.Identifier
import LazyEmbed.Main
import LazyEmbed.Proofs.Text.Reading
import LazyEmbed.Site.Written
import LazyEmbed.Title.Table
import LazyEmbed.Proofs.Html.Reference
import LazyEmbed.Proofs.Json.StringList
import LazyEmbed.Proofs.Placeholder.Escaping
import LazyEmbed.Proofs.Json.Quoting
import LazyEmbed.Proofs.Placeholder.Verdict
import LazyEmbed.Proofs.Html.Kept
import LazyEmbed.Proofs.Template.Expression
import LazyEmbed.Proofs.Template.Token
import LazyEmbed.Proofs.Template.Pass
import LazyEmbed.Proofs.Template.Convert
import LazyEmbed.Proofs.Template.Forest
import LazyEmbed.Proofs.Json.RoundTrip
import LazyEmbed.Proofs.Placeholder.ReadBack
import LazyEmbed.Proofs.Title.Fetching
import LazyEmbed.Proofs.Template.LostQuote
import LazyEmbed.Proofs.Template.Attributes
import LazyEmbed.Proofs.Template.Shape
import LazyEmbed.Proofs.Template.ClosingTag
import LazyEmbed.Proofs.Html.NullCharacter
import LazyEmbed.Proofs.Template.Hiding
import LazyEmbed.Proofs.Template.Outcome
import LazyEmbed.Proofs.Page.Frame
import LazyEmbed.Proofs.Placeholder.Reading
import LazyEmbed.Proofs.Title.Known
import LazyEmbed.Proofs.Title.Tag
import LazyEmbed.Proofs.Template.ValueTemplate
import LazyEmbed.Proofs.Title.Order
import LazyEmbed.Proofs.Title.Retitling
import LazyEmbed.Proofs.Page.Repeated
import LazyEmbed.Proofs.Page.Template
import LazyEmbed.Proofs.Page.Bracket
import LazyEmbed.Proofs.Page.Frameless
import LazyEmbed.Proofs.Page.Loader
import LazyEmbed.Proofs.Placeholder.Style
import LazyEmbed.Proofs.Placeholder.Untitled
import LazyEmbed.Proofs.Command.Convert
import LazyEmbed.Proofs.Template.LoneBrace
import LazyEmbed.Proofs.Template.QuotedValue
import LazyEmbed.Proofs.Command.Rerun
import LazyEmbed.Proofs.Template.Neighbor
import LazyEmbed.Proofs.Template.Several
import LazyEmbed.Proofs.Placeholder.Separation
import LazyEmbed.Proofs.Placeholder.Settled
import LazyEmbed.Proofs.Placeholder.Serialised
import LazyEmbed.Proofs.Page.Lookup
import LazyEmbed.Proofs.Validation.Payload
import LazyEmbed.Proofs.Captured.Address
import LazyEmbed.Proofs.Site.Written
import LazyEmbed.Proofs.Command.Validate
import LazyEmbed.Proofs.Captured.Answer
import LazyEmbed.Proofs.Template.Rounds
import LazyEmbed.Proofs.Placeholder.SafeText
