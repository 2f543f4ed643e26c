import Tagmark.Columns
import Tagmark.Command.Report
import Tagmark.Command.Run
import Tagmark.Config.Load
import Tagmark.Document.Tree
import Tagmark.Files.Walk
import Tagmark.Frontmatter
import Tagmark.Html.Data
import Tagmark.Html.Print
import Tagmark.Main
import Tagmark.Markdown.Read
import Tagmark.Markdown.ToHtml
import Tagmark.Page
import Tagmark.Proofs.Attribute.Binding
import Tagmark.Proofs.Attribute.FirstFault
import Tagmark.Proofs.Command.Changes
import Tagmark.Proofs.Command.Check
import Tagmark.Proofs.Command.Report
import Tagmark.Proofs.Command.Steps
import Tagmark.Proofs.Config.Accepted
import Tagmark.Proofs.Config.Legible
import Tagmark.Proofs.Data.Json
import Tagmark.Proofs.Document.Block
import Tagmark.Proofs.Document.Brackets
import Tagmark.Proofs.Document.FaultPlaces
import Tagmark.Proofs.Document.Faults
import Tagmark.Proofs.Document.FenceScope
import Tagmark.Proofs.Document.Fenced
import Tagmark.Proofs.Document.Front
import Tagmark.Proofs.Document.Gathering
import Tagmark.Proofs.Document.Layout
import Tagmark.Proofs.Document.Lines
import Tagmark.Proofs.Document.OpenFence
import Tagmark.Proofs.Document.Parted
import Tagmark.Proofs.Document.Places
import Tagmark.Proofs.Document.Print
import Tagmark.Proofs.Document.Reading
import Tagmark.Proofs.Document.Relocation
import Tagmark.Proofs.Document.Respaced
import Tagmark.Proofs.Document.Retelling
import Tagmark.Proofs.Document.Runs
import Tagmark.Proofs.Document.Unterminated
import Tagmark.Proofs.Document.View
import Tagmark.Proofs.Document.Walk
import Tagmark.Proofs.Document.Within
import Tagmark.Proofs.Files.Documents
import Tagmark.Proofs.Files.Path
import Tagmark.Proofs.Html.Data
import Tagmark.Proofs.Html.Markup
import Tagmark.Proofs.Html.Names
import Tagmark.Proofs.Html.Normal
import Tagmark.Proofs.Html.Shown
import Tagmark.Proofs.Html.Text
import Tagmark.Proofs.Html.Unique
import Tagmark.Proofs.Markdown.Elements
import Tagmark.Proofs.Markdown.PlainText
import Tagmark.Proofs.Markdown.Tightness
import Tagmark.Proofs.Number.Rank
import Tagmark.Proofs.Page.Block
import Tagmark.Proofs.Page.Columns
import Tagmark.Proofs.Page.Datasource
import Tagmark.Proofs.Page.Extras
import Tagmark.Proofs.Page.Markup
import Tagmark.Proofs.Page.Query
import Tagmark.Proofs.Page.QueryBody
import Tagmark.Proofs.Page.QueryLines
import Tagmark.Proofs.Page.RowFields
import Tagmark.Proofs.Page.Rows
import Tagmark.Proofs.Registry.History
import Tagmark.Proofs.Registry.Merge
import Tagmark.Proofs.Tag.Coverage
import Tagmark.Proofs.Tag.Endings
import Tagmark.Proofs.Tag.Escape
import Tagmark.Proofs.Tag.Flaws
import Tagmark.Proofs.Tag.Frame
import Tagmark.Proofs.Tag.Grammar
import Tagmark.Proofs.Tag.Names
import Tagmark.Proofs.Tag.Print
import Tagmark.Proofs.Tag.Recognition
import Tagmark.Proofs.Tag.Relocation
import Tagmark.Proofs.Tag.Respaced
import Tagmark.Proofs.Tag.Retelling
import Tagmark.Proofs.Tag.Sameness
import Tagmark.Proofs.Tag.Spacing
import Tagmark.Proofs.Tag.Tiling
import Tagmark.Proofs.Text.BlankLines
import Tagmark.Proofs.Text.Endings
import Tagmark.Proofs.Text.Pieces
import Tagmark.Proofs.Text.Slice
import Tagmark.Proofs.Text.Split
import Tagmark.Proofs.Text.Traced
import Tagmark.Proofs.Text.Trim
import Tagmark.Proofs.Text.TrimmedPieces
import Tagmark.Proofs.Transform.Agreement
import Tagmark.Proofs.Transform.Checks
import Tagmark.Proofs.Transform.Log
import Tagmark.Registry
import Tagmark.Transform
