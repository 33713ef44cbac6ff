import DocCite.Author.Name
import DocCite.Author.Parser
import DocCite.Bibtex.Date
import DocCite.Bibtex.Inheritance
import DocCite.Bibtex.Source
import DocCite.Bibtex.Value
import DocCite.Citation.Bibliography
import DocCite.Citation.EntryOrder
import DocCite.Citation.Group
import DocCite.Citation.Groups
import DocCite.Citation.Kind
import DocCite.Citation.MarkName
import DocCite.Citation.Markers
import DocCite.Citation.Resolution
import DocCite.Command.Arguments
import DocCite.Command.Basic
import DocCite.Command.Folder
import DocCite.Command.Run
import DocCite.Database.Basic
import DocCite.Database.Bibtex
import DocCite.Database.File
import DocCite.Datum.Basic
import DocCite.Datum.Json
import DocCite.Datum.Yaml
import DocCite.Datum.Yaml.Lexer
import DocCite.Datum.Yaml.Node
import DocCite.Datum.Yaml.Place
import DocCite.Datum.Yaml.Scalar
import DocCite.Datum.Yaml.Token
import DocCite.Document.Basic
import DocCite.Document.BibliographySection
import DocCite.Document.Cell
import DocCite.Document.CitationMarks
import DocCite.Document.Citing
import DocCite.Document.Edit
import DocCite.Document.Error
import DocCite.Document.LiveRange
import DocCite.Document.Operation
import DocCite.Document.Range
import DocCite.Document.ReadingOrder
import DocCite.Document.Refresh
import DocCite.Entry
import DocCite.FileName
import DocCite.Keyed
import DocCite.Latex
import DocCite.LoadError
import DocCite.Main
import DocCite.Marker.AuthorYear
import DocCite.Marker.Finish
import DocCite.Marker.Letter
import DocCite.Marker.Numeric
import DocCite.Markup.Format
import DocCite.Markup.Runs
import DocCite.Placeholder
import DocCite.Preferences
import DocCite.Session
import DocCite.Style.Basic
import DocCite.Style.Layout
import DocCite.Style.LayoutParser
import DocCite.Style.Option
import DocCite.Style.Reference
import DocCite.Style.Sections
import DocCite.Text.Accent
import DocCite.Text.Blank
import DocCite.Text.Case
import DocCite.Text.CodeRanges
import DocCite.Text.Letter
import DocCite.Text.Split
import DocCite.Proofs.Marker.Sharing
import DocCite.Proofs.Marker.Ranges
import DocCite.Proofs.Citation.Letters
import DocCite.Proofs.Citation.Numbers
import DocCite.Proofs.Document.Preconditions
import DocCite.Proofs.Document.Refreshing
import DocCite.Proofs.Document.RefreshingAgain
import DocCite.Proofs.Citation.MarkName
import DocCite.Proofs.Citation.PageInfo
import DocCite.Proofs.Document.Appending
import DocCite.Proofs.Document.Arrangement
import DocCite.Proofs.Document.BibliographyText
import DocCite.Proofs.Document.Changing
import DocCite.Proofs.Document.Adding
import DocCite.Proofs.Document.Intersecting
import DocCite.Proofs.Document.Joining
import DocCite.Proofs.Document.Merging
import DocCite.Proofs.Document.Rejoining
import DocCite.Proofs.Document.Evaluating
import DocCite.Proofs.Document.Citing
import DocCite.Proofs.Document.Overlapping
import DocCite.Proofs.Document.Reporting
import DocCite.Proofs.Document.Overwriting
import DocCite.Proofs.Document.SortedReading
import DocCite.Proofs.Citation.Reordered
import DocCite.Proofs.Citation.Repeating
import DocCite.Proofs.Citation.BibliographyOrder
import DocCite.Proofs.Document.Harmless
import DocCite.Proofs.Database.Lookup
import DocCite.Proofs.Document.Exporting
import DocCite.Proofs.Placeholder
import DocCite.Proofs.Command.CitedText
import DocCite.Proofs.Citation.Works
import DocCite.Proofs.Document.Releasing
import DocCite.Proofs.Document.Healthy
import DocCite.Proofs.Database.ReadingBack
import DocCite.Proofs.Markup.Canonical
import DocCite.Proofs.Citation.Accounting
import DocCite.Proofs.Citation.Imposing
import DocCite.Proofs.Latex.Contained
import DocCite.Proofs.Document.Neighbours
import DocCite.Proofs.Document.Positions
import DocCite.Proofs.Citation.FreshName
import DocCite.Proofs.Document.Probing
import DocCite.Proofs.Marker.PageInfo
import DocCite.Proofs.Style.LayoutSpelling
import DocCite.Proofs.Style.LayoutStopping
import DocCite.Proofs.Author.PrintedNames
import DocCite.Proofs.Author.Ands
import DocCite.Proofs.Style.CaseFormatters
import DocCite.Proofs.Placeholder.Matches
import DocCite.Proofs.Database.Insertions
import DocCite.Proofs.Style.Rearranged
import DocCite.Proofs.Style.TextOptions
import DocCite.Proofs.Latex.CommandFree
import DocCite.Proofs.Marker.Numbering
