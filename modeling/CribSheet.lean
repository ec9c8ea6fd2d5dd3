import CribSheet.Text.Basic
import CribSheet.Text.Blank
import CribSheet.Text.Cut
import CribSheet.Text.Casing
import CribSheet.Text.AsciiForm
import CribSheet.Markup.Command
import CribSheet.Markup.Group
import CribSheet.Markup.Environment
import CribSheet.Markup.Offset
import CribSheet.Payload.Directive
import CribSheet.Payload.Sanitize
import CribSheet.Sheet.Document
import CribSheet.Sheet.Skeleton
import CribSheet.Markup.Removal
import CribSheet.Sheet.Identity
import CribSheet.Math.Options
import CribSheet.Math.Differential
import CribSheet.Math.Display
import CribSheet.Artifact.Slug
import CribSheet.Artifact.FileName
import CribSheet.Journal
import CribSheet.Sheet.Pipeline
import CribSheet.Payload.Loading
import CribSheet.Display.Tree
import CribSheet.Display.Inline
import CribSheet.Display.Piece
import CribSheet.Display.Item
import CribSheet.Display.Callout
import CribSheet.Display.Parser
import CribSheet.Markdown.Node
import CribSheet.Markdown.Writer
import CribSheet.Markdown.Render
import CribSheet.Text.Bytes
import CribSheet.Files.Fault
import CribSheet.Files.Path
import CribSheet.Files.Tree
import CribSheet.Files.Renaming
import CribSheet.Text.Number
import CribSheet.Typeset.Engine
import CribSheet.Typeset.Compile
import CribSheet.Publish.Format
import CribSheet.Publish.Registry
import CribSheet.Number.Bounds
import CribSheet.Number.Decimal
import CribSheet.Number.Binary64
import CribSheet.Toml.Value
import CribSheet.Toml.Gap
import CribSheet.Toml.Quoted
import CribSheet.Toml.Numeral
import CribSheet.Toml.Moment
import CribSheet.Toml.Document
import CribSheet.Text.Unprintable
import CribSheet.Text.Quoted
import CribSheet.Settings.KeyPath
import CribSheet.Settings.Setting
import CribSheet.Settings.Fault
import CribSheet.Settings.Section
import CribSheet.Settings.Configuration
import CribSheet.Cli.Words
import CribSheet.Cli.Request
import CribSheet.Cli.Console
import CribSheet.Cli.Build
import CribSheet.Cli.Program
import CribSheet.Main
import CribSheet.Proofs.Markup.Sighting
import CribSheet.Proofs.Payload.Directive
import CribSheet.Proofs.Payload.Pass
import CribSheet.Proofs.Payload.Settling
import CribSheet.Proofs.Payload.Clean
import CribSheet.Proofs.Text.Occurrence
import CribSheet.Proofs.Markup.Heads
import CribSheet.Proofs.Markup.Pieces
import CribSheet.Proofs.Markup.Removal
import CribSheet.Proofs.Math.Occurrence
import CribSheet.Proofs.Math.Writing
import CribSheet.Proofs.Payload.Argument
import CribSheet.Proofs.Payload.Gentle
import CribSheet.Proofs.Payload.GentleDirective
import CribSheet.Proofs.Payload.GentlePass
import CribSheet.Proofs.Payload.OtherImport
import CribSheet.Proofs.Sheet.Chain
import CribSheet.Proofs.Sheet.Fixed
import CribSheet.Proofs.Sheet.Idempotence
import CribSheet.Proofs.Sheet.Root
import CribSheet.Proofs.Display.Numbering
import CribSheet.Proofs.Display.BlockReading
import CribSheet.Proofs.Display.Directives
import CribSheet.Proofs.Display.BlankLines
import CribSheet.Proofs.Display.CommentLines
import CribSheet.Proofs.Display.CommentReading
import CribSheet.Proofs.Markdown.Dollars
import CribSheet.Proofs.Display.ShownTitle
import CribSheet.Proofs.Display.PlainProse
import CribSheet.Proofs.Display.Formed
import CribSheet.Proofs.Payload.Wrapper
import CribSheet.Proofs.Display.IsolatedMath
import CribSheet.Proofs.Sheet.Rereading
import CribSheet.Proofs.Cli.Building
import CribSheet.Proofs.Files.Renaming
import CribSheet.Proofs.Bytes.Conversion
import CribSheet.Proofs.Math.Isolation
import CribSheet.Proofs.Sheet.TitledTwice
import CribSheet.Proofs.Math.SecondRepair
import CribSheet.Proofs.Markdown.Neighbours
import CribSheet.Proofs.Markdown.Heading
import CribSheet.Proofs.Markdown.Decoding
import CribSheet.Proofs.Markdown.Margins
import CribSheet.Proofs.Display.Labels
import CribSheet.Proofs.Artifact.Slug
import CribSheet.Proofs.Artifact.TitleCase
import CribSheet.Proofs.Files.Blanks
import CribSheet.Proofs.Display.BoxTitle
import CribSheet.Proofs.Typeset.Passes
import CribSheet.Proofs.Bytes.FirstCommand
import CribSheet.Proofs.Bytes.Tokens
import CribSheet.Proofs.Bytes.Matching
import CribSheet.Proofs.Bytes.Removal
