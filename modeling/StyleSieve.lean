import StyleSieve.CommandLine.Arguments
import StyleSieve.CommandLine.Command
import StyleSieve.CommandLine.Console
import StyleSieve.CommandLine.Execution
import StyleSieve.CommandLine.Misuse
import StyleSieve.CommandLine.Number
import StyleSieve.CommandLine.Similar
import StyleSieve.Css.Component
import StyleSieve.Css.Name
import StyleSieve.Css.Nesting
import StyleSieve.Css.Progress
import StyleSieve.Css.Scanner
import StyleSieve.Css.Spelling
import StyleSieve.Css.Statement
import StyleSieve.Css.Writer
import StyleSieve.Fetch.Entry
import StyleSieve.Fetch.Failure
import StyleSieve.Fetch.Fetching
import StyleSieve.Fetch.HostName
import StyleSieve.Fetch.Message
import StyleSieve.Fetch.Punycode
import StyleSieve.Fetch.Target
import StyleSieve.Location.Path
import StyleSieve.Location.Resolve
import StyleSieve.Location.Url
import StyleSieve.Main
import StyleSieve.Markup.Charset
import StyleSieve.Markup.Content
import StyleSieve.Markup.EntityTable
import StyleSieve.Markup.Node
import StyleSieve.Markup.Place
import StyleSieve.Markup.References
import StyleSieve.Markup.Token
import StyleSieve.Markup.Tree
import StyleSieve.Pattern.Escape
import StyleSieve.Pattern.Flags
import StyleSieve.Pattern.Flaw
import StyleSieve.Pattern.Matching
import StyleSieve.Pattern.Reader
import StyleSieve.Pattern.Source
import StyleSieve.Pattern.Syntax
import StyleSieve.Proofs.CommandLine.Outcomes
import StyleSieve.Proofs.Css.Balance
import StyleSieve.Proofs.Css.Closing
import StyleSieve.Proofs.Css.Containment
import StyleSieve.Proofs.Css.Dividing
import StyleSieve.Proofs.Css.Faults
import StyleSieve.Proofs.Css.Joints
import StyleSieve.Proofs.Css.Lagging
import StyleSieve.Proofs.Css.Literals
import StyleSieve.Proofs.Css.Locality
import StyleSieve.Proofs.Css.Names
import StyleSieve.Proofs.Css.Nests
import StyleSieve.Proofs.Css.Newlines
import StyleSieve.Proofs.Css.Numbers
import StyleSieve.Proofs.Css.Offsets
import StyleSieve.Proofs.Css.ReadBack
import StyleSieve.Proofs.Css.Rendering
import StyleSieve.Proofs.Css.Sealing
import StyleSieve.Proofs.Css.Seams
import StyleSieve.Proofs.Css.SettledText
import StyleSieve.Proofs.Css.Settling
import StyleSieve.Proofs.Css.Shifting
import StyleSieve.Proofs.Css.Soundness
import StyleSieve.Proofs.Css.Spans
import StyleSieve.Proofs.Css.Spelled
import StyleSieve.Proofs.Css.Spreading
import StyleSieve.Proofs.Css.Strings
import StyleSieve.Proofs.Css.Tokens
import StyleSieve.Proofs.Css.Units
import StyleSieve.Proofs.Css.Writing
import StyleSieve.Proofs.Fallible
import StyleSieve.Proofs.Fetch.Errands
import StyleSieve.Proofs.Fetch.Routing
import StyleSieve.Proofs.Fetch.Totality
import StyleSieve.Proofs.Location.Addresses
import StyleSieve.Proofs.Location.Files
import StyleSieve.Proofs.Location.PathStack
import StyleSieve.Proofs.Run.Removal
import StyleSieve.Proofs.Run.SheetOrder
import StyleSieve.Proofs.Run.Stages
import StyleSieve.Proofs.Selector.Coverage
import StyleSieve.Proofs.Selector.DeletedLexemes
import StyleSieve.Proofs.Selector.Deletions
import StyleSieve.Proofs.Selector.Demands
import StyleSieve.Proofs.Selector.Exactness
import StyleSieve.Proofs.Selector.Granting
import StyleSieve.Proofs.Selector.Holding
import StyleSieve.Proofs.Selector.ThinCompound
import StyleSieve.Proofs.Selector.ThinSelector
import StyleSieve.Proofs.Selector.Thinning
import StyleSieve.Proofs.Selector.Weakening
import StyleSieve.Proofs.Selector.WholePseudos
import StyleSieve.Proofs.Sheet.Counting
import StyleSieve.Proofs.Sheet.Edges
import StyleSieve.Proofs.Sheet.Enclosing
import StyleSieve.Proofs.Sheet.Excerpts
import StyleSieve.Proofs.Sheet.Fixpoints
import StyleSieve.Proofs.Sheet.Joining
import StyleSieve.Proofs.Sheet.Layout
import StyleSieve.Proofs.Sheet.Legibility
import StyleSieve.Proofs.Sheet.Listing
import StyleSieve.Proofs.Sheet.Openings
import StyleSieve.Proofs.Sheet.Origins
import StyleSieve.Proofs.Sheet.Partition
import StyleSieve.Proofs.Sheet.Passes
import StyleSieve.Proofs.Sheet.Printing
import StyleSieve.Proofs.Sheet.Pruning
import StyleSieve.Proofs.Sheet.Retention
import StyleSieve.Proofs.Sheet.SettledEntries
import StyleSieve.Proofs.Sheet.Settling
import StyleSieve.Proofs.Sheet.Shells
import StyleSieve.Proofs.Sheet.Sifting
import StyleSieve.Proofs.Sheet.Soundness
import StyleSieve.Proofs.Sheet.Spelling
import StyleSieve.Proofs.Sheet.Steps
import StyleSieve.Proofs.Sheet.Unfinished
import StyleSieve.Proofs.Text.Splitting
import StyleSieve.Proofs.Text.Utf8
import StyleSieve.Proofs.Text.Words
import StyleSieve.Proofs.Usage.Collecting
import StyleSieve.Proofs.Usage.Gathering
import StyleSieve.Proofs.Usage.Independence
import StyleSieve.Proofs.Usage.Linking
import StyleSieve.Proofs.Usage.Ordering
import StyleSieve.Proofs.Usage.Pages
import StyleSieve.Proofs.Usage.Reduction
import StyleSieve.Proofs.Usage.Refusals
import StyleSieve.Proofs.Usage.Rounds
import StyleSieve.Proofs.Usage.Sessions
import StyleSieve.Proofs.Usage.Survival
import StyleSieve.Run.Failure
import StyleSieve.Run.Note
import StyleSieve.Run.Questions
import StyleSieve.Run.Reduction
import StyleSieve.Run.Report
import StyleSieve.Run.Sheets
import StyleSieve.Selector.Keep
import StyleSieve.Selector.Matching
import StyleSieve.Selector.Normal
import StyleSieve.Selector.Parser
import StyleSieve.Selector.Position
import StyleSieve.Selector.Refusal
import StyleSieve.Selector.Syntax
import StyleSieve.Sheet.Basic
import StyleSieve.Sheet.Filter
import StyleSieve.Sheet.Printer
import StyleSieve.Sheet.Reader
import StyleSieve.Text.Blank
import StyleSieve.Text.CharName
import StyleSieve.Text.CodeRange
import StyleSieve.Text.Datum
import StyleSieve.Text.Encoding
import StyleSieve.Text.LetterCase
import StyleSieve.Text.Letters
import StyleSieve.Text.Printable
import StyleSieve.Text.Quoted
import StyleSieve.Text.Split
import StyleSieve.Text.Surrogate
import StyleSieve.Text.Utf8
import StyleSieve.Usage.Oracle
import StyleSieve.Usage.Reduce
import StyleSieve.Usage.Schedule
import StyleSieve.Usage.Scripted
import StyleSieve.Usage.Session
import StyleSieve.Usage.Static
