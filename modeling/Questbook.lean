import Questbook.Assets
import Questbook.Cache
import Questbook.Cli.Arguments
import Questbook.Cli.Report
import Questbook.Config
import Questbook.Directive
import Questbook.Directive.Read
import Questbook.Disk
import Questbook.Disk.Folder
import Questbook.Json
import Questbook.Main
import Questbook.Notice
import Questbook.Outline
import Questbook.ParseError
import Questbook.Path
import Questbook.Quest
import Questbook.Quest.Finding
import Questbook.Quest.Json
import Questbook.Quest.Outline
import Questbook.Quest.Parse
import Questbook.Reader
import Questbook.Reader.Take
import Questbook.Table
import Questbook.Text.Blank
import Questbook.Text.Fold
import Questbook.Text.Indent
import Questbook.Text.Numeral
import Questbook.Text.Position
import Questbook.Token
import Questbook.Token.Extent
import Questbook.Toml.Document
import Questbook.Toml.Scalar
import Questbook.Toml.Value
import Questbook.Unicode.CaseTable
import Questbook.Unicode.LowerCase
import Questbook.Unicode.Plain
import Questbook.Unicode.PlainTable
import Questbook.Unicode.Range
import Questbook.Unicode.Space
import Questbook.Proofs.Cache.History
import Questbook.Proofs.Cache.Permanence
import Questbook.Proofs.Reader.Tokens
import Questbook.Proofs.TaskTable.Recursion
import Questbook.Proofs.TaskTable.Source
import Questbook.Proofs.Text.Numeral
import Questbook.Proofs.Reader.Pieces
import Questbook.Proofs.Source.Words
import Questbook.Proofs.Source.Print
import Questbook.Proofs.Source.Tasks
import Questbook.Proofs.Source.Sections
import Questbook.Proofs.Source.RoundTrip
import Questbook.Proofs.Layout.Cut
import Questbook.Proofs.Reader.Simulation
import Questbook.Proofs.Text.Position
import Questbook.Proofs.Layout.Blank
import Questbook.Proofs.Layout.Lines
import Questbook.Proofs.Reader.Coverage
import Questbook.Proofs.Reader.Wide
import Questbook.Proofs.Grammar.Stage
import Questbook.Proofs.Grammar.Automaton
import Questbook.Proofs.Grammar.Errors
import Questbook.Proofs.Reader.Ahead
import Questbook.Proofs.Grammar.Simulation
import Questbook.Proofs.Grammar.Passed
import Questbook.Proofs.Grammar.Ahead
import Questbook.Proofs.Layout.Comment
import Questbook.Proofs.Reader.Seam
import Questbook.Proofs.Grammar.Seam
import Questbook.Proofs.Source.Passage
import Questbook.Proofs.Source.Repeated
import Questbook.Proofs.Cache.Transparency
import Questbook.Proofs.Layout.CommentLine
import Questbook.Proofs.LetterCase.Token
import Questbook.Proofs.LetterCase.Quest
import Questbook.Proofs.LetterCase.Machine
import Questbook.Proofs.Reader.Alone
import Questbook.Proofs.Grammar.Shape
import Questbook.Proofs.Cache.Bookkeeping
import Questbook.Proofs.Grammar.Final
import Questbook.Proofs.TaskTable.Duplicates
import Questbook.Proofs.TaskTable.Lines
import Questbook.Proofs.TaskTable.Keyword
import Questbook.Proofs.Quest.Json
import Questbook.Proofs.Cli.Check
import Questbook.Proofs.Unicode.LowerCase
import Questbook.Proofs.Disk.Walk
import Questbook.Proofs.Disk.Listing
import Questbook.Proofs.Bytes.Encoding
import Questbook.Proofs.Bytes.Scanner
import Questbook.Proofs.Bytes.Loops
import Questbook.Proofs.Bytes.Tokens
import Questbook.Proofs.Bytes.Safety
import Questbook.Proofs.Reader.WordExtent
import Questbook.Proofs.Reader.Line
import Questbook.Proofs.Reader.BlankLine
import Questbook.Proofs.Grammar.BlankLine
import Questbook.Proofs.Config.Defaults
import Questbook.Proofs.Quest.Findings
import Questbook.Proofs.Reader.Integers
import Questbook.Proofs.Reader.Narrow
import Questbook.Proofs.Reader.Reprint
import Questbook.Proofs.TaskTable.NormalForm
import Questbook.Proofs.Text.LineStart
import Questbook.Proofs.Cache.Preloading
import Questbook.Proofs.Source.Lines
import Questbook.Proofs.Source.ResourceTable
import Questbook.Proofs.Loops.Rounds
import Questbook.Proofs.Loops.Parser
import Questbook.Proofs.Loops.Ends
import Questbook.Proofs.Unicode.SmallText
import Questbook.Proofs.Cache.Names
import Questbook.Proofs.Path.Way
import Questbook.Proofs.Disk.Confinement
import Questbook.Proofs.Reader.Requests
