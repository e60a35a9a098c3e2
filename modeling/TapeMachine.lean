import TapeMachine.Batch
import TapeMachine.CaseFile
import TapeMachine.Catalog
import TapeMachine.Command.Arguments
import TapeMachine.Command.LogFilter
import TapeMachine.Command.Perform
import TapeMachine.Command.Rows
import TapeMachine.Command.Transcript
import TapeMachine.Command.ValuePattern
import TapeMachine.Command.ValuePattern.Bracket
import TapeMachine.Command.ValuePattern.Escape
import TapeMachine.Command.ValuePattern.Modes
import TapeMachine.Command.Walk
import TapeMachine.Configuration
import TapeMachine.Decimal.Shortest
import TapeMachine.Defect
import TapeMachine.Direction
import TapeMachine.Document
import TapeMachine.Document.Json
import TapeMachine.Document.Table
import TapeMachine.Event
import TapeMachine.FileTree
import TapeMachine.Json.Error
import TapeMachine.Json.Numbers
import TapeMachine.Json.Reader
import TapeMachine.Json.Skip
import TapeMachine.Json.Strings
import TapeMachine.Json.Value
import TapeMachine.Lint
import TapeMachine.Listing
import TapeMachine.Listing.Grammar
import TapeMachine.Listing.Meaning
import TapeMachine.Listing.Phrase
import TapeMachine.Listing.Printer
import TapeMachine.Listing.Program
import TapeMachine.Load
import TapeMachine.Machine
import TapeMachine.Machine.Compile
import TapeMachine.Main
import TapeMachine.Pattern
import TapeMachine.Proofs.CaseFile
import TapeMachine.Proofs.Catalog.BinaryIncrement
import TapeMachine.Proofs.Catalog.Palindrome
import TapeMachine.Proofs.Catalog.Sources
import TapeMachine.Proofs.Catalog.TwoTapeCopy
import TapeMachine.Proofs.Catalog.UnaryAddition
import TapeMachine.Proofs.Checks
import TapeMachine.Proofs.Command.Rows
import TapeMachine.Proofs.Command.Walk
import TapeMachine.Proofs.Document.Admissible
import TapeMachine.Proofs.Document.Building
import TapeMachine.Proofs.Document.Json
import TapeMachine.Proofs.Document.NormalForm
import TapeMachine.Proofs.Document.Order
import TapeMachine.Proofs.Document.Presentation
import TapeMachine.Proofs.Document.Selection
import TapeMachine.Proofs.Document.Steps
import TapeMachine.Proofs.Ideal
import TapeMachine.Proofs.Json.Answers
import TapeMachine.Proofs.Json.Flaws
import TapeMachine.Proofs.Json.Forms
import TapeMachine.Proofs.Json.Members
import TapeMachine.Proofs.Json.Numbers
import TapeMachine.Proofs.Json.Presentation
import TapeMachine.Proofs.Json.Printed
import TapeMachine.Proofs.Json.Skip
import TapeMachine.Proofs.Json.Spelling
import TapeMachine.Proofs.Lint.Culprits
import TapeMachine.Proofs.Lint.Reachability
import TapeMachine.Proofs.Lint.Shadowing
import TapeMachine.Proofs.Listing.Grammar
import TapeMachine.Proofs.Listing.Inference
import TapeMachine.Proofs.Listing.Layout
import TapeMachine.Proofs.Listing.Meaning
import TapeMachine.Proofs.Listing.Outline
import TapeMachine.Proofs.Listing.Phrase
import TapeMachine.Proofs.Listing.Printed
import TapeMachine.Proofs.Listing.PrintedLayout
import TapeMachine.Proofs.Listing.Program
import TapeMachine.Proofs.Listing.Reading
import TapeMachine.Proofs.Listing.RoundTrip
import TapeMachine.Proofs.Listing.Shape
import TapeMachine.Proofs.Listing.Tokens
import TapeMachine.Proofs.Machine.FindRule
import TapeMachine.Proofs.Machine.Heading
import TapeMachine.Proofs.Machine.NormalForm
import TapeMachine.Proofs.Machine.RuleTables
import TapeMachine.Proofs.Machine.WellFormed
import TapeMachine.Proofs.Numerals
import TapeMachine.Proofs.Pattern
import TapeMachine.Proofs.Refinement
import TapeMachine.Proofs.Run.Budget
import TapeMachine.Proofs.Run.Horizon
import TapeMachine.Proofs.Run.Ideal
import TapeMachine.Proofs.Run.Lockstep
import TapeMachine.Proofs.Run.Log
import TapeMachine.Proofs.Run.Padding
import TapeMachine.Proofs.Run.Trajectory
import TapeMachine.Proofs.Run.Words
import TapeMachine.Proofs.Run.Zipper
import TapeMachine.Proofs.Session.Alphabet
import TapeMachine.Proofs.Session.Operations
import TapeMachine.Proofs.Session.Preview
import TapeMachine.Proofs.Session.Trajectory
import TapeMachine.Proofs.Tape
import TapeMachine.Proofs.Tape.Growth
import TapeMachine.Proofs.Text
import TapeMachine.Rule
import TapeMachine.Run
import TapeMachine.Run.Json
import TapeMachine.Session
import TapeMachine.SourceFile
import TapeMachine.Tape
import TapeMachine.Tape.Bank
import TapeMachine.Text.Alphanumeric
import TapeMachine.Text.Blank
import TapeMachine.Text.Hidden
import TapeMachine.Text.Lines
import TapeMachine.Text.Octets
import TapeMachine.Text.Position
import TapeMachine.Text.Quoted
import TapeMachine.Text.Ranges
import TapeMachine.Text.Split
import TapeMachine.Text.Word
