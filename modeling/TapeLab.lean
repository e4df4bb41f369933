import TapeLab.Classic.RuleGrammar
import TapeLab.Machine.Renaming
import TapeLab.Machine.Textbook
import TapeLab.Main
import TapeLab.Pool.Reference
import TapeLab.Proofs.Machine.Refinement
import TapeLab.Simulation.Action
import TapeLab.Structured.LineGrammar
import TapeLab.Structured.Printer
import TapeLab.Structured.Rendering
import TapeLab.Text.Blank
import TapeLab.Text.Quoted
import TapeLab.Proofs.Machine.Reach
import TapeLab.Proofs.Machine.Runs
import TapeLab.Proofs.Session.Loops
import TapeLab.Proofs.Workspace.Place
import TapeLab.Proofs.Workspace.Changes
import TapeLab.Proofs.Json.PlainText
import TapeLab.Proofs.Workspace.Reading
import TapeLab.Proofs.Json.RoundTrip
import TapeLab.Proofs.Json.Depth
import TapeLab.Proofs.Pool.Books
import TapeLab.Proofs.Pool.Storing
import TapeLab.Proofs.Pool.Gathering
import TapeLab.Proofs.Pool.Batches
import TapeLab.Proofs.Pool.Calls
import TapeLab.Proofs.Pool.History
import TapeLab.Proofs.Classic.RuleLine
import TapeLab.Proofs.Text.Lines
import TapeLab.Proofs.Classic.Comment
import TapeLab.Classic.Printable
import TapeLab.Proofs.Classic.Reading
import TapeLab.Proofs.Classic.Fields
import TapeLab.Proofs.Classic.Printing
import TapeLab.Proofs.Classic.RoundTrip
import TapeLab.Proofs.Machine.PassingOver
import TapeLab.Proofs.Conversion
import TapeLab.Proofs.Structured.Printing
import TapeLab.Proofs.Structured.Declarations
import TapeLab.Proofs.Structured.RoundTrip
import TapeLab.Proofs.Structured.Accounting
import TapeLab.Proofs.WellFormed
import TapeLab.Proofs.Workspace.Held
import TapeLab.Proofs.Workspace.Following
import TapeLab.Proofs.Workspace.Directories
import TapeLab.Proofs.Pool.Solo
import TapeLab.Proofs.Pool.Gains
import TapeLab.Proofs.Pool.Unbatched
import TapeLab.Proofs.Pool.Resuming
import TapeLab.Proofs.Number.Rounding
import TapeLab.Machine.Renumbering
import TapeLab.Simulation.Request
import TapeLab.Proofs.Machine.Cells
import TapeLab.Proofs.Simulation.Performing
import TapeLab.Proofs.Simulation.History
import TapeLab.Proofs.Simulation.Idling
import TapeLab.Proofs.Text.Inserting
import TapeLab.Proofs.Classic.Renumbering
import TapeLab.Proofs.Structured.Renumbering
import TapeLab.Proofs.CommentLines
import TapeLab.Journal.Call
import TapeLab.Proofs.Text.Digits
import TapeLab.Proofs.Number.Shortest
import TapeLab.Proofs.Number.Spelling
import TapeLab.Proofs.Json.Numbers
import TapeLab.Proofs.Keyed
import TapeLab.Proofs.Settings.Checking
import TapeLab.Proofs.Workspace.Refusing
import TapeLab.Proofs.Settings.Saving
import TapeLab.Proofs.Journal.Adding
import TapeLab.Proofs.Journal.Files
import TapeLab.Proofs.Journal.Keeping
import TapeLab.Proofs.CommandLine
import TapeLab.Proofs.Session.Saying
import TapeLab.Proofs.Session.Wording
import TapeLab.Proofs.Session.Undelayed
import TapeLab.Proofs.Session.Loading
import TapeLab.Proofs.Session.AtOnce
import TapeLab.Proofs.Session.InStep
import TapeLab.Proofs.Session.Menu
import TapeLab.Proofs.Machine.Renaming
import TapeLab.Proofs.Machine.Sweeping
import TapeLab.Proofs.Examples.Palindrome
import TapeLab.Proofs.Structured.Grammar
import TapeLab.Proofs.Text.Markup
import TapeLab.Proofs.Console.Line
import TapeLab.Proofs.Session.Markup
import TapeLab.Proofs.Examples.Reading
import TapeLab.Proofs.Examples.Increment
import TapeLab.Proofs.Structured.DeclarationOrder
import TapeLab.Machine.Relabelling
import TapeLab.Proofs.Structured.Relabelling
import TapeLab.Proofs.Classic.Relabelling
import TapeLab.Proofs.Structured.SettingLines
import TapeLab.Proofs.Structured.Comment
import TapeLab.Proofs.Text.Extending
import TapeLab.Proofs.TrailingComments
import TapeLab.Proofs.Classic.RuleFault
import TapeLab.Proofs.Structured.Layout
import TapeLab.Proofs.Machine.Rearranging
import TapeLab.Proofs.Classic.LineByLine
import TapeLab.Proofs.Machine.Vocabulary
import TapeLab.Proofs.Machine.TapeText
import TapeLab.Proofs.Settings.Accepting
import TapeLab.Proofs.Workspace.Listing
import TapeLab.Proofs.Session.ChoosingFile
import TapeLab.Proofs.FirstAppearances
import TapeLab.Proofs.Inspect.Grid
import TapeLab.Proofs.Machine.Unbroken
import TapeLab.Proofs.WholeNames
import TapeLab.Proofs.Simulation.Picture
