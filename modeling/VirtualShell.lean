import VirtualShell.Command.Builtin
import VirtualShell.Command.Date
import VirtualShell.Command.Drawing
import VirtualShell.Command.Editing
import VirtualShell.Command.Flags
import VirtualShell.Command.LineCount
import VirtualShell.Command.Listing
import VirtualShell.Command.Personal
import VirtualShell.Command.Reading
import VirtualShell.Command.Registry
import VirtualShell.Command.Run
import VirtualShell.Command.Searching
import VirtualShell.CommandLine.Invocation
import VirtualShell.CommandLine.Run
import VirtualShell.Files.Edit
import VirtualShell.Files.Lookup
import VirtualShell.Files.Volume
import VirtualShell.Input.Alias
import VirtualShell.Input.Shape
import VirtualShell.Input.Words
import VirtualShell.Interpreter
import VirtualShell.Json.Printer
import VirtualShell.Json.Reader
import VirtualShell.Json.Skim
import VirtualShell.Json.Value
import VirtualShell.Main
import VirtualShell.Output
import VirtualShell.Path
import VirtualShell.Pattern.Basic
import VirtualShell.Pattern.CharSet
import VirtualShell.Pattern.Error
import VirtualShell.Pattern.Matcher
import VirtualShell.Pattern.Parser
import VirtualShell.Pattern.Size
import VirtualShell.Proofs.Command.Blame
import VirtualShell.Proofs.Command.Drawing
import VirtualShell.Proofs.Command.Frame
import VirtualShell.Proofs.Command.LineCounts
import VirtualShell.Proofs.Command.Parts
import VirtualShell.Proofs.Command.Reading
import VirtualShell.Proofs.Command.Searching
import VirtualShell.Proofs.Command.Usage
import VirtualShell.Proofs.Files.Addresses
import VirtualShell.Proofs.Files.Changes
import VirtualShell.Proofs.Files.Copying
import VirtualShell.Proofs.Files.Creating
import VirtualShell.Proofs.Files.Edits
import VirtualShell.Proofs.Files.Moving
import VirtualShell.Proofs.Files.Naming
import VirtualShell.Proofs.Files.Refusals
import VirtualShell.Proofs.Files.Renaming
import VirtualShell.Proofs.Input.Aliases
import VirtualShell.Proofs.Input.Pipelines
import VirtualShell.Proofs.Input.Quoting
import VirtualShell.Proofs.Input.Rewriting
import VirtualShell.Proofs.Input.Tokens
import VirtualShell.Proofs.Input.Words
import VirtualShell.Proofs.Json.Limit
import VirtualShell.Proofs.Json.RoundTrip
import VirtualShell.Proofs.Paths.Segments
import VirtualShell.Proofs.Pattern.CharSets
import VirtualShell.Proofs.Pattern.Globs
import VirtualShell.Proofs.Pattern.Languages
import VirtualShell.Proofs.Pattern.Reading
import VirtualShell.Proofs.Pattern.Wildcards
import VirtualShell.Proofs.Run.Calls
import VirtualShell.Proofs.Run.Captures
import VirtualShell.Proofs.Run.Chains
import VirtualShell.Proofs.Run.Filters
import VirtualShell.Proofs.Run.Listing
import VirtualShell.Proofs.Run.Machine
import VirtualShell.Proofs.Run.Markers
import VirtualShell.Proofs.Run.Rewriting
import VirtualShell.Proofs.Run.Searches
import VirtualShell.Proofs.Run.Shape
import VirtualShell.Proofs.Run.Steps
import VirtualShell.Proofs.Run.Suggestions
import VirtualShell.Proofs.Search.Find
import VirtualShell.Proofs.Search.Lines
import VirtualShell.Proofs.Search.Substrings
import VirtualShell.Proofs.Search.Walk
import VirtualShell.Proofs.Shell.Alike
import VirtualShell.Proofs.Shell.History
import VirtualShell.Proofs.Shell.Home
import VirtualShell.Proofs.Shell.Mirror
import VirtualShell.Proofs.Shell.Prompt
import VirtualShell.Proofs.Shell.Remembered
import VirtualShell.Proofs.Shell.Restart
import VirtualShell.Proofs.Shell.Restore
import VirtualShell.Proofs.Shell.Runs
import VirtualShell.Proofs.Shell.Standing
import VirtualShell.Proofs.Shell.Start
import VirtualShell.Proofs.State.Alike
import VirtualShell.Proofs.State.Failures
import VirtualShell.Proofs.State.Saved
import VirtualShell.Proofs.State.Steps
import VirtualShell.Proofs.Storage.Disk
import VirtualShell.Proofs.Storage.Stores
import VirtualShell.Proofs.Text.Counts
import VirtualShell.Proofs.Text.EditDistance
import VirtualShell.Proofs.Text.Trimming
import VirtualShell.Proofs.Tree.Decoded
import VirtualShell.Proofs.Tree.Entries
import VirtualShell.Proofs.Tree.Outlines
import VirtualShell.Proofs.Tree.Places
import VirtualShell.Proofs.Tree.Preorder
import VirtualShell.Proofs.Tree.Saved
import VirtualShell.Proofs.Tree.Shape
import VirtualShell.Search.Find
import VirtualShell.Search.Name
import VirtualShell.Search.Walk
import VirtualShell.Settings.Basic
import VirtualShell.Settings.Stamp
import VirtualShell.Settings.Text
import VirtualShell.Shell
import VirtualShell.State.Action
import VirtualShell.State.Calendar
import VirtualShell.State.Error
import VirtualShell.State.Session
import VirtualShell.Storage.Disk
import VirtualShell.Storage.Store
import VirtualShell.Table
import VirtualShell.Text.Basic
import VirtualShell.Text.Letter
import VirtualShell.Text.Lower
import VirtualShell.Text.Pieces
import VirtualShell.Tree.Blob
import VirtualShell.Tree.Entries
import VirtualShell.Tree.Node
