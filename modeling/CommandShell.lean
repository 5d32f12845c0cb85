import CommandShell.Command.Validate
import CommandShell.Main
import CommandShell.Prompt.Completion
import CommandShell.Proofs.Command.Meaning
import CommandShell.Proofs.Command.Quoting
import CommandShell.Proofs.Command.Replay
import CommandShell.Proofs.Command.Sequence
import CommandShell.Proofs.Command.Trimming
import CommandShell.Proofs.History.Places
import CommandShell.Proofs.History.Refinement
import CommandShell.Proofs.Loader.Contained
import CommandShell.Proofs.Loader.Imports
import CommandShell.Proofs.Loader.OneByOne
import CommandShell.Proofs.Program.Setup
import CommandShell.Proofs.Prompt.Agreement
import CommandShell.Proofs.Registry.Aliases
import CommandShell.Proofs.Registry.Completions
import CommandShell.Proofs.Registry.Listing
import CommandShell.Proofs.Session.Arguments
import CommandShell.Proofs.Session.Attempts
import CommandShell.Proofs.Session.ExitCodes
import CommandShell.Proofs.Session.Found
import CommandShell.Proofs.Session.Reentry
import CommandShell.Proofs.Session.Settled
import CommandShell.Proofs.Settings.Drift
import CommandShell.Proofs.Settings.Effect
import CommandShell.Proofs.Settings.Foreign
import CommandShell.Proofs.Settings.KeyValue
import CommandShell.Proofs.Settings.Refusal
import CommandShell.Proofs.Registry.Nesting
import CommandShell.Proofs.Prompt.Completing
import CommandShell.Proofs.Session.Unrecorded
import CommandShell.Proofs.Session.Repeating
import CommandShell.Proofs.Files.Inside
import CommandShell.Proofs.Builtin.Returning
import CommandShell.Proofs.Program.Installing
