import ImageMacros.Main
import ImageMacros.Operation
import ImageMacros.Proofs.Command.Alike
import ImageMacros.Proofs.Command.Ambient
import ImageMacros.Proofs.Command.Apply
import ImageMacros.Proofs.Command.ConfigOption
import ImageMacros.Proofs.Command.Ending
import ImageMacros.Proofs.Command.Environment
import ImageMacros.Proofs.Command.Misuse
import ImageMacros.Proofs.Command.Reach
import ImageMacros.Proofs.Command.Refusal
import ImageMacros.Proofs.Command.Render
import ImageMacros.Proofs.Command.Show
import ImageMacros.Proofs.Command.ShowApplied
import ImageMacros.Proofs.Command.Verbosity
import ImageMacros.Proofs.Command.Words
import ImageMacros.Proofs.Config.Fault
import ImageMacros.Proofs.Config.Line
import ImageMacros.Proofs.Config.RoundTrip
import ImageMacros.Proofs.Dictionary
import ImageMacros.Proofs.MacroFile.Both
import ImageMacros.Proofs.MacroFile.Canonical
import ImageMacros.Proofs.MacroFile.CommentLines
import ImageMacros.Proofs.MacroFile.Commute
import ImageMacros.Proofs.MacroFile.Confinement
import ImageMacros.Proofs.MacroFile.Determined
import ImageMacros.Proofs.MacroFile.Log
import ImageMacros.Proofs.MacroFile.Repeated
import ImageMacros.Proofs.MacroFile.RoundTrip
import ImageMacros.Proofs.MacroFile.Writes
import ImageMacros.Proofs.Path.Ancestry
import ImageMacros.Proofs.Path.Join
import ImageMacros.Proofs.Path.Text
import ImageMacros.Proofs.Session.Account
import ImageMacros.Proofs.Session.AllOrNothing
import ImageMacros.Proofs.Session.ConfigFile
import ImageMacros.Proofs.Session.History
import ImageMacros.Proofs.Session.Precedence
import ImageMacros.Proofs.Session.Stable
import ImageMacros.Proofs.Session.Store
import ImageMacros.Proofs.Session.Writers
import ImageMacros.Proofs.Setting
import ImageMacros.Proofs.Storage.Again
import ImageMacros.Proofs.Storage.Apart
import ImageMacros.Proofs.Storage.Contents
import ImageMacros.Proofs.Storage.Fill
import ImageMacros.Proofs.Storage.Growth
import ImageMacros.Proofs.Storage.Holds
import ImageMacros.Proofs.Storage.Makeable
import ImageMacros.Proofs.Storage.Settled
import ImageMacros.Proofs.Storage.Success
import ImageMacros.Proofs.Storage.Walk
import ImageMacros.Proofs.Text.Blank
import ImageMacros.Proofs.Text.Lowercase
import ImageMacros.Proofs.Text.Quoted
import ImageMacros.Proofs.Text.Utf8Strict
