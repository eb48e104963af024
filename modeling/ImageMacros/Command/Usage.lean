import ImageMacros.Command.Words
import ImageMacros.Text.Quoted
import ImageMacros.Text.Terminal

/-!
# Usage of the command line

* `Subcommand`, `Scope` : the commands, and what a help text or a usage error is about;
* `help` : the help text of each;
* `UsageError` : what is wrong with a command line, with `UsageError.message`;
* `usageReport` : what is printed about a usage error.
-/

namespace ImageMacros.Command

def programName : String := "installer-customizations"

def version : String := "0.1.0"

def versionLine : String := programName ++ ", version " ++ version

/-! ## Commands -/

inductive Subcommand
  | apply
  | render
  | show
deriving DecidableEq, Repr

namespace Subcommand

def word : Subcommand → String
  | .apply => "apply"
  | .render => "render"
  | .show => "show"

def all : List Subcommand := [.apply, .render, .show]

def ofWord? (w : String) : Option Subcommand := all.find? fun c => c.word = w

end Subcommand

/-- The whole program, or one of its commands. -/
inductive Scope
  | program
  | command (c : Subcommand)
deriving DecidableEq, Repr

namespace Scope

def words : Scope → String
  | .program => programName
  | .command c => programName ++ " " ++ c.word

def usageLine (s : Scope) : String :=
  let operands :=
    match s with
    | .program => " COMMAND [ARGS]..."
    | .command .render => " NAME=VALUE..."
    | .command _ => ""
  "Usage: " ++ s.words ++ " [OPTIONS]" ++ operands ++ "\n"

def description : Scope → String
  | .program =>
    "  Generate RPM macro customization files for image builds.\n\n" ++
    "Options:\n" ++
    "  --version          Show the version and exit.\n" ++
    "  -v, --verbose      Enable debug logging.\n" ++
    "  -q, --quiet        Only log errors.\n" ++
    "  -c, --config FILE  Config file with a [customizations] section.\n" ++
    "  --help             Show this message and exit.\n\n" ++
    "Commands:\n" ++
    "  apply   Write the customization macro files below the install root.\n" ++
    "  render  Print a macro file without writing it.\n" ++
    "  show    Print the customization macro files present below the install...\n"
  | .command .apply =>
    "  Write the customization macro files below the install root.\n\n" ++
    "Options:\n" ++
    "  --install-root DIRECTORY        Root of the image being built.\n" ++
    "  --disable-rpm-docs / --keep-rpm-docs\n" ++
    "                                  Exclude package documentation.\n" ++
    "  --override-rpm-locales LOCALES  Locales to install, e.g. \"en:de\" or \"NONE\".\n" ++
    "  --help                          Show this message and exit.\n"
  | .command .render =>
    "  Print a macro file without writing it.\n\n" ++
    "Options:\n" ++
    "  --comment TEXT  Comment line to include.\n" ++
    "  --help          Show this message and exit.\n"
  | .command .show =>
    "  Print the customization macro files present below the install root.\n\n" ++
    "Options:\n" ++
    "  --install-root DIRECTORY  Root of the image being built.\n" ++
    "  --help                    Show this message and exit.\n"

end Scope

def help (s : Scope) : String := s.usageLine ++ "\n" ++ s.description

/-! ## Usage errors -/

/-- What is wrong with a command line. -/
inductive UsageError
  | words (p : Problem)
  | commandMissing
  | commandUnknown (word : String)
  | operandMissing
  | operandsUnwanted (operands : List String)
  | configMissing (place : String)
  | configIsDirectory (place : String)
  | rootIsFile (place : String)
  | noDefinition (operand : String)
deriving DecidableEq, Repr

/-- The words that may have been meant. -/
def suggestion (close : List String) : String :=
  match close with
  | [] => ""
  | [word] => s!" Did you mean {Text.quoted word}?"
  | words =>
    let listed := ", ".intercalate (words.map Text.quoted)
    s!" (Did you mean one of: {listed}?)"

def Problem.message : Problem → String
  | .unknown name close => s!"No such option {Text.quoted name}." ++ suggestion close
  | .valueMissing name => s!"Option {Text.quoted name} requires an argument."
  | .valueUnwanted name => s!"Option {Text.quoted name} does not take a value."

def expectedDefinition (operand : String) : String :=
  s!"expected NAME=VALUE, got {Text.quoted operand}"

namespace UsageError

def message : UsageError → String
  | .words p => p.message
  | .commandMissing => "Missing command."
  | .commandUnknown word =>
    s!"No such command {Text.quoted word}." ++
      suggestion (Text.closest word (Subcommand.all.map (·.word)))
  | .operandMissing => "Missing argument 'NAME=VALUE...'."
  | .operandsUnwanted operands =>
    let listed := " ".intercalate operands
    match operands with
    | [_] => s!"Got unexpected extra argument ({listed})"
    | _ => s!"Got unexpected extra arguments ({listed})"
  | .configMissing place =>
    s!"Invalid value for '--config' / '-c': File {Text.quoted place} does not exist."
  | .configIsDirectory place =>
    s!"Invalid value for '--config' / '-c': File {Text.quoted place} is a directory."
  | .rootIsFile place =>
    s!"Invalid value for '--install-root': Directory {Text.quoted place} is a file."
  | .noDefinition operand => s!"Invalid value: {expectedDefinition operand}"

/-- Values that are missing or unwanted are reported without the usage. -/
def showsUsage : UsageError → Bool
  | .words (.valueMissing _) | .words (.valueUnwanted _) => false
  | _ => true

end UsageError

def usageReport (s : Scope) (e : UsageError) : String :=
  (if e.showsUsage then s.usageLine ++ s!"Try '{s.words} --help' for help.\n\n" else "") ++
    Text.plain (s!"Error: {e.message}\n")

end ImageMacros.Command
