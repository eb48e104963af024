import ImageMacros.Storage
import ImageMacros.Text.Utf8

/-!
# Failures and log records

* `Unwritable` : a file, or the directory it belongs in, could not be written, and why;
* `Failure` : everything that keeps an operation on files from giving its result;
* `Failure.message` : the text of a failure;
* `Level`, `Source` : how grave a record is, and which part of the program made it;
* `Record` : a record, with the failure it reports if it reports one in full;
* `Record.line` : a record as a line of a log;
* `Outcome` : a result, the storage afterwards and the records made on the way.
-/

namespace ImageMacros

/-! ## Failures -/

inductive Part
  | directory
  | file
deriving DecidableEq, Repr

/-- A file, or the directory it belongs in, that could not be written. -/
structure Unwritable where
  part : Part
  path : Path
  cause : Refusal
deriving DecidableEq

def Unwritable.message (u : Unwritable) : String :=
  match u.part with
  | .directory => "Failed to create directory: " ++ u.path.text
  | .file => "Failed to write file: " ++ u.path.text

inductive Failure
  | nullInPath
  | undecodable (fault : Text.Utf8.Fault)
  | refused (r : Refusal)
  | unwritable (u : Unwritable)
deriving DecidableEq

def reasonText : Text.Utf8.Reason → String
  | .badStart => "invalid start byte"
  | .badContinuation => "invalid continuation byte"
  | .truncated => "unexpected end of data"

/-- The byte itself, or the first and the last place of several. -/
def faultText (f : Text.Utf8.Fault) : String :=
  let place :=
    match f.bytes with
    | [b] => s!"byte 0x{String.ofList (Text.hexDigits 2 b.toNat)} in position {f.position}"
    | bytes => s!"bytes in position {f.position}-{f.position + bytes.length - 1}"
  s!"'utf-8' codec can't decode {place}: {reasonText f.reason}"

def Failure.message : Failure → String
  | .nullInPath => "embedded null byte"
  | .undecodable fault => faultText fault
  | .refused r => r.message
  | .unwritable u => u.message

/-! ## Records -/

inductive Level
  | debug
  | info
  | warning
  | error
deriving DecidableEq, Repr

namespace Level

def rank : Level → Nat
  | .debug => 0
  | .info => 1
  | .warning => 2
  | .error => 3

def name : Level → String
  | .debug => "DEBUG"
  | .info => "INFO"
  | .warning => "WARNING"
  | .error => "ERROR"

end Level

inductive Source
  | files
  | macroFiles
  | customizations
  | settings
  | commandLine
deriving DecidableEq, Repr

def Source.name : Source → String
  | .files => "installer_customizations.filesystem"
  | .macroFiles => "installer_customizations.macros.writer"
  | .customizations => "installer_customizations.macros.policy"
  | .settings => "installer_customizations.config"
  | .commandLine => "installer_customizations.cli"

structure Record where
  level : Level
  source : Source
  message : String
  failure : Option Unwritable := none
deriving DecidableEq

def levelColumn (l : Level) : String :=
  l.name ++ String.ofList (List.replicate (5 - l.name.length) ' ')

/-- The record behind its time; a failure reported in full has a line of its own. -/
def Record.line (time : String) (r : Record) : String :=
  s!"{time} {levelColumn r.level} {r.source.name}: {r.message}\n" ++
    match r.failure with
    | none => ""
    | some u => s!"MacroFileError: {u.message}\n"

/-- A result, the storage afterwards and the records made on the way. -/
structure Outcome (α : Type) where
  result : Except Failure α
  storage : Storage
  log : List Record

end ImageMacros
