import ImageMacros.Command.Usage
import ImageMacros.Log
import ImageMacros.MacroFile

/-!
# Arguments of the program and of its commands

* `Stop` : what ends a run before a command does its work;
* `Global`, `Global.read` : the options in front of the command, and the command with its words;
* `ApplyArguments`, `RenderArguments`, `ShowArguments` : the arguments of each command;
* `definition?`, `readDefinitions` : the definitions that operands give.
-/

namespace ImageMacros.Command

/-- What ends a run before a command does its work. -/
inductive Stop
  | help (s : Scope)
  | version
  | usage (s : Scope) (e : UsageError)
  | failure (f : Failure)
deriving DecidableEq

def readWords {κ : Type} (s : Scope) (spellings : List (Spelling κ)) (mixed : Bool)
    (args : List String) : Except Stop (Words κ) :=
  match Words.read spellings mixed args with
  | .error p => .error (.usage s (.words p))
  | .ok w => .ok w

/-! ## The program -/

inductive GlobalOption
  | version
  | verbose
  | quiet
  | config
  | help
deriving DecidableEq, Repr

def globalSpellings : List (Spelling GlobalOption) :=
  [{ option := .version, long := ["--version"] },
    { option := .verbose, long := ["--verbose"], short := ['v'] },
    { option := .quiet, long := ["--quiet"], short := ['q'] },
    { option := .config, long := ["--config"], short := ['c'], valued := true },
    { option := .help, long := ["--help"] }]

/-- The options in front of the command, and the words from there on. -/
structure Global where
  verbose : Bool
  quiet : Bool
  config : Option String
  rest : List String
deriving DecidableEq, Repr

def stopOption? (w : Words GlobalOption) : Option Stop :=
  w.options.findSome? fun o =>
    match o.1 with
    | .version => some .version
    | .help => some (.help .program)
    | _ => none

/-- A config file that is named has to be there and must not be a directory. -/
def checkConfig (s : Storage) (place : String) : Except Stop Unit :=
  if '\x00' ∈ place.toList then .error (.failure .nullInPath)
  else
    match s.locateText place with
    | .error _ => .error (.usage .program (.configMissing place))
    | .ok (_, .directory) => .error (.usage .program (.configIsDirectory place))
    | .ok (_, .file _) => .ok ()

def Global.read (s : Storage) (args : List String) : Except Stop Global := do
  let w ← readWords .program globalSpellings false args
  if let some stop := stopOption? w then throw stop
  if let some place := w.value? .config then checkConfig s place
  return ⟨w.has .verbose, w.has .quiet, w.value? .config, w.operands⟩

/-! ## The commands -/

/-- An install root that is named must not be a file; it need not be there. -/
def checkRoot (s : Storage) (c : Subcommand) (place : String) : Except Stop Unit :=
  if '\x00' ∈ place.toList then .error (.failure .nullInPath)
  else
    match s.locateText place with
    | .ok (_, .file _) => .error (.usage (.command c) (.rootIsFile place))
    | _ => .ok ()

def checkNoOperands (c : Subcommand) (operands : List String) : Except Stop Unit :=
  if operands = [] then .ok () else .error (.usage (.command c) (.operandsUnwanted operands))

inductive ApplyOption
  | installRoot
  | excludeDocs
  | keepDocs
  | locales
  | help
deriving DecidableEq, Repr

def applySpellings : List (Spelling ApplyOption) :=
  [{ option := .installRoot, long := ["--install-root"], valued := true },
    { option := .excludeDocs, long := ["--disable-rpm-docs"] },
    { option := .keepDocs, long := ["--keep-rpm-docs"] },
    { option := .locales, long := ["--override-rpm-locales"], valued := true },
    { option := .help, long := ["--help"] }]

/-- What the options of `apply` fix; the rest is left to the settings. -/
structure ApplyArguments where
  installRoot : Option String
  excludeDocs : Option Bool
  locales : Option String
deriving DecidableEq, Repr

/-- The last of the two options about documentation. -/
def docsChoice? (w : Words ApplyOption) : Option Bool :=
  (w.options.filterMap fun o =>
    match o.1 with
    | .excludeDocs => some true
    | .keepDocs => some false
    | _ => none).getLast?

def ApplyArguments.read (s : Storage) (args : List String) : Except Stop ApplyArguments := do
  let w ← readWords (.command .apply) applySpellings true args
  if w.has .help then throw (.help (.command .apply))
  if let some place := w.value? .installRoot then checkRoot s .apply place
  checkNoOperands .apply w.operands
  return ⟨w.value? .installRoot, docsChoice? w, w.value? .locales⟩

inductive ShowOption
  | installRoot
  | help
deriving DecidableEq, Repr

def showSpellings : List (Spelling ShowOption) :=
  [{ option := .installRoot, long := ["--install-root"], valued := true },
    { option := .help, long := ["--help"] }]

structure ShowArguments where
  installRoot : Option String
deriving DecidableEq, Repr

def ShowArguments.read (s : Storage) (args : List String) : Except Stop ShowArguments := do
  let w ← readWords (.command .show) showSpellings true args
  if w.has .help then throw (.help (.command .show))
  if let some place := w.value? .installRoot then checkRoot s .show place
  checkNoOperands .show w.operands
  return ⟨w.value? .installRoot⟩

inductive RenderOption
  | comment
  | help
deriving DecidableEq, Repr

def renderSpellings : List (Spelling RenderOption) :=
  [{ option := .comment, long := ["--comment"], valued := true },
    { option := .help, long := ["--help"] }]

structure RenderArguments where
  comments : List String
  definitions : MacroFile.Definitions

/-- The name in front of the first equals sign, which must not be empty, and the value behind it. -/
def definition? (operand : String) : Option (String × String) :=
  match splitEquals operand.toList with
  | ([], _) | (_, none) => none
  | (name, some value) => some (String.ofList name, String.ofList value)

/-- The definitions that operands give, or the first operand that gives none. -/
def readDefinitions : List String → Except String (List (String × String))
  | [] => .ok []
  | operand :: rest =>
    match definition? operand with
    | none => .error operand
    | some d => (readDefinitions rest).map (d :: ·)

def RenderArguments.read (args : List String) : Except Stop RenderArguments := do
  let w ← readWords (.command .render) renderSpellings true args
  if w.has .help then throw (.help (.command .render))
  if w.operands = [] then throw (.usage (.command .render) .operandMissing)
  match readDefinitions w.operands with
  | .error operand => throw (.usage (.command .render) (.noDefinition operand))
  | .ok ds => return ⟨w.values .comment, .ofList ds⟩

end ImageMacros.Command
