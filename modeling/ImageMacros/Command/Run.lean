import ImageMacros.Command.Arguments
import ImageMacros.Session

/-!
# Running the command line

* `Event`, `Ending`, `Run` : what a run prints and logs, how it ends, the session afterwards;
* `Run.stdout`, `Run.stderr` : the two outputs of a run;
* `runApply`, `runRender`, `runShow` : the commands;
* `run` : the program;
* `configTexts`, `rootTexts` : the config files that a run may read, the directories below which it may read or write
  macro files: all that a run has to be given of the system.
-/

namespace ImageMacros.Command

/-! ## Runs -/

inductive Event
  | out (text : String)
  | err (text : String)
  | logged (r : Record)
deriving DecidableEq

/-- An exit code, or a failure that nothing in the program handles. -/
inductive Ending
  | exit (code : Nat)
  | escaped (f : Failure)
deriving DecidableEq

structure Run where
  session : Session
  events : List Event
  ending : Ending
  threshold : Level := .warning
deriving DecidableEq

namespace Run

def outText : Event → String
  | .out text => text
  | _ => ""

def errText (threshold : Level) (time : String) : Event → String
  | .out _ => ""
  | .err text => text
  | .logged r => if threshold.rank ≤ r.level.rank then r.line time else ""

def stdout (r : Run) : String := String.join (r.events.map outText)

/-- The messages, and the log from the threshold up with the given time. -/
def stderr (r : Run) (time : String) : String :=
  String.join (r.events.map (errText r.threshold time))

def logFirst (r : Run) (log : List Record) : Run :=
  { r with events := log.map .logged ++ r.events }

end Run

/-- A line on the standard output, without control sequences. -/
def echo (text : String) : Event := .out (Text.plain (text ++ "\n"))

def Stop.run (x : Session) : Stop → Run
  | .help s => { session := x, events := [.out (Command.help s)], ending := .exit 0 }
  | .version => { session := x, events := [echo versionLine], ending := .exit 0 }
  | .usage s e => { session := x, events := [.err (usageReport s e)], ending := .exit 2 }
  | .failure f => { session := x, events := [], ending := .escaped f }

/-! ## Apply -/

def orSetting {α : Type} (x : Session) (given : Option α) (st : Setting α) : Found α :=
  match given with
  | some value => ⟨value, x, []⟩
  | none => x.lookup st

def applying (root : String) (r : Customization.Request) : Record :=
  ⟨.info, .commandLine,
    s!"Applying RPM customizations under {root}: " ++
      s!"disable_rpm_docs={Text.shownBool r.excludeDocs} " ++
      s!"override_rpm_locales={Text.quoted r.locales}", none⟩

def applyFailed (root : String) (u : Unwritable) : Record :=
  ⟨.debug, .commandLine, s!"Customization of {root} failed", some u⟩

def runApply (x : Session) (a : ApplyArguments) : Run :=
  let root := orSetting x a.installRoot .installRoot
  let docs := orSetting root.session a.excludeDocs .excludeDocs
  let locales := orSetting docs.session a.locales .locales
  let request := ⟨docs.value, locales.value⟩
  let done := locales.session.customize root.value request {}
  let log := root.log ++ docs.log ++ locales.log ++ applying root.value request :: done.log
  match done.result with
  | .ok places => ⟨done.session, log.map .logged ++ places.map (echo ·.text), .exit 0, .warning⟩
  | .error (.unwritable u) =>
    ⟨done.session,
      log.map .logged ++
        [.logged (applyFailed root.value u), .err (Text.plain (s!"Error: {u.message}\n"))],
      .exit 1, .warning⟩
  | .error f => ⟨done.session, log.map .logged, .escaped f, .warning⟩

/-! ## Render -/

def runRender (x : Session) (a : RenderArguments) : Run :=
  ⟨x, (MacroFile.render a.definitions a.comments).map echo, .exit 0, .warning⟩

/-! ## Show -/

/-- The blocks printed, and the failure that ends them. -/
structure Shown where
  events : List Event
  failure : Option Failure

def showFile (s : Storage) (p : Path) : Shown :=
  if p.hasNull then ⟨[], none⟩
  else
    match s.locate p with
    | .ok (_, .file _) =>
      let title := echo s!"==> {p.text} <=="
      match s.readLines p.text with
      | .ok lines => ⟨title :: lines.map echo, none⟩
      | .error f => ⟨[title], some f⟩
    | .error .nameTooLong => ⟨[], some (.refused ⟨.nameTooLong, p.text⟩)⟩
    | _ => ⟨[], none⟩

/-- The files one after the other, up to the first failure. -/
def showFiles (s : Storage) : List Path → Shown
  | [] => ⟨[], none⟩
  | p :: rest =>
    let first := showFile s p
    match first.failure with
    | some f => ⟨first.events, some f⟩
    | none =>
      let later := showFiles s rest
      ⟨first.events ++ later.events, later.failure⟩

def customizationPlaces (root : String) : List Path :=
  let d : Customization.Destinations := {}
  [Path.under root d.docs, Path.under root d.locales]

def nothingFound (root : String) : Event :=
  echo s!"No customization macro files under {(Path.ofString root).text}"

def runShow (x : Session) (a : ShowArguments) : Run :=
  let root := orSetting x a.installRoot .installRoot
  let shown := showFiles root.session.storage (customizationPlaces root.value)
  let log := root.log.map Event.logged
  match shown.failure with
  | some f => ⟨root.session, log ++ shown.events, .escaped f, .warning⟩
  | none =>
    let events := if shown.events = [] then [nothingFound root.value] else shown.events
    ⟨root.session, log ++ events, .exit 0, .warning⟩

/-! ## The program -/

def runSubcommand (x : Session) (c : Subcommand) (args : List String) : Run :=
  match c with
  | .apply =>
    match ApplyArguments.read x.storage args with
    | .error stop => stop.run x
    | .ok a => runApply x a
  | .render =>
    match RenderArguments.read args with
    | .error stop => stop.run x
    | .ok a => runRender x a
  | .show =>
    match ShowArguments.read x.storage args with
    | .error stop => stop.run x
    | .ok a => runShow x a

/-- The least level that is printed; `--verbose` counts before `--quiet`. -/
def Global.threshold (g : Global) : Level :=
  if g.verbose then .debug else if g.quiet then .error else .warning

def Global.loadConfig (g : Global) (x : Session) : Found Unit :=
  match g.config with
  | none => ⟨(), x, []⟩
  | some place => x.load place

/-- Options in place of the command are read once more, and may end the run in their own way. -/
def unknownCommand (s : Storage) (word : String) (rest : List String) : Stop :=
  match Global.read s (word :: rest) with
  | .error stop => stop
  | .ok _ => .usage .program (.commandUnknown word)

def run (x : Session) (args : List String) : Run :=
  if args = [] then { session := x, events := [.err (help .program)], ending := .exit 2 }
  else
    match Global.read x.storage args with
    | .error stop => stop.run x
    | .ok g =>
      match g.rest with
      | [] => Stop.run x (.usage .program .commandMissing)
      | word :: rest =>
        match Subcommand.ofWord? word with
        | none => (unknownCommand x.storage word rest).run x
        | some c =>
          let loaded := g.loadConfig x
          let r := runSubcommand loaded.session c rest
          { r.logFirst loaded.log with threshold := g.threshold }

/-! ## The footprint of a run -/

def commandWords (args : List String) : List String :=
  match Words.read globalSpellings false args with
  | .ok w => w.operands
  | .error _ => []

def configsNamed (args : List String) : List String :=
  match Words.read globalSpellings false args with
  | .ok w => w.values .config
  | .error _ => []

def rootsNamed (args : List String) : List String :=
  match Words.read applySpellings true ((commandWords args).drop 1) with
  | .ok w => w.values .installRoot
  | .error _ => []

/-- The config files that a run may read, from the options and the environment. -/
def configTexts (x : Session) (args : List String) : List String :=
  configsNamed args ++ configsNamed (commandWords args) ++
    (x.environment.get? Session.configVariable).toList

/-- The roots below which a run may read or write macro files, from the options and the setting. -/
def rootTexts (x : Session) (args : List String) : List String :=
  let configured :=
    match Global.read x.storage args with
    | .ok g => (g.loadConfig x).session
    | .error _ => x
  rootsNamed args ++ [(configured.lookup .installRoot).value]

end ImageMacros.Command
