import ImageMacros.Command.Run

/-!
# Operations on a session

* `Operation` : everything that can be done in a session, changes of its surroundings included;
* `Answer` : what an operation gives;
* `Session.perform` : one operation; `Session.performAll` : one after the other.
-/

namespace ImageMacros

/-- The first six change the surroundings of the program, the others are its own. -/
inductive Operation
  | putFile (place : String) (content : List UInt8)
  | putDirectory (place : String)
  | remove (place : String)
  | setVariable (name value : String)
  | unsetVariable (name : String)
  | setReader (available : Bool)
  | writeLines (place : String) (lines : List String)
  | readLines (place : String)
  | stage (root name : String) (definitions : MacroFile.Definitions) (comments : List String)
  | customize (root : String) (r : Customization.Request) (d : Customization.Destinations)
  | customizeAsConfigured (root : String)
  | readConfig (place : String)
  | loadConfig (place : String)
  | forgetConfig
  | excludeDocs
  | locales
  | installRoot
  | settings
  | command (args : List String)

inductive Answer
  | done
  | lines (ls : List String)
  | place (p : Option Path)
  | places (ps : List Path)
  | options (o : Config.Options)
  | truth (b : Bool)
  | text (s : String)
  | settings (s : Settings)
  | run (r : Command.Run)

/-- A file put where a text says, with the directories above it. -/
def Storage.putFile (s : Storage) (place : String) (content : List UInt8) : Storage :=
  let p := Path.ofString place
  let (_, made) := s.makeDirectories p.parent
  match made.writeFile p content with
  | .ok written => written
  | .error _ => made

namespace Session

def withStorage (x : Session) (s : Storage) : Reply Answer :=
  ⟨.ok .done, { x with storage := s }, []⟩

def Reply.ofFound {α : Type} (f : Found α) : Reply α := ⟨.ok f.value, f.session, f.log⟩

def perform (x : Session) : Operation → Reply Answer
  | .putFile place content => x.withStorage (x.storage.putFile place content)
  | .putDirectory place => x.withStorage (x.storage.makeDirectories (Path.ofString place)).2
  | .remove place =>
    match x.storage.locateText place with
    | .ok (l, _) => x.withStorage (x.storage.remove l)
    | .error _ => x.withStorage x.storage
  | .setVariable name value =>
    ⟨.ok .done, { x with environment := x.environment.insert name value }, []⟩
  | .unsetVariable name => ⟨.ok .done, { x with environment := x.environment.restrict (· ≠ name) }, []⟩
  | .setReader available => ⟨.ok .done, { x with reader := available }, []⟩
  | .writeLines place lines =>
    (x.withOutcome (x.storage.writeLines (Path.ofString place) lines)).map fun _ => .done
  | .readLines place => ⟨(x.storage.readLines place).map .lines, x, []⟩
  | .stage root name definitions comments =>
    (x.withOutcome (MacroFile.stage x.storage root name definitions comments)).map .place
  | .customize root r d => (x.customize root r d).map .places
  | .customizeAsConfigured root => (x.customizeAsConfigured root).map .places
  | .readConfig place =>
    let (values, log) := x.readLayer place
    ⟨.ok (.options values), x, log⟩
  | .loadConfig place => (Reply.ofFound (x.load place)).map fun _ => .done
  | .forgetConfig => ⟨.ok .done, x.forget, []⟩
  | .excludeDocs => (Reply.ofFound (x.lookup .excludeDocs)).map .truth
  | .locales => (Reply.ofFound (x.lookup .locales)).map .text
  | .installRoot => (Reply.ofFound (x.lookup .installRoot)).map .text
  | .settings => (Reply.ofFound x.settings).map .settings
  | .command args =>
    let r := Command.run x args
    ⟨.ok (.run r), r.session, []⟩

def performAll (x : Session) (ops : List Operation) : Session :=
  ops.foldl (fun x op => (x.perform op).session) x

/-- A session with an empty working directory, nothing in its environment and nothing loaded. -/
def fresh (home : Location) : Session := { storage := .bare home }

end Session
end ImageMacros
