import ImageMacros.Command.Run
import Std.Time

/-!
# The program

* `observe`, `commit` : the part of the file system that a run is about, taken in and put back;
* `main` : a run of the command line on the file system and the environment.
-/

namespace ImageMacros

def systemName (l : Location) : String := "/" ++ "/".intercalate l

/-- What the file system holds at a location, links followed. -/
def look (l : Location) : IO (Option Node) := do
  try
    let place ← IO.FS.realPath (systemName l)
    match (← place.metadata).type with
    | .dir => return some .directory
    | .file => return some (.file (← IO.FS.readBinFile place).toList)
    | _ => return none
  catch _ => return none

/-- The storage with everything that a walk along the names meets. -/
def observe (s : Storage) (l : Location) : List String → IO Storage
  | [] => return s
  | name :: rest => do
    if name = "" ∨ name = "." then observe s l rest
    else if name = ".." then observe s l.dropLast rest
    else
      match ← look (l ++ [name]) with
      | some n => observe (s.put (l ++ [name]) n) (l ++ [name]) rest
      | none => return s

def observePath (s : Storage) (p : Path) : IO Storage :=
  if p.hasNull then return s else observe s (s.start p.anchor) p.names

def observeConfig (s : Storage) (text : String) : IO Storage := do
  let p := Path.ofString text
  let s ← observePath s p
  match s.locate p with
  | .ok (l, .directory) =>
    let place ← IO.FS.realPath (systemName l)
    let names := (← place.readDir).toList.map (·.fileName)
    (names.filter Config.isConfName).foldlM (fun s name => observe s l [name]) s
  | _ => return s

def observeRoot (s : Storage) (text : String) : IO Storage := do
  let s ← observePath s (Path.ofString text)
  (Command.customizationPlaces text).foldlM observePath s

/-- What a run has changed, put into the file system, directories first. -/
def commit (before after : Storage) : IO Unit :=
  after.nodes.entries.forM fun (l, n) => do
    if before.node? l ≠ some n then
      match n with
      | .directory => IO.FS.createDir (systemName l)
      | .file content => IO.FS.writeBinFile (systemName l) ⟨content.toArray⟩

def readEnvironment : IO (Dictionary String String) := do
  let names := [Session.configVariable, Setting.excludeDocs.variableName,
    Setting.locales.variableName, Setting.installRoot.variableName]
  let values ← names.mapM fun name => return (← IO.getEnv name).map (name, ·)
  return .ofList values.reduceOption

def startSession (args : List String) : IO Session := do
  let home := (segments (← IO.currentDir).toString).filter (· ≠ "")
  let x : Session := { storage := .bare home, environment := ← readEnvironment }
  let s ← (Command.configTexts x args).foldlM observeConfig x.storage
  let x := { x with storage := s }
  let s ← (Command.rootTexts x args).foldlM observeRoot x.storage
  return { x with storage := s }

end ImageMacros

def main (args : List String) : IO UInt32 := do
  let now ← Std.Time.PlainDateTime.now
  let x ← ImageMacros.startSession args
  let run := ImageMacros.Command.run x args
  ImageMacros.commit x.storage run.session.storage
  IO.print run.stdout
  IO.eprint (run.stderr (now.format "uuuu-MM-dd HH:mm:ss,SSS"))
  match run.ending with
  | .exit code => return code.toUInt32
  | .escaped failure =>
    IO.eprintln failure.message
    return 1
