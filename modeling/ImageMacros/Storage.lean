import ImageMacros.Dictionary
import ImageMacros.Path
import ImageMacros.Text.Quoted

/-!
# Storage: directories and files

* `Location` : the names that lead from the root to a place; `Node` : what is at a place;
* `Storage` : the nodes by location and the working directory, where relative paths start;
* `node?` : what is at a location, with `node?_put` and `node?_remove`;
* `put`, `remove`, `fileNames` : one node more, a place emptied, the files of a directory;
* `Obstacle` : what can stop a walk or a change; `Refusal` : an obstacle met with a path;
* `tooLong`, `pathTooLong` : the names that no directory holds, the paths that are not even walked;
* `walk` : the place where names lead, the leftmost obstacle first;
* `locate`, `locateText` : the place of a path, and of a text taken as it stands;
* `isDirectory` : whether a path leads to a directory;
* `slot` : the place that a change to a path is about;
* `makeDirectory` : one directory below an existing one;
* `makeDirectories` : a directory with all that is missing above it;
* `writeFile`, `readFile` : a file's bytes, put and taken.
-/

namespace ImageMacros

/-- The names that lead from the root to a place. -/
abbrev Location := List String

inductive Node
  | directory
  | file (content : List UInt8)
deriving DecidableEq, Repr

/-- A tree of directories and files with its root and a working directory `home`. -/
structure Storage where
  nodes : Dictionary Location Node
  home : Location
deriving DecidableEq

namespace Storage

def node? (s : Storage) (l : Location) : Option Node :=
  if l = [] then some .directory else s.nodes.get? l

def put (s : Storage) (l : Location) (n : Node) : Storage := { s with nodes := s.nodes.insert l n }

def remove (s : Storage) (l : Location) : Storage :=
  { s with nodes := s.nodes.restrict fun m => !l.isPrefixOf m }

def fileNames (s : Storage) (l : Location) : List String :=
  s.nodes.entries.filterMap fun
    | (m, .file _) => if m.dropLast = l then m.getLast? else none
    | (_, .directory) => none

/-- The storage that holds nothing but the working directory and the directories above it. -/
def bare (home : Location) : Storage :=
  ⟨.ofList ((List.range home.length).map fun n => (home.take (n + 1), .directory)), home⟩

/-! ## What is at a location -/

@[simp] theorem node?_root (s : Storage) : s.node? [] = some .directory := by simp [node?]

theorem node?_put (s : Storage) (l m : Location) (n : Node) :
    (s.put l n).node? m = if m = l ∧ l ≠ [] then some n else s.node? m := by
  by_cases h : m = []
  · subst h; simp [node?]
  · by_cases h' : m = l <;> simp_all [node?, put, Dictionary.get?_insert]

theorem node?_remove (s : Storage) (l m : Location) :
    (s.remove l).node? m = if m ≠ [] ∧ l.isPrefixOf m then none else s.node? m := by
  by_cases h : m = []
  · subst h; simp [node?]
  · cases h' : l.isPrefixOf m <;> simp [node?, remove, Dictionary.get?_restrict, h, h']

@[simp] theorem home_put (s : Storage) (l : Location) (n : Node) : (s.put l n).home = s.home := rfl

@[simp] theorem home_remove (s : Storage) (l : Location) : (s.remove l).home = s.home := rfl

end Storage

/-! ## What stops a walk or a change -/

inductive Obstacle
  | missing
  | occupied
  | notDirectory
  | isDirectory
  | nameTooLong
deriving DecidableEq, Repr

namespace Obstacle

/-- The number by which the system reports the obstacle. -/
def number : Obstacle → Nat
  | .missing => 2
  | .occupied => 17
  | .notDirectory => 20
  | .isDirectory => 21
  | .nameTooLong => 36

def description : Obstacle → String
  | .missing => "No such file or directory"
  | .occupied => "File exists"
  | .notDirectory => "Not a directory"
  | .isDirectory => "Is a directory"
  | .nameTooLong => "File name too long"

end Obstacle

/-- An obstacle and the path, as it was given, that met it. -/
structure Refusal where
  obstacle : Obstacle
  path : String
deriving DecidableEq, Repr

def Refusal.message (r : Refusal) : String :=
  s!"[Errno {r.obstacle.number}] {r.obstacle.description}: {Text.quoted r.path}"

namespace Storage

def nameLimit : Nat := 255

def tooLong (name : String) : Bool := nameLimit < name.utf8ByteSize

def pathLimit : Nat := 4095

def pathTooLong (text : String) : Bool := pathLimit < text.utf8ByteSize

/-! ## Walking -/

/-- The place where names lead from `l`. Also dots are followed from directories only. -/
def walk (s : Storage) : Location → List String → Except Obstacle (Location × Node)
  | l, [] =>
    match s.node? l with
    | some n => .ok (l, n)
    | none => .error .missing
  | l, name :: rest =>
    match s.node? l with
    | none => .error .missing
    | some (.file _) => .error .notDirectory
    | some .directory =>
      if name = "" ∨ name = "." then s.walk l rest
      else if name = ".." then s.walk l.dropLast rest
      else if tooLong name then .error .nameTooLong
      else s.walk (l ++ [name]) rest

def start (s : Storage) : Anchor → Location
  | .relative => s.home
  | .root | .doubleRoot => []

def locate (s : Storage) (p : Path) : Except Obstacle (Location × Node) :=
  if pathTooLong p.text then .error .nameTooLong else s.walk (s.start p.anchor) p.names

/-- The place of a text as it stands: a slash at its end asks for a directory. -/
def locateText (s : Storage) (t : String) : Except Obstacle (Location × Node) :=
  if t = "" then .error .missing
  else if pathTooLong t then .error .nameTooLong
  else s.walk (if t.toList.head? = some '/' then [] else s.home) (segments t)

def isDirectory (s : Storage) (p : Path) : Bool :=
  match s.locate p with
  | .ok (_, .directory) => true
  | _ => false

/-! ## Changes to one place -/

/-- The place of the last name below an existing directory; none if the path ends at a directory by its form. -/
def slot (s : Storage) (p : Path) : Except Obstacle (Option Location) :=
  if pathTooLong p.text then .error .nameTooLong
  else
    match p.names.getLast? with
    | none => .ok none
    | some name =>
      match s.walk (s.start p.anchor) p.names.dropLast with
      | .error o => .error o
      | .ok (_, .file _) => .error .notDirectory
      | .ok (l, .directory) =>
        if name = ".." then .ok none
        else if tooLong name then .error .nameTooLong
        else .ok (some (l ++ [name]))

/-! ## Directories and files, made and written -/

def makeDirectory (s : Storage) (p : Path) : Except Obstacle Storage :=
  match s.slot p with
  | .error o => .error o
  | .ok none => .error .occupied
  | .ok (some l) => if (s.node? l).isSome then .error .occupied else .ok (s.put l .directory)

/-- An obstacle to making a directory, which is none if the directory is there. -/
def unlessDirectory (s : Storage) (p : Path) (o : Obstacle) : Except Refusal Unit :=
  if s.isDirectory p then .ok () else .error ⟨o, p.text⟩

/-- The first of the directories, made after the rest if something above it is missing. -/
def makeFirst (s : Storage) : List Path → Except Refusal Unit × Storage
  | [] => (.ok (), s)
  | p :: above =>
    match s.makeDirectory p with
    | .ok made => (.ok (), made)
    | .error .missing =>
      match above with
      | [] => (.error ⟨.missing, p.text⟩, s)
      | _ :: _ =>
        match s.makeFirst above with
        | (.error r, made) => (.error r, made)
        | (.ok (), made) =>
          match made.makeDirectory p with
          | .ok done => (.ok (), done)
          | .error .missing => (.error ⟨.missing, p.text⟩, made)
          | .error o => (made.unlessDirectory p o, made)
    | .error o => (s.unlessDirectory p o, s)

def makeDirectories (s : Storage) (p : Path) : Except Refusal Unit × Storage :=
  s.makeFirst p.ancestry

def writeFile (s : Storage) (p : Path) (content : List UInt8) : Except Obstacle Storage :=
  match s.slot p with
  | .error o => .error o
  | .ok none => .error .isDirectory
  | .ok (some l) =>
    match s.node? l with
    | some .directory => .error .isDirectory
    | _ => .ok (s.put l (.file content))

def readFile (s : Storage) (t : String) : Except Obstacle (List UInt8) :=
  match s.locateText t with
  | .error o => .error o
  | .ok (_, .directory) => .error .isDirectory
  | .ok (_, .file content) => .ok content

end Storage
end ImageMacros
