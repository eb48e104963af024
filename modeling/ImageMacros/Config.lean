import ImageMacros.Dictionary
import ImageMacros.Log
import ImageMacros.Storage
import ImageMacros.Text.Blank
import ImageMacros.Text.Line
import ImageMacros.Text.Lowercase

/-!
# Config files

* `Options` : the values of a section by their keys;
* `Document` : the sections of config files, and the default values that lie under each of them;
* `values?` : what a section holds, laid over the defaults;
* `modify`, `settle` : a change to one section, a change to all values;
* `Defect` : what makes a file unreadable, with `Defect.message`;
* `header?`, `option?` : the section header, the option that a line gives;
* `Reader`, `Reader.step` : the reader between two lines and what the next line does to it;
* `readText`, `readBytes` : a file read into a document, which may hold earlier files already;
* `files` : the files that a path stands for, with their contents;
* `read` : the document of all these files.
-/

namespace ImageMacros.Config

/-! ## Documents -/

abbrev Options := Dictionary String String

def defaultSection : String := "DEFAULT"

structure Document where
  defaults : Options := .empty
  sections : Dictionary String Options := .empty
deriving DecidableEq

namespace Document

/-- The values of a section laid over the defaults; none if the document lacks the section. -/
def values? (d : Document) (name : String) : Option Options :=
  (d.sections.get? name).map fun own => own.laidOver d.defaults

/-- The document with a section changed, or added. -/
def modify (d : Document) (name : String) (f : Options → Options) : Document :=
  if name = defaultSection then { d with defaults := f d.defaults }
  else { d with sections := d.sections.insert name (f ((d.sections.get? name).getD .empty)) }

def settle (d : Document) (f : String → String) : Document :=
  ⟨d.defaults.map f, d.sections.map fun o => o.map f⟩

end Document
/-! ## Defects -/

/-- What makes a file unreadable. -/
inductive Defect
  | undecodable (fault : Text.Utf8.Fault)
  | noHeader (file : String) (number : Nat) (line : String)
  | repeatedSection (file : String) (number : Nat) (name : String)
  | repeatedOption (file : String) (number : Nat) (name key : String)
  | malformed (file : String) (lines : List (Nat × String))
deriving DecidableEq

def numberColumn (n : Nat) : String := if n < 10 then s!" {n}" else s!"{n}"

def Defect.message : Defect → String
  | .undecodable fault => faultText fault
  | .noHeader file number line =>
    s!"File contains no section headers.\nfile: {Text.quoted file}, line: {number}\n" ++
      Text.quoted line
  | .repeatedSection file number name =>
    s!"While reading from {Text.quoted file} [line {numberColumn number}]: " ++
      s!"section {Text.quoted name} already exists"
  | .repeatedOption file number name key =>
    s!"While reading from {Text.quoted file} [line {numberColumn number}]: " ++
      s!"option {Text.quoted key} in section {Text.quoted name} already exists"
  | .malformed file lines =>
    s!"Source contains parsing errors: {Text.quoted file}" ++
      String.join (lines.map fun l => s!"\n\t[line {numberColumn l.1}]: {Text.quoted l.2}")

/-! ## Lines -/

def isComment (body : List Char) : Bool := body.head? = some '#' || body.head? = some ';'

/-- The name between a bracket at the start and the last closing bracket. -/
def header? : List Char → Option String
  | '[' :: rest =>
    match ((rest.reverse.dropWhile (· ≠ ']')).drop 1).reverse with
    | [] => none
    | name => some (String.ofList name)
  | _ => none

def isDelimiter (c : Char) : Bool := c = '=' || c = ':'

/-- The key in front of the first delimiter, in lower case, and the value behind it. -/
def option? (body : List Char) : Option (String × String) :=
  match body.dropWhile fun c => !isDelimiter c with
  | [] => none
  | _ :: value =>
    let key := body.takeWhile fun c => !isDelimiter c
    some (Text.lower (Text.trimEnd (String.ofList key)), Text.trim (String.ofList value))

/-! ## The reader -/

/-- The reader between two lines, with the headers and keys seen and the lines it cannot use. -/
structure Reader where
  file : String
  document : Document
  current : Option String := none
  key : Option String := none
  indent : Nat := 0
  headers : List String := []
  keys : List (String × String) := []
  unusable : List (Nat × String) := []
deriving DecidableEq

namespace Reader

/-- The option that a blank or an indented line continues. -/
def continued? (r : Reader) : Option (String × String) :=
  match r.current, r.key with
  | some name, some key => if key = "" then none else some (name, key)
  | _, _ => none

def append (r : Reader) (name key line : String) : Reader :=
  { r with
    document := r.document.modify name fun o =>
      o.insert key ((o.get? key).getD "" ++ "\n" ++ line) }

def giveUp (r : Reader) (number : Nat) (line : List Char) : Reader :=
  { r with unusable := r.unusable ++ [(number, String.ofList line)] }

/-- The section of the defaults may be opened again, any other only in a later file. -/
def openSection (r : Reader) (number : Nat) (name : String) : Except Defect Reader :=
  if name = defaultSection then .ok { r with current := some name, key := none }
  else if name ∈ r.headers then .error (.repeatedSection r.file number name)
  else
    .ok { r with
      document := r.document.modify name id
      current := some name
      key := none
      headers := name :: r.headers }

def setOption (r : Reader) (number : Nat) (name key value : String) : Except Defect Reader :=
  if (name, key) ∈ r.keys then .error (.repeatedOption r.file number name key)
  else
    .ok { r with
      document := r.document.modify name fun o => o.insert key value
      key := some key
      keys := (name, key) :: r.keys }

/-- A line that neither is blank nor continues a value. -/
def entry (r : Reader) (number : Nat) (line body : List Char) : Except Defect Reader :=
  match header? body with
  | some name => r.openSection number name
  | none =>
    match r.current with
    | none => .error (.noHeader r.file number (String.ofList line))
    | some name =>
      match option? body with
      | none => .ok (r.giveUp number line)
      | some (key, value) =>
        (if key = "" then r.giveUp number line else r).setOption number name key value

def step (r : Reader) (number : Nat) (line : List Char) : Except Defect Reader :=
  let body := Text.trimChars line
  if isComment body then .ok r
  else if body = [] then
    match r.continued? with
    | some (name, key) => .ok (r.append name key "")
    | none => .ok r
  else
    let indent := (line.takeWhile Text.isBlank).length
    match r.continued? with
    | some (name, key) =>
      if r.indent < indent then .ok (r.append name key (String.ofList body))
      else { r with indent := indent }.entry number line body
    | none => { r with indent := indent }.entry number line body

def steps (r : Reader) (number : Nat) : List (List Char) → Except Defect Reader
  | [] => .ok r
  | line :: rest => r.step number line >>= fun r => r.steps (number + 1) rest

/-- Values lose the blanks at their end, and one unusable line spoils the file. -/
def finish (r : Reader) : Except Defect Document :=
  if r.unusable = [] then .ok (r.document.settle Text.trimEnd)
  else .error (.malformed r.file r.unusable)

end Reader

/-! ## Files -/

def fileLines (text : List Char) : List (List Char) :=
  Text.pieces (· = '\n') (Text.foldReturns text)

def readText (d : Document) (file : String) (text : List Char) : Except Defect Document :=
  Reader.steps { file := file, document := d } 1 (fileLines text) >>= Reader.finish

/-- The lines before the end of a block; a carriage return there may be half of a line's end. -/
def startedLines (text : List Char) : List (List Char) :=
  (fileLines (if text.getLast? = some '\r' then text.dropLast else text)).filter
    fun line => line.getLast? = some '\n'

/-- How many bytes are decoded at a time. -/
def blockSize : Nat := 8192

/-- Where bytes are not text, a defect in the lines of the blocks before is the one reported. -/
def readBytes (d : Document) (file : String) (bytes : List UInt8) : Except Defect Document :=
  match Text.Utf8.decodeBlocks blockSize bytes with
  | (text, none) => readText d file text
  | (text, some fault) =>
    Reader.steps { file := file, document := d } 1 (startedLines text) >>= fun _ =>
      .error (.undecodable fault)

/-! ## Places -/

def nameIn (directory file : String) : String :=
  if directory.toList.getLast? = some '/' then directory ++ file else directory ++ "/" ++ file

def isConfName (name : String) : Bool := ".conf".toList.isSuffixOf name.toList

/-- A file, or the files of a directory that end in `.conf` in ascending order. -/
def files (s : Storage) (place : String) : List (String × List UInt8) :=
  if '\x00' ∈ place.toList then []
  else
    match s.locateText place with
    | .error _ => []
    | .ok (_, .file content) => [(place, content)]
    | .ok (l, .directory) =>
      ((s.fileNames l).filter isConfName).filterMap fun name =>
        match s.locateText (nameIn place name) with
        | .ok (_, .file content) => some (nameIn place name, content)
        | _ => none

/-- The files read into one document, up to the first defect. -/
def read (s : Storage) (place : String) : Except Defect Document :=
  (files s place).foldlM (fun d f => readBytes d f.1 f.2) {}

end ImageMacros.Config
