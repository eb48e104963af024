import ImageMacros.Log
import ImageMacros.Storage
import ImageMacros.Text.Line

/-!
# Files of lines

* `writeLines` : a file that holds given lines, with the directories it needs;
* `readLines` : the lines of a file.
-/

namespace ImageMacros

def Unwritable.record (u : Unwritable) : Record :=
  match u.part with
  | .directory =>
    ⟨.error, .files, s!"Failed to create directory {u.path.text}: {u.cause.message}", none⟩
  | .file => ⟨.error, .files, s!"Failed to write {u.path.text}: {u.cause.message}", none⟩

def Unwritable.outcome (u : Unwritable) (s : Storage) : Outcome Unit :=
  ⟨.error (.unwritable u), s, [u.record]⟩

namespace Storage

def writeText (s : Storage) (p : Path) (text : String) : Outcome Unit :=
  if p.hasNull then ⟨.error .nullInPath, s, []⟩
  else
    match s.writeFile p (Text.Utf8.encode text) with
    | .ok written => ⟨.ok (), written, []⟩
    | .error o => Unwritable.outcome ⟨.file, p, ⟨o, p.text⟩⟩ s

/-- The lines, each with a line feed behind it. Directories that are made stay if the file is refused. -/
def writeLines (s : Storage) (p : Path) (lines : List String) : Outcome Unit :=
  if p.parent.hasNull then ⟨.error .nullInPath, s, []⟩
  else
    match s.makeDirectories p.parent with
    | (.error r, made) => Unwritable.outcome ⟨.directory, p.parent, r⟩ made
    | (.ok (), made) => made.writeText p (Text.unlines lines)

def readLines (s : Storage) (t : String) : Except Failure (List String) :=
  if '\x00' ∈ t.toList then .error .nullInPath
  else
    match s.readFile t with
    | .error o => .error (.refused ⟨o, t⟩)
    | .ok content =>
      match Text.Utf8.decode content with
      | .error fault => .error (.undecodable fault)
      | .ok text => .ok (Text.lines text)

end Storage
end ImageMacros
