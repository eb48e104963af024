import ImageMacros.Dictionary
import ImageMacros.Storage.Lines
import ImageMacros.Text.Blank

/-!
# Macro files

* `Comment.line` : a free text as a comment line;
* `Comment.block` : the comment lines of a list of texts;
* `Definitions` : the macros of a file, values by name;
* `header` : the lines that every macro file starts with;
* `definition` : the line that defines a macro;
* `render` : the lines of a macro file;
* `stage` : the macro file with given definitions, written below an install root.
-/

namespace ImageMacros.Comment

/-- The text behind a hash sign; a blank text stays an empty line. -/
def line (text : String) : String :=
  let text := Text.trimEnd text
  if text = "" then "" else "# " ++ text

def block (texts : List String) : List String := texts.map line

@[simp] theorem length_block (texts : List String) : (block texts).length = texts.length := by
  simp [block]

end ImageMacros.Comment

namespace ImageMacros.MacroFile

/-- Values of macros by their names, without the percent sign. -/
abbrev Definitions := Dictionary String String

def header : List String :=
  ["# This macro file was dynamically generated by the Azure Linux Toolkit image generator",
    "# based on the configuration used at image creation time.",
    ""]

def definition (name value : String) : String := "%" ++ name ++ " " ++ value

/-- The comments with an empty line behind them. -/
def commentLines (comments : List String) : List String :=
  if comments = [] then [] else Comment.block comments ++ [""]

/-- The lines of a macro file. A file that would define nothing has none. -/
def render (definitions : Definitions) (comments : List String) : List String :=
  if definitions.isEmpty then []
  else
    header ++ commentLines comments ++ definitions.entries.map fun e => definition e.1 e.2

end ImageMacros.MacroFile

namespace ImageMacros.MacroFile

def skipped (name : String) : Record :=
  ⟨.debug, .macroFiles, s!"No macros for {name}, skipping", none⟩

def wrote (count : Nat) (p : Path) : Record :=
  ⟨.info, .macroFiles, s!"Wrote {count} macro(s) to {p.text}", none⟩

/-- The macro file `name` below `root`. Without definitions nothing is written. -/
def stage (s : Storage) (root name : String) (definitions : Definitions) (comments : List String) :
    Outcome (Option Path) :=
  if definitions.isEmpty then ⟨.ok none, s, [skipped name]⟩
  else
    let place := Path.under root name
    let written := s.writeLines place (render definitions comments)
    match written.result with
    | .error failure => ⟨.error failure, written.storage, written.log⟩
    | .ok () => ⟨.ok (some place), written.storage, written.log ++ [wrote definitions.size place]⟩

end ImageMacros.MacroFile
