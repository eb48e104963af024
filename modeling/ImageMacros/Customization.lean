import ImageMacros.MacroFile

/-!
# Customizations of an image

* `Destinations` : where the macro files of the customizations go;
* `Request` : what is asked of an image;
* `planned` : the macro files that a request calls for, in the order they are written;
* `apply` : the planned files, staged below an install root.
-/

namespace ImageMacros.Customization

def macroDirectory : String := "/usr/lib/rpm/macros.d"

/-- The place of each customization's macro file, relative to the install root. -/
structure Destinations where
  docs : String := macroDirectory ++ "/macros.installercustomizations_disable_docs"
  locales : String := macroDirectory ++ "/macros.installercustomizations_customize_locales"
deriving DecidableEq, Repr

/-- No locales named asks for nothing. -/
structure Request where
  excludeDocs : Bool
  locales : String
deriving DecidableEq, Repr

/-- The macro files of a request. Both are kept even if they share a destination. -/
def planned (r : Request) (d : Destinations) : List (String × MacroFile.Definitions) :=
  (if r.excludeDocs then [(d.docs, .ofList [("_excludedocs", "1")])] else []) ++
    (if r.locales = "" then [] else [(d.locales, .ofList [("_install_langs", r.locales)])])

/-- The files one after the other, up to the first that fails. -/
def stageAll (s : Storage) (root : String) :
    List (String × MacroFile.Definitions) → Outcome (List Path)
  | [] => ⟨.ok [], s, []⟩
  | (name, definitions) :: rest =>
    let first := MacroFile.stage s root name definitions []
    match first.result with
    | .error failure => ⟨.error failure, first.storage, first.log⟩
    | .ok place =>
      let later := stageAll first.storage root rest
      ⟨later.result.map (place.toList ++ ·), later.storage, first.log ++ later.log⟩

def nothingRequested (root : String) : Record :=
  ⟨.debug, .customizations, s!"No RPM macro customizations requested for {root}", none⟩

/-- The macro files of a request, written below `root`; the places written. -/
def apply (s : Storage) (root : String) (r : Request) (d : Destinations) : Outcome (List Path) :=
  let staged := stageAll s root (planned r d)
  match staged.result with
  | .ok [] => { staged with log := staged.log ++ [nothingRequested root] }
  | _ => staged

end ImageMacros.Customization
