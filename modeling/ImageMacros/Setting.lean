import ImageMacros.Log
import ImageMacros.Text.Blank
import ImageMacros.Text.Lowercase

/-!
# Settings

* `truth?` : the texts that stand for true and for false;
* `Setting` : a setting with the names it has in each layer, its default and the texts it takes;
* `Setting.excludeDocs`, `Setting.locales`, `Setting.installRoot` : the settings there are;
* `Setting.read` : what a setting makes of a text, and the warning if it cannot use it.
-/

namespace ImageMacros

/-! ## Truth values -/

/-- Blanks around the text and its case do not count; nothing at all is false. -/
def truth? (text : String) : Option Bool :=
  let word := Text.lower (Text.trim text)
  if word ∈ ["true", "1", "yes", "on"] then some true
  else if word ∈ ["false", "0", "no", "off", ""] then some false
  else none

def notTruth (text : String) : String := "not a boolean: " ++ Text.quoted text

/-! ## Settings -/

def settingsSection : String := "customizations"

def variableName (name : String) : String := "INSTALLER_CUSTOMIZATIONS_" ++ name

/-- A setting with the values that texts give it and how messages show them. -/
structure Setting (α : Type) where
  key : String
  variableName : String
  default : α
  parse? : String → Option α
  shown : α → String

namespace Setting

def excludeDocs : Setting Bool where
  key := "disable_rpm_docs"
  variableName := ImageMacros.variableName "DISABLE_RPM_DOCS"
  default := false
  parse? := truth?
  shown := Text.shownBool

/-- Empty leaves the choice to the package manager. -/
def locales : Setting String where
  key := "override_rpm_locales"
  variableName := ImageMacros.variableName "OVERRIDE_RPM_LOCALES"
  default := ""
  parse? := fun text => some (Text.trim text)
  shown := Text.quoted

def installRoot : Setting String where
  key := "install_root"
  variableName := ImageMacros.variableName "INSTALL_ROOT"
  default := "/"
  parse? := some
  shown := Text.quoted

def knownKeys : List String := [excludeDocs.key, locales.key, installRoot.key]

def fileLayerName (key : String) : String := "[" ++ settingsSection ++ "] " ++ key

def invalid {α : Type} (st : Setting α) (layer text : String) : Record :=
  ⟨.warning, .settings,
    s!"Invalid value for {layer}: {Text.quoted text}, using default {st.shown st.default}", none⟩

/-- A text that gives no value leaves the default, with a warning that names the layer. -/
def read {α : Type} (st : Setting α) (layer text : String) : α × List Record :=
  match st.parse? text with
  | some v => (v, [])
  | none => (st.default, [st.invalid layer text])

end Setting

structure Settings where
  excludeDocs : Bool
  locales : String
  installRoot : String
deriving DecidableEq, Repr

def Settings.shown (s : Settings) : String :=
  s!"CustomizationSettings(disable_rpm_docs={Text.shownBool s.excludeDocs}, " ++
    s!"override_rpm_locales={Text.quoted s.locales}, install_root={Text.quoted s.installRoot})"

end ImageMacros
