import ImageMacros.Config
import ImageMacros.Customization
import ImageMacros.Setting

/-!
# Sessions and their settings

* `FileLayer.read` : the layer that a config file gives, with what is logged;
* `Session` : storage, environment, config reader and the file layer that is loaded;
* `Session.fileLayer` : the file layer, read on first use;
* `Session.load`, `Session.forget` : another file layer, none;
* `Session.lookup` : a setting from the environment, the file layer or its default, in this order;
* `Session.settings` : all settings;
* `Session.customize`, `Session.customizeAsConfigured` : customizations as asked, as configured.
-/

namespace ImageMacros

/-! ## Reading a layer -/

namespace FileLayer

/-- The options of a config file, and the records of reading them. -/
abbrev Reading := Config.Options × List Record

def unreadable (place : String) (d : Config.Defect) : Record :=
  ⟨.warning, .settings, s!"Failed to read config file {place}: {d.message}", none⟩

def noSection (place : String) : Record :=
  ⟨.debug, .settings, s!"No [{settingsSection}] section in {place}", none⟩

def unknownKeys (place : String) (keys : List String) : Record :=
  let listed := ", ".intercalate keys
  ⟨.debug, .settings, s!"Ignoring unknown keys in {place}: {listed}", none⟩

def ofDocument (place : String) (d : Config.Document) : Reading :=
  match d.values? settingsSection with
  | none => (.empty, [noSection place])
  | some values =>
    match values.keys.filter (· ∉ Setting.knownKeys) with
    | [] => (values, [])
    | unknown => (values, [unknownKeys place unknown])

/-- The settings' section of the files named; a defect leaves nothing but a warning. -/
def read (s : Storage) (place : String) : Reading :=
  if place = "" then (.empty, [])
  else
    match Config.read s place with
    | .error defect => (.empty, [unreadable place defect])
    | .ok document => ofDocument place document

end FileLayer

/-! ## Sessions -/

/-- The storage, the environment, whether there is a config reader, and the file layer if it is loaded. -/
structure Session where
  storage : Storage
  environment : Dictionary String String := .empty
  reader : Bool := true
  loaded : Option Config.Options := none
deriving DecidableEq

/-- A value found, the session afterwards and the records made on the way. -/
structure Found (α : Type) where
  value : α
  session : Session
  log : List Record

namespace Session

def configVariable : String := variableName "CONFIG"

def readLayer (x : Session) (place : String) : FileLayer.Reading :=
  if x.reader then FileLayer.read x.storage place else (.empty, [])

/-- The loaded layer, or else the one that the environment names, which is loaded from then on. -/
def fileLayer (x : Session) : Found Config.Options :=
  match x.loaded with
  | some values => ⟨values, x, []⟩
  | none =>
    let (values, log) := x.readLayer ((x.environment.get? configVariable).getD "")
    ⟨values, { x with loaded := some values }, log⟩

def loadedRecord (place : String) : Record :=
  ⟨.debug, .settings, s!"Loaded config file {place}", none⟩

def load (x : Session) (place : String) : Found Unit :=
  let (values, log) := x.readLayer place
  ⟨(), { x with loaded := some values }, log ++ [loadedRecord place]⟩

/-- No file layer, so that it is read again on next use. -/
def forget (x : Session) : Session := { x with loaded := none }

/-! ## Looking settings up -/

/-- The first layer that has a text decides, also with a text that the setting cannot use. -/
def lookup {α : Type} (x : Session) (st : Setting α) : Found α :=
  match x.environment.get? st.variableName with
  | some text =>
    let (value, log) := st.read st.variableName text
    ⟨value, x, log⟩
  | none =>
    let layer := x.fileLayer
    match layer.value.get? st.key with
    | none => ⟨st.default, layer.session, layer.log⟩
    | some text =>
      let (value, log) := st.read (Setting.fileLayerName st.key) text
      ⟨value, layer.session, layer.log ++ log⟩

def resolved (s : Settings) : Record :=
  ⟨.debug, .settings, s!"Resolved settings: {s.shown}", none⟩

/-- All settings, each looked up in the session that the one before leaves. -/
def settings (x : Session) : Found Settings :=
  let docs := x.lookup .excludeDocs
  let locales := docs.session.lookup .locales
  let root := locales.session.lookup .installRoot
  let found := ⟨docs.value, locales.value, root.value⟩
  ⟨found, root.session, docs.log ++ locales.log ++ root.log ++ [resolved found]⟩

/-! ## Operations on the storage of a session -/

structure Reply (α : Type) where
  result : Except Failure α
  session : Session
  log : List Record

def Reply.map {α β : Type} (f : α → β) (r : Reply α) : Reply β := ⟨r.result.map f, r.session, r.log⟩

def withOutcome {α : Type} (x : Session) (o : Outcome α) : Reply α :=
  ⟨o.result, { x with storage := o.storage }, o.log⟩

def customize (x : Session) (root : String) (r : Customization.Request)
    (d : Customization.Destinations) : Reply (List Path) :=
  x.withOutcome (Customization.apply x.storage root r d)

def customizeAsConfigured (x : Session) (root : String) : Reply (List Path) :=
  let found := x.settings
  let done := found.session.customize root ⟨found.value.excludeDocs, found.value.locales⟩ {}
  { done with log := found.log ++ done.log }

end Session
end ImageMacros
