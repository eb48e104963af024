import ImageMacros.Proofs.Config.RoundTrip
import ImageMacros.Proofs.Session.Agreement

/-!
# Settings from a config file that was written

* `Config.File.Gives` : a file gives a value for a key of a section;
* `Config.File.values` : the settings' section laid over the defaults (`get?_values_eq_some_iff`);
* `Session.Holds` : a place holds a config file (`Holds.readLayer`: the layer that is read of it);
* `Config.File.AgreeOnSettings` : files that differ in nothing that settings are taken from, as a file and what
  is `essential` of it do (`agree_essential`);
* `readLayer_written` : a file is read back without a warning, and only its options with the keys of
  settings, in their section and among the defaults, decide about the settings.
-/

namespace ImageMacros

open Config (Options defaultSection)

/-! ## Values of a file -/

namespace Config.File

def Has (f : File) (name : String) : Prop := ∃ s ∈ f.sections, s.name = name

/-- A section with the name gives the value for a key that is read as this one. -/
def Gives (f : File) (name key value : String) : Prop :=
  ∃ s ∈ f.sections, s.name = name ∧ ∃ e ∈ s.entries, Text.lower e.key = key ∧ e.value = value

variable {f : File} {name key value : String}

theorem has_iff : f.Has name ↔ ∃ o, f.options? name = some o := by
  simp only [Has, options?_eq_some_iff]
  constructor
  · rintro ⟨s, hs, hname⟩
    exact ⟨_, s, hs, hname, rfl⟩
  · rintro ⟨_, s, hs, hname, -⟩
    exact ⟨s, hs, hname⟩

theorem gives_iff : f.Gives name key value ↔ (f.options? name).bind (·.get? key) = some value := by
  have hpair : ∀ s : Section, (Dictionary.ofList s.pairs).get? key = some value ↔
      ∃ e ∈ s.entries, Text.lower e.key = key ∧ e.value = value := fun s => by
    rw [Dictionary.get?_ofList_eq_some_iff s.nodup_pairs, Section.pairs, List.mem_map]
    simp only [Entry.pair, Prod.mk.injEq]
  simp only [Gives, Option.bind_eq_some_iff, options?_eq_some_iff]
  constructor
  · rintro ⟨s, hs, hname, he⟩
    exact ⟨_, ⟨s, hs, hname, rfl⟩, (hpair s).2 he⟩
  · rintro ⟨_, ⟨s, hs, hname, rfl⟩, he⟩
    exact ⟨s, hs, hname, (hpair s).1 he⟩

instance (f : File) (name key value : String) : Decidable (f.Gives name key value) :=
  decidable_of_iff _ gives_iff.symm

def values (f : File) : Options :=
  match f.options? settingsSection with
  | none => .empty
  | some own => own.laidOver ((f.options? defaultSection).getD .empty)

theorem get?_values_eq_some_iff : f.values.get? key = some value ↔ f.Has settingsSection ∧
    (f.Gives settingsSection key value ∨
      (∀ v, ¬ f.Gives settingsSection key v) ∧ f.Gives defaultSection key value) := by
  have hdefault : ((f.options? defaultSection).getD .empty).get? key = some value ↔
      f.Gives defaultSection key value := by
    rw [gives_iff]
    cases f.options? defaultSection <;> simp
  unfold values
  cases h : f.options? settingsSection with
  | none => simp [has_iff, h]
  | some own =>
    have hgives : ∀ v, f.Gives settingsSection key v ↔ own.get? key = some v := fun v => by simp [gives_iff, h]
    simp only [Dictionary.get?_laidOver, Option.or_eq_some_iff, hdefault, hgives, has_iff, h, Option.some.injEq,
      exists_eq', true_and, Option.eq_none_iff_forall_ne_some, ne_eq]

theorem values?_settle_document (f : File) : (f.document.settle Text.trimEnd).values? settingsSection =
    (f.options? settingsSection).map fun own => own.laidOver ((f.options? defaultSection).getD .empty) := by
  have hname : settingsSection ≠ defaultSection := by decide
  rw [Document.values?_eq _ hname, own?_settle_document, own?_settle_document, own?_document, own?_document,
    if_neg hname, if_pos rfl, Option.or_none]
  cases f.options? defaultSection <;> rfl

end Config.File

/-! ## Reading a file -/

namespace Session

/-- The place holds the config file, and a reader is at hand. -/
structure Holds (x : Session) (place : String) (f : Config.File) : Prop where
  reader : x.reader = true
  noNull : '\x00' ∉ place.toList
  content : x.storage.readFile place = .ok (Text.Utf8.encode f.text)

variable {x : Session} {place : String} {f : Config.File}

theorem Holds.read (h : x.Holds place f) :
    Config.read x.storage place = .ok (f.document.settle Text.trimEnd) := by
  have hcontent := h.content
  have hfiles : Config.files x.storage place = [(place, Text.Utf8.encode f.text)] := by
    unfold Storage.readFile at hcontent
    rw [Config.files, if_neg h.noNull]
    split at hcontent <;> simp_all
  rw [Config.read, hfiles, List.foldlM_cons, f.readBytes_text]
  rfl

theorem Holds.place_ne_empty (h : x.Holds place f) : place ≠ "" := by
  rintro rfl
  exact absurd h.content (by simp [Storage.readFile, Storage.locateText])

theorem Holds.readLayer (h : x.Holds place f) :
    (x.readLayer place).1 = f.values ∧ ∀ r ∈ (x.readLayer place).2, r.level ≠ .warning := by
  rw [Session.readLayer, if_pos h.reader, FileLayer.read, if_neg h.place_ne_empty, h.read]
  simp only [FileLayer.ofDocument, f.values?_settle_document, Config.File.values]
  cases f.options? settingsSection with
  | none => exact ⟨rfl, by simp [FileLayer.noSection]⟩
  | some own =>
    dsimp only [Option.map_some]
    split
    · exact ⟨rfl, by simp⟩
    · exact ⟨rfl, by simp [FileLayer.unknownKeys]⟩

end Session

/-! ## What decides about the settings -/

/-- Files that settings cannot tell apart. -/
structure Config.File.AgreeOnSettings (f g : Config.File) : Prop where
  has : f.Has settingsSection ↔ g.Has settingsSection
  gives : ∀ name ∈ [settingsSection, defaultSection], ∀ key ∈ Setting.knownKeys, ∀ value,
    f.Gives name key value ↔ g.Gives name key value

def Config.Section.essential (s : Config.Section) : Config.Section :=
  { s with
    entries := s.entries.filter fun e => Text.lower e.key ∈ Setting.knownKeys
    distinct := s.distinct.sublist (List.filter_sublist.map _) }

/-- The file without all that no setting is taken from. -/
def Config.File.essential (f : Config.File) : Config.File where
  sections := (f.sections.filter fun s => s.name ∈ [settingsSection, defaultSection]).map Config.Section.essential
  distinct := by
    rw [List.map_map]
    exact f.distinct.sublist (List.filter_sublist.map Config.Section.name)

theorem Config.File.agree_essential (f : Config.File) : f.AgreeOnSettings f.essential where
  has := by
    constructor
    · rintro ⟨s, hs, hname⟩
      exact ⟨s.essential, List.mem_map_of_mem (List.mem_filter.2 ⟨hs, by simp [hname]⟩), hname⟩
    · rintro ⟨_, hmem, hname⟩
      obtain ⟨s, hs, rfl⟩ := List.mem_map.1 hmem
      exact ⟨s, (List.mem_filter.1 hs).1, hname⟩
  gives := by
    intro name hname key hkey value
    constructor
    · rintro ⟨s, hs, rfl, e, he, rfl, hvalue⟩
      exact ⟨s.essential, List.mem_map_of_mem (List.mem_filter.2 ⟨hs, by simpa using hname⟩), rfl, e,
        List.mem_filter.2 ⟨he, by simpa using hkey⟩, rfl, hvalue⟩
    · rintro ⟨_, hmem, rfl, e, he, hgives⟩
      obtain ⟨s, hs, rfl⟩ := List.mem_map.1 hmem
      exact ⟨s, (List.mem_filter.1 hs).1, rfl, e, (List.mem_filter.1 he).1, hgives⟩

theorem Config.File.AgreeOnSettings.get?_values {f g : Config.File} (h : f.AgreeOnSettings g) {key : String}
    (hkey : key ∈ Setting.knownKeys) : f.values.get? key = g.values.get? key := by
  have hown := h.gives settingsSection (by simp) key hkey
  have hdefault := h.gives defaultSection (by simp) key hkey
  refine Option.ext fun value => ?_
  simp only [get?_values_eq_some_iff, h.has, hown, hdefault]

namespace Session

variable {x : Session} {place : String} {f : Config.File}

/-- A config file that was written is read without a warning, and nothing but its options for settings decides about
them. -/
theorem readLayer_written (h : x.Holds place f) :
    (∀ r ∈ (x.readLayer place).2, r.level ≠ .warning) ∧
      (¬ f.Has settingsSection → (x.readLayer place).1 = .empty) ∧
      (∀ key value, (x.readLayer place).1.get? key = some value ↔ f.Has settingsSection ∧
        (f.Gives settingsSection key value ∨
          (∀ v, ¬ f.Gives settingsSection key v) ∧ f.Gives defaultSection key value)) ∧
      ∀ (y : Session) (other : String) (g : Config.File), y.Holds other g → f.AgreeOnSettings g →
        ∀ a b : Session, a.environment = b.environment → a.fileLayer.value = (x.readLayer place).1 →
          b.fileLayer.value = (y.readLayer other).1 →
          ∀ {α : Type} (st : Setting α), st.key ∈ Setting.knownKeys → (a.lookup st).value = (b.lookup st).value := by
  obtain ⟨hvalues, hlog⟩ := h.readLayer
  rw [hvalues]
  refine ⟨hlog, fun hnone => ?_, fun key value => Config.File.get?_values_eq_some_iff, ?_⟩
  · refine Dictionary.ext_get? fun key => Option.eq_none_iff_forall_ne_some.2 fun value hget => ?_
    exact hnone (Config.File.get?_values_eq_some_iff.1 hget).1
  · intro y other g hg hagree a b henvironment ha hb α st hst
    rw [hg.readLayer.1] at hb
    rw [value_lookup, value_lookup, henvironment, Setting.ofLayer, Setting.ofLayer, ha, hb, hagree.get?_values hst]

/-- Values full of what the lines of a config file are made of. -/
def mixedFile : Config.File where
  sections := [
    { name := "DEFAULT"
      entries := [{ key := "Override_RPM_Locales", value := "%{x} = é: [y] # ;" }, { key := "Owner", value := "" }] },
    { name := " a]b", entries := [{ key := "install_root", value := "[customizations]" }] },
    { name := "customizations"
      entries := [{ key := "INSTALL_ROOT", value := "" }, { key := "a b", value := "= install_root = /" }] }]

def holding (f : Config.File) : Session :=
  { storage := (Storage.bare ["w"]).put ["w", "c"] (.file (Text.Utf8.encode f.text)) }

theorem holds_holding (f : Config.File) : (holding f).Holds "c" f := ⟨rfl, by decide, rfl⟩

theorem readLayer_mixedFile :
    let x := holding mixedFile
    let y := holding mixedFile.essential
    x.Holds "c" mixedFile ∧ (x.readLayer "c").1.get? "install_root" = some "" ∧
      (x.readLayer "c").1.get? "override_rpm_locales" = some "%{x} = é: [y] # ;" ∧
      (x.readLayer "c").1.get? "a b" = some "= install_root = /" ∧
      y.Holds "c" mixedFile.essential ∧ mixedFile.AgreeOnSettings mixedFile.essential ∧
      ((x.load "c").session.lookup .locales).value = ((y.load "c").session.lookup .locales).value := by
  intro x y
  obtain ⟨-, -, hget, hsame⟩ := readLayer_written (holds_holding mixedFile)
  have hsection : mixedFile.Has settingsSection := ⟨_, List.mem_of_getElem? (i := 2) rfl, rfl⟩
  have hroot : mixedFile.Gives settingsSection "install_root" "" := by decide +kernel
  have hother : mixedFile.Gives settingsSection "a b" "= install_root = /" := by decide +kernel
  have hlocales : mixedFile.Gives defaultSection "override_rpm_locales" "%{x} = é: [y] # ;" := by decide +kernel
  have hnone : (mixedFile.options? settingsSection).bind (·.get? "override_rpm_locales") = none := by
    decide +kernel
  have hnot : ∀ v, ¬ mixedFile.Gives settingsSection "override_rpm_locales" v := fun v hv => by
    rw [Config.File.gives_iff, hnone] at hv
    cases hv
  have hempty : ∀ f, ((holding f).load "c").session.environment = .empty := fun f => environment_load _ _
  have henvironment : (x.load "c").session.environment = (y.load "c").session.environment :=
    (hempty mixedFile).trans (hempty mixedFile.essential).symm
  have hagree := mixedFile.agree_essential
  exact ⟨holds_holding _, (hget _ _).2 ⟨hsection, .inl hroot⟩, (hget _ _).2 ⟨hsection, .inr ⟨hnot, hlocales⟩⟩,
    (hget _ _).2 ⟨hsection, .inl hother⟩, holds_holding _, hagree,
    hsame y "c" _ (holds_holding _) hagree _ _ henvironment (value_fileLayer_load x "c") (value_fileLayer_load y "c") _
      (by decide)⟩

end Session

end ImageMacros
