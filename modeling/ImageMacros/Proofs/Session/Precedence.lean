import ImageMacros.Proofs.Session.Agreement

/-!
# Which layer decides about a setting

* `warnings`, `complaints` : the warnings of a log, those about a text that gives a setting no value;
* `Setting.read_eq` : what a setting makes of a text, with its `complaint`;
* `FileLayer.warning` : what reading a config file warns of (`warnings_readLayer`), and `Session.warningOnFill` : what
  the look-up that reads the file layer warns of (`warnings_fileLayer`);
* `lookup_of_set`, `lookup_of_unset` : a look-up that the environment decides, one that it leaves to the file layer;
* `lookup_precedence` : the first layer that has a text for a setting decides alone, with its own complaint.
-/

namespace ImageMacros

/-! ## Warnings -/

def warnings (log : List Record) : List Record := log.filter fun r => r.level = .warning

@[simp] theorem warnings_append (as bs : List Record) : warnings (as ++ bs) = warnings as ++ warnings bs :=
  List.filter_append ..

theorem warnings_eq_nil {log : List Record} (h : ∀ r ∈ log, r.level = .debug) : warnings log = [] :=
  List.filter_eq_nil_iff.2 fun r hr => by simp [h r hr]

/-- A warning about a text that gives a setting no value. -/
def Record.Complains (r : Record) : Prop := r.level = .warning ∧ "Invalid value for ".toList <+: r.message.toList

instance (r : Record) : Decidable r.Complains := inferInstanceAs (Decidable (_ ∧ _))

def complaints (log : List Record) : List Record := log.filter fun r => r.Complains

@[simp] theorem complaints_append (as bs : List Record) : complaints (as ++ bs) = complaints as ++ complaints bs :=
  List.filter_append ..

theorem complaints_eq_nil {log : List Record} (h : ∀ r ∈ log, ¬ r.Complains) : complaints log = [] :=
  List.filter_eq_nil_iff.2 fun r hr => by simpa using h r hr

namespace Setting

variable {α : Type} (st : Setting α)

/-- The warning about a text that gives no value. -/
def complaint (layer text : String) : List Record :=
  if (st.parse? text).isSome then [] else [st.invalid layer text]

theorem read_eq (layer text : String) :
    st.read layer text = ((st.parse? text).getD st.default, st.complaint layer text) := by
  unfold read complaint
  cases st.parse? text <;> rfl

theorem complains_invalid (layer text : String) : (st.invalid layer text).Complains := by
  refine ⟨rfl, ?_⟩
  simp only [invalid, String.toList_append]
  exact ⟨_, by simp only [List.append_assoc]; rfl⟩

theorem warnings_complaint (layer text : String) : warnings (st.complaint layer text) = st.complaint layer text := by
  unfold complaint
  split <;> rfl

theorem complaints_complaint (layer text : String) :
    complaints (st.complaint layer text) = st.complaint layer text := by
  unfold complaint
  split
  · rfl
  · simp [complaints, st.complains_invalid]

end Setting

/-! ## Reading the file layer -/

namespace FileLayer

/-- The warning of reading a config file, if it has a defect. -/
def warning (s : Storage) (place : String) : List Record :=
  if place = "" then []
  else
    match Config.read s place with
    | .error defect => [unreadable place defect]
    | .ok _ => []

theorem record_ofDocument {place : String} {d : Config.Document} {r : Record} (h : r ∈ (ofDocument place d).2) :
    r.source = .settings ∧ r.level = .debug := by
  unfold ofDocument at h
  split at h
  · rw [List.mem_singleton.1 h]
    exact ⟨rfl, rfl⟩
  · split at h
    · cases h
    · rw [List.mem_singleton.1 h]
      exact ⟨rfl, rfl⟩

theorem warnings_ofDocument (place : String) (d : Config.Document) : warnings (ofDocument place d).2 = [] :=
  warnings_eq_nil fun _ h => (record_ofDocument h).2

theorem read_empty (s : Storage) : read s "" = (.empty, []) := if_pos rfl

theorem read_cases (s : Storage) {place : String} (h : place ≠ "") :
    (∃ defect, Config.read s place = .error defect ∧ read s place = (.empty, [unreadable place defect]) ∧
      warning s place = [unreadable place defect]) ∨
    ∃ document, Config.read s place = .ok document ∧ read s place = ofDocument place document ∧
      warning s place = [] := by
  unfold read warning
  rw [if_neg h, if_neg h]
  cases Config.read s place with
  | error defect => exact .inl ⟨defect, rfl, rfl, rfl⟩
  | ok document => exact .inr ⟨document, rfl, rfl, rfl⟩

theorem not_complains_unreadable (place : String) (d : Config.Defect) : ¬ (unreadable place d).Complains := by
  rintro ⟨-, rest, h⟩
  simp only [unreadable, String.toList_append, List.append_assoc] at h
  exact absurd (congrArg List.head? h) (show some 'I' ≠ some 'F' by decide)

theorem warnings_read (s : Storage) (place : String) : warnings (read s place).2 = warning s place := by
  by_cases hplace : place = ""
  · subst hplace
    rfl
  · rcases read_cases s hplace with ⟨defect, -, hread, hwarning⟩ | ⟨document, -, hread, hwarning⟩
    · rw [hread, hwarning]
      rfl
    · rw [hread, hwarning, warnings_ofDocument]

theorem complaints_read (s : Storage) (place : String) : complaints (read s place).2 = [] := by
  by_cases hplace : place = ""
  · subst hplace
    rfl
  · refine complaints_eq_nil fun r hr => ?_
    rcases read_cases s hplace with ⟨defect, -, hread, -⟩ | ⟨document, -, hread, -⟩ <;> rw [hread] at hr
    · exact List.mem_singleton.1 hr ▸ not_complains_unreadable place defect
    · exact fun hc => absurd hc.1 (by simp [(record_ofDocument hr).2])

end FileLayer

namespace Session

/-- The config file that the environment names; empty if it names none. -/
def configPlace (x : Session) : String := (x.environment.get? configVariable).getD ""

/-- The warning of the reading that fills the file layer, if this look-up does. -/
def warningOnFill (x : Session) : List Record :=
  if x.loaded = none ∧ x.reader = true then FileLayer.warning x.storage x.configPlace else []

theorem warnings_readLayer (x : Session) (place : String) :
    warnings (x.readLayer place).2 = if x.reader then FileLayer.warning x.storage place else [] := by
  unfold readLayer
  split
  · exact FileLayer.warnings_read x.storage place
  · rfl

theorem complaints_readLayer (x : Session) (place : String) : complaints (x.readLayer place).2 = [] := by
  unfold readLayer
  split
  · exact FileLayer.complaints_read x.storage place
  · rfl

theorem log_fileLayer (x : Session) :
    x.fileLayer.log = if x.loaded = none then (x.readLayer x.configPlace).2 else [] := by
  unfold fileLayer configPlace
  cases x.loaded <;> simp

theorem warnings_fileLayer (x : Session) : warnings x.fileLayer.log = x.warningOnFill := by
  rw [log_fileLayer, warningOnFill]
  by_cases h : x.loaded = none
  · simp only [h, if_true, true_and, warnings_readLayer]
  · simp only [h, if_false, false_and]
    rfl

theorem complaints_fileLayer (x : Session) : complaints x.fileLayer.log = [] := by
  rw [log_fileLayer]
  split
  · exact complaints_readLayer x _
  · rfl

theorem warningOnFill_of_get? {x : Session} {key text : String} (h : x.fileLayer.value.get? key = some text) :
    x.warningOnFill = [] := by
  unfold warningOnFill
  split
  · next hfill =>
    obtain ⟨hloaded, hreader⟩ := hfill
    have hvalue : x.fileLayer.value = (FileLayer.read x.storage x.configPlace).1 := by
      rw [value_fileLayer, hloaded, Option.getD_none, namedLayer, readLayer, if_pos hreader]
      rfl
    rw [hvalue] at h
    by_cases hplace : x.configPlace = ""
    · exact if_pos hplace
    · rcases FileLayer.read_cases x.storage hplace with ⟨defect, -, hread, -⟩ | ⟨document, -, -, hwarning⟩
      · rw [hread] at h
        cases h
      · exact hwarning
  · rfl

/-! ## Look-ups -/

variable {α : Type} {x : Session} {st : Setting α} {text : String}

theorem lookup_of_set (h : x.environment.get? st.variableName = some text) :
    (x.lookup st).value = (st.parse? text).getD st.default ∧
      (x.lookup st).log = st.complaint st.variableName text := by
  simp only [lookup, h, st.read_eq, and_self]

theorem log_lookup_of_unset (h : x.environment.get? st.variableName = none) :
    (x.lookup st).log = x.fileLayer.log ++ match x.fileLayer.value.get? st.key with
      | some text => st.complaint (Setting.fileLayerName st.key) text
      | none => [] := by
  simp only [lookup, h, st.read_eq]
  cases x.fileLayer.value.get? st.key <;> simp

theorem lookup_of_layer (h : x.environment.get? st.variableName = none)
    (hlayer : x.fileLayer.value.get? st.key = some text) :
    (x.lookup st).value = (st.parse? text).getD st.default ∧
      warnings (x.lookup st).log = st.complaint (Setting.fileLayerName st.key) text ∧
      complaints (x.lookup st).log = st.complaint (Setting.fileLayerName st.key) text := by
  refine ⟨?_, ?_, ?_⟩
  · simp only [value_lookup_of_unset h, Setting.ofLayer, hlayer, st.read_eq]
  · simp only [log_lookup_of_unset h, hlayer, warnings_append, warnings_fileLayer, warningOnFill_of_get? hlayer,
      st.warnings_complaint, List.nil_append]
  · simp only [log_lookup_of_unset h, hlayer, complaints_append, complaints_fileLayer, st.complaints_complaint,
      List.nil_append]

theorem lookup_of_default (h : x.environment.get? st.variableName = none)
    (hlayer : x.fileLayer.value.get? st.key = none) :
    (x.lookup st).value = st.default ∧ warnings (x.lookup st).log = x.warningOnFill ∧
      complaints (x.lookup st).log = [] := by
  refine ⟨?_, ?_, ?_⟩
  · simp only [value_lookup_of_unset h, Setting.ofLayer, hlayer]
  · simp only [log_lookup_of_unset h, hlayer, List.append_nil, warnings_fileLayer]
  · simp only [log_lookup_of_unset h, hlayer, List.append_nil, complaints_fileLayer]

/-- The complaints of a look-up do not depend on what it has to load. -/
theorem Agrees.complaints_lookup {y : Session} (h : Agrees x y) (st : Setting α) :
    complaints (y.lookup st).log = complaints (x.lookup st).log := by
  cases hx : x.environment.get? st.variableName with
  | some text => rw [(lookup_of_set hx).2, (lookup_of_set (h.environment ▸ hx)).2]
  | none =>
    have hy : y.environment.get? st.variableName = none := h.environment ▸ hx
    cases hlayer : x.fileLayer.value.get? st.key with
    | some text => rw [(lookup_of_layer hx hlayer).2.2, (lookup_of_layer hy (h.fileLayer ▸ hlayer)).2.2]
    | none => rw [(lookup_of_default hx hlayer).2.2, (lookup_of_default hy (h.fileLayer ▸ hlayer)).2.2]

theorem complaints_settings (x : Session) : complaints x.settings.log =
    complaints (x.lookup .excludeDocs).log ++ complaints (x.lookup .locales).log ++
      complaints (x.lookup .installRoot).log := by
  have hdocs := agrees_lookup x .excludeDocs
  have hlocales := hdocs.trans (agrees_lookup _ .locales)
  have hresolved : ∀ s : Settings, complaints [resolved s] = [] := fun s =>
    complaints_eq_nil fun r hr hc => absurd hc.1 (by simp [List.mem_singleton.1 hr, resolved])
  unfold settings
  simp only [complaints_append, hresolved, List.append_nil, hdocs.complaints_lookup, hlocales.complaints_lookup]

/-- The first layer that has a text decides alone, with at most one complaint about this text; the only other
warning is of a config file that is read and has a defect. -/
theorem lookup_precedence (x : Session) (st : Setting α) :
    (∀ text, x.environment.get? st.variableName = some text →
      (x.lookup st).value = (st.parse? text).getD st.default ∧
      (x.lookup st).log = st.complaint st.variableName text ∧
      ∀ y : Session, y.environment.get? st.variableName = some text →
        (y.lookup st).value = (x.lookup st).value ∧ (y.lookup st).log = (x.lookup st).log) ∧
    (x.environment.get? st.variableName = none →
      (∀ text, x.fileLayer.value.get? st.key = some text →
        (x.lookup st).value = (st.parse? text).getD st.default ∧
        warnings (x.lookup st).log = st.complaint (Setting.fileLayerName st.key) text ∧
        complaints (x.lookup st).log = st.complaint (Setting.fileLayerName st.key) text ∧
        ∀ y : Session, y.environment.get? st.variableName = none → y.fileLayer.value.get? st.key = some text →
          (y.lookup st).value = (x.lookup st).value ∧ warnings (y.lookup st).log = warnings (x.lookup st).log) ∧
      (x.fileLayer.value.get? st.key = none →
        (x.lookup st).value = st.default ∧ complaints (x.lookup st).log = [] ∧
        warnings (x.lookup st).log = x.warningOnFill)) ∧
    x.settings.value =
      ⟨(x.lookup .excludeDocs).value, (x.lookup .locales).value, (x.lookup .installRoot).value⟩ ∧
    complaints x.settings.log = complaints (x.lookup .excludeDocs).log ++ complaints (x.lookup .locales).log ++
      complaints (x.lookup .installRoot).log := by
  refine ⟨fun text h => ?_, fun h => ⟨fun text hlayer => ?_, fun hlayer => ?_⟩, value_settings x,
    complaints_settings x⟩
  · obtain ⟨hvalue, hlog⟩ := lookup_of_set h
    refine ⟨hvalue, hlog, fun y hy => ?_⟩
    obtain ⟨hvalue', hlog'⟩ := lookup_of_set hy
    exact ⟨hvalue'.trans hvalue.symm, hlog'.trans hlog.symm⟩
  · obtain ⟨hvalue, hwarnings, hcomplaints⟩ := lookup_of_layer h hlayer
    refine ⟨hvalue, hwarnings, hcomplaints, fun y hy hylayer => ?_⟩
    obtain ⟨hvalue', hwarnings', -⟩ := lookup_of_layer hy hylayer
    exact ⟨hvalue'.trans hvalue.symm, hwarnings'.trans hwarnings.symm⟩
  · obtain ⟨hvalue, hwarnings, hcomplaints⟩ := lookup_of_default h hlayer
    exact ⟨hvalue, hcomplaints, hwarnings⟩

def configuredBy (text : String) : Session :=
  (fresh ["w"]).performAll [.putFile "c" (Text.Utf8.encode text), .setVariable configVariable "c"]

/-- An empty variable in front of a layer, a text that is no truth value, and a default. -/
theorem lookup_precedence_layers :
    let x := (configuredBy "[customizations]\noverride_rpm_locales = de\ndisable_rpm_docs = maybe\n").performAll
      [.setVariable Setting.locales.variableName ""]
    x.environment.get? Setting.locales.variableName = some "" ∧ (x.lookup .locales).value = "" ∧
      (x.lookup .locales).log = [] ∧
      x.environment.get? Setting.excludeDocs.variableName = none ∧
      x.fileLayer.value.get? Setting.excludeDocs.key = some "maybe" ∧ (x.lookup .excludeDocs).value = false ∧
      warnings (x.lookup .excludeDocs).log =
        [Setting.excludeDocs.invalid "[customizations] disable_rpm_docs" "maybe"] ∧
      x.environment.get? Setting.installRoot.variableName = none ∧
      x.fileLayer.value.get? Setting.installRoot.key = none ∧ (x.lookup .installRoot).value = "/" ∧
      warnings (x.lookup .installRoot).log = x.warningOnFill := by
  intro x
  have hlocales : x.environment.get? Setting.locales.variableName = some "" := by decide +kernel
  have hdocs : x.environment.get? Setting.excludeDocs.variableName = none := by decide +kernel
  have hdocs' : x.fileLayer.value.get? Setting.excludeDocs.key = some "maybe" := by decide +kernel
  have hroot : x.environment.get? Setting.installRoot.variableName = none := by decide +kernel
  have hroot' : x.fileLayer.value.get? Setting.installRoot.key = none := by decide +kernel
  have hmaybe : Setting.excludeDocs.parse? "maybe" = none := by decide +kernel
  obtain ⟨hvalue, hlog, -⟩ := (lookup_precedence x .locales).1 "" hlocales
  obtain ⟨hvalue', hwarnings', -⟩ := ((lookup_precedence x .excludeDocs).2.1 hdocs).1 "maybe" hdocs'
  obtain ⟨hvalue'', -, hwarnings''⟩ := ((lookup_precedence x .installRoot).2.1 hroot).2 hroot'
  rw [Setting.complaint, hmaybe] at hwarnings'
  rw [hmaybe] at hvalue'
  exact ⟨hlocales, hvalue, hlog, hdocs, hdocs', hvalue', hwarnings', hroot, hroot', hvalue'', hwarnings''⟩

/-- A default comes with a warning if its look-up reads a config file with a defect. -/
theorem default_not_silent :
    let x := configuredBy "x\n"
    x.environment.get? Setting.excludeDocs.variableName = none ∧
      x.fileLayer.value.get? Setting.excludeDocs.key = none ∧ (x.lookup .excludeDocs).value = false ∧
      warnings (x.lookup .excludeDocs).log = [FileLayer.unreadable "c" (.noHeader "c" 1 "x\n")] ∧
      ¬ warnings (x.lookup .excludeDocs).log = [] := by
  decide +kernel

end Session
end ImageMacros
