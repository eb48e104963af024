import ImageMacros.Proofs.Config.Fault
import ImageMacros.Proofs.Session.Precedence

/-!
# Config files are read whole or not at all

* `Reads` : a step that reads the config file of a place, behind a history;
* `remembered_of_reads` : what this step reads stays the file layer until the next load or `forget`;
* `Session.readLayer_of_defective`, `Session.readLayer_of_sound` : what reading gives where a file of the place is
  defective, and where none is;
* `Session.lookup_of_loaded_empty` : a look-up takes nothing from a layer that gives nothing;
* `Session.readLayer_all_or_nothing` : a defect anywhere in the files of a place leaves nothing but one warning, for
  the reading and for every look-up of a run behind it.
-/

namespace ImageMacros

/-! ## Readings in a run -/

/-- The step loads the config file, or is the look-up that fills the file layer from it. -/
inductive Reads (past : List Moment) (x : Session) (place : String) : LayerStep → Prop
  | load : Reads past x place (.load place)
  | lookup {name : String} (hpast : remembered past = none) (hunset : x.environment.get? name = none)
      (hplace : x.configPlace = place) : Reads past x place (.lookup name)

theorem remembered_concat_of_reads {past : List Moment} {x : Session} {place : String} {step : LayerStep}
    (h : Reads past x place step) : remembered (past ++ [⟨x, step⟩]) = some (x.readLayer place).1 := by
  cases h with
  | load => exact remembered_concat_load past x place
  | lookup hpast hunset hplace =>
    rw [remembered_concat_lookup, hpast, if_pos hunset, ← hplace]
    rfl

/-- Look-ups change nothing of a layer that has been read. -/
theorem remembered_append_lookups {past after : List Moment} {values : Config.Options}
    (h : remembered past = some values) (hafter : ∀ m ∈ after, m.restarts = false) :
    remembered (past ++ after) = some values := by
  induction after using List.reverseRecOn with
  | nil => rwa [List.append_nil]
  | append_singleton after m ih =>
    obtain ⟨y, step⟩ := m
    have hrest := ih fun m hm => hafter m (List.mem_append_left _ hm)
    have hlast := hafter ⟨y, step⟩ (by simp)
    rw [← List.append_assoc]
    cases step with
    | load place => cases hlast
    | forget => cases hlast
    | lookup name => rw [remembered_concat_lookup, hrest, Option.some_or]

theorem remembered_of_reads {past after : List Moment} {x : Session} {place : String} {step : LayerStep}
    (h : Reads past x place step) (hafter : ∀ m ∈ after, m.restarts = false) :
    remembered (past ++ ⟨x, step⟩ :: after) = some (x.readLayer place).1 := by
  rw [List.append_cons]
  exact remembered_append_lookups (remembered_concat_of_reads h) hafter

namespace Session

/-! ## What is read -/

section Reading

variable {x : Session} {place : String}

theorem readLayer_of_defective (hreader : x.reader = true) (hplace : place ≠ "")
    (h : ∃ f ∈ Config.files x.storage place, Config.Defective f.2) :
    ∃ defect, x.readLayer place = (.empty, [FileLayer.unreadable place defect]) := by
  rw [readLayer, if_pos hreader]
  rcases FileLayer.read_cases x.storage hplace with ⟨defect, -, hlayer, -⟩ | ⟨document, hread, -, -⟩
  · exact ⟨defect, hlayer⟩
  · obtain ⟨f, hf, hdefective⟩ := h
    exact absurd hdefective ((Config.read_iff x.storage place).1 ⟨document, hread⟩ f hf)

theorem readLayer_of_sound (hreader : x.reader = true) (hplace : place ≠ "")
    (h : ∀ f ∈ Config.files x.storage place, ¬ Config.Defective f.2) :
    ∃ document, Config.read x.storage place = .ok document ∧
      x.readLayer place = FileLayer.ofDocument place document := by
  obtain ⟨document, hread⟩ := (Config.read_iff x.storage place).2 h
  rw [readLayer, if_pos hreader]
  rcases FileLayer.read_cases x.storage hplace with ⟨defect, herror, -, -⟩ | ⟨document, hread, hlayer, -⟩
  · rw [hread] at herror
    cases herror
  · exact ⟨document, hread, hlayer⟩

theorem readLayer_of_idle (h : x.reader = false ∨ place = "") : x.readLayer place = (.empty, []) := by
  unfold readLayer
  rcases h with h | rfl
  · rw [h, if_neg Bool.false_ne_true]
  · rw [FileLayer.read_empty, ite_self]

end Reading

theorem length_warnings_readLayer (x : Session) (place : String) : (warnings (x.readLayer place).2).length ≤ 1 := by
  by_cases hidle : x.reader = false ∨ place = ""
  · rw [readLayer_of_idle hidle]
    exact Nat.zero_le 1
  · obtain ⟨hreader, hplace⟩ := not_or.1 hidle
    rw [warnings_readLayer, if_pos (Bool.not_eq_false _ ▸ hreader)]
    rcases FileLayer.read_cases x.storage hplace with ⟨defect, -, -, hwarning⟩ | ⟨document, -, -, hwarning⟩ <;>
      rw [hwarning]
    · exact Nat.le_refl 1
    · exact Nat.zero_le 1

theorem lookup_of_loaded_empty {x : Session} (h : x.loaded = some .empty) {α : Type} (st : Setting α) :
    (x.lookup st).value = ((x.environment.get? st.variableName).bind st.parse?).getD st.default ∧
      (x.lookup st).log = ((x.environment.get? st.variableName).map (st.complaint st.variableName)).getD [] := by
  cases hvariable : x.environment.get? st.variableName with
  | some text => exact lookup_of_set hvariable
  | none =>
    have hlayer : x.fileLayer.value.get? st.key = none := by
      rw [value_fileLayer, h, Option.getD_some, Dictionary.get?_empty]
    refine ⟨(lookup_of_default hvariable hlayer).1, ?_⟩
    rw [log_lookup_of_unset hvariable, log_fileLayer, hlayer, h, if_neg (Option.some_ne_none _)]
    rfl

/-! ## Whole runs -/

/-- A defective file gives an empty layer with one warning, and every look-up up to the next reading takes the
environment or the default; otherwise the layer is the document's, without a warning. -/
theorem readLayer_all_or_nothing (x : Session) (place : String) :
    (x.perform (.readConfig place)).result = .ok (.options (x.readLayer place).1) ∧
    (x.perform (.readConfig place)).log = (x.readLayer place).2 ∧
    (warnings (x.readLayer place).2).length ≤ 1 ∧
    (x.reader = false ∨ place = "" → x.readLayer place = (.empty, [])) ∧
    (x.reader = true → place ≠ "" →
      ((∃ f ∈ Config.files x.storage place, Config.Defective f.2) →
        (∃ defect, x.readLayer place = (.empty, [FileLayer.unreadable place defect])) ∧
        ∀ (start : Session) (ops : List Operation) (steps : List LayerStep) (past after : List Moment)
          (step : LayerStep), start.loaded = none →
          start.history ops ++ (start.performAll ops).moments steps = past ++ ⟨x, step⟩ :: after →
          Reads past x place step → (∀ m ∈ after, m.restarts = false) →
          let y := (start.performAll ops).takeAll steps
          ∀ {α : Type} (st : Setting α),
            (y.lookup st).value = ((y.environment.get? st.variableName).bind st.parse?).getD st.default ∧
            (y.lookup st).log =
              ((y.environment.get? st.variableName).map (st.complaint st.variableName)).getD []) ∧
      ((∀ f ∈ Config.files x.storage place, ¬ Config.Defective f.2) →
        warnings (x.readLayer place).2 = [] ∧ ∃ document, Config.read x.storage place = .ok document ∧
          x.readLayer place = FileLayer.ofDocument place document)) := by
  refine ⟨rfl, rfl, length_warnings_readLayer x place, readLayer_of_idle, fun hreader hplace =>
    ⟨fun hdefective => ?_, fun hsound => ?_⟩⟩
  · obtain ⟨defect, hread⟩ := readLayer_of_defective hreader hplace hdefective
    refine ⟨⟨defect, hread⟩, fun start ops steps past after step hstart hhistory hreads hafter => ?_⟩
    have hloaded : ((start.performAll ops).takeAll steps).loaded = some .empty := by
      rw [loaded_at hstart, hhistory, remembered_of_reads hreads hafter, hread]
    intro y α st
    exact lookup_of_loaded_empty hloaded st
  · obtain ⟨document, hread, hlayer⟩ := readLayer_of_sound hreader hplace hsound
    refine ⟨?_, document, hread, hlayer⟩
    rw [hlayer, FileLayer.warnings_ofDocument]

/-- The second file of the directory has a line without a delimiter. -/
theorem readLayer_all_or_nothing_directory :
    let x := (fresh ["w"]).performAll [.putDirectory "d",
      .putFile "d/a.conf" (Text.Utf8.encode "[customizations]\ninstall_root = /r\n"),
      .putFile "d/b.conf" (Text.Utf8.encode "[other]\nx\n")]
    let y := x.performAll [.loadConfig "d"]
    (∃ defect, x.readLayer "d" = (.empty, [FileLayer.unreadable "d" defect])) ∧
      (y.lookup .installRoot).value = "/" ∧ (y.lookup .installRoot).log = [] ∧
      warnings (x.readLayer "d/a.conf").2 = [] ∧ x.readLayer "" = (.empty, []) := by
  intro x y
  have hdefective : ∃ f ∈ Config.files x.storage "d", Config.Defective f.2 := by decide +kernel
  have hsound : ∀ f ∈ Config.files x.storage "d/a.conf", ¬ Config.Defective f.2 := by decide +kernel
  have hunset : y.environment.get? Setting.installRoot.variableName = none := by decide +kernel
  obtain ⟨hread, hlookup⟩ := ((readLayer_all_or_nothing x "d").2.2.2.2 rfl (by decide)).1 hdefective
  have hlater := hlookup x [.loadConfig "d"] [] [] [] (.load "d") (by decide +kernel) rfl .load (by simp)
    Setting.installRoot
  rw [takeAll_nil, hunset] at hlater
  obtain ⟨hvalue, hlog⟩ : (y.lookup .installRoot).value = "/" ∧ (y.lookup .installRoot).log = [] := hlater
  exact ⟨hread, hvalue, hlog, (((readLayer_all_or_nothing x "d/a.conf").2.2.2.2 rfl (by decide)).2 hsound).1,
    (readLayer_all_or_nothing x "").2.2.2.1 (.inr rfl)⟩

end Session
end ImageMacros
