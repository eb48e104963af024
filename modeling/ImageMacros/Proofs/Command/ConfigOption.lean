import ImageMacros.Proofs.Command.Alike
import ImageMacros.Proofs.Command.Misuse

/-!
# The config file of the command line

* `Session.exporting` : the session with a config file named by the environment;
* `alike_exporting` : before anything is loaded, settings have the same values there as where the file is loaded;
* `read_configOption` : the options of a command line that names a config file in front of its command;
* `run_config_eq_exported` : a config file named by the option does what it does if the environment names it; a
  missing one, and a directory, are refused;
* `escaped_config_null` : a name with a null character is not refused, but fails.
-/

namespace ImageMacros

/-! ## The layer of the file -/

namespace Session

/-- The session with the config file named by the environment. -/
def exporting (x : Session) (place : String) : Session :=
  { x with environment := x.environment.insert configVariable place }

theorem value_lookup_exporting {α : Type} {x : Session} (hempty : x.loaded = none) (place : String) {st : Setting α}
    (hst : st.variableName ≠ configVariable) :
    ((x.exporting place).lookup st).value = ((x.load place).session.lookup st).value := by
  have hname : (x.exporting place).environment.get? st.variableName = x.environment.get? st.variableName := by
    rw [exporting, Dictionary.get?_insert, if_neg hst]
  have hlayer : (x.exporting place).fileLayer.value = (x.load place).session.fileLayer.value := by
    rw [value_fileLayer, value_fileLayer_load]
    have hnamed : (x.exporting place).environment.get? configVariable = some place := by
      rw [exporting, Dictionary.get?_insert, if_pos rfl]
    unfold namedLayer
    rw [hnamed, show (x.exporting place).loaded = none from hempty]
    rfl
  rw [value_lookup, value_lookup, hname, hlayer]
  rfl

theorem alike_exporting {x : Session} (hempty : x.loaded = none) (place : String) :
    (x.load place).session.Alike (x.exporting place) where
  storage := rfl
  installRoot := value_lookup_exporting hempty place (by decide)
  excludeDocs := value_lookup_exporting hempty place (by decide)
  locales := value_lookup_exporting hempty place (by decide)

end Session

namespace Command

/-! ## The option -/

theorem read_configOption (s : Storage) (place : String) (c : Subcommand) (words : List String) :
    Global.read s ("-c" :: place :: c.word :: words) =
      (checkConfig s place).map fun _ => ⟨false, false, some place, c.word :: words⟩ := by
  have hword : readWord globalSpellings c.word = .operand := by cases c <;> rfl
  have hread : Words.read globalSpellings false ("-c" :: place :: c.word :: words) =
      .ok ⟨[(.config, place)], c.word :: words⟩ := by
    rw [Words.read, show readWord globalSpellings "-c" = .wanting [] .config "-c" from rfl]
    simp only [Words.read, hword]
    rfl
  rw [Global.read_eq, hread]
  rfl

variable {x : Session} {place : String} {c : Subcommand} {words : List String}

theorem run_config_of_error {stop : Stop} (h : checkConfig x.storage place = .error stop) :
    run x ("-c" :: place :: c.word :: words) = stop.run x := by
  refine run_of_frontStop (by simp) ?_
  rw [frontStop?, read_configOption, h]
  rfl

theorem same_run_config (hfile : checkConfig x.storage place = .ok ()) :
    (runSubcommand (x.load place).session c words).Same (run x ("-c" :: place :: c.word :: words)) := by
  have hword : Subcommand.ofWord? c.word = some c := by cases c <;> rfl
  have hreached : reached? x.storage ("-c" :: place :: c.word :: words) =
      some ⟨⟨false, false, some place, c.word :: words⟩, c, words⟩ := by
    rw [reached?, read_configOption, hfile]
    simp only [Except.map, hword, Option.map_some]
  exact same_run_of_reached hreached

/-- Before anything is loaded, the config file of the option does what it does if the environment names it; a
missing one and a directory are refused. -/
theorem run_config_eq_exported (x : Session) (hempty : x.loaded = none) (place : String) (c : Subcommand)
    (words : List String) :
    let named := run x ("-c" :: place :: c.word :: words)
    ('\x00' ∉ place.toList →
      (∀ l content, x.storage.locateText place = .ok (l, .file content) →
        (run (x.exporting place) (c.word :: words)).Same named) ∧
      ((∃ o, x.storage.locateText place = .error o) ∨ (∃ l, x.storage.locateText place = .ok (l, .directory)) →
        named.ending = .exit 2 ∧ named.session = x)) ∧
    ('\x00' ∈ place.toList → named.ending = .escaped .nullInPath ∧ named.session = x) := by
  intro named
  refine ⟨fun hnull => ⟨fun l content hfile => ?_, fun hother => ?_⟩, fun hnull => ?_⟩
  · have hcheck : checkConfig x.storage place = .ok () := by
      rw [checkConfig, if_neg hnull, hfile]
    have hcommand := same_runSubcommand (Session.alike_exporting hempty place) c words
    exact ((same_run_word (x.exporting place) c words).symm.trans hcommand.symm).trans (same_run_config hcheck)
  · obtain ⟨e, hcheck⟩ : ∃ e, checkConfig x.storage place = .error (.usage .program e) := by
      rcases hother with ⟨o, ho⟩ | ⟨l, hl⟩
      · exact ⟨_, by rw [checkConfig, if_neg hnull, ho]⟩
      · exact ⟨_, by rw [checkConfig, if_neg hnull, hl]⟩
    rw [show named = Stop.run x (.usage .program e) from run_config_of_error hcheck]
    exact ⟨rfl, rfl⟩
  · have hcheck : checkConfig x.storage place = .error (.failure .nullInPath) := by
      rw [checkConfig, if_pos hnull]
    rw [show named = Stop.run x (.failure .nullInPath) from run_config_of_error hcheck]
    exact ⟨rfl, rfl⟩

theorem run_config_overwritten :
    let place := "." ++ ({} : Customization.Destinations).docs
    let content := Text.Utf8.encode "install_root = img\n"
    let x := (Session.fresh ["w"]).performAll [.putFile place content]
    let words := ["--install-root", ".", "--disable-rpm-docs"]
    x.loaded = none ∧ '\x00' ∉ place.toList ∧
      x.storage.locateText place = .ok (x.storage.place (Path.ofString place), .file content) ∧
      (run (x.exporting place) ("apply" :: words)).Same (run x ("-c" :: place :: "apply" :: words)) := by
  intro place content x words
  have hempty : x.loaded = none := by decide
  have hnull : '\x00' ∉ place.toList := by decide
  have hfile : x.storage.locateText place = .ok (x.storage.place (Path.ofString place), .file content) := by
    decide +kernel
  exact ⟨hempty, hnull, hfile,
    ((run_config_eq_exported x hempty place .apply words).1 hnull).1 _ content hfile⟩

/-- There is nothing with this name, and yet it is not refused. -/
theorem escaped_config_null :
    (Session.fresh ["w"]).loaded = none ∧ (Session.fresh ["w"]).storage.locateText "a\x00b" = .error .missing ∧
      (run (.fresh ["w"]) ["-c", "a\x00b", "show"]).ending ≠ .exit 2 := by
  decide

end Command
end ImageMacros
