import ImageMacros.Proofs.Command.Alike
import ImageMacros.Proofs.Text.Blank

/-!
# Options and environment

* `Session.Exports` : the environment names the install root, the documentation's choice and the locales;
* `value_installRoot`, `value_excludeDocs`, `value_locales` : the settings are then read from these texts;
* `run_exported_eq_options` : `apply` without options then does what it does with the options that stand for these
  texts, whatever is loaded or could be loaded, and whatever files hold.
-/

namespace ImageMacros

open Storage (AgreesOff)

/-! ## Settings from the environment -/

namespace Session

structure Exports (x : Session) (root docs locales : String) : Prop where
  root : x.environment.get? Setting.installRoot.variableName = some root
  docs : x.environment.get? Setting.excludeDocs.variableName = some docs
  locales : x.environment.get? Setting.locales.variableName = some locales

namespace Exports

variable {x : Session} {root docs locales : String}

theorem value_installRoot (h : x.Exports root docs locales) : (x.lookup .installRoot).value = root := by
  rw [value_lookup, h.root]
  rfl

/-- A text that is no truth value counts as false. -/
theorem value_excludeDocs (h : x.Exports root docs locales) :
    (x.lookup .excludeDocs).value = (truth? docs).getD false := by
  rw [value_lookup, h.docs]
  dsimp only [Setting.read, Setting.excludeDocs]
  cases truth? docs <;> rfl

theorem value_locales (h : x.Exports root docs locales) : (x.lookup .locales).value = Text.trim locales := by
  rw [value_lookup, h.locales]
  rfl

theorem session_resolve (h : x.Exports root docs locales) :
    ((Command.ApplyArguments.mk none none none).resolve x).session = x := by
  have hroot : (x.lookup .installRoot).session = x := session_lookup_of_set h.root
  have hdocs : (x.lookup .excludeDocs).session = x := session_lookup_of_set h.docs
  have hlocales : (x.lookup .locales).session = x := session_lookup_of_set h.locales
  simp only [Command.ApplyArguments.resolve, Command.orSetting, hroot, hdocs, hlocales]

end Exports
end Session

namespace Command

/-- `apply` looks for no more than the environment gives. -/
theorem customized_of_exports {x : Session} {root docs locales : String} (h : x.Exports root docs locales) :
    (ApplyArguments.mk none none none).customized x =
      Customization.apply x.storage root ⟨(truth? docs).getD false, Text.trim locales⟩ {} := by
  unfold ApplyArguments.customized
  rw [Session.value_resolve, h.value_installRoot, h.value_excludeDocs, h.value_locales]
  simp only [Option.getD_none]

theorem run_apply_alone (x : Session) : run x ["apply"] = runApply x ⟨none, none, none⟩ := by
  have hrun : run x (Subcommand.apply.word :: applyWords []) = runApply x (.ofGiven []) :=
    run_applyWords (by simp [ApplyArguments.ofGiven])
  exact hrun

theorem loaded_runApply (x : Session) (a : ApplyArguments) :
    (runApply x a).session.loaded = (a.resolve x).session.loaded := by
  rw [session_runApply]
  rfl

theorem exit_runApply {x : Session} {a : ApplyArguments} {root : String} {r : Customization.Request}
    (h : a.customized x = Customization.apply x.storage root r {}) (hnull : '\x00' ∉ root.toList) :
    ∃ code, (runApply x a).ending = .exit code := by
  rw [ending_runApply, h]
  cases hresult : (Customization.apply x.storage root r {}).result with
  | ok places => exact ⟨0, rfl⟩
  | error f =>
    rcases Customization.failure_apply hresult with ⟨u, rfl⟩ | ⟨-, hroot⟩
    · exact ⟨1, rfl⟩
    · exact absurd hroot hnull

theorem mayBeRoot_of_agreesOff {C : Location → Prop} {s t : Storage} {root : String} (h : AgreesOff C s t)
    (hroot : MayBeRoot s root) : MayBeRoot t root := by
  refine ⟨hroot.1, fun l content hfile => ?_⟩
  obtain ⟨content', hfile'⟩ := h.locateText_file hfile
  exact hroot.2 l content' hfile'

/-- With all three variables set, `apply` does what it does with the options for them, whatever else the session has
and whatever files hold. -/
theorem run_exported_eq_options {e x : Session} {root docs locales text : String} {given : List ApplyGiven}
    {C : Location → Prop} (henv : e.Exports root docs locales) (hroot : MayBeRoot e.storage root)
    (hgiven : ApplyArguments.ofGiven given = ⟨some root, some ((truth? docs).getD false), some text⟩)
    (htext : text = Text.trim locales ∨ Text.Trimmed locales ∧ text = locales)
    (hstorage : AgreesOff C e.storage x.storage) :
    let exported := run e ["apply"]
    let told := run x ("apply" :: applyWords given)
    told.stdout = exported.stdout ∧ told.ending = exported.ending ∧ (∃ code, exported.ending = .exit code) ∧
      AgreesOff C exported.session.storage told.session.storage ∧
      (x.storage = e.storage → told.session.storage = exported.session.storage) ∧
      exported.session.loaded = e.loaded ∧ told.session.loaded = x.loaded := by
  intro exported told
  obtain rfl : text = Text.trim locales := htext.elim id fun ⟨htrimmed, hsame⟩ => hsame.trans htrimmed.symm
  have hexported : exported = runApply e ⟨none, none, none⟩ := run_apply_alone e
  have htold : told = runApply x ⟨some root, some ((truth? docs).getD false), some (Text.trim locales)⟩ :=
    run_given hgiven (mayBeRoot_of_agreesOff hstorage hroot)
  have hagree := hstorage.apply root ⟨(truth? docs).getD false, Text.trim locales⟩ {}
  rw [← customized_of_exports henv, ← customized_of_given] at hagree
  refine ⟨?_, ?_, ?_, ?_, fun hsame => ?_, ?_, ?_⟩
  · rw [hexported, htold, stdout_runApply, stdout_runApply, hagree.result]
  · rw [hexported, htold, ending_runApply, ending_runApply, hagree.result]
  · rw [hexported]
    exact exit_runApply (customized_of_exports henv) hroot.1
  · rw [hexported, htold, storage_runApply, storage_runApply]
    exact hagree.storage
  · rw [hexported, htold, storage_runApply, storage_runApply, customized_of_given, customized_of_exports henv, hsame]
  · rw [hexported, loaded_runApply, henv.session_resolve]
  · rw [htold, loaded_runApply]
    rfl

/-- One session has all three variables, the other none of them and no reader. -/
theorem run_exported_blanks :
    let config : Location := ["w", "c"]
    let e : Session :=
      { storage := (Storage.bare ["w"]).put config (.file (Text.Utf8.encode "[customizations]\n"))
        environment := .ofList [(Setting.installRoot.variableName, "img"), (Setting.excludeDocs.variableName, "Yes "),
          (Setting.locales.variableName, " de:en\n"), (Session.configVariable, "c")] }
    let x : Session := { storage := (Storage.bare ["w"]).put config (.file []), reader := false, loaded := some .empty }
    let given : List ApplyGiven := [.installRoot "img" false, .docs true, .locales "de:en" false]
    e.Exports "img" "Yes " " de:en\n" ∧ MayBeRoot e.storage "img" ∧
      ApplyArguments.ofGiven given = ⟨some "img", some ((truth? "Yes ").getD false), some "de:en"⟩ ∧
      "de:en" = Text.trim " de:en\n" ∧ AgreesOff (· = config) e.storage x.storage ∧
      (run x ("apply" :: applyWords given)).stdout = (run e ["apply"]).stdout := by
  intro config e x given
  have henv : e.Exports "img" "Yes " " de:en\n" := ⟨by decide, by decide, by decide⟩
  have hroot : MayBeRoot e.storage "img" := by
    refine ⟨by decide, fun l content h => ?_⟩
    have hmissing : e.storage.locateText "img" = .error .missing := by decide
    cases hmissing.symm.trans h
  have htruth : truth? "Yes " = some true := by decide +kernel
  have hgiven : ApplyArguments.ofGiven given = ⟨some "img", some ((truth? "Yes ").getD false), some "de:en"⟩ := by
    rw [htruth]
    rfl
  have htext : "de:en" = Text.trim " de:en\n" := by decide +kernel
  have hstorage : AgreesOff (· = config) e.storage x.storage := AgreesOff.put_files _ (by decide) _ _
  exact ⟨henv, hroot, hgiven, htext, hstorage,
    (run_exported_eq_options henv hroot hgiven (.inl htext) hstorage).1⟩

end Command
end ImageMacros
