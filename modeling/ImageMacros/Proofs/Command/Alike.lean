import ImageMacros.Proofs.Command.Apply
import ImageMacros.Proofs.Command.Show

/-!
# Runs that do the same

* `Run.Same` : runs that leave the same storage, print the same and end alike;
* `Session.Alike` : sessions with the same storage in which every setting has the same value;
* `same_runSubcommand` : in such sessions a command does the same with any words;
* `same_run_word`, `same_run_of_reached` : a command line does what its command does.
-/

namespace ImageMacros

/-- Sessions with the same storage and the same values of settings. -/
structure Session.Alike (x y : Session) : Prop where
  storage : y.storage = x.storage
  installRoot : (y.lookup .installRoot).value = (x.lookup .installRoot).value
  excludeDocs : (y.lookup .excludeDocs).value = (x.lookup .excludeDocs).value
  locales : (y.lookup .locales).value = (x.lookup .locales).value

namespace Command

/-- Runs that leave the same storage, print the same and end alike. -/
structure Run.Same (r q : Run) : Prop where
  storage : q.session.storage = r.session.storage
  stdout : q.stdout = r.stdout
  ending : q.ending = r.ending

theorem Run.Same.symm {r q : Run} (h : Same r q) : Same q r := ⟨h.storage.symm, h.stdout.symm, h.ending.symm⟩

theorem Run.Same.trans {r q p : Run} (h : Same r q) (h' : Same q p) : Same r p :=
  ⟨h'.storage.trans h.storage, h'.stdout.trans h.stdout, h'.ending.trans h.ending⟩

/-! ## Commands -/

section

variable {x y : Session}

theorem same_stop (h : y.storage = x.storage) (stop : Stop) : (stop.run x).Same (stop.run y) := by
  cases stop <;> exact ⟨h, rfl, rfl⟩

theorem same_runApply {a b : ApplyArguments} (h : b.customized y = a.customized x) :
    (runApply x a).Same (runApply y b) :=
  ⟨by rw [storage_runApply, storage_runApply, h], by rw [stdout_runApply, stdout_runApply, h],
    by rw [ending_runApply, ending_runApply, h]⟩

theorem Alike.customized (h : x.Alike y) (a : ApplyArguments) : a.customized y = a.customized x := by
  unfold ApplyArguments.customized
  rw [Session.value_resolve, Session.value_resolve, h.storage, h.installRoot, h.excludeDocs, h.locales]

theorem same_runShow {a b : ShowArguments} (hstorage : y.storage = x.storage)
    (hroot : (orSetting y b.installRoot .installRoot).value = (orSetting x a.installRoot .installRoot).value) :
    (runShow x a).Same (runShow y b) := by
  refine ⟨?_, ?_, ?_⟩
  · rw [session_runShow, session_runShow, storage_orSetting, storage_orSetting, hstorage]
  · unfold runShow
    dsimp only
    rw [storage_orSetting, storage_orSetting, hstorage, hroot]
    split <;> simp only [Run.stdout, List.map_append, String.join_append, outText_logged, String.empty_append]
  · rw [ending_runShow, ending_runShow, hstorage, hroot]

theorem same_runSubcommand (h : x.Alike y) (c : Subcommand) (words : List String) :
    (runSubcommand x c words).Same (runSubcommand y c words) := by
  unfold runSubcommand
  rw [h.storage]
  cases c with
  | apply =>
    dsimp only
    split
    · exact same_stop h.storage _
    · exact same_runApply (Alike.customized h _)
  | render =>
    dsimp only
    split
    · exact same_stop h.storage _
    · exact ⟨h.storage, rfl, rfl⟩
  | «show» =>
    dsimp only
    split
    · exact same_stop h.storage _
    · exact same_runShow h.storage (by rw [Session.value_orSetting, Session.value_orSetting, h.installRoot])

end

/-! ## Command lines -/

theorem same_run_word (x : Session) (c : Subcommand) (words : List String) :
    (runSubcommand x c words).Same (run x (c.word :: words)) := by
  rw [run_word]
  exact ⟨rfl, rfl, rfl⟩

theorem same_run_of_reached {x : Session} {args : List String} {r : Reached} (h : reached? x.storage args = some r) :
    (runSubcommand (r.options.loadConfig x).session r.command r.words).Same (run x args) := by
  rw [run_of_reached h]
  refine ⟨rfl, ?_, rfl⟩
  simp only [Run.stdout, Run.logFirst, List.map_append, String.join_append, outText_logged, String.empty_append]

end Command
end ImageMacros
