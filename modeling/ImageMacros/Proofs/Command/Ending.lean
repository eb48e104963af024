import ImageMacros.Proofs.Command.Apply
import ImageMacros.Proofs.Command.Misuse
import ImageMacros.Proofs.Command.Show
import ImageMacros.Proofs.Storage.Fill

/-!
# How a run can end

* `shown?` : the install root that a command line hands to `show`, as `applied?` is what it hands to `apply`;
* `run_course` : a run is stopped before its command does its work, or does the work of one of the commands;
* `Escapes` : what keeps a run from ending with an exit code;
* `ending_run` : the ways in which a run ends, and when it ends in each of them;
* `deepRoot`, `escaped_show_deepRoot` : short names alone do not keep `show` from failing.
-/

namespace ImageMacros.Command

/-! ## The course of a run -/

def shown? (x : Session) (args : List String) : Option String :=
  match reached? x.storage args with
  | some ⟨options, .show, words⟩ =>
    match ShowArguments.read x.storage words with
    | .ok a => some (orSetting (options.loadConfig x).session a.installRoot .installRoot).value
    | .error _ => none
  | _ => none

theorem ending_of_applied {x : Session} {args : List String} {f : Found (String × Customization.Request)}
    (h : applied? x args = some f) :
    (run x args).ending = .ofResult (Customization.apply x.storage f.value.1 f.value.2 {}).result := by
  unfold applied? at h
  split at h
  · next options words hr =>
    split at h
    · next a ha =>
      obtain rfl := Option.some.inj h
      rw [run_of_reached hr]
      change (runSubcommand _ _ _).ending = _
      unfold runSubcommand
      dsimp only
      rw [storage_loadConfig, ha]
      dsimp only
      rw [ending_runApply, ApplyArguments.customized, storage_loadConfig]
    · cases h
  · cases h

theorem run_course (x : Session) (args : List String) : args = [] ∨ (∃ stop, stop? x.storage args = some stop) ∨
    (∃ f, applied? x args = some f) ∨
    (∃ root, shown? x args = some root ∧
      (run x args).ending = .ofFailure (showFiles x.storage (customizationPlaces root)).failure) ∨
    (run x args).ending = .exit 0 := by
  refine .inr ?_
  unfold stop? applied? shown?
  cases hr : reached? x.storage args with
  | none => exact .inl (reached?_eq_none_iff.1 hr)
  | some r =>
    obtain ⟨options, command, words⟩ := r
    have hrun := run_of_reached hr
    have hstorage := storage_loadConfig options x
    dsimp only at hrun ⊢
    cases hstop : command.stop? x.storage words with
    | some stop => exact .inl ⟨stop, rfl⟩
    | none =>
      refine .inr ?_
      rw [hrun]
      cases command with
      | apply =>
        refine .inl ?_
        dsimp only [Subcommand.stop?] at hstop ⊢
        cases ha : ApplyArguments.read x.storage words with
        | error stop => simp [ha, stopOf] at hstop
        | ok a => exact ⟨_, rfl⟩
      | render =>
        refine .inr (.inr ?_)
        dsimp only [Subcommand.stop?, runSubcommand] at hstop ⊢
        cases ha : RenderArguments.read words with
        | error stop => simp [ha, stopOf] at hstop
        | ok a => rfl
      | «show» =>
        refine .inr (.inl ?_)
        dsimp only [Subcommand.stop?, runSubcommand] at hstop ⊢
        rw [hstorage]
        cases ha : ShowArguments.read x.storage words with
        | error stop => simp [ha, stopOf] at hstop
        | ok a => exact ⟨_, rfl, (ending_runShow _ a).trans (by rw [hstorage])⟩

/-! ## Endings -/

/-- A null character in a path, or what keeps `show` from reading a macro file. -/
inductive Escapes (x : Session) (args : List String) : Failure → Prop
  | nullNamed {place} (h : place ∈ pathsNamed args) (hnull : '\x00' ∈ place.toList) : Escapes x args .nullInPath
  | nullRoot {f} (h : applied? x args = some f) (hnull : '\x00' ∈ f.value.1.toList) : Escapes x args .nullInPath
  | undecodable {root p l content fault} (h : shown? x args = some root) (hp : p ∈ customizationPlaces root)
      (hfile : x.storage.locate p = .ok (l, .file content)) (hdecode : Text.Utf8.decode content = .error fault) :
      Escapes x args (.undecodable fault)
  | tooLong {root p} (h : shown? x args = some root) (hp : p ∈ customizationPlaces root)
      (hlong : Storage.pathTooLong p.text = true ∨ ∃ name ∈ (Path.ofString root).names, Storage.tooLong name = true) :
      Escapes x args (.refused ⟨.nameTooLong, p.text⟩)

theorem escapes_of_show {x : Session} {args : List String} {root : String} {f : Failure}
    (h : shown? x args = some root) (hf : (showFiles x.storage (customizationPlaces root)).failure = some f) :
    Escapes x args f := by
  obtain ⟨p, hp, hfail⟩ := failure_showFiles hf
  obtain ⟨hne, hnames⟩ := names_of_mem_customizationPlaces hp
  rcases failure_showFile hne hfail with ⟨l, content, fault, hfile, hdecode, rfl⟩ | ⟨hlocate, rfl⟩
  · exact .undecodable h hp hfile hdecode
  · refine .tooLong h hp ((Storage.tooLong_of_locate hlocate).imp_right fun ⟨name, hname, hlong⟩ => ⟨name, ?_, hlong⟩)
    exact (hnames name hname).resolve_right fun hharmless => by simp [hharmless.1] at hlong

/-- The four ways in which a run ends, each with what leads to it. -/
theorem ending_cases (x : Session) (args : List String) :
    (run x args).ending = .exit 0 ∨
      ((run x args).ending = .exit 1 ∧ ∃ f u, applied? x args = some f ∧
        (Customization.apply x.storage f.value.1 f.value.2 {}).result = .error (.unwritable u)) ∨
      ((run x args).ending = .exit 2 ∧ (args = [] ∨ ∃ sc e, Misuse x.storage args sc e)) ∨
      ∃ f, (run x args).ending = .escaped f ∧ Escapes x args f := by
  by_cases hne : args = []
  · subst hne
    exact .inr (.inr (.inl ⟨rfl, .inl rfl⟩))
  rcases run_course x args with hargs | ⟨stop, hstop⟩ | ⟨f, hf⟩ | ⟨root, hroot, hending⟩ | hending
  · exact absurd hargs hne
  · have hending := ending_of_stop hne hstop
    rcases stop?_cases hstop with rfl | ⟨sc, rfl⟩ | ⟨sc, e, rfl, he⟩ | ⟨rfl, place, hplace, hnull⟩
    · exact .inl hending
    · exact .inl hending
    · exact .inr (.inr (.inl ⟨hending, .inr ⟨sc, e, he⟩⟩))
    · exact .inr (.inr (.inr ⟨_, hending, .nullNamed hplace hnull⟩))
  · have hending := ending_of_applied hf
    cases hresult : (Customization.apply x.storage f.value.1 f.value.2 {}).result with
    | ok places =>
      rw [hresult] at hending
      exact .inl hending
    | error failure =>
      rw [hresult] at hending
      rcases Customization.failure_apply hresult with ⟨u, rfl⟩ | ⟨rfl, hnull⟩
      · exact .inr (.inl ⟨hending, f, u, hf, hresult⟩)
      · exact .inr (.inr (.inr ⟨_, hending, .nullRoot hf hnull⟩))
  · cases hfailure : (showFiles x.storage (customizationPlaces root)).failure with
    | none =>
      rw [hfailure] at hending
      exact .inl hending
    | some f =>
      rw [hfailure] at hending
      exact .inr (.inr (.inr ⟨f, hending, escapes_of_show hroot hfailure⟩))
  · exact .inl hending

/-- Nothing but misuse, and no words at all, gives exit code two. -/
theorem misuse_of_exit_two {x : Session} {args : List String} (h : (run x args).ending = .exit 2) :
    args = [] ∨ ∃ sc e, Misuse x.storage args sc e := by
  rcases ending_cases x args with h' | ⟨h', -⟩ | ⟨-, hmisuse⟩ | ⟨f, h', -⟩
  · simp [h] at h'
  · simp [h] at h'
  · exact hmisuse
  · simp [h] at h'

/-- How a run ends: with code one exactly if a file cannot be written, with two exactly if it is misused or has no
words, and without a code only for a reason. -/
theorem ending_run (x : Session) (args : List String) :
    ((∃ code ∈ [0, 1, 2], (run x args).ending = .exit code) ∨
      ∃ f, (run x args).ending = .escaped f ∧ Escapes x args f) ∧
    ((run x args).ending = .exit 1 ↔ ∃ f u, applied? x args = some f ∧
      (Customization.apply x.storage f.value.1 f.value.2 {}).result = .error (.unwritable u)) ∧
    ((run x args).ending = .exit 2 ↔ args = [] ∨ ∃ sc e, Misuse x.storage args sc e) := by
  refine ⟨?_, ⟨fun h => ?_, ?_⟩, ⟨fun h => ?_, ?_⟩⟩
  · rcases ending_cases x args with h | ⟨h, -⟩ | ⟨h, -⟩ | hescapes
    · exact .inl ⟨0, by simp, h⟩
    · exact .inl ⟨1, by simp, h⟩
    · exact .inl ⟨2, by simp, h⟩
    · exact .inr hescapes
  · rcases ending_cases x args with h' | ⟨-, hone⟩ | ⟨h', -⟩ | ⟨f, h', -⟩
    · simp [h] at h'
    · exact hone
    · simp [h] at h'
    · simp [h] at h'
  · rintro ⟨f, u, hf, hu⟩
    rw [ending_of_applied hf, hu]
    rfl
  · rcases ending_cases x args with h' | ⟨h', -⟩ | ⟨-, htwo⟩ | ⟨f, h', -⟩
    · simp [h] at h'
    · simp [h] at h'
    · exact htwo
    · simp [h] at h'
  · rintro (rfl | ⟨sc, e, he⟩)
    · rfl
    · by_cases hne : args = []
      · rw [hne]
        rfl
      · exact ending_of_stop hne he.stop?

/-! ## A path that is too long as a whole -/

/-- Names that a directory can hold, and together more than can be asked for. -/
def deepRoot : Path := .ofLongNames 41

theorem pathTooLong_deepRoot (p : Path) : Storage.pathTooLong (deepRoot.within p).text = true :=
  pathTooLong_of_longNames p.names rfl

theorem mayBeRoot_deepRoot (s : Storage) : MayBeRoot s deepRoot.text := by
  have hnull : deepRoot.hasNull = false := Path.hasNull_ofLongNames 41
  have hlong : Storage.pathTooLong deepRoot.text = true := pathTooLong_of_longNames [] (List.append_nil _).symm
  have hne : deepRoot.names ≠ [] := by simp [deepRoot, Path.ofLongNames]
  refine ⟨Path.null_not_mem_text hnull, fun l content h => ?_⟩
  rw [Storage.locateText_text s hne, Storage.locate, hlong] at h
  cases h

/-- Whatever is there, `show` fails below the deep root at the first macro file. -/
theorem ending_show_deepRoot (x : Session) (joined : Bool) :
    (run x ("show" :: showWords deepRoot.text joined)).ending =
      .escaped (.refused ⟨.nameTooLong, (Path.under deepRoot.text ({} : Customization.Destinations).docs).text⟩) := by
  obtain ⟨p, hp, hnull⟩ : ∃ p : Path,
      Path.under deepRoot.text ({} : Customization.Destinations).docs = deepRoot.within p ∧ p.hasNull = false :=
    ⟨.ofString ({} : Customization.Destinations).docs, by rw [Path.under, Path.ofString_text], by decide⟩
  have hlocate : x.storage.locate (deepRoot.within p) = .error .nameTooLong := by
    rw [Storage.locate, if_pos (pathTooLong_deepRoot p)]
  have hshown : showFile x.storage (deepRoot.within p) =
      ⟨[], some (.refused ⟨.nameTooLong, (deepRoot.within p).text⟩)⟩ := by
    rw [showFile_eq _ (by simp [Path.within, deepRoot, Path.ofLongNames])
      (by rw [Path.hasNull_within, deepRoot, Path.hasNull_ofLongNames, hnull, Bool.or_self]), hlocate]
  have hrun : run x ("show" :: showWords deepRoot.text joined) = runShow x ⟨some deepRoot.text⟩ :=
    run_showWords (mayBeRoot_deepRoot x.storage) joined
  have hfirst : ∃ rest, customizationPlaces deepRoot.text = deepRoot.within p :: rest := ⟨_, by rw [← hp]; rfl⟩
  obtain ⟨rest, hrest⟩ := hfirst
  rw [hrun, ending_runShow, hp]
  dsimp only [orSetting]
  rw [hrest, showFiles, hshown]
  rfl

/-- Short names alone do not keep `show` from failing. -/
theorem escaped_show_deepRoot :
    (∀ name ∈ (Path.ofString deepRoot.text).names, Storage.tooLong name = false) ∧
      (run (.fresh ["w"]) ["show", "--install-root", deepRoot.text]).ending = .escaped (.refused
        ⟨.nameTooLong, (Path.under deepRoot.text ({} : Customization.Destinations).docs).text⟩) := by
  refine ⟨fun name hname => ?_, ending_show_deepRoot (.fresh ["w"]) false⟩
  rw [Path.ofString_text] at hname
  rw [Path.eq_longName hname]
  exact longName_fits.1

end ImageMacros.Command
