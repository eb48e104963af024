import ImageMacros.Proofs.Command.Reach
import ImageMacros.Proofs.Command.Words
import ImageMacros.Proofs.Session.Store
import ImageMacros.Proofs.Storage.Walk

/-!
# The command line of `show`

* `showFile_eq`, `failure_showFile` : what is shown of a file, and what showing it fails at;
* `names_of_mem_customizationPlaces` : the places of the macro files;
* `Ending.ofFailure`, `ending_runShow` : the command ends as showing the files of its root does;
* `showWords`, `run_showWords` : a command line of `show` with an install root.
-/

namespace ImageMacros.Command

open Text (unlines plain)

/-! ## Files -/

/-- What is shown of a file: nothing if there is none, else its place and lines. -/
theorem showFile_eq (s : Storage) {p : Path} (hne : p.names ≠ []) (hnull : p.hasNull = false) :
    showFile s p = match s.locate p with
      | .ok (_, .file content) =>
        match Text.Utf8.decode content with
        | .ok text => ⟨echo s!"==> {p.text} <==" :: (Text.lines text).map echo, none⟩
        | .error fault => ⟨[echo s!"==> {p.text} <=="], some (.undecodable fault)⟩
      | .error .nameTooLong => ⟨[], some (.refused ⟨.nameTooLong, p.text⟩)⟩
      | _ => ⟨[], none⟩ := by
  unfold showFile
  rw [hnull, if_neg Bool.false_ne_true]
  cases hlocate : s.locate p with
  | error o => cases o <;> rfl
  | ok r =>
    obtain ⟨l, n⟩ := r
    cases n with
    | directory => rfl
    | file content =>
      have hread : s.readFile p.text = .ok content := by
        simp only [Storage.readFile, Storage.locateText_text s hne, hlocate]
      dsimp only
      unfold Storage.readLines
      rw [if_neg (Path.null_not_mem_text hnull), hread]
      cases hdecode : Text.Utf8.decode content <;> simp [hdecode]

theorem failure_showFile {s : Storage} {p : Path} {f : Failure} (hne : p.names ≠ [])
    (h : (showFile s p).failure = some f) :
    (∃ l content fault, s.locate p = .ok (l, .file content) ∧ Text.Utf8.decode content = .error fault ∧
        f = .undecodable fault) ∨
      s.locate p = .error .nameTooLong ∧ f = .refused ⟨.nameTooLong, p.text⟩ := by
  cases hnull : p.hasNull with
  | true => simp [showFile, hnull] at h
  | false =>
    rw [showFile_eq s hne hnull] at h
    split at h
    · next l content hlocate =>
      split at h
      · cases h
      · next fault hdecode => exact .inl ⟨l, content, fault, hlocate, hdecode, (Option.some.inj h).symm⟩
    · next hlocate => exact .inr ⟨hlocate, (Option.some.inj h).symm⟩
    · cases h

theorem failure_showFiles {s : Storage} {ps : List Path} {f : Failure} (h : (showFiles s ps).failure = some f) :
    ∃ p ∈ ps, (showFile s p).failure = some f := by
  induction ps with
  | nil => cases h
  | cons p rest ih =>
    unfold showFiles at h
    dsimp only at h
    split at h
    · next hfirst => exact ⟨p, List.mem_cons_self, hfirst.trans h⟩
    · obtain ⟨q, hq, hf⟩ := ih h
      exact ⟨q, List.mem_cons_of_mem p hq, hf⟩

/-! ## The places of the macro files -/

/-- The macro files are below the root, behind harmless names. -/
theorem mem_customizationPlaces {root : String} {p : Path} (h : p ∈ customizationPlaces root) :
    ∃ q : Path, p = (Path.ofString root).within q ∧ q.names ≠ [] ∧ ∀ name ∈ q.names,
      Storage.tooLong name = false ∧ name ≠ ".." ∧ '\x00' ∉ name.toList ∧ '\x1b' ∉ name.toList := by
  have hrelative : ∀ relative ∈ [({} : Customization.Destinations).docs, ({} : Customization.Destinations).locales],
      (Path.ofString relative).names ≠ [] ∧ ∀ name ∈ (Path.ofString relative).names,
        Storage.tooLong name = false ∧ name ≠ ".." ∧ '\x00' ∉ name.toList ∧ '\x1b' ∉ name.toList := by
    decide
  obtain ⟨relative, hmem, rfl⟩ : ∃ relative ∈ [({} : Customization.Destinations).docs,
      ({} : Customization.Destinations).locales], p = Path.under root relative := by
    simpa [customizationPlaces] using h
  exact ⟨_, rfl, hrelative relative hmem⟩

theorem names_of_mem_customizationPlaces {root : String} {p : Path} (h : p ∈ customizationPlaces root) :
    p.names ≠ [] ∧ ∀ name ∈ p.names, name ∈ (Path.ofString root).names ∨
      Storage.tooLong name = false ∧ name ≠ ".." ∧ '\x00' ∉ name.toList ∧ '\x1b' ∉ name.toList := by
  obtain ⟨q, rfl, hne, hharmless⟩ := mem_customizationPlaces h
  exact ⟨by simp [Path.within, hne], fun name hname => (List.mem_append.1 hname).imp_right (hharmless name)⟩

/-! ## Blocks -/

/-- The text of the file at a path, if there is one. -/
def fileText? (s : Storage) (p : Path) : Option String :=
  match s.locate p with
  | .ok (_, .file content) => (Text.Utf8.decode content).toOption
  | _ => none

/-- The files at these paths, each with its text. -/
def shownBlocks (s : Storage) (ps : List Path) : List (Path × String) :=
  ps.filterMap fun p => (fileText? s p).map fun text => (p, text)

theorem mem_shownBlocks {s : Storage} {ps : List Path} {b : Path × String} :
    b ∈ shownBlocks s ps ↔ b.1 ∈ ps ∧ fileText? s b.1 = some b.2 := by
  obtain ⟨p, text⟩ := b
  unfold shownBlocks
  simp only [List.mem_filterMap, Option.map_eq_some_iff, Prod.mk.injEq]
  constructor
  · rintro ⟨q, hq, t, ht, rfl, rfl⟩
    exact ⟨hq, ht⟩
  · rintro ⟨hp, ht⟩
    exact ⟨p, hp, text, ht, rfl, rfl⟩

theorem shownBlocks_places (s : Storage) (ps : List Path) : ((shownBlocks s ps).map (·.1)).Sublist ps := by
  induction ps with
  | nil => exact .slnil
  | cons p rest ih =>
    unfold shownBlocks at ih ⊢
    rw [List.filterMap_cons]
    cases fileText? s p with
    | none => exact ih.cons p
    | some text => exact ih.cons_cons p

/-- A line with the place, and the lines of the file. -/
def blockLines (b : Path × String) : List String := s!"==> {b.1.text} <==" :: Text.lines b.2

theorem showFile_of_failure_eq_none {s : Storage} {p : Path} (hne : p.names ≠ []) (hnull : p.hasNull = false)
    (h : (showFile s p).failure = none) :
    (showFile s p).events = ((shownBlocks s [p]).flatMap blockLines).map echo := by
  rw [showFile_eq s hne hnull] at h ⊢
  split at h
  · next l content hlocate =>
    split at h
    · next text hdecode =>
      have htext : fileText? s p = some text := by simp only [fileText?, hlocate, hdecode, Except.toOption]
      simp [shownBlocks, htext, blockLines]
    · cases h
  · cases h
  · next hfile _ =>
    have hnone : fileText? s p = none := by
      unfold fileText?
      split
      · next l content hlocate => exact absurd hlocate (hfile l content)
      · rfl
    simp [shownBlocks, hnone]

theorem showFiles_of_failure_eq_none {s : Storage} {ps : List Path}
    (h : ∀ p ∈ ps, p.names ≠ [] ∧ p.hasNull = false ∧ (showFile s p).failure = none) :
    showFiles s ps = ⟨((shownBlocks s ps).flatMap blockLines).map echo, none⟩ := by
  induction ps with
  | nil => rfl
  | cons p rest ih =>
    obtain ⟨⟨hne, hnull, hfirst⟩, hrest⟩ := List.forall_mem_cons.1 h
    have hsplit : shownBlocks s (p :: rest) = shownBlocks s [p] ++ shownBlocks s rest :=
      List.filterMap_append (l := [p]) ..
    rw [showFiles, hfirst, ih hrest, showFile_of_failure_eq_none hne hnull hfirst, hsplit, List.flatMap_append,
      List.map_append]

/-! ## The command -/

def Ending.ofFailure : Option Failure → Ending
  | none => .exit 0
  | some f => .escaped f

theorem ending_runShow (x : Session) (a : ShowArguments) :
    (runShow x a).ending =
      .ofFailure (showFiles x.storage (customizationPlaces (orSetting x a.installRoot .installRoot).value)).failure := by
  unfold runShow
  dsimp only
  rw [storage_orSetting]
  split <;> next h => rw [h]; rfl

/-- Where no file fails, `show` prints the blocks, or says that there are none. -/
theorem runShow_blocks {x : Session} {root : String} (h : ∀ p ∈ customizationPlaces root,
    p.names ≠ [] ∧ p.hasNull = false ∧ (showFile x.storage p).failure = none) :
    (runShow x ⟨some root⟩).ending = .exit 0 ∧ (runShow x ⟨some root⟩).stdout =
      if shownBlocks x.storage (customizationPlaces root) = [] then
        plain s!"No customization macro files under {(Path.ofString root).text}" ++ "\n"
      else String.join ((shownBlocks x.storage (customizationPlaces root)).map fun b =>
        unlines ((blockLines b).map plain)) := by
  have hshown := showFiles_of_failure_eq_none h
  refine ⟨by rw [ending_runShow]; dsimp only [orSetting]; rw [hshown]; rfl, ?_⟩
  unfold runShow
  dsimp only [orSetting]
  rw [hshown]
  dsimp only
  by_cases hnone : shownBlocks x.storage (customizationPlaces root) = []
  · rw [if_pos hnone, hnone]
    exact (outText_echo [_]).trans (by simp [unlines, toString])
  · obtain ⟨b, bs, hcons⟩ := List.exists_cons_of_ne_nil hnone
    rw [if_neg hnone, if_neg (by simp [hcons, blockLines])]
    rw [Run.stdout, List.map_nil, List.nil_append, outText_echo, List.map_flatMap, Text.unlines_flatMap]

theorem threshold_runShow (x : Session) (a : ShowArguments) : (runShow x a).threshold = .warning := by
  unfold runShow
  dsimp only
  split <;> rfl

/-! ## Command lines -/

def showWords (root : String) (joined : Bool) : List String := valueWords "--install-root" root joined

theorem ShowArguments.read_showWords {s : Storage} {root : String} (h : MayBeRoot s root) (joined : Bool) :
    ShowArguments.read s (showWords root joined) = .ok ⟨some root⟩ := by
  have hread : Words.read showSpellings true (showWords root joined) = .ok ⟨[(.installRoot, root)], []⟩ := by
    rw [showWords, ← List.append_nil (valueWords "--install-root" root joined)]
    exact read_valueWords (by decide) (by decide) rfl rfl root joined true []
  have hroot : (Words.mk [(ShowOption.installRoot, root)] []).value? .installRoot = some root := rfl
  have hhelp : (Words.mk [(ShowOption.installRoot, root)] []).has .help = false := rfl
  simp only [ShowArguments.read, readWords, hread, bind, Except.bind, hhelp, hroot, checkRoot_of_mayBeRoot h,
    checkNoOperands, pure, Except.pure, if_true, Bool.false_eq_true, if_false]

theorem run_showWords {x : Session} {root : String} (h : MayBeRoot x.storage root) (joined : Bool) :
    run x (Subcommand.show.word :: showWords root joined) = runShow x ⟨some root⟩ := by
  rw [run_word, runSubcommand]
  dsimp only
  rw [ShowArguments.read_showWords h, ← threshold_runShow x ⟨some root⟩]

end ImageMacros.Command
