import ImageMacros.Proofs.MacroFile.Writes
import ImageMacros.Proofs.Storage.Settled

/-!
# Staging that is repeated

* `stage_again` : a macro file that is staged again tells the same and changes nothing more;
* `stageAll_append`, `exists_failed` : staging some files and then the rest; the file at which staging failed, with
  those that were staged before it;
* `stageAll_again`, `apply_again` : several files, staged again from the first;
* `settles_when_repeated` : macro files and customizations that are asked for twice.
-/

namespace ImageMacros

open Storage

/-! ## One macro file -/

namespace MacroFile

variable (s : Storage) (root name : String) (comments : List String)

theorem report_stage {definitions : Definitions} (h : definitions.isEmpty = false) :
    (stage s root name definitions comments).report =
      (s.writeLines (Path.under root name) (render definitions comments)).report.map
        fun _ => some (Path.under root name) := by
  unfold stage Outcome.report
  rw [if_neg (by simp [h])]
  dsimp only
  split
  · next hwrite => rw [hwrite]; rfl
  · next hwrite => rw [hwrite]; rfl

theorem stage_again (definitions : Definitions) :
    let first := stage s root name definitions comments
    (stage first.storage root name definitions comments).storage = first.storage ∧
      (stage first.storage root name definitions comments).report = first.report := by
  intro first
  cases hne : definitions.isEmpty with
  | true => simp [first, stage, hne, Outcome.report]
  | false =>
    obtain ⟨hstorage, hreport⟩ := writeLines_again s (Path.under root name) (render definitions comments)
    have hfirst := storage_stage_of_ne s root name comments hne
    rw [storage_stage_of_ne _ _ _ _ hne, report_stage _ _ _ _ hne, hfirst, hstorage, hreport,
      report_stage _ _ _ _ hne]
    exact ⟨rfl, rfl⟩

/-- A macro file that cannot be staged leaves nothing new but directories. -/
theorem grows_stage {s : Storage} {root name : String} {definitions : Definitions} {comments : List String}
    {f : Failure} (h : (stage s root name definitions comments).result = .error f) :
    Grows s (stage s root name definitions comments).storage (s.Above (Path.under root name)) := by
  unfold stage at h ⊢
  split at h
  · cases h
  · next hne =>
    rw [if_neg hne]
    dsimp only at h ⊢
    obtain ⟨made, hgrows, ⟨hok, -⟩ | ⟨⟨f', herror⟩, hmade⟩⟩ :=
      writeLines_cases s (Path.under root name) (render definitions comments)
    · simp [hok] at h
    · rw [herror]
      exact hmade ▸ hgrows

end MacroFile

/-! ## Several macro files -/

namespace Customization

variable {s t : Storage} {root : String} {files : List (String × MacroFile.Definitions)}

theorem stageAll_append {front : List (String × MacroFile.Definitions)} {places : List Path}
    (h : (stageAll s root front).result = .ok places) (ht : (stageAll s root front).storage = t)
    (rest : List (String × MacroFile.Definitions)) :
    (stageAll s root (front ++ rest)).storage = (stageAll t root rest).storage ∧
      (stageAll s root (front ++ rest)).result = (stageAll t root rest).result.map (places ++ ·) := by
  induction front generalizing s places with
  | nil =>
    obtain rfl : s = t := ht
    obtain rfl : [] = places := Except.ok.inj h
    refine ⟨rfl, ?_⟩
    cases hrest : (stageAll s root rest).result <;> simp [hrest, Except.map]
  | cons file front ih =>
    obtain ⟨name, definitions⟩ := file
    cases hfirst : (MacroFile.stage s root name definitions []).result with
    | error f => simp [stageAll_of_error hfirst] at h
    | ok place =>
      obtain ⟨hstorage, hresult⟩ := stageAll_of_ok hfirst rfl front
      rw [hresult] at h
      obtain ⟨later, hlater⟩ := (map_ok_iff _ _).1 ⟨places, h⟩
      rw [hlater] at h
      obtain rfl : place.toList ++ later = places := Except.ok.inj h
      obtain ⟨ihstorage, ihresult⟩ := ih hlater (hstorage.symm.trans ht)
      obtain ⟨hstorage', hresult'⟩ := stageAll_of_ok hfirst rfl (front ++ rest)
      rw [List.cons_append, hstorage', hresult', ihstorage, ihresult]
      refine ⟨rfl, ?_⟩
      cases (stageAll t root rest).result <;> simp [Except.map]

/-- Staging fails at one of the files, and those before it were staged. -/
theorem exists_failed {f : Failure} (h : (stageAll s root files).result = .error f) :
    ∃ front name definitions rest, files = front ++ (name, definitions) :: rest ∧
      (∃ places, (stageAll s root front).result = .ok places) ∧
      (MacroFile.stage (stageAll s root front).storage root name definitions []).result = .error f ∧
      (stageAll s root files).storage =
        (MacroFile.stage (stageAll s root front).storage root name definitions []).storage := by
  induction files generalizing s with
  | nil => cases h
  | cons file files ih =>
    obtain ⟨name, definitions⟩ := file
    cases hfirst : (MacroFile.stage s root name definitions []).result with
    | error f' =>
      rw [stageAll_of_error hfirst] at h ⊢
      obtain rfl : f' = f := Except.error.inj h
      exact ⟨[], name, definitions, files, rfl, ⟨[], rfl⟩, hfirst, rfl⟩
    | ok place =>
      obtain ⟨hstorage, hresult⟩ := stageAll_of_ok hfirst rfl files
      rw [hresult] at h
      cases hrest : (stageAll (MacroFile.stage s root name definitions []).storage root files).result with
      | ok places => simp [hrest, Except.map] at h
      | error f' =>
        obtain rfl : f' = f := by simpa [hrest, Except.map] using h
        obtain ⟨front, other, others, rest, rfl, ⟨places, hplaces⟩, hfail, hleft⟩ := ih hrest
        obtain ⟨hfront, hfrontResult⟩ := stageAll_of_ok hfirst rfl front
        refine ⟨(name, definitions) :: front, other, others, rest, rfl, ⟨place.toList ++ places, ?_⟩, ?_, ?_⟩
        · rw [hfrontResult, hplaces]
          rfl
        · rwa [hfront]
        · rw [hstorage, hleft, hfront]

theorem stageAll_of_settled (h : s.Settled (allWrites root files)) : (stageAll s root files).storage = s ∧
    (stageAll s root files).result = .ok ((allWrites root files).map (·.path)) := by
  obtain ⟨hsucceeds, hsame⟩ := h.writeAll
  obtain ⟨hstorage, hok⟩ := stageAll_writes s root files
  obtain ⟨places, hplaces⟩ := hok.2 hsucceeds
  exact ⟨hstorage.trans hsame, by rw [hplaces, places_stageAll hplaces]⟩

theorem settled_stageAll {places : List Path} (h : (stageAll s root files).result = .ok places) :
    (stageAll s root files).storage.Settled (allWrites root files) := by
  obtain ⟨hstorage, hok⟩ := stageAll_writes s root files
  rw [hstorage]
  exact settled_writeAll (hok.1 ⟨places, h⟩)

/-- Files that are staged again tell the same and change nothing more. -/
theorem stageAll_again (s : Storage) (root : String) (files : List (String × MacroFile.Definitions)) :
    let first := stageAll s root files
    (stageAll first.storage root files).storage = first.storage ∧
      (stageAll first.storage root files).report = first.report := by
  intro first
  cases hresult : first.result with
  | ok places =>
    obtain ⟨hstorage, hagain⟩ := stageAll_of_settled (settled_stageAll hresult)
    refine ⟨hstorage, ?_⟩
    rw [Outcome.report, hagain, Outcome.report, hresult, places_stageAll hresult]
  | error f =>
    obtain ⟨front, name, definitions, rest, rfl, ⟨places, hplaces⟩, hfail, hleft⟩ := exists_failed hresult
    generalize hs : (stageAll s root front).storage = u at hfail hleft
    -- what was staged is settled still, and then the same file fails again
    have hsettled : u.Settled (allWrites root front) := hs ▸ settled_stageAll hplaces
    obtain ⟨hsame, hfront⟩ := stageAll_of_settled (hsettled.grows (MacroFile.grows_stage hfail))
    obtain ⟨hagain, hreport⟩ := MacroFile.stage_again u root name [] definitions
    obtain ⟨hstorage, hmap⟩ := stageAll_append hfront hsame ((name, definitions) :: rest)
    rw [show first.storage = _ from hleft, hstorage]
    generalize (MacroFile.stage u root name definitions []).storage = t at *
    cases hsecond : (MacroFile.stage t root name definitions []).result with
    | ok place => simp [Outcome.report, hsecond, hfail, Except.mapError] at hreport
    | error f' =>
      rw [stageAll_of_error hsecond] at hmap ⊢
      rw [Outcome.report, hsecond, Outcome.report, hfail] at hreport
      have hfailure : f'.report = f.report := Except.error.inj hreport
      refine ⟨hagain, ?_⟩
      rw [Outcome.report, hmap, Outcome.report, hresult]
      exact congrArg Except.error hfailure

theorem storage_apply_eq_stageAll (s : Storage) (root : String) (r : Request) (d : Destinations) :
    (apply s root r d).storage = (stageAll s root (planned r d)).storage :=
  (storage_apply s root r d).trans (stageAll_writes s root _).1.symm

theorem report_apply (s : Storage) (root : String) (r : Request) (d : Destinations) :
    (apply s root r d).report = (stageAll s root (planned r d)).report := by
  rw [Outcome.report, result_apply, Outcome.report]

theorem apply_again (s : Storage) (root : String) (r : Request) (d : Destinations) :
    let first := apply s root r d
    (apply first.storage root r d).storage = first.storage ∧ (apply first.storage root r d).report = first.report := by
  intro first
  obtain ⟨hstorage, hreport⟩ := stageAll_again s root (planned r d)
  have hfirst : first.storage = (stageAll s root (planned r d)).storage := storage_apply_eq_stageAll s root r d
  rw [storage_apply_eq_stageAll, report_apply, hfirst, hstorage, hreport, ← report_apply]
  exact ⟨rfl, rfl⟩

end Customization

/-! ## What is asked for twice -/

/-- A second time, a macro file and the customizations tell the same and change nothing. -/
theorem settles_when_repeated (s : Storage) (root : String) :
    (∀ (name : String) (macros again : List (String × String)) (comments : List String),
      (macros.map (·.1)).Nodup → again.Perm macros →
        let first := MacroFile.stage s root name (.ofList macros) comments
        let second := MacroFile.stage first.storage root name (.ofList again) comments
        second.storage = first.storage ∧ second.Echoes first) ∧
    ∀ (r : Customization.Request) (d : Customization.Destinations),
      let first := Customization.apply s root r d
      let second := Customization.apply first.storage root r d
      second.storage = first.storage ∧ second.Echoes first := by
  refine ⟨fun name macros again comments hnodup hperm => ?_, fun r d => ?_⟩
  · obtain ⟨hstorage, hreport⟩ := MacroFile.stage_again s root name comments (.ofList macros)
    rw [Dictionary.ofList_perm hnodup hperm]
    exact ⟨hstorage, Outcome.echoes_of_report hreport⟩
  · obtain ⟨hstorage, hreport⟩ := Customization.apply_again s root r d
    exact ⟨hstorage, Outcome.echoes_of_report hreport⟩

/-- Directories are made before the file in the way is met, but only the first time. -/
theorem settles_when_repeated_refused :
    let s := ((bare ["w"]).put ["w", "image"] .directory).put ["w", "image", "x"] (.file [])
    let first := MacroFile.stage s "image" "b/../x/macros" (.ofList [("b", "1"), ("a", "2")]) []
    let second := MacroFile.stage first.storage "image" "b/../x/macros" (.ofList [("a", "2"), ("b", "1")]) []
    first.storage ≠ s ∧ second.storage = first.storage ∧
      second.Refuses (Path.ofString "image/b/../x") "Failed to create directory: image/b/../x" := by
  intro s first second
  have hfirst : first.Refuses (Path.ofString "image/b/../x") "Failed to create directory: image/b/../x" :=
    Outcome.report_eq_error_iff.1 (by decide)
  obtain ⟨hstorage, hechoes⟩ : second.storage = first.storage ∧ second.Echoes first :=
    (settles_when_repeated s "image").1 "b/../x/macros" [("b", "1"), ("a", "2")] [("a", "2"), ("b", "1")] []
      (by decide) (by decide)
  exact ⟨by decide, hstorage, (hechoes.refusal _ _).2 hfirst⟩

end ImageMacros
