import ImageMacros.Customization
import ImageMacros.Proofs.Storage.Attempt
import ImageMacros.Proofs.Storage.Contents

/-!
# The writes behind macro files

* `MacroFile.writes`, `Customization.writes` : the files that staging a macro file, or applying
  customizations, sets out to write;
* `storage_stage`, `storage_apply` : the storage afterwards is what these writes leave;
* `stage_ok_iff`, `apply_ok_iff` : a result is given exactly when all of them succeed;
* `places_stage`, `places_apply` : the result is the places of these writes;
* `writes_eq`, `writes_places` : the writes of a request, and where they go;
* `Request.Asks`, `apply_of_not_asks` : a request that asks for nothing writes nothing;
* `failure_stage`, `failure_apply` : the failures there are otherwise;
* `AgreesOff.stage`, `AgreesOff.apply` : all of it is the same whatever files hold.
-/

namespace ImageMacros

open Storage

/-! ## One macro file -/

namespace MacroFile

def writes (root name : String) (definitions : Definitions) (comments : List String) : List Write :=
  if definitions.isEmpty then [] else [⟨Path.under root name, render definitions comments⟩]

variable (s : Storage) (root name : String) (definitions : Definitions) (comments : List String)

theorem storage_stage : (stage s root name definitions comments).storage =
    s.writeAll (writes root name definitions comments) := by
  unfold stage writes
  split
  · rfl
  · simp only [writeAll]
    split
    · next h => rw [h]
    · next h => rw [h]

theorem stage_of_isEmpty {definitions : Definitions} (h : definitions.isEmpty = true) :
    stage s root name definitions comments = ⟨.ok none, s, [skipped name]⟩ := by
  rw [stage, if_pos h]

theorem storage_stage_of_ne {definitions : Definitions} (h : definitions.isEmpty = false) :
    (stage s root name definitions comments).storage =
      (s.writeLines (Path.under root name) (render definitions comments)).storage := by
  unfold stage
  rw [if_neg (by simp [h])]
  dsimp only
  split <;> rfl

theorem stage_ok_iff : (∃ p, (stage s root name definitions comments).result = .ok p) ↔
    s.Succeeds (writes root name definitions comments) := by
  unfold stage writes Succeeds
  split
  · simp [attempts]
  · simp only [attempts]
    split
    · next h => simp [h]
    · next h => simp [h]

theorem places_stage {s : Storage} {root name : String} {definitions : Definitions} {comments : List String}
    {place : Option Path} (h : (stage s root name definitions comments).result = .ok place) :
    place.toList = (writes root name definitions comments).map (·.path) := by
  unfold stage at h
  unfold writes
  split at h
  · next hempty =>
    rw [if_pos hempty, ← Except.ok.inj h]
    rfl
  · next hempty =>
    dsimp only at h
    split at h
    · cases h
    · rw [if_neg hempty, ← Except.ok.inj h]
      rfl

theorem failure_stage {s : Storage} {root name : String} {definitions : Definitions} {comments : List String}
    {f : Failure} (h : (stage s root name definitions comments).result = .error f) :
    (∃ u, f = .unwritable u) ∨ f = .nullInPath ∧ (Path.under root name).hasNull = true := by
  unfold stage at h
  split at h
  · cases h
  · dsimp only at h
    split at h
    · next hwrite => exact Storage.failure_writeLines (Except.error.inj h ▸ hwrite)
    · cases h

end MacroFile

/-! ## Customizations -/

namespace Customization

/-- The writes of macro files below one root. -/
def allWrites (root : String) (files : List (String × MacroFile.Definitions)) : List Write :=
  files.flatMap fun f => MacroFile.writes root f.1 f.2 []

theorem allWrites_cons (root name : String) (definitions : MacroFile.Definitions)
    (rest : List (String × MacroFile.Definitions)) :
    allWrites root ((name, definitions) :: rest) = MacroFile.writes root name definitions [] ++ allWrites root rest :=
  rfl

def writes (root : String) (r : Request) (d : Destinations) : List Write := allWrites root (planned r d)

/-- A file that fails ends the staging. -/
theorem stageAll_of_error {s : Storage} {root name : String} {definitions : MacroFile.Definitions}
    {f : Failure} (h : (MacroFile.stage s root name definitions []).result = .error f)
    (rest : List (String × MacroFile.Definitions)) :
    stageAll s root ((name, definitions) :: rest) = ⟨.error f,
      (MacroFile.stage s root name definitions []).storage, (MacroFile.stage s root name definitions []).log⟩ := by
  simp only [stageAll, h]

/-- A file that is staged hands its storage on to the rest. -/
theorem stageAll_of_ok {s t : Storage} {root name : String} {definitions : MacroFile.Definitions}
    {place : Option Path} (h : (MacroFile.stage s root name definitions []).result = .ok place)
    (ht : (MacroFile.stage s root name definitions []).storage = t)
    (rest : List (String × MacroFile.Definitions)) :
    (stageAll s root ((name, definitions) :: rest)).storage = (stageAll t root rest).storage ∧
      (stageAll s root ((name, definitions) :: rest)).result =
        (stageAll t root rest).result.map (place.toList ++ ·) := by
  subst ht
  simp only [stageAll, h, and_self]

theorem map_ok_iff {α β : Type} (g : α → β) (r : Except Failure α) :
    (∃ b, r.map g = .ok b) ↔ ∃ a, r = .ok a := by cases r <;> simp [Except.map]

theorem stageAll_writes (s : Storage) (root : String) (files : List (String × MacroFile.Definitions)) :
    (stageAll s root files).storage = s.writeAll (allWrites root files) ∧
      ((∃ ps, (stageAll s root files).result = .ok ps) ↔ s.Succeeds (allWrites root files)) := by
  induction files generalizing s with
  | nil => exact ⟨rfl, by simp [stageAll, allWrites, Succeeds, attempts]⟩
  | cons f rest ih =>
    obtain ⟨name, definitions⟩ := f
    have hstorage := MacroFile.storage_stage s root name definitions []
    have hok := MacroFile.stage_ok_iff s root name definitions []
    rw [allWrites_cons]
    cases hresult : (MacroFile.stage s root name definitions []).result with
    | error f =>
      have hnot : ¬ s.Succeeds (MacroFile.writes root name definitions []) := by simp [← hok, hresult]
      obtain ⟨hwrite, hattempts⟩ := writeAll_append_of_not hnot (allWrites root rest)
      rw [stageAll_of_error hresult, hwrite, Succeeds, hattempts]
      exact ⟨hstorage, by simpa [Succeeds] using hnot⟩
    | ok place =>
      have hyes : s.Succeeds (MacroFile.writes root name definitions []) := hok.1 ⟨place, hresult⟩
      obtain ⟨hwrite, hattempts⟩ := writeAll_append hyes (allWrites root rest)
      obtain ⟨ihstorage, ihok⟩ := ih (s.writeAll (MacroFile.writes root name definitions []))
      obtain ⟨hs, hr⟩ := stageAll_of_ok hresult hstorage rest
      rw [hs, hr, hwrite, Succeeds, hattempts]
      refine ⟨ihstorage, (map_ok_iff _ _).trans (ihok.trans ?_)⟩
      exact ⟨fun h a ha => (List.mem_append.1 ha).elim (hyes a) (h a),
        fun h a ha => h a (List.mem_append_right _ ha)⟩

variable (s : Storage) (root : String) (r : Request) (d : Destinations)

theorem storage_apply : (apply s root r d).storage = s.writeAll (writes root r d) := by
  unfold apply
  dsimp only
  split <;> exact (stageAll_writes s root _).1

theorem result_apply : (apply s root r d).result = (stageAll s root (planned r d)).result := by
  unfold apply
  dsimp only
  split <;> rfl

theorem apply_ok_iff : (∃ ps, (apply s root r d).result = .ok ps) ↔ s.Succeeds (writes root r d) := by
  rw [result_apply]
  exact (stageAll_writes s root _).2

theorem places_stageAll {s : Storage} {root : String} {files : List (String × MacroFile.Definitions)}
    {places : List Path} (h : (stageAll s root files).result = .ok places) :
    places = (allWrites root files).map (·.path) := by
  induction files generalizing s places with
  | nil => exact (Except.ok.inj h).symm
  | cons file rest ih =>
    obtain ⟨name, definitions⟩ := file
    cases hfirst : (MacroFile.stage s root name definitions []).result with
    | error f => simp [stageAll_of_error hfirst] at h
    | ok place =>
      rw [(stageAll_of_ok hfirst rfl rest).2] at h
      obtain ⟨later, hlater⟩ := (map_ok_iff _ _).1 ⟨places, h⟩
      rw [hlater] at h
      rw [← Except.ok.inj h, MacroFile.places_stage hfirst, ih hlater, allWrites_cons, List.map_append]

/-- The result is the places of the files written. -/
theorem places_apply {s : Storage} {root : String} {r : Request} {d : Destinations} {places : List Path}
    (h : (apply s root r d).result = .ok places) : places = (writes root r d).map (·.path) := by
  rw [result_apply] at h
  exact places_stageAll h

/-- A request writes a file for each of its parts that asks for something. -/
theorem writes_eq (root : String) (r : Request) (d : Destinations) : writes root r d =
    (if r.excludeDocs then
      [⟨Path.under root d.docs, MacroFile.header ++ [MacroFile.definition "_excludedocs" "1"]⟩] else []) ++
    if r.locales = "" then []
    else [⟨Path.under root d.locales, MacroFile.header ++ [MacroFile.definition "_install_langs" r.locales]⟩] := by
  unfold writes planned
  cases r.excludeDocs <;> by_cases h : r.locales = "" <;> simp only [h, if_true, if_false] <;> rfl

/-- Whether the request asks for a macro file. -/
def Request.Asks (r : Request) : Prop := r.excludeDocs = true ∨ r.locales ≠ ""

instance (r : Request) : Decidable r.Asks := by unfold Request.Asks; infer_instance

theorem planned_of_not_asks {r : Request} (h : ¬ r.Asks) (d : Destinations) : planned r d = [] := by
  obtain ⟨hdocs, hlocales⟩ := not_or.1 h
  rw [planned, if_neg hdocs, if_pos (not_not.1 hlocales)]
  rfl

theorem writes_of_not_asks {r : Request} (h : ¬ r.Asks) (root : String) (d : Destinations) : writes root r d = [] := by
  rw [writes, planned_of_not_asks h]
  rfl

theorem apply_of_not_asks {r : Request} (h : ¬ r.Asks) (s : Storage) (root : String) (d : Destinations) :
    apply s root r d = ⟨.ok [], s, [nothingRequested root]⟩ := by
  unfold apply
  rw [planned_of_not_asks h]
  rfl

theorem writes_places (root : String) (r : Request) (d : Destinations) :
    ((writes root r d).map (·.path)).Sublist [Path.under root d.docs, Path.under root d.locales] := by
  rw [writes_eq]
  cases r.excludeDocs <;> by_cases h : r.locales = "" <;> simp [h]

theorem failure_stageAll {s : Storage} {root : String} {files : List (String × MacroFile.Definitions)} {f : Failure}
    (h : (stageAll s root files).result = .error f) :
    (∃ u, f = .unwritable u) ∨ f = .nullInPath ∧ ∃ file ∈ files, (Path.under root file.1).hasNull = true := by
  induction files generalizing s with
  | nil => cases h
  | cons file rest ih =>
    unfold stageAll at h
    dsimp only at h
    split at h
    · next hfirst =>
      have hfail := MacroFile.failure_stage (Except.error.inj h ▸ hfirst)
      exact hfail.imp_right fun ⟨hf, hnull⟩ => ⟨hf, file, List.mem_cons_self, hnull⟩
    · next place hfirst =>
      cases hrest : (stageAll (MacroFile.stage s root file.1 file.2 []).storage root rest).result with
      | ok places => simp [hrest, Except.map] at h
      | error f' =>
        obtain rfl : f' = f := by simpa [hrest, Except.map] using h
        exact (ih hrest).imp_right fun ⟨hf, other, hother, hnull⟩ => ⟨hf, other, List.mem_cons_of_mem _ hother, hnull⟩

theorem destination_of_planned {r : Request} {d : Destinations} {file : String × MacroFile.Definitions}
    (h : file ∈ planned r d) : file.1 = d.docs ∨ file.1 = d.locales := by
  unfold planned at h
  rcases List.mem_append.1 h with h | h
  · split at h
    · exact .inl (congrArg Prod.fst (List.mem_singleton.1 h))
    · cases h
  · split at h
    · cases h
    · exact .inr (congrArg Prod.fst (List.mem_singleton.1 h))

/-- With the usual destinations only a file that cannot be written, or a null character, is a failure. -/
theorem failure_apply {s : Storage} {root : String} {r : Request} {f : Failure}
    (h : (apply s root r {}).result = .error f) :
    (∃ u, f = .unwritable u) ∨ f = .nullInPath ∧ '\x00' ∈ root.toList := by
  rw [result_apply] at h
  refine (failure_stageAll h).imp_right fun ⟨hf, file, hfile, hnull⟩ => ⟨hf, ?_⟩
  refine (Path.null_of_hasNull_under hnull).resolve_right ?_
  rcases destination_of_planned hfile with hname | hname <;> rw [hname] <;> decide

end Customization

/-! ## Storages that agree -/

namespace Storage.AgreesOff

variable {C : Location → Prop} {s t : Storage}

theorem stage (h : AgreesOff C s t) (root name : String) (definitions : MacroFile.Definitions)
    (comments : List String) :
    Agreeing C (MacroFile.stage s root name definitions comments) (MacroFile.stage t root name definitions comments) := by
  unfold MacroFile.stage
  split
  · exact ⟨rfl, h, rfl⟩
  · obtain ⟨hresult, hstorage, hlog⟩ := h.writeLines (Path.under root name) (MacroFile.render definitions comments)
    dsimp only
    rw [hresult, hlog]
    split
    · exact ⟨rfl, hstorage, rfl⟩
    · exact ⟨rfl, hstorage, rfl⟩

theorem stageAll (h : AgreesOff C s t) (root : String) (files : List (String × MacroFile.Definitions)) :
    Agreeing C (Customization.stageAll s root files) (Customization.stageAll t root files) := by
  induction files generalizing s t with
  | nil => exact ⟨rfl, h, rfl⟩
  | cons file rest ih =>
    obtain ⟨hresult, hstorage, hlog⟩ := h.stage root file.1 file.2 []
    have hrest := ih hstorage
    unfold Customization.stageAll
    dsimp only
    rw [hresult, hlog]
    split
    · exact ⟨rfl, hstorage, rfl⟩
    · exact ⟨by rw [hrest.result], hrest.storage, by rw [hrest.log]⟩

/-- Customizations do the same, whatever files hold. -/
theorem apply (h : AgreesOff C s t) (root : String) (r : Customization.Request) (d : Customization.Destinations) :
    Agreeing C (Customization.apply s root r d) (Customization.apply t root r d) := by
  obtain ⟨hresult, hstorage, hlog⟩ := h.stageAll root (Customization.planned r d)
  unfold Customization.apply
  dsimp only
  rw [hresult]
  split
  · exact ⟨rfl, hstorage, by rw [hlog]⟩
  · exact ⟨hresult, hstorage, hlog⟩

end Storage.AgreesOff
end ImageMacros
