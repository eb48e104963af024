import ImageMacros.Proofs.MacroFile.Repeated
import ImageMacros.Proofs.Storage.Apart

/-!
# Both customizations at once

* `stage_ok_iff_writable` : a macro file is staged exactly if a file can be put at its place;
* `Both` : both customizations requested, for places without double dots and null characters;
* `Both.apply_ok_iff` : both are written exactly if each could be alone, and neither place is above the other;
* `Both.holds` : then each place holds the last file that was planned for it;
* `apply_both` : when the customizations succeed, what they leave, and what the first failure leaves.
-/

namespace ImageMacros

open Storage

theorem MacroFile.stage_ok_iff_writable {s : Storage} {root name : String} {definitions : Definitions}
    {comments : List String} (hne : definitions.isEmpty = false) (hplain : ".." ∉ (Path.under root name).names)
    (hnull : (Path.under root name).hasNull = false) :
    (∃ place, (stage s root name definitions comments).result = .ok place) ↔ s.Writable (Path.under root name) := by
  have hwritable : (s.writeLines (Path.under root name) (render definitions comments)).result = .ok () ↔
      s.Writable (Path.under root name) := writeLines_ok_iff hplain hnull
  rw [← hwritable]
  unfold stage
  rw [if_neg (by simp [hne])]
  dsimp only
  split
  · next hwrite => simp [hwrite]
  · next hwrite => simp [hwrite]

namespace Customization

def docsDefinitions : MacroFile.Definitions := .ofList [("_excludedocs", "1")]

def localesDefinitions (locales : String) : MacroFile.Definitions := .ofList [("_install_langs", locales)]

/-- Both customizations, for places without double dots and null characters. -/
structure Both (root : String) (r : Request) (d : Destinations) : Prop where
  docs : r.excludeDocs = true
  locales : r.locales ≠ ""
  plain : ∀ place ∈ [root, d.docs, d.locales], ".." ∉ (Path.ofString place).names
  noNull : ∀ place ∈ [root, d.docs, d.locales], '\x00' ∉ place.toList

namespace Both

variable {s : Storage} {root : String} {r : Request} {d : Destinations}

theorem planned_eq (h : Both root r d) :
    planned r d = [(d.docs, docsDefinitions), (d.locales, localesDefinitions r.locales)] := by
  unfold planned
  rw [if_pos h.docs, if_neg h.locales]
  rfl

theorem plain_under (h : Both root r d) {name : String} (hname : name = d.docs ∨ name = d.locales) :
    ".." ∉ (Path.under root name).names := by
  intro hmem
  rcases List.mem_append.1 hmem with hroot | hrest
  · exact h.plain root (by simp) hroot
  · exact h.plain name (by simp [hname]) hrest

theorem noNull_under (h : Both root r d) {name : String} (hname : name = d.docs ∨ name = d.locales) :
    (Path.under root name).hasNull = false := by
  by_contra hnull
  rw [Bool.not_eq_false] at hnull
  rcases Path.null_of_hasNull_under hnull with hroot | hrest
  · exact h.noNull root (by simp) hroot
  · exact h.noNull name (by simp [hname]) hrest

theorem unwritable (h : Both root r d) {name : String} (hname : name = d.docs ∨ name = d.locales)
    {definitions : MacroFile.Definitions} {f : Failure}
    (hf : (MacroFile.stage s root name definitions []).result = .error f) : ∃ u, f = .unwritable u :=
  (MacroFile.failure_stage hf).resolve_right fun hnull => by simp [h.noNull_under hname] at hnull

theorem writes_eq (h : Both root r d) : writes root r d =
    [⟨Path.under root d.docs, MacroFile.render docsDefinitions []⟩,
      ⟨Path.under root d.locales, MacroFile.render (localesDefinitions r.locales) []⟩] := by
  unfold writes
  rw [h.planned_eq]
  rfl

/-- Both succeed exactly if each would alone, and neither place is above the other. -/
theorem apply_ok_iff (h : Both root r d) : (∃ places, (apply s root r d).result = .ok places) ↔
    (∃ place, (MacroFile.stage s root d.docs docsDefinitions []).result = .ok place) ∧
      (∃ place, (MacroFile.stage s root d.locales (localesDefinitions r.locales) []).result = .ok place) ∧
      ¬ (Path.under root d.docs).AncestorOf (Path.under root d.locales) ∧
      ¬ (Path.under root d.locales).AncestorOf (Path.under root d.docs) := by
  have hplain := h.plain_under (.inl rfl)
  have hplain' := h.plain_under (.inr rfl)
  have hnull := h.noNull_under (.inl rfl)
  have hnull' := h.noNull_under (.inr rfl)
  rw [Customization.apply_ok_iff, h.writes_eq, succeeds_cons, succeeds_cons, writeLines_ok_iff hplain hnull,
    writeLines_ok_iff hplain' hnull', MacroFile.stage_ok_iff_writable rfl hplain hnull,
    MacroFile.stage_ok_iff_writable rfl hplain' hnull']
  constructor
  · rintro ⟨hdocs, hlocales, -⟩
    exact ⟨hdocs, (writable_after_iff hplain hplain' hnull hnull' rfl hdocs).1 hlocales⟩
  · rintro ⟨hdocs, hboth⟩
    exact ⟨hdocs, (writable_after_iff hplain hplain' hnull hnull' rfl hdocs).2 hboth, succeeds_nil _⟩

/-- Once both are written, each place holds the last file that was planned for it. -/
theorem holds (h : Both root r d) {places : List Path} (hok : (apply s root r d).result = .ok places) :
    places = [Path.under root d.docs, Path.under root d.locales] ∧ ∀ place ∈ places,
      ∃ file, ((planned r d).filter fun f => Path.under root f.1 = place).getLast? = some file ∧
        (apply s root r d).storage.Holds place (MacroFile.render file.2 []) := by
  have hsucceeds : s.Succeeds (writes root r d) := (Customization.apply_ok_iff s root r d).1 ⟨places, hok⟩
  have hstorage := storage_apply s root r d
  rw [h.writes_eq] at hsucceeds hstorage
  obtain ⟨hdocs, hrest⟩ := succeeds_cons.1 hsucceeds
  obtain ⟨hlocales, -⟩ := succeeds_cons.1 hrest
  rw [writeAll_cons_of_ok hdocs, writeAll_cons_of_ok hlocales] at hstorage
  have hplaces : places = [Path.under root d.docs, Path.under root d.locales] := by
    rw [places_apply hok, h.writes_eq]
    rfl
  have hholds := holds_writeLines hlocales
  refine ⟨hplaces, fun place hplace => ?_⟩
  rw [h.planned_eq, hstorage]
  by_cases hsame : Path.under root d.docs = Path.under root d.locales
  · have hlocalesPlace : place = Path.under root d.locales := by simpa [hplaces, hsame] using hplace
    rw [hlocalesPlace]
    exact ⟨(d.locales, localesDefinitions r.locales), by simp [hsame], hholds⟩
  · rw [hplaces, List.mem_cons, List.mem_singleton] at hplace
    rcases hplace with rfl | rfl
    · refine ⟨(d.docs, docsDefinitions), by simp [Ne.symm hsame], ?_⟩
      refine (holds_writeLines hdocs).follows (follows_writeLines _ ⟨_, _⟩) (lastDone_eq_none fun a ha _ he => hsame ?_)
      rw [List.mem_singleton.1 ha, place_of_plain (h.plain_under (.inr rfl)),
        place_of_plain (h.plain_under (.inl rfl))] at he
      exact Path.ext_iff'.2 ⟨rfl, (List.append_cancel_left he).symm⟩
    · exact ⟨(d.locales, localesDefinitions r.locales), by simp [hsame], hholds⟩

theorem apply_of_docs_error (h : Both root r d) {f : Failure}
    (hdocs : (MacroFile.stage s root d.docs docsDefinitions []).result = .error f) :
    (∃ u, f = .unwritable u) ∧ (apply s root r d).result = .error f ∧
      (apply s root r d).storage = (MacroFile.stage s root d.docs docsDefinitions []).storage := by
  rw [result_apply, storage_apply_eq_stageAll, h.planned_eq, stageAll_of_error hdocs]
  exact ⟨h.unwritable (.inl rfl) hdocs, rfl, rfl⟩

theorem apply_of_locales_error (h : Both root r d) {t : Storage} {place : Option Path} {f : Failure}
    (hdocs : (MacroFile.stage s root d.docs docsDefinitions []).result = .ok place)
    (ht : (MacroFile.stage s root d.docs docsDefinitions []).storage = t)
    (hlocales : (MacroFile.stage t root d.locales (localesDefinitions r.locales) []).result = .error f) :
    (∃ u, f = .unwritable u) ∧ (apply s root r d).result = .error f ∧
      (apply s root r d).storage = (MacroFile.stage t root d.locales (localesDefinitions r.locales) []).storage ∧
      (apply s root r d).storage.Holds (Path.under root d.docs) (MacroFile.render docsDefinitions []) := by
  have hplain := h.plain_under (.inl rfl)
  have hnull := h.noNull_under (.inl rfl)
  have hwritable := (MacroFile.stage_ok_iff_writable rfl hplain hnull).1 ⟨place, hdocs⟩
  have hholds : t.Holds (Path.under root d.docs) (MacroFile.render docsDefinitions []) := by
    have hwritten : (MacroFile.stage s root d.docs docsDefinitions []).storage =
        (s.writeLines (Path.under root d.docs) (MacroFile.render docsDefinitions [])).storage :=
      MacroFile.storage_stage_of_ne s root d.docs [] rfl
    rw [← ht, hwritten]
    exact holds_writeLines ((writeLines_ok_iff hplain hnull).2 hwritable)
  obtain ⟨hstorage, hresult⟩ := stageAll_of_ok hdocs ht [(d.locales, localesDefinitions r.locales)]
  rw [stageAll_of_error hlocales] at hstorage hresult
  rw [result_apply, storage_apply_eq_stageAll, h.planned_eq, hstorage, hresult]
  refine ⟨h.unwritable (.inr rfl) hlocales, rfl, rfl, ?_⟩
  have hlater : Follows t _ [⟨⟨Path.under root d.locales, []⟩, false⟩] := .of_grows (MacroFile.grows_stage hlocales)
  exact hholds.follows hlater (by simp [lastDone])

end Both

/-- When both customizations succeed, what each place holds then, and what is left if one of them fails. -/
theorem apply_both (s : Storage) (root : String) (r : Request) (d : Destinations) (h : Both root r d) :
    let docsPlace := Path.under root d.docs
    let localesPlace := Path.under root d.locales
    let docs (t : Storage) := MacroFile.stage t root d.docs docsDefinitions []
    let locales (t : Storage) := MacroFile.stage t root d.locales (localesDefinitions r.locales) []
    let applied := apply s root r d
    planned r d = [(d.docs, docsDefinitions), (d.locales, localesDefinitions r.locales)] ∧
    ((∃ places, applied.result = .ok places) ↔
      (∃ place, (docs s).result = .ok place) ∧ (∃ place, (locales s).result = .ok place) ∧
        ¬ docsPlace.AncestorOf localesPlace ∧ ¬ localesPlace.AncestorOf docsPlace) ∧
    (∀ places, applied.result = .ok places → places = [docsPlace, localesPlace] ∧ ∀ place ∈ places,
      ∃ file, ((planned r d).filter fun f => Path.under root f.1 = place).getLast? = some file ∧
        applied.storage.Holds place (MacroFile.render file.2 [])) ∧
    (∀ f, (docs s).result = .error f →
      (∃ u, f = .unwritable u) ∧ applied.result = .error f ∧ applied.storage = (docs s).storage) ∧
    ∀ place f, (docs s).result = .ok place → (locales (docs s).storage).result = .error f →
      (∃ u, f = .unwritable u) ∧ applied.result = .error f ∧
        applied.storage = (locales (docs s).storage).storage ∧
        applied.storage.Holds docsPlace (MacroFile.render docsDefinitions []) := by
  intro docsPlace localesPlace docs locales applied
  refine ⟨h.planned_eq, h.apply_ok_iff, fun places hok => h.holds hok, fun f hdocs => h.apply_of_docs_error hdocs,
    fun place f hdocs hlocales => h.apply_of_locales_error hdocs rfl hlocales⟩

/-- Two spellings of one path, which ends with the file for the locales. -/
theorem apply_both_respelled :
    let d : Destinations := ⟨"/etc//x", "./etc/x"⟩
    let r : Request := ⟨true, "en"⟩
    let applied := apply (bare ["w"]) "image" r d
    Both "image" r d ∧ applied.result = .ok [Path.ofString "image/etc/x", Path.ofString "image/etc/x"] ∧
      applied.storage.Holds (Path.ofString "image/etc/x") (MacroFile.render (localesDefinitions "en") []) := by
  intro d r applied
  have h : Both "image" r d := ⟨rfl, by decide, by decide, by decide⟩
  obtain ⟨-, hok, hplaces, -⟩ := apply_both (bare ["w"]) "image" r d h
  obtain ⟨places, hresult⟩ := hok.2
    ⟨⟨some (Path.ofString "image/etc/x"), by decide⟩, ⟨some (Path.ofString "image/etc/x"), by decide⟩, by decide,
      by decide⟩
  have hsame : Path.under "image" d.docs = Path.ofString "image/etc/x" ∧
      Path.under "image" d.locales = Path.ofString "image/etc/x" := by decide
  obtain ⟨rfl, hholds⟩ := hplaces places hresult
  rw [hsame.1, hsame.2] at hresult hholds
  obtain ⟨file, hfile, hlast⟩ := hholds (Path.ofString "image/etc/x") (by simp)
  obtain rfl : (d.locales, localesDefinitions "en") = file := Option.some.inj (.trans (by decide) hfile)
  exact ⟨h, hresult, hlast⟩

end Customization
end ImageMacros
