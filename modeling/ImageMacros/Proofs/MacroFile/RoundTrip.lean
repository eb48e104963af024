import ImageMacros.MacroFile
import ImageMacros.Proofs.Storage.Holds

/-!
# Files that are read back

* `oneLine_render_iff` : when the lines of a macro file have no boundary;
* `escape_not_mem_render` : where the control character of its lines may come from;
* `readLines_written` : written lines and macro files are read back as they were written if they have no
  boundary, and only then.
-/

namespace ImageMacros

open Storage
open Text (OneLine oneLine_append)

/-! ## Macro files -/

theorem Comment.oneLine_line_iff {text : String} : OneLine (Comment.line text) ↔ OneLine (Text.trimEnd text) := by
  have hhash : OneLine "# " := by decide
  unfold Comment.line
  dsimp only
  split
  · next h => rw [h]
  · rw [oneLine_append, and_iff_right hhash]

theorem Comment.escape_not_mem_line {text : String} (h : '\x1b' ∉ text.toList) : '\x1b' ∉ (line text).toList := by
  obtain ⟨blanks, htext, -⟩ := Text.trimEndChars_append text.toList
  have htrim : '\x1b' ∉ (Text.trimEnd text).toList := fun hmem => h (by
    rw [htext]
    exact List.mem_append_left blanks (Text.toList_trimEnd text ▸ hmem))
  unfold line
  dsimp only
  split
  · simp
  · simpa using htrim

namespace MacroFile

theorem oneLine_definition_iff {name value : String} :
    OneLine (definition name value) ↔ OneLine name ∧ OneLine value := by
  have hpercent : OneLine "%" := by decide
  have hblank : OneLine " " := by decide
  rw [definition, oneLine_append, oneLine_append, oneLine_append, and_iff_right hpercent, and_iff_left hblank]

theorem oneLine_commentLines_iff {comments : List String} :
    (∀ l ∈ commentLines comments, OneLine l) ↔ ∀ c ∈ comments, OneLine (Text.trimEnd c) := by
  have hempty : OneLine "" := by decide
  unfold commentLines
  split
  · next h => simp [h]
  · simp [Comment.block, or_imp, forall_and, Comment.oneLine_line_iff, hempty]

/-- A boundary comes from a name, a value, or a comment in front of the blanks at its end. -/
theorem oneLine_render_iff {definitions : Definitions} {comments : List String}
    (h : definitions.isEmpty = false) : (∀ l ∈ render definitions comments, OneLine l) ↔
      (∀ e ∈ definitions.entries, OneLine e.1 ∧ OneLine e.2) ∧ ∀ c ∈ comments, OneLine (Text.trimEnd c) := by
  have hheader : ∀ l ∈ header, OneLine l := by decide
  unfold render
  rw [if_neg (by simp [h]), List.forall_mem_append, List.forall_mem_append, List.forall_mem_map,
    oneLine_commentLines_iff]
  simp only [oneLine_definition_iff, and_iff_right hheader, and_comm]

theorem escape_not_mem_render {definitions : Definitions} {comments : List String}
    (hdefinitions : ∀ e ∈ definitions.entries, '\x1b' ∉ e.1.toList ∧ '\x1b' ∉ e.2.toList)
    (hcomments : ∀ c ∈ comments, '\x1b' ∉ c.toList) : ∀ l ∈ render definitions comments, '\x1b' ∉ l.toList := by
  have hheader : ∀ l ∈ header, '\x1b' ∉ l.toList := by decide
  have hcommentLines : ∀ l ∈ commentLines comments, '\x1b' ∉ l.toList := by
    unfold commentLines
    split
    · simp
    · refine List.forall_mem_append.2 ⟨List.forall_mem_map.2 fun c hc => ?_, by simp⟩
      exact Comment.escape_not_mem_line (hcomments c hc)
  unfold render
  split
  · simp
  · refine List.forall_mem_append.2 ⟨List.forall_mem_append.2 ⟨hheader, hcommentLines⟩, ?_⟩
    refine List.forall_mem_map.2 fun e he => ?_
    simpa [definition] using hdefinitions e he

theorem stage_eq_ok {s : Storage} {root name : String} {definitions : Definitions} {comments : List String}
    {place : Option Path} (hne : definitions.isEmpty = false)
    (h : (stage s root name definitions comments).result = .ok place) :
    place = some (Path.under root name) ∧
      (s.writeLines (Path.under root name) (render definitions comments)).result = .ok () ∧
      (stage s root name definitions comments).storage =
        (s.writeLines (Path.under root name) (render definitions comments)).storage := by
  unfold stage at h ⊢
  rw [if_neg (by simp [hne])] at h ⊢
  dsimp only at h ⊢
  cases hresult : (s.writeLines (Path.under root name) (render definitions comments)).result with
  | error f => simp [hresult] at h
  | ok =>
    rw [hresult] at h
    exact ⟨(Except.ok.inj h).symm, rfl, rfl⟩

/-- Lines and macro files are read back as they were written exactly if nothing in them has a boundary. -/
theorem readLines_written :
    (∀ (s : Storage) (p : Path) (ls : List String), (s.writeLines p ls).result = .ok () →
      ((s.writeLines p ls).storage.readLines p.text = .ok ls ↔ ∀ l ∈ ls, OneLine l)) ∧
    (∀ (s : Storage) (t : String) (ls : List String), s.readLines t = .ok ls →
      ∀ (u : Storage) (p : Path), (u.writeLines p ls).result = .ok () →
        (u.writeLines p ls).storage.readLines p.text = .ok ls) ∧
    ∀ (s : Storage) (root name : String) (definitions : Definitions) (comments : List String)
      (place : Option Path), definitions.isEmpty = false →
      (stage s root name definitions comments).result = .ok place →
      ∃ p, place = some p ∧
        ((stage s root name definitions comments).storage.readLines p.text = .ok (render definitions comments) ↔
          (∀ e ∈ definitions.entries, OneLine e.1 ∧ OneLine e.2) ∧
            ∀ c ∈ comments, OneLine (Text.trimEnd c)) := by
  refine ⟨fun s p ls h => readLines_writeLines_iff h, fun s t ls hread u p h => ?_,
    fun s root name definitions comments place hne h => ?_⟩
  · exact (readLines_writeLines_iff h).2 (oneLine_of_readLines hread)
  · obtain ⟨hplace, hwrite, hstorage⟩ := stage_eq_ok hne h
    refine ⟨_, hplace, ?_⟩
    rw [hstorage, readLines_writeLines_iff hwrite, oneLine_render_iff hne]

/-- A line feed at the end of a comment is no obstacle. -/
theorem readLines_staged :
    let definitions : Definitions := .ofList [("_excludedocs", "1")]
    let staged := stage (.bare ["w"]) "image" "/macros" definitions ["no documentation \n"]
    definitions.isEmpty = false ∧ staged.result = .ok (some (Path.under "image" "/macros")) ∧
      staged.storage.readLines (Path.under "image" "/macros").text =
        .ok (render definitions ["no documentation \n"]) := by
  intro definitions staged
  have hne : definitions.isEmpty = false := by decide
  have hresult : staged.result = .ok (some (Path.under "image" "/macros")) := by decide
  obtain ⟨p, hp, hread⟩ := readLines_written.2.2 _ _ _ definitions _ _ hne hresult
  obtain rfl := Option.some.inj hp
  exact ⟨hne, hresult, hread.2 (by decide)⟩

end MacroFile
end ImageMacros
