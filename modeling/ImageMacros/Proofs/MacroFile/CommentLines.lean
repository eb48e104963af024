import ImageMacros.Proofs.MacroFile.RoundTrip

/-!
# What comments add to a macro file

* `Comment.furtherLines` : the lines of a comment behind its first, which no hash sign precedes (none if it is
  one line: `furtherLines_eq_nil`);
* `MacroFile.Ignored`, `MacroFile.Requested` : the lines that define nothing, the definitions asked for;
* `MacroFile.lines_render` : the lines that are read of a macro file;
* `MacroFile.staged_lines_iff` : when comments leave the definitions of a file as they are;
* `MacroFile.injected_definition` : a comment that defines a macro.
-/

namespace ImageMacros

open Text (OneLine lines unlines)

/-! ## Comments -/

namespace Comment

/-- The lines of a comment behind its first, which are read as they stand. -/
def furtherLines (text : String) : List String := (lines (Text.trimEnd text)).tail

/-- A comment is read as an empty line or one behind a hash sign, and its further lines. -/
theorem lines_line (text : String) : ∃ first, lines (line text ++ "\n") = first :: furtherLines text ∧
    (first = "" ∨ first.toList.head? = some '#') := by
  by_cases hblank : Text.trimEnd text = ""
  · exact ⟨"", by simp only [line, furtherLines, hblank]; decide, .inl rfl⟩
  · have hne : (Text.trimEnd text).toList ≠ [] := by rwa [ne_eq, String.toList_eq_nil_iff]
    obtain ⟨c, hlast⟩ := Option.ne_none_iff_exists'.1 (mt List.getLast?_eq_none_iff.1 hne)
    -- what is left after trimming does not end in a boundary, so the line feed adds no line
    have hend : Text.isBoundary c = false := by
      have hc : Text.isBlank c = false := Text.getLast?_trimEndChars (by rwa [Text.toList_trimEnd] at hlast)
      exact Bool.eq_false_iff.2 fun h => absurd (Text.isBlank_of_isBoundary h) (by simp [hc])
    obtain ⟨first, rest, hrest⟩ := List.exists_cons_of_ne_nil (Text.lines_ne_nil hne)
    have hread : lines ("# " ++ Text.trimEnd text ++ "\n") = ("# " ++ first) :: rest := by
      rw [String.append_assoc]
      exact Text.lines_append_of_oneLine (by decide) ((Text.lines_newline hlast hend).trans hrest)
    refine ⟨"# " ++ first, ?_, .inr (by simp)⟩
    simp only [line, furtherLines, if_neg hblank, hread, hrest, List.tail_cons]

theorem furtherLines_eq_nil {text : String} (h : OneLine (Text.trimEnd text)) : furtherLines text = [] := by
  unfold furtherLines
  cases hlast : (Text.trimEnd text).toList.getLast? with
  | none => rw [String.toList_eq_nil_iff.1 (List.getLast?_eq_none_iff.1 hlast)]; rfl
  | some c =>
    have hread : lines (unlines [Text.trimEnd text]) = [Text.trimEnd text] := Text.lines_unlines (by simpa using h)
    rw [Text.lines_unlines_flatMap, List.flatMap_singleton,
      Text.lines_newline hlast (h c (List.mem_of_getLast? hlast))] at hread
    rw [hread, List.tail_cons]

end Comment

/-! ## Macro files -/

namespace MacroFile

/-- A blank line or a comment, which defines nothing. -/
def Ignored (l : String) : Prop := Text.trim l = "" ∨ l.toList.head? = some '#'

instance (l : String) : Decidable (Ignored l) := inferInstanceAs (Decidable (_ ∨ _))

def Requested (definitions : Definitions) (l : String) : Prop :=
  ∃ e ∈ definitions.entries, l = definition e.1 e.2

instance (definitions : Definitions) (l : String) : Decidable (Requested definitions l) :=
  inferInstanceAs (Decidable (∃ e ∈ definitions.entries, l = definition e.1 e.2))

theorem readLines_stage {s : Storage} {root name : String} {definitions : Definitions} {comments : List String}
    {place : Option Path} (hne : definitions.isEmpty = false)
    (h : (stage s root name definitions comments).result = .ok place) :
    place = some (Path.under root name) ∧
      (stage s root name definitions comments).storage.readLines (Path.under root name).text =
        .ok (lines (unlines (render definitions comments))) := by
  obtain ⟨hplace, hwrite, hstorage⟩ := stage_eq_ok hne h
  rw [hstorage]
  exact ⟨hplace, Storage.readLines_writeLines hwrite⟩

/-- The lines read of a macro file whose definitions take one line each. -/
theorem lines_render {definitions : Definitions} (comments : List String) (hne : definitions.isEmpty = false)
    (hone : ∀ e ∈ definitions.entries, OneLine e.1 ∧ OneLine e.2) :
    lines (unlines (render definitions comments)) =
      header ++ lines (unlines (commentLines comments)) ++ definitions.entries.map fun e => definition e.1 e.2 := by
  have hheader : lines (unlines header) = header := Text.lines_unlines (by decide)
  have hdefinitions : lines (unlines (definitions.entries.map fun e => definition e.1 e.2)) =
      definitions.entries.map fun e => definition e.1 e.2 :=
    Text.lines_unlines (List.forall_mem_map.2 fun e he => oneLine_definition_iff.2 (hone e he))
  simp only [Text.lines_unlines_flatMap] at hheader hdefinitions ⊢
  rw [render, if_neg (by simp [hne]), List.flatMap_append, List.flatMap_append, hheader, hdefinitions]

theorem mem_lines_commentLines {comments : List String} {l : String} (h : l ∈ lines (unlines (commentLines comments))) :
    l = "" ∨ l.toList.head? = some '#' ∨ ∃ c ∈ comments, l ∈ Comment.furtherLines c := by
  have hempty : lines ("" ++ "\n") = [""] := by decide
  rw [Text.lines_unlines_flatMap, commentLines] at h
  split at h
  · simp at h
  · rw [List.flatMap_append, List.flatMap_singleton, hempty, List.mem_append, List.mem_singleton,
      Comment.block, List.flatMap_map, List.mem_flatMap] at h
    rcases h with ⟨c, hc, hl⟩ | hl
    · obtain ⟨first, hlines, hfirst⟩ := Comment.lines_line c
      rw [hlines] at hl
      rcases List.mem_cons.1 hl with rfl | hl
      · exact hfirst.imp_right .inl
      · exact .inr (.inr ⟨c, hc, hl⟩)
    · exact .inl hl

theorem furtherLines_subset {comments : List String} {c : String} (hc : c ∈ comments) :
    Comment.furtherLines c ⊆ lines (unlines (commentLines comments)) := by
  intro l hl
  obtain ⟨first, hlines, -⟩ := Comment.lines_line c
  rw [Text.lines_unlines_flatMap, commentLines, if_neg (List.ne_nil_of_mem hc), List.flatMap_append,
    Comment.block, List.flatMap_map]
  exact List.mem_append_left _ (List.mem_flatMap.2 ⟨c, hc, hlines ▸ List.mem_cons_of_mem first hl⟩)

theorem Ignored.head?_ne {l : String} (h : Ignored l) : l.toList.head? ≠ some '%' := by
  intro hhead
  rcases h with hblank | hhash
  · obtain ⟨cs, hcs⟩ : ∃ cs, l.toList = '%' :: cs := List.head?_eq_some_iff.1 hhead
    have htrim : Text.trimEndChars ('%' :: cs) = [] := by
      have := congrArg String.toList hblank
      rwa [Text.toList_trim, hcs, Text.trimChars, List.dropWhile_cons_of_neg (by decide)] at this
    obtain ⟨blanks, hsplit, hall⟩ := Text.trimEndChars_append ('%' :: cs)
    rw [htrim, List.nil_append] at hsplit
    exact absurd (hall '%' (hsplit ▸ List.mem_cons_self)) (by decide)
  · rw [hhead] at hhash
    exact absurd hhash (by decide)

theorem Requested.head? {definitions : Definitions} {l : String} (h : Requested definitions l) :
    l.toList.head? = some '%' := by
  obtain ⟨e, -, rfl⟩ := h
  simp [definition]

/-- A macro file is read as the definitions asked for, and lines that define nothing, exactly if the further lines
of its comments are such. -/
theorem staged_lines_iff {s : Storage} {root name : String} {definitions : Definitions} {comments : List String}
    {place : Option Path} (hne : definitions.isEmpty = false)
    (hone : ∀ e ∈ definitions.entries, OneLine e.1 ∧ OneLine e.2)
    (h : (stage s root name definitions comments).result = .ok place) :
    ∃ p ls, place = some p ∧ (stage s root name definitions comments).storage.readLines p.text = .ok ls ∧
      ((∀ l ∈ ls, Ignored l ∨ Requested definitions l) ↔
        ∀ c ∈ comments, ∀ l ∈ Comment.furtherLines c, Ignored l ∨ Requested definitions l) ∧
      ((∀ l, l ∈ ls ∧ l.toList.head? = some '%' ↔ Requested definitions l) ↔
        ∀ c ∈ comments, ∀ l ∈ Comment.furtherLines c, l.toList.head? = some '%' → Requested definitions l) := by
  obtain ⟨hplace, hread⟩ := readLines_stage hne h
  have hlines := lines_render comments hne hone
  generalize lines (unlines (render definitions comments)) = ls at hread hlines
  have hrequested : ∀ l, Requested definitions l → l ∈ ls := by
    rintro l ⟨e, he, rfl⟩
    exact hlines ▸ List.mem_append_right _ (List.mem_map_of_mem he)
  have hfurther : ∀ c ∈ comments, ∀ l ∈ Comment.furtherLines c, l ∈ ls := fun c hc l hl =>
    hlines ▸ List.mem_append_left _ (List.mem_append_right _ (furtherLines_subset hc hl))
  have hcases : ∀ l ∈ ls, Ignored l ∨ Requested definitions l ∨ ∃ c ∈ comments, l ∈ Comment.furtherLines c := by
    have hheader : ∀ l ∈ header, Ignored l := by decide
    have hempty : Ignored "" := by decide
    intro l hl
    rw [hlines, List.mem_append, List.mem_append] at hl
    rcases hl with (hl | hl) | hl
    · exact .inl (hheader l hl)
    · rcases mem_lines_commentLines hl with rfl | hhash | hc
      · exact .inl hempty
      · exact .inl (.inr hhash)
      · exact .inr (.inr hc)
    · obtain ⟨e, he, rfl⟩ := List.mem_map.1 hl
      exact .inr (.inl ⟨e, he, rfl⟩)
  refine ⟨_, ls, hplace, hread, ⟨fun hall c hc l hl => hall l (hfurther c hc l hl), fun hall l hl => ?_⟩,
    ⟨fun hall c hc l hl hhead => (hall l).1 ⟨hfurther c hc l hl, hhead⟩, fun hall l => ⟨?_, fun hl => ?_⟩⟩⟩
  · rcases hcases l hl with hignored | hl | ⟨c, hc, hl⟩
    · exact .inl hignored
    · exact .inr hl
    · exact hall c hc l hl
  · rintro ⟨hl, hhead⟩
    rcases hcases l hl with hignored | hl | ⟨c, hc, hl⟩
    · exact absurd hhead hignored.head?_ne
    · exact hl
    · exact hall c hc l hl hhead
  · exact ⟨hrequested l hl, hl.head?⟩

theorem staged_lines_harmless :
    let definitions : Definitions := .ofList [("a", "1")]
    let staged := stage (.bare ["w"]) "image" "macros" definitions ["two\r\n# lines", "again:\x0b%a 1"]
    definitions.isEmpty = false ∧ (∀ e ∈ definitions.entries, OneLine e.1 ∧ OneLine e.2) ∧
      staged.result = .ok (some (Path.under "image" "macros")) ∧
      ∃ p ls, some (Path.under "image" "macros") = some p ∧ staged.storage.readLines p.text = .ok ls ∧
        (∀ l ∈ ls, Ignored l ∨ Requested definitions l) ∧
        ∀ l, l ∈ ls ∧ l.toList.head? = some '%' ↔ Requested definitions l := by
  intro definitions staged
  have hne : definitions.isEmpty = false := by decide
  have hone : ∀ e ∈ definitions.entries, OneLine e.1 ∧ OneLine e.2 := by decide
  have hresult : staged.result = .ok (some (Path.under "image" "macros")) := by decide
  obtain ⟨p, ls, hp, hread, hlines, hdefinitions⟩ := staged_lines_iff hne hone hresult
  exact ⟨hne, hone, hresult, p, ls, hp, hread, hlines.2 (by decide), hdefinitions.2 (by decide)⟩

/-- A line break in a comment is enough to define a macro that nobody asked for. -/
theorem injected_definition :
    let definitions : Definitions := .ofList [("a", "1")]
    let staged := stage (.bare ["w"]) "image" "macros" definitions ["x\n%b 2"]
    definitions.isEmpty = false ∧ (∀ e ∈ definitions.entries, OneLine e.1 ∧ OneLine e.2) ∧
      staged.result = .ok (some (Path.under "image" "macros")) ∧
      ∃ ls, staged.storage.readLines (Path.under "image" "macros").text = .ok ls ∧
        ∃ l ∈ ls, ¬ (Ignored l ∨ Requested definitions l) := by
  intro definitions staged
  have hne : definitions.isEmpty = false := by decide
  have hresult : staged.result = .ok (some (Path.under "image" "macros")) := by decide
  have hfurther : "%b 2" ∈ Comment.furtherLines "x\n%b 2" := by decide
  refine ⟨hne, by decide, hresult, _, (readLines_stage hne hresult).2, "%b 2", ?_, by decide⟩
  rw [lines_render _ hne (by decide)]
  exact List.mem_append_left _ (List.mem_append_right _ (furtherLines_subset List.mem_cons_self hfurther))

end MacroFile
end ImageMacros
