import ImageMacros.Proofs.MacroFile.CommentLines
import Mathlib.Data.List.DropRight
import Mathlib.Data.List.Forall2

/-!
# What a macro file says about its input

* `Defines`, `parts` : a line that defines a macro, and the name and the value it is cut into (`parts_definition`);
* `Comment.line_eq_iff`, `commentLines_eq_iff` : comment lines are those of the same comments, blanks at their ends
  aside;
* `front`, `render_eq_front` : the lines in front of the definitions, none of which defines anything;
* `render_determines` : the lines of a macro file tell its definitions and its comments.
-/

namespace ImageMacros

/-! ## Comments -/

/-- A comment line tells the comment up to the blanks at its end. -/
theorem Comment.line_eq_iff {s t : String} : line s = line t ↔ Text.trimEnd s = Text.trimEnd t := by
  have hhash : ∀ u : String, "# " ++ u ≠ "" := fun u he => by simpa using congrArg String.toList he
  constructor
  · intro h
    unfold line at h
    dsimp only at h
    split_ifs at h with hs ht ht
    · rw [hs, ht]
    · exact absurd h.symm (hhash _)
    · exact absurd h (hhash _)
    · exact String.append_right_inj _ |>.1 h
  · intro h
    simp only [line, h]

namespace MacroFile

variable {definitions others : Definitions} {comments texts : List String}

theorem commentLines_eq_iff : commentLines comments = commentLines texts ↔
    List.Forall₂ (fun c t => Text.trimEnd c = Text.trimEnd t) comments texts := by
  have hblock : Comment.block comments = Comment.block texts ↔
      List.Forall₂ (fun c t => Text.trimEnd c = Text.trimEnd t) comments texts := by
    simp only [Comment.block, ← List.forall₂_eq_eq_eq, List.forall₂_map_left_iff, List.forall₂_map_right_iff,
      Comment.line_eq_iff]
  rw [← hblock]
  unfold commentLines
  split_ifs with hc ht ht
  · simp [hc, ht]
  · subst hc
    simpa [Comment.block] using Ne.symm ht
  · subst ht
    simpa [Comment.block] using hc
  · exact List.append_left_inj _

/-! ## Definitions -/

def Defines (l : String) : Prop := l.toList.head? = some '%'

instance (l : String) : Decidable (Defines l) := inferInstanceAs (Decidable (_ = _))

/-- What is behind the first character, cut at the first space. -/
def parts (l : String) : String × String :=
  let body := l.toList.drop 1
  (.ofList (body.takeWhile (· ≠ ' ')), .ofList ((body.dropWhile (· ≠ ' ')).drop 1))

theorem parts_definition {name : String} (h : ' ' ∉ name.toList) (value : String) :
    parts (definition name value) = (name, value) := by
  have hline : (definition name value).toList.drop 1 = name.toList ++ ' ' :: value.toList := by simp [definition]
  have hname : ∀ c ∈ name.toList, decide (c ≠ ' ') = true := fun c hc => decide_eq_true fun he => h (he ▸ hc)
  rw [parts, hline, List.takeWhile_append_of_pos hname, List.dropWhile_append_of_pos hname,
    List.takeWhile_cons_of_neg (by simp), List.dropWhile_cons_of_neg (by simp), List.append_nil, List.drop_one,
    List.tail_cons, String.ofList_toList, String.ofList_toList]

/-! ## Macro files -/

/-- The lines of a macro file in front of its definitions. -/
def front (comments : List String) : List String := header ++ commentLines comments

theorem not_defines_front {l : String} (h : l ∈ front comments) : ¬ Defines l := by
  have hheader : ∀ l ∈ header, ¬ Defines l := by decide
  have hempty : ¬ Defines "" := by decide
  rcases List.mem_append.1 h with h | h
  · exact hheader l h
  · unfold commentLines at h
    split_ifs at h
    · cases h
    · rcases List.mem_append.1 h with h | h
      · obtain ⟨c, -, rfl⟩ := List.mem_map.1 h
        unfold Comment.line
        dsimp only
        split_ifs
        · exact hempty
        · simp [Defines]
      · rwa [List.mem_singleton.1 h]

def definitionLines (definitions : Definitions) : List String := definitions.entries.map fun e => definition e.1 e.2

theorem render_eq_front (h : definitions.isEmpty = false) (comments : List String) :
    render definitions comments = front comments ++ definitionLines definitions := by
  rw [render, if_neg (by simp [h]), front, definitionLines]

theorem length_definitionLines (definitions : Definitions) :
    (definitionLines definitions).length = definitions.size := by
  rw [definitionLines, List.length_map, Dictionary.size]

theorem defines_definitionLines {l : String} (h : l ∈ definitionLines definitions) : Defines l := by
  obtain ⟨e, -, rfl⟩ := List.mem_map.1 h
  simp [Defines, definition]

theorem map_parts_definitionLines (h : ∀ name ∈ definitions.keys, ' ' ∉ name.toList) :
    (definitionLines definitions).map parts = definitions.entries := by
  rw [definitionLines, List.map_map]
  conv_rhs => rw [← List.map_id definitions.entries]
  exact List.map_congr_left fun e he => parts_definition (h e.1 (List.mem_map_of_mem he)) e.2

/-- At the end of a macro file stand its definitions, with header and comments in front. -/
theorem rtake_render (h : definitions.isEmpty = false) (comments : List String) :
    (render definitions comments).rdrop definitions.size = front comments ∧
      (render definitions comments).rtake definitions.size = definitionLines definitions := by
  rw [render_eq_front h, ← length_definitionLines, List.rdrop, List.rtake, List.length_append, Nat.add_sub_cancel]
  exact ⟨List.take_left, List.drop_left⟩

theorem filter_render (h : definitions.isEmpty = false) (comments : List String) :
    (render definitions comments).filter (fun l => Defines l) = definitionLines definitions := by
  have hfront : (front comments).filter (fun l => Defines l) = [] :=
    List.filter_eq_nil_iff.2 fun l hl => by simpa using not_defines_front hl
  have hlines : (definitionLines definitions).filter (fun l => Defines l) = definitionLines definitions :=
    List.filter_eq_self.2 fun l hl => by simpa using defines_definitionLines hl
  rw [render_eq_front h, List.filter_append, hfront, hlines, List.nil_append]

/-- Macro files with names without spaces have the same lines exactly if they have the same definitions and, up to
blanks at their ends, comments. The last lines are the definitions. -/
theorem render_determines
    (hne : definitions.isEmpty = false) (hnames : ∀ name ∈ definitions.keys, ' ' ∉ name.toList)
    (hne' : others.isEmpty = false) (hnames' : ∀ name ∈ others.keys, ' ' ∉ name.toList) :
    (render definitions comments = render others texts ↔
      definitions = others ∧ List.Forall₂ (fun c t => Text.trimEnd c = Text.trimEnd t) comments texts) ∧
    (∀ l ∈ (render definitions comments).rdrop definitions.size, ¬ Defines l) ∧
    (∀ l ∈ (render definitions comments).rtake definitions.size, Defines l) ∧
    ((render definitions comments).rtake definitions.size).length = definitions.size ∧
    ((render definitions comments).rtake definitions.size).map parts = definitions.entries := by
  obtain ⟨hdrop, htake⟩ := rtake_render hne comments
  rw [hdrop, htake]
  refine ⟨⟨fun h => ?_, ?_⟩, fun l => not_defines_front, fun l => defines_definitionLines,
    length_definitionLines definitions, map_parts_definitionLines hnames⟩
  · have hlines : definitionLines definitions = definitionLines others := by
      rw [← filter_render hne comments, h, filter_render hne']
    have hentries : definitions.entries = others.entries := by
      rw [← map_parts_definitionLines hnames, hlines, map_parts_definitionLines hnames']
    have hfront : front comments = front texts := by
      rw [render_eq_front hne, render_eq_front hne', hlines] at h
      exact List.append_cancel_right h
    refine ⟨?_, commentLines_eq_iff.1 (List.append_cancel_left hfront)⟩
    cases definitions
    cases others
    simp_all
  · rintro ⟨rfl, hcomments⟩
    rw [render_eq_front hne, render_eq_front hne, front, front, commentLines_eq_iff.2 hcomments]

/-- Comments, a name and a value that look like other lines of the file. -/
theorem render_determines_lookalikes :
    let definitions : Definitions := .ofList [("b", "1 %a 2"), ("", "% %")]
    let others : Definitions := .ofList [("", "x"), ("b", "1 %a 2"), ("", "% %")]
    let comments := ["", "%a 2\t", "# \n%c 3", " "]
    let texts := [" \n", "%a 2", "# \n%c 3  ", ""]
    definitions.isEmpty = false ∧ others.isEmpty = false ∧ render definitions comments = render others texts ∧
      ((render definitions comments).rtake definitions.size).map parts = [("", "% %"), ("b", "1 %a 2")] := by
  intro definitions others comments texts
  have hne : definitions.isEmpty = false := by decide
  have hne' : others.isEmpty = false := by decide
  have hsame := @render_determines definitions others comments texts hne (by decide) hne' (by decide)
  have hcomments : List.Forall₂ (fun c t => Text.trimEnd c = Text.trimEnd t) comments texts := by decide
  exact ⟨hne, hne', hsame.1.2 ⟨by decide, hcomments⟩, hsame.2.2.2.2⟩

end MacroFile
end ImageMacros
