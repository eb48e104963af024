import ImageMacros.Text.Blank
import Mathlib.Data.List.TakeWhile

/-!
# Trimming

* `trimEndChars_append_blanks`, `trimEndChars_append_cons` : blanks at the end are dropped, up to the last
  character that is none;
* `trimChars_cons_blank`, `trimChars_append_blanks` : blanks around a text are dropped with its own;
* `trimChars_eq_iff` : trimming leaves a text without blanks of those that have nothing but blanks around it;
* `Trimmed` : a text without blanks at its ends, which trimming leaves as it is.
-/

namespace ImageMacros.Text

variable {as bs : List Char} {c : Char}

/-! ## Blanks around a text -/

theorem trimEndChars_append_blanks (h : ∀ b ∈ bs, isBlank b = true) :
    trimEndChars (as ++ bs) = trimEndChars as := by
  have hbs : ∀ b ∈ bs.reverse, isBlank b = true := fun b hb => h b (List.mem_reverse.1 hb)
  rw [trimEndChars, List.reverse_append, List.dropWhile_append_of_pos hbs, trimEndChars]

theorem trimEndChars_append_cons (hc : isBlank c = false) :
    trimEndChars (as ++ c :: bs) = as ++ c :: trimEndChars bs := by
  simp [trimEndChars, List.dropWhile_append, hc]

theorem trimEndChars_trimEndChars (cs : List Char) : trimEndChars (trimEndChars cs) = trimEndChars cs := by
  obtain ⟨blanks, hcs, hblanks⟩ := trimEndChars_append cs
  exact (trimEndChars_append_blanks hblanks).symm.trans (congrArg trimEndChars hcs.symm)

theorem trimEndChars_concat (hc : isBlank c = true) : trimEndChars (as ++ [c]) = trimEndChars as :=
  trimEndChars_append_blanks fun _ hb => List.mem_singleton.1 hb ▸ hc

theorem trimChars_append_blanks (h : ∀ b ∈ bs, isBlank b = true) : trimChars (as ++ bs) = trimChars as := by
  rw [trimChars, List.dropWhile_append]
  split
  · next hempty =>
    rw [List.isEmpty_iff] at hempty
    rw [trimChars, hempty, List.dropWhile_eq_nil_iff.2 h]
  · rw [trimEndChars_append_blanks h, trimChars]

theorem trimChars_trimEndChars (cs : List Char) : trimChars (trimEndChars cs) = trimChars cs := by
  obtain ⟨blanks, hcs, hblanks⟩ := trimEndChars_append cs
  exact (trimChars_append_blanks hblanks).symm.trans (congrArg trimChars hcs.symm)

theorem trimChars_cons_blank (hc : isBlank c = true) : trimChars (c :: bs) = trimChars bs := by
  rw [trimChars, List.dropWhile_cons_of_pos hc, trimChars]

theorem trimChars_blanks_append (h : ∀ b ∈ as, isBlank b = true) : trimChars (as ++ bs) = trimChars bs := by
  rw [trimChars, List.dropWhile_append_of_pos h, trimChars]

theorem trimEndChars_of_no_blank {cs : List Char} (h : ∀ c ∈ cs, isBlank c = false) : trimEndChars cs = cs := by
  obtain ⟨blanks, hcs, hblanks⟩ := trimEndChars_append cs
  have hnil : blanks = [] := List.eq_nil_iff_forall_not_mem.2 fun b hb => by
    have hmem : b ∈ cs := hcs ▸ List.mem_append_right _ hb
    simpa [h b hmem] using hblanks b hb
  rwa [hnil, List.append_nil, eq_comm] at hcs

theorem trimChars_of_no_blank {cs : List Char} (h : ∀ c ∈ cs, isBlank c = false) : trimChars cs = cs := by
  have hdrop : cs.dropWhile isBlank = cs := by
    cases cs with
    | nil => rfl
    | cons c cs => exact List.dropWhile_cons_of_neg (by simp [h c List.mem_cons_self])
  rw [trimChars, hdrop, trimEndChars_of_no_blank h]

/-- The texts that trimming leaves a text without blanks of. -/
theorem trimChars_eq_iff {cs core : List Char} (h : ∀ c ∈ core, isBlank c = false) :
    trimChars cs = core ↔
      ∃ front back, cs = front ++ core ++ back ∧ ∀ b ∈ front ++ back, isBlank b = true := by
  constructor
  · rintro rfl
    obtain ⟨blanks, hcs, hblanks⟩ := trimEndChars_append (cs.dropWhile isBlank)
    refine ⟨cs.takeWhile isBlank, blanks, ?_, List.forall_mem_append.2 ⟨?_, hblanks⟩⟩
    · rw [List.append_assoc, trimChars, ← hcs, List.takeWhile_append_dropWhile]
    · exact fun b hb => List.all_eq_true.1 List.all_takeWhile b hb
  · rintro ⟨front, back, rfl, hblanks⟩
    obtain ⟨hfront, hback⟩ := List.forall_mem_append.1 hblanks
    rw [trimChars_append_blanks hback, trimChars_blanks_append hfront, trimChars_of_no_blank h]

theorem trimChars_cons (hc : isBlank c = false) : trimChars (c :: bs) = c :: trimEndChars bs := by
  rw [trimChars, List.dropWhile_cons_of_neg (by simp [hc])]
  exact @trimEndChars_append_cons [] bs c hc

/-! ## Trimmed texts -/

/-- A text without blanks at its ends. -/
def Trimmed (s : String) : Prop := trim s = s

instance (s : String) : Decidable (Trimmed s) := inferInstanceAs (Decidable (trim s = s))

theorem Trimmed.trimChars_eq {s : String} (h : Trimmed s) : trimChars s.toList = s.toList := by
  rw [← toList_trim, h]

theorem Trimmed.trimEndChars_eq {s : String} (h : Trimmed s) : trimEndChars s.toList = s.toList := by
  rw [← h.trimChars_eq, trimChars, trimEndChars_trimEndChars]

theorem Trimmed.trimEnd_eq {s : String} (h : Trimmed s) : trimEnd s = s := by
  rw [trimEnd, h.trimEndChars_eq, String.ofList_toList]

theorem Trimmed.exists_cons {s : String} (h : Trimmed s) (hne : s ≠ "") :
    ∃ c cs, s.toList = c :: cs ∧ isBlank c = false := by
  obtain ⟨c, cs, hs⟩ := List.exists_cons_of_ne_nil fun he => hne (String.toList_eq_nil_iff.1 he)
  obtain ⟨blanks, hdrop, -⟩ := trimEndChars_append (s.toList.dropWhile isBlank)
  have hhead : (s.toList.dropWhile isBlank).head? = some c := by
    rw [hdrop, ← trimChars, h.trimChars_eq, hs]
    rfl
  have hnot := List.head?_dropWhile_not isBlank s.toList
  rw [hhead] at hnot
  exact ⟨c, cs, hs, hnot⟩

end ImageMacros.Text
