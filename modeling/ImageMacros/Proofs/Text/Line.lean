import ImageMacros.Text.Blank
import ImageMacros.Text.Line

/-!
# Lines that are read back

* `OneLine` : a text without a boundary (`oneLine_append`);
* `oneLine_of_mem_lines` : the lines that are read have no boundary;
* `pieces_flatMap` : lines without an end are the pieces of their text;
* `lines_unlines_iff` : these and no others are read back as they were written;
* `lines_unlines_flatMap` : what is read of any written lines, line by line.
-/

namespace ImageMacros.Text

/-- A text without a boundary. -/
def OneLine (s : String) : Prop := ∀ c ∈ s.toList, isBoundary c = false

instance (s : String) : Decidable (OneLine s) :=
  List.decidableBAll (fun c => isBoundary c = false) s.toList

theorem oneLine_append {s t : String} : OneLine (s ++ t) ↔ OneLine s ∧ OneLine t := by
  simp [OneLine, or_imp, forall_and]

theorem isBlank_of_isBoundary {c : Char} (h : isBoundary c) : isBlank c := by
  simp only [isBoundary, isBlank, Bool.or_eq_true, Bool.and_eq_true, decide_eq_true_eq] at h ⊢
  omega

theorem oneLine_of_mem_lines {s l : String} (h : l ∈ lines s) : OneLine l := by
  obtain ⟨piece, -, rfl⟩ := List.mem_map.1 h
  intro c hc
  rw [String.toList_ofList] at hc
  simpa using List.all_eq_true.1 List.all_takeWhile c hc

/-! ## Reading what was written -/

theorem unlines_append (as bs : List String) : unlines (as ++ bs) = unlines as ++ unlines bs := by
  simp [unlines]

theorem unlines_flatMap {α : Type} (f : α → List String) (as : List α) :
    unlines (as.flatMap f) = String.join (as.map fun a => unlines (f a)) := by
  induction as with
  | nil => rfl
  | cons a as ih => rw [List.flatMap_cons, unlines_append, ih, List.map_cons, String.join_cons]

theorem toList_unlines (ls : List String) : (unlines ls).toList = ls.flatMap fun l => l.toList ++ ['\n'] := by
  simp [unlines, String.toList_join, List.flatMap_def, Function.comp_def]

theorem foldReturns_of_not_mem : ∀ {cs : List Char}, '\r' ∉ cs → foldReturns cs = cs
  | [], _ => rfl
  | c :: cs, h => by
    simp only [List.mem_cons, not_or] at h
    have hc : c ≠ '\r' := Ne.symm h.1
    rw [foldReturns, if_neg hc, foldReturns_of_not_mem h.2]
    exact fun _ he _ => hc he

theorem pieces_append_of_not_end {isEnd : Char → Bool} {as bs piece : List Char} {rest : List (List Char)}
    (h : ∀ c ∈ as, isEnd c = false) (hbs : pieces isEnd bs = piece :: rest) :
    pieces isEnd (as ++ bs) = (as ++ piece) :: rest := by
  induction as with
  | nil => exact hbs
  | cons c as ih =>
    have hc : isEnd c = false := h c List.mem_cons_self
    rw [List.cons_append, pieces, if_neg (by simp [hc]), ih fun d hd => h d (List.mem_cons_of_mem c hd)]
    rfl

theorem pieces_append {isEnd : Char → Bool} {cs : List Char} {e : Char} (h : ∀ c ∈ cs, isEnd c = false)
    (he : isEnd e = true) (rest : List Char) :
    pieces isEnd (cs ++ e :: rest) = (cs ++ [e]) :: pieces isEnd rest := by
  have hcut : pieces isEnd (e :: rest) = [e] :: pieces isEnd rest := by simp [pieces, he]
  exact pieces_append_of_not_end h hcut

theorem pieces_flatMap {isEnd : Char → Bool} (he : isEnd '\n' = true) {ls : List String}
    (h : ∀ l ∈ ls, ∀ c ∈ l.toList, isEnd c = false) :
    pieces isEnd (ls.flatMap fun l => l.toList ++ ['\n']) = ls.map fun l => l.toList ++ ['\n'] := by
  induction ls with
  | nil => rfl
  | cons l ls ih =>
    rw [List.flatMap_cons, List.append_assoc, List.singleton_append,
      pieces_append (h l List.mem_cons_self) he, ih fun m hm => h m (List.mem_cons_of_mem l hm),
      List.map_cons]

theorem return_not_mem_unlines {ls : List String} (h : ∀ l ∈ ls, '\r' ∉ l.toList) : '\r' ∉ (unlines ls).toList := by
  rw [toList_unlines]
  intro hr
  obtain ⟨l, hl, hr⟩ := List.mem_flatMap.1 hr
  rcases List.mem_append.1 hr with hr | hr
  · exact h l hl hr
  · simp at hr

theorem lines_unlines {ls : List String} (h : ∀ l ∈ ls, OneLine l) : lines (unlines ls) = ls := by
  have hline : ∀ l ∈ ls, String.ofList ((l.toList ++ ['\n']).takeWhile fun c => !isBoundary c) = l := by
    intro l hl
    have hall : ∀ c ∈ l.toList, (!isBoundary c) = true := fun c hc => by simp [h l hl c hc]
    rw [List.takeWhile_append_of_pos hall, List.takeWhile_cons_of_neg (by decide), List.append_nil,
      String.ofList_toList]
  have hreturn : ∀ l ∈ ls, '\r' ∉ l.toList := fun l hl hr => absurd (h l hl _ hr) (by decide)
  unfold lines
  rw [foldReturns_of_not_mem (return_not_mem_unlines hreturn), toList_unlines, pieces_flatMap (by decide) h,
    List.map_map]
  exact (List.map_congr_left hline).trans (List.map_id ls)

/-- Lines are read back as they were written exactly if none has a boundary. -/
theorem lines_unlines_iff {ls : List String} : lines (unlines ls) = ls ↔ ∀ l ∈ ls, OneLine l :=
  ⟨fun h l hl => oneLine_of_mem_lines (h.symm ▸ hl : l ∈ lines (unlines ls)), lines_unlines⟩

/-! ## Reading line by line -/

/-- Returns are folded part by part, unless the cut is inside a line's end. -/
theorem foldReturns_append : ∀ {as bs : List Char}, as.getLast? ≠ some '\r' ∨ bs.head? ≠ some '\n' →
    foldReturns (as ++ bs) = foldReturns as ++ foldReturns bs
  | [], _, _ => rfl
  | [c], bs, h => by
    have hpair : ∀ cs, c = '\r' → bs = '\n' :: cs → False := by
      rintro cs rfl rfl
      simp at h
    rw [List.singleton_append, foldReturns.eq_3 _ _ hpair, foldReturns.eq_3 _ _ (by simp)]
    rfl
  | c :: d :: as, bs, h => by
    have hrest : (d :: as).getLast? ≠ some '\r' ∨ bs.head? ≠ some '\n' := by
      rwa [List.getLast?_cons_cons] at h
    by_cases hpair : c = '\r' ∧ d = '\n'
    · obtain ⟨rfl, rfl⟩ := hpair
      have hlast : as.getLast? ≠ some '\r' ∨ bs.head? ≠ some '\n' := by
        refine hrest.imp_left fun hlast he => hlast ?_
        rw [List.getLast?_cons, he]
        rfl
      exact congrArg ('\n' :: ·) (foldReturns_append hlast)
    · have hcut : ∀ es cs, c = '\r' → d :: es = '\n' :: cs → False :=
        fun es cs hc hd => hpair ⟨hc, (List.cons.inj hd).1⟩
      rw [List.cons_append, List.cons_append, foldReturns.eq_3 _ _ (hcut _), foldReturns.eq_3 _ _ (hcut _),
        ← List.cons_append, foldReturns_append hrest, List.cons_append]

/-- A text is cut behind each of its ends, whatever follows. -/
theorem pieces_append_end {isEnd : Char → Bool} {e : Char} (he : isEnd e = true) (as bs : List Char) :
    pieces isEnd (as ++ e :: bs) = pieces isEnd (as ++ [e]) ++ pieces isEnd bs := by
  induction as with
  | nil => simp [pieces, he]
  | cons c as ih =>
    have hne : pieces isEnd (as ++ [e]) ≠ [] := fun h => by simpa [h] using flatten_pieces isEnd (as ++ [e])
    obtain ⟨piece, rest, h⟩ := List.exists_cons_of_ne_nil hne
    simp only [List.cons_append, pieces, ih, h]
    split <;> rfl

/-- A line feed at the end of a text stays there. -/
theorem exists_foldReturns_concat (cs : List Char) : ∃ front, foldReturns (cs ++ ['\n']) = front ++ ['\n'] := by
  by_cases hlast : cs.getLast? = some '\r'
  · obtain ⟨as, rfl⟩ := List.getLast?_eq_some_iff.1 hlast
    refine ⟨foldReturns as, ?_⟩
    rw [List.append_assoc, foldReturns_append (.inr (by simp))]
    rfl
  · exact ⟨foldReturns cs, foldReturns_append (.inl hlast)⟩

/-- What is read of written lines is what is read of each of them with its line feed. -/
theorem lines_unlines_flatMap (ls : List String) :
    lines (unlines ls) = ls.flatMap fun l => lines (l ++ "\n") := by
  induction ls with
  | nil => rfl
  | cons l ls ih =>
    have htext : (unlines (l :: ls)).toList = (l.toList ++ ['\n']) ++ (unlines ls).toList := by
      simp [toList_unlines]
    have hline : (l ++ "\n").toList = l.toList ++ ['\n'] := by simp
    obtain ⟨front, hfront⟩ := exists_foldReturns_concat l.toList
    rw [List.flatMap_cons, ← ih]
    unfold lines
    rw [htext, hline, foldReturns_append (by simp), hfront, List.append_assoc, List.singleton_append,
      pieces_append_end (by decide), List.map_append]

theorem lines_ne_nil {s : String} (h : s.toList ≠ []) : lines s ≠ [] := by
  intro hlines
  have hpieces : pieces isBoundary (foldReturns s.toList) = [] := List.map_eq_nil_iff.1 hlines
  have hfold : foldReturns s.toList = [] := by rw [← flatten_pieces isBoundary (foldReturns s.toList), hpieces]; rfl
  obtain ⟨c, cs, hcs⟩ := List.exists_cons_of_ne_nil h
  rw [hcs] at hfold
  unfold foldReturns at hfold
  split at hfold <;> simp_all

/-- A line's start put in front of a text leaves all lines but the first. -/
theorem lines_append_of_oneLine {a s first : String} {rest : List String} (ha : OneLine a)
    (h : lines s = first :: rest) : lines (a ++ s) = (a ++ first) :: rest := by
  have hreturn : '\r' ∉ a.toList := fun hr => absurd (ha _ hr) (by decide)
  have hlast : a.toList.getLast? ≠ some '\r' := fun he => hreturn (List.mem_of_getLast? he)
  obtain ⟨piece, pieces, hpieces, rfl, rfl⟩ := List.map_eq_cons_iff.1 h
  have hcut : ∀ c ∈ a.toList, (!isBoundary c) = true := fun c hc => by simp [ha c hc]
  unfold lines
  rw [String.toList_append, foldReturns_append (.inl hlast), foldReturns_of_not_mem hreturn,
    pieces_append_of_not_end ha hpieces, List.map_cons, List.takeWhile_append_of_pos hcut, String.ofList_append,
    String.ofList_toList]

theorem pieces_concat_end {isEnd : Char → Bool} {c e : Char} (hc : isEnd c = false) (he : isEnd e = true)
    (as : List Char) : ∃ front last, pieces isEnd (as ++ [c]) = front ++ [last] ∧
      pieces isEnd (as ++ [c, e]) = front ++ [last ++ [e]] := by
  induction as with
  | nil => exact ⟨[], [c], by simp [pieces, hc], by simp [pieces, hc, he]⟩
  | cons d as ih =>
    obtain ⟨front, last, h, h'⟩ := ih
    by_cases hd : isEnd d = true
    · exact ⟨[d] :: front, last, by simp [pieces, hd, h], by simp [pieces, hd, h']⟩
    · cases front with
      | nil => exact ⟨[], d :: last, by simp [pieces, hd, h], by simp [pieces, hd, h']⟩
      | cons piece front => exact ⟨(d :: piece) :: front, last, by simp [pieces, hd, h], by simp [pieces, hd, h']⟩

theorem lines_newline {s : String} {c : Char} (hlast : s.toList.getLast? = some c) (hc : isBoundary c = false) :
    lines (s ++ "\n") = lines s := by
  obtain ⟨as, has⟩ := List.getLast?_eq_some_iff.1 hlast
  have hreturn : c ≠ '\r' := fun h => absurd hc (by rw [h]; decide)
  have hfeed : c ≠ '\n' := fun h => absurd hc (by rw [h]; decide)
  have hsingle : foldReturns [c] = [c] := foldReturns_of_not_mem (by simpa using hreturn.symm)
  have hfold : foldReturns (as ++ [c]) = foldReturns as ++ [c] := by
    rw [foldReturns_append (.inr (by simpa using hfeed)), hsingle]
  have hfold' : foldReturns (as ++ [c] ++ ['\n']) = foldReturns as ++ [c, '\n'] := by
    rw [foldReturns_append (.inl (by simpa using hreturn)), hfold, List.append_assoc]
    rfl
  have htext : (s ++ "\n").toList = as ++ [c] ++ ['\n'] := by simp [has]
  obtain ⟨front, last, h, h'⟩ := pieces_concat_end hc (by decide : isBoundary '\n' = true) (foldReturns as)
  have hcut : (last ++ ['\n']).takeWhile (fun c => !isBoundary c) = last.takeWhile fun c => !isBoundary c := by
    rw [List.takeWhile_append]
    split
    · next hall =>
      rw [List.takeWhile_cons_of_neg (by decide), List.append_nil, (List.takeWhile_prefix _).eq_of_length hall]
    · rfl
  unfold lines
  rw [htext, has, hfold, hfold', h, h', List.map_append, List.map_append, List.map_singleton, List.map_singleton,
    hcut]

end ImageMacros.Text
