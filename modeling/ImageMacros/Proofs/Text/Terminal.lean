import ImageMacros.Text.Terminal

/-!
# Plain lines

* `plain_newline` : no control sequence reaches over the end of a line, so lines are made plain one by one.
-/

namespace ImageMacros.Text

theorem dropWhile_newline {p : Char → Bool} (hp : p '\n' = false) (cs : List Char) :
    (cs ++ ['\n']).dropWhile p = cs.dropWhile p ++ ['\n'] := by
  induction cs with
  | nil => simp [hp]
  | cons c cs ih => by_cases hc : p c <;> simp [hc, ih]

theorem afterSequence?_newline (cs : List Char) :
    afterSequence? (cs ++ ['\n']) = (afterSequence? cs).map (· ++ ['\n']) := by
  unfold afterSequence?
  rw [dropWhile_newline (by decide), dropWhile_newline (by decide)]
  cases (cs.dropWhile isParameter).dropWhile isIntermediate with
  | nil => rfl
  | cons c rest => by_cases hc : isFinal c <;> simp [hc]

theorem plainChars_sequence {cs rest : List Char} (h : afterSequence? cs = some rest) :
    plainChars ('\x1b' :: '[' :: cs) = plainChars rest := by
  rw [plainChars]
  split
  · next h' => rw [h, Option.some.injEq] at h'; rw [h']
  · next h' => simp [h] at h'

theorem plainChars_no_sequence {cs : List Char} (h : afterSequence? cs = none) :
    plainChars ('\x1b' :: '[' :: cs) = '\x1b' :: plainChars ('[' :: cs) := by
  rw [plainChars]
  split
  · next h' => simp [h] at h'
  · rfl

theorem plainChars_newline (cs : List Char) : plainChars (cs ++ ['\n']) = plainChars cs ++ ['\n'] := by
  fun_induction plainChars cs with
  | case1 => exact plainChars_of_not_mem (by decide)
  | case2 cs rest h _ ih =>
    have hend : afterSequence? (cs ++ ['\n']) = some (rest ++ ['\n']) := by rw [afterSequence?_newline, h]; rfl
    rw [List.cons_append, List.cons_append, plainChars_sequence hend, ih]
  | case3 cs h ih =>
    have hend : afterSequence? (cs ++ ['\n']) = none := by rw [afterSequence?_newline, h]; rfl
    rw [List.cons_append, List.cons_append, plainChars_no_sequence hend, ← List.cons_append, ih, List.cons_append]
  | case4 c cs h ih =>
    have hother : ∀ ds, c = '\x1b' → cs ++ ['\n'] = '[' :: ds → False := by
      intro ds hc hcs
      cases cs with
      | nil => simp at hcs
      | cons d cs => exact h cs hc (by rw [(List.cons.inj hcs).1])
    rw [List.cons_append, plainChars.eq_3 _ _ hother, ih, List.cons_append]

/-- A line is made plain by itself. -/
theorem plain_newline (s : String) : plain (s ++ "\n") = plain s ++ "\n" := by
  have hchars : (s ++ "\n").toList = s.toList ++ ['\n'] := by simp
  rw [plain, hchars, plainChars_newline, String.ofList_append]
  rfl

end ImageMacros.Text
