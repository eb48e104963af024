import ImageMacros.Config
import ImageMacros.Proofs.Text.Blank
import ImageMacros.Proofs.Text.Line

/-!
# Lines of config files that are read back

* `Unbroken` : a text that a file keeps on one line, and `fileLines_unlines`;
* `Entry`, `Entry.line` : an option that a line can hold, and this line;
* `headerLine` : the line that opens a section;
* `header?_headerLine`, `Entry.option?_line` : what the reader finds in these lines;
* `Reader.step_cons` : a line that starts with no blank neither continues a value nor is left out.
-/

namespace ImageMacros.Config

open Text (Trimmed trimChars trimEndChars isBlank unlines)

/-! ## Lines of a file -/

/-- A text without the characters that end a line of a config file. -/
def Unbroken (s : String) : Prop := '\n' ∉ s.toList ∧ '\r' ∉ s.toList

instance (s : String) : Decidable (Unbroken s) := inferInstanceAs (Decidable (_ ∧ _))

def ended (line : String) : List Char := line.toList ++ ['\n']

theorem fileLines_unlines {ls : List String} (h : ∀ l ∈ ls, Unbroken l) :
    fileLines (unlines ls).toList = ls.map ended := by
  have hfeed : ∀ l ∈ ls, ∀ c ∈ l.toList, decide (c = '\n') = false := fun l hl c hc =>
    decide_eq_false fun he => (h l hl).1 (he ▸ hc)
  unfold fileLines
  rw [Text.foldReturns_of_not_mem (Text.return_not_mem_unlines fun l hl => (h l hl).2), Text.toList_unlines,
    Text.pieces_flatMap (by decide) hfeed]
  rfl

/-! ## Options and headers -/

/-- An option that one line can hold. -/
structure Entry where
  key : String
  value : String
  key_ne_empty : key ≠ "" := by decide
  key_trimmed : Trimmed key := by decide
  key_unbroken : Unbroken key := by decide
  key_undelimited : '=' ∉ key.toList ∧ ':' ∉ key.toList := by decide
  key_start : key.toList.head? ≠ some '#' ∧ key.toList.head? ≠ some ';' ∧ key.toList.head? ≠ some '[' := by decide
  value_trimmed : Trimmed value := by decide
  value_unbroken : Unbroken value := by decide

def Entry.pair (e : Entry) : String × String := (Text.lower e.key, e.value)

def Entry.line (e : Entry) : String := e.key ++ " = " ++ e.value

def headerLine (name : String) : String := "[" ++ name ++ "]"

theorem Unbroken.append {s t : String} (hs : Unbroken s) (ht : Unbroken t) : Unbroken (s ++ t) := by
  simp only [Unbroken, String.toList_append, List.mem_append, not_or]
  exact ⟨⟨hs.1, ht.1⟩, hs.2, ht.2⟩

theorem Entry.unbroken_line (e : Entry) : Unbroken e.line :=
  (e.key_unbroken.append (by decide)).append e.value_unbroken

theorem unbroken_headerLine {name : String} (h : Unbroken name) : Unbroken (headerLine name) :=
  ((by decide : Unbroken "[").append h).append (by decide)

/-! ## What the reader finds -/

/-- A name may hold closing brackets, since the last one of the line ends it. -/
theorem header?_headerLine {name : String} (h : name ≠ "") :
    header? (headerLine name).toList = some name := by
  have hline : (headerLine name).toList = '[' :: (name.toList ++ [']']) := by simp [headerLine]
  obtain ⟨c, cs, hname⟩ := List.exists_cons_of_ne_nil fun he => h (String.toList_eq_nil_iff.1 he)
  have hrest : (((name.toList ++ [']']).reverse.dropWhile (· ≠ ']')).drop 1).reverse = c :: cs := by
    rw [List.reverse_concat, List.dropWhile_cons_of_neg (by simp), List.drop_one, List.tail_cons,
      List.reverse_reverse, hname]
  rw [hline, header?, hrest]
  dsimp only
  rw [← hname, String.ofList_toList]

theorem header?_cons {c : Char} (h : c ≠ '[') (cs : List Char) : header? (c :: cs) = none := by
  unfold header?
  split
  · next he => exact absurd (List.cons.inj he).1 h
  · rfl

/-- The first delimiter of the line is the one behind the key, whatever the value holds. -/
theorem Entry.option?_line (e : Entry) :
    option? (e.key.toList ++ ' ' :: '=' :: trimEndChars (' ' :: e.value.toList)) = some e.pair := by
  have hkey : ∀ c ∈ e.key.toList ++ [' '], (!isDelimiter c) = true := by
    intro c hc
    have hne : c ≠ '=' ∧ c ≠ ':' := by
      rcases List.mem_append.1 hc with hc | hc
      · exact ⟨fun he => e.key_undelimited.1 (he ▸ hc), fun he => e.key_undelimited.2 (he ▸ hc)⟩
      · rw [List.mem_singleton.1 hc]
        decide
    simp [isDelimiter, hne]
  have hline : e.key.toList ++ ' ' :: '=' :: trimEndChars (' ' :: e.value.toList) =
      (e.key.toList ++ [' ']) ++ '=' :: trimEndChars (' ' :: e.value.toList) := by simp
  have hname : Text.trimEnd (String.ofList (e.key.toList ++ [' '])) = e.key := by
    rw [Text.trimEnd, String.toList_ofList, Text.trimEndChars_concat (by decide), e.key_trimmed.trimEndChars_eq,
      String.ofList_toList]
  have hvalue : Text.trim (String.ofList (trimEndChars (' ' :: e.value.toList))) = e.value := by
    rw [Text.trim, String.toList_ofList, Text.trimChars_trimEndChars, Text.trimChars_cons_blank (by decide),
      e.value_trimmed.trimChars_eq, String.ofList_toList]
  rw [hline, option?, List.dropWhile_append_of_pos hkey, List.takeWhile_append_of_pos hkey,
    List.dropWhile_cons_of_neg (by decide), List.takeWhile_cons_of_neg (by decide), List.append_nil]
  dsimp only
  rw [hname, hvalue, pair]

/-- The line starts with no blank, and is neither a comment nor a header. -/
theorem Entry.exists_line (e : Entry) : ∃ c cs, ended e.line = c :: cs ∧ isBlank c = false ∧
    c ≠ '#' ∧ c ≠ ';' ∧ c ≠ '[' ∧
    c :: trimEndChars cs = e.key.toList ++ ' ' :: '=' :: trimEndChars (' ' :: e.value.toList) := by
  obtain ⟨c, cs, hkey, hblank⟩ := e.key_trimmed.exists_cons e.key_ne_empty
  have hstart := e.key_start
  rw [hkey, List.head?_cons] at hstart
  refine ⟨c, cs ++ ' ' :: '=' :: ' ' :: (e.value.toList ++ ['\n']), by simp [ended, line, hkey], hblank,
    fun he => hstart.1 (congrArg some he), fun he => hstart.2.1 (congrArg some he),
    fun he => hstart.2.2 (congrArg some he), ?_⟩
  have hcut : cs ++ ' ' :: '=' :: ' ' :: (e.value.toList ++ ['\n']) =
      (cs ++ [' ']) ++ '=' :: ((' ' :: e.value.toList) ++ ['\n']) := by simp
  rw [hcut, Text.trimEndChars_append_cons (by decide), Text.trimEndChars_concat (by decide), hkey]
  simp

/-! ## Steps -/

namespace Reader

/-- A line that starts with no blank does not continue a value. -/
theorem step_cons {c : Char} (hblank : isBlank c = false) (hcomment : c ≠ '#' ∧ c ≠ ';') (r : Reader) (number : Nat)
    (cs : List Char) :
    r.step number (c :: cs) = { r with indent := 0 }.entry number (c :: cs) (c :: trimEndChars cs) := by
  have hnot : isComment (c :: trimEndChars cs) = false := by simp [isComment, hcomment]
  have hindent : ((c :: cs).takeWhile isBlank).length = 0 := by
    rw [List.takeWhile_cons_of_neg (by simp [hblank])]
    rfl
  unfold step
  simp only [Text.trimChars_cons hblank, hnot, hindent, Nat.not_lt_zero, if_false, Bool.false_eq_true,
    List.cons_ne_nil]
  split <;> rfl

end Reader

end ImageMacros.Config
