/-!
# Blank characters and trimming

* `isBlank` : the characters that count as white space, in all scripts;
* `trimEnd`, `trim` : a text without the blanks at its end, at both ends.
-/

namespace ImageMacros.Text

/-- White space: category Zs, and the separators and controls that break lines or records. -/
def isBlank (c : Char) : Bool :=
  let n := c.toNat
  (0x09 ≤ n && n ≤ 0x0D) || (0x1C ≤ n && n ≤ 0x20) || n = 0x85 || n = 0xA0 || n = 0x1680 ||
    (0x2000 ≤ n && n ≤ 0x200A) || n = 0x2028 || n = 0x2029 || n = 0x202F || n = 0x205F || n = 0x3000

/-! ## Trimming -/

def trimEndChars (cs : List Char) : List Char := (cs.reverse.dropWhile isBlank).reverse

def trimChars (cs : List Char) : List Char := trimEndChars (cs.dropWhile isBlank)

def trimEnd (s : String) : String := String.ofList (trimEndChars s.toList)

def trim (s : String) : String := String.ofList (trimChars s.toList)

@[simp] theorem toList_trimEnd (s : String) : (trimEnd s).toList = trimEndChars s.toList := by
  simp [trimEnd]

@[simp] theorem toList_trim (s : String) : (trim s).toList = trimChars s.toList := by
  simp [trim]

/-- Trimming drops nothing but blanks. -/
theorem trimEndChars_append (cs : List Char) :
    ∃ blanks, cs = trimEndChars cs ++ blanks ∧ ∀ c ∈ blanks, isBlank c := by
  refine ⟨(cs.reverse.takeWhile isBlank).reverse, ?_, fun c h => ?_⟩
  · rw [trimEndChars, ← List.reverse_append, List.takeWhile_append_dropWhile, List.reverse_reverse]
  · exact List.all_eq_true.1 List.all_takeWhile c (List.mem_reverse.1 h)

theorem getLast?_trimEndChars {cs : List Char} {c : Char}
    (h : (trimEndChars cs).getLast? = some c) : isBlank c = false := by
  have := List.head?_dropWhile_not isBlank cs.reverse
  rw [trimEndChars, List.getLast?_reverse] at h
  rwa [h] at this

end ImageMacros.Text
