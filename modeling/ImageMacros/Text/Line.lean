/-!
# Lines of a text

* `foldReturns` : every way to end a line by carriage returns becomes one line feed;
* `isBoundary` : the characters that end a line when a file is read back;
* `pieces` : a text cut behind every character of a class, so that the pieces make up the text;
* `lines` : the lines of a file's text, `unlines` : the text that holds given lines.
-/

namespace ImageMacros.Text

/-- `\r\n` and a lone `\r` become `\n`. -/
def foldReturns : List Char → List Char
  | [] => []
  | '\r' :: '\n' :: cs => '\n' :: foldReturns cs
  | c :: cs => (if c = '\r' then '\n' else c) :: foldReturns cs

/-- The characters that end a line: line, paragraph and page breaks, and the separators of files, groups and
records. -/
def isBoundary (c : Char) : Bool :=
  let n := c.toNat
  (0x0A ≤ n && n ≤ 0x0D) || (0x1C ≤ n && n ≤ 0x1E) || n = 0x85 || n = 0x2028 || n = 0x2029

/-! ## Cutting -/

/-- The text cut behind every character that passes the test. -/
def pieces (isEnd : Char → Bool) : List Char → List (List Char)
  | [] => []
  | c :: cs =>
    if isEnd c then [c] :: pieces isEnd cs
    else
      match pieces isEnd cs with
      | [] => [[c]]
      | piece :: rest => (c :: piece) :: rest

theorem flatten_pieces (isEnd : Char → Bool) (cs : List Char) : (pieces isEnd cs).flatten = cs := by
  induction cs with
  | nil => rfl
  | cons c cs ih =>
    simp only [pieces]
    split
    · simp [ih]
    · split
      · next h => simp [h] at ih; simp [ih]
      · next h => simp [h] at ih; simp [ih]

/-! ## Reading and writing lines -/

/-- The lines of a file's text. What follows the last boundary is a line only if there is something. -/
def lines (s : String) : List String :=
  (pieces isBoundary (foldReturns s.toList)).map fun piece =>
    String.ofList (piece.takeWhile fun c => !isBoundary c)

def unlines (ls : List String) : String := String.join (ls.map (· ++ "\n"))

end ImageMacros.Text
