/-!
# Likeness of words

* `longestBlock` : the longest block that two words have in common, the earliest of several;
* `matched` : how many characters the longest blocks, taken recursively, cover;
* `isClose` : whether two words are alike enough for one to be meant by the other;
* `closest` : the candidates that are closest to a word.
-/

namespace ImageMacros.Text

/-- A block that two words have in common. -/
structure Block where
  left : Nat
  right : Nat
  size : Nat
deriving DecidableEq, Repr

def commonStart : List Char → List Char → Nat
  | a :: as, b :: bs => if a = b then commonStart as bs + 1 else 0
  | _, _ => 0

/-- The longer block, and of two of one length the first. -/
def Block.better (x y : Block) : Block := if x.size < y.size then y else x

/-- The longest block that starts at the first character of `as`. -/
def longestHere (as : List Char) (left : Nat) : List Char → Nat → Block
  | [], right => ⟨left, right, 0⟩
  | b :: bs, right =>
    Block.better ⟨left, right, commonStart as (b :: bs)⟩ (longestHere as left bs (right + 1))

/-- The longest block; of several the one that starts first on the left, then on the right. -/
def longestFrom (bs : List Char) : List Char → Nat → Block
  | [], left => ⟨left, 0, 0⟩
  | a :: as, left => Block.better (longestHere (a :: as) left bs 0) (longestFrom bs as (left + 1))

def longestBlock (as bs : List Char) : Block := longestFrom bs as 0

theorem left_lt_of_size_pos {bs as : List Char} {left : Nat}
    (h : 0 < (longestFrom bs as left).size) : (longestFrom bs as left).left < left + as.length := by
  induction as generalizing left with
  | nil => simp [longestFrom] at h
  | cons a as ih =>
    have here : ∀ cs right, (longestHere (a :: as) left cs right).left = left := by
      intro cs
      induction cs with
      | nil => intro right; rfl
      | cons c cs ihc => intro right; simp only [longestHere, Block.better]; split <;> simp [ihc]
    simp only [longestFrom, Block.better, List.length_cons] at h ⊢
    split
    · next hlt => rw [if_pos hlt] at h; have := ih h; omega
    · rw [here]; omega

theorem left_longestBlock_lt {as bs : List Char} (h : (longestBlock as bs).size ≠ 0) :
    (longestBlock as bs).left < as.length := by
  simpa [longestBlock] using left_lt_of_size_pos (Nat.pos_of_ne_zero h)

/-- The characters covered by the longest block and by those of what is left on either side. -/
def matched (as bs : List Char) : Nat :=
  match h : longestBlock as bs with
  | ⟨_, _, 0⟩ => 0
  | ⟨left, right, size + 1⟩ =>
    matched (as.take left) (bs.take right) + (size + 1) +
      matched (as.drop (left + (size + 1))) (bs.drop (right + (size + 1)))
termination_by as.length
decreasing_by
  all_goals
    have hsize : (longestBlock as bs).size ≠ 0 := by simp [h]
    have := left_longestBlock_lt hsize
    simp only [h] at this
    simp only [List.length_take, List.length_drop]
    omega

/-! ## Closeness -/

/-- Twice the matched characters over all characters. -/
structure Likeness where
  candidate : String
  matched : Nat
  total : Nat

def Likeness.of (word candidate : String) : Likeness :=
  ⟨candidate, Text.matched candidate.toList word.toList, candidate.length + word.length⟩

def Likeness.isClose (l : Likeness) : Bool := 3 * l.total ≤ 10 * l.matched

/-- Nearer to the word or, of two that are equally near, later in the alphabet. -/
def Likeness.precedes (x y : Likeness) : Bool :=
  y.matched * x.total < x.matched * y.total ||
    (y.matched * x.total = x.matched * y.total && y.candidate ≤ x.candidate)

/-- Up to three candidates among those close to the word, in alphabetical order. -/
def closest (word : String) (candidates : List String) : List String :=
  let near := (candidates.map (Likeness.of word)).filter (·.isClose)
  ((near.mergeSort Likeness.precedes).take 3 |>.map (·.candidate)).mergeSort (· ≤ ·)

end ImageMacros.Text
