/-!
# Terminal control sequences

* `afterSequence?` : what follows a control sequence;
* `plain` : a text without its control sequences, as it goes to an output that is no terminal.
-/

namespace ImageMacros.Text

def isParameter (c : Char) : Bool := '0' ≤ c && c ≤ '?'

def isIntermediate (c : Char) : Bool := ' ' ≤ c && c ≤ '/'

def isFinal (c : Char) : Bool := '@' ≤ c && c ≤ '~'

/-- What follows a control sequence whose introducer has been read. -/
def afterSequence? (cs : List Char) : Option (List Char) :=
  match (cs.dropWhile isParameter).dropWhile isIntermediate with
  | c :: rest => if isFinal c then some rest else none
  | [] => none

theorem length_lt_of_afterSequence? {cs rest : List Char} (h : afterSequence? cs = some rest) :
    rest.length < cs.length := by
  have h₁ : ((cs.dropWhile isParameter).dropWhile isIntermediate).length ≤ (cs.dropWhile isParameter).length :=
    (List.dropWhile_sublist _).length_le
  have h₂ : (cs.dropWhile isParameter).length ≤ cs.length := (List.dropWhile_sublist _).length_le
  simp only [afterSequence?] at h
  split at h
  · next heq =>
    rw [heq, List.length_cons] at h₁
    simp only [Option.ite_none_right_eq_some, Option.some.injEq] at h
    rw [← h.2]
    omega
  · simp at h

/-- The text without its control sequences. -/
def plainChars : List Char → List Char
  | [] => []
  | '\x1b' :: '[' :: cs =>
    match h : afterSequence? cs with
    | some rest =>
      have := length_lt_of_afterSequence? h
      plainChars rest
    | none => '\x1b' :: plainChars ('[' :: cs)
  | c :: cs => c :: plainChars cs
termination_by cs => cs.length
decreasing_by all_goals simp_all <;> omega

def plain (s : String) : String := String.ofList (plainChars s.toList)

theorem plainChars_of_not_mem {cs : List Char} (h : '\x1b' ∉ cs) : plainChars cs = cs := by
  induction cs with
  | nil => simp [plainChars]
  | cons c cs ih =>
    have hc : c ≠ '\x1b' := fun he => h (by simp [he])
    rw [plainChars]
    · rw [ih fun hm => h (List.mem_cons_of_mem _ hm)]
    · intro cs' he _
      exact hc he

theorem plain_of_not_mem {s : String} (h : '\x1b' ∉ s.toList) : plain s = s := by
  rw [plain, plainChars_of_not_mem h, String.ofList_toList]

end ImageMacros.Text
