import ImageMacros.Proofs.Text.Blank
import ImageMacros.Proofs.Text.Lowercase
import ImageMacros.Setting

/-!
# Texts that are truth values

* `truthWords`, `StandsFor` : the words for true and for false, and a text that spells one in any mixture of cases,
  between blanks;
* `standsFor_iff` : a text stands for a plain word if it is this word, its blanks and its case put aside;
* `truth?_language` : the texts for true, the texts for false, and that there are no others.
-/

namespace ImageMacros

open Text (isBlank Plain EitherCase trimChars)

/-- The words for true and for false; no word at all is one of these. -/
def truthWords : Bool → List String
  | true => ["true", "1", "yes", "on"]
  | false => ["false", "0", "no", "off", ""]

/-- A word with each letter in either case, and blanks around it. -/
def StandsFor (s word : String) : Prop :=
  ∃ front core back, s.toList = front ++ core ++ back ∧ (∀ b ∈ front ++ back, isBlank b = true) ∧
    List.Forall₂ EitherCase core word.toList

theorem plain_of_mem_truthWords {b : Bool} {word : String} (h : word ∈ truthWords b) : ∀ w ∈ word.toList, Plain w := by
  have hall : ∀ b, ∀ word ∈ truthWords b, word.toList.all (Plain ·) = true := by decide
  exact fun w hw => of_decide_eq_true (List.all_eq_true.1 (hall b word h) w hw)

theorem trimChars_of_eitherCase {cs core word : List Char} (hword : ∀ w ∈ word, Plain w)
    (h : List.Forall₂ EitherCase core word) :
    trimChars cs = core ↔ ∃ front back, cs = front ++ core ++ back ∧ ∀ b ∈ front ++ back, isBlank b = true :=
  Text.trimChars_eq_iff fun c hc => (Text.ascii_of_eitherCase h hword c hc).2

/-- A text stands for a plain word if it is the word, blanks and case put aside. -/
theorem standsFor_iff {word : String} (hword : ∀ w ∈ word.toList, Plain w) (s : String) :
    StandsFor s word ↔ Text.lower (Text.trim s) = word := by
  rw [← String.toList_inj, Text.toList_lower, Text.toList_trim, Text.lowerAfter_eq_iff hword]
  constructor
  · rintro ⟨front, core, back, hs, hblanks, hcore⟩
    rwa [(trimChars_of_eitherCase hword hcore).2 ⟨front, back, hs, hblanks⟩]
  · intro hcore
    obtain ⟨front, back, hs, hblanks⟩ := (trimChars_of_eitherCase hword hcore).1 rfl
    exact ⟨front, _, back, hs, hblanks, hcore⟩

theorem StandsFor.ascii {s word : String} (h : StandsFor s word) (hword : ∀ w ∈ word.toList, Plain w) :
    ∀ c ∈ (Text.trim s).toList, c.toNat < 128 := by
  obtain ⟨front, core, back, hs, hblanks, hcore⟩ := h
  rw [Text.toList_trim, (trimChars_of_eitherCase hword hcore).2 ⟨front, back, hs, hblanks⟩]
  exact fun c hc => (Text.ascii_of_eitherCase hcore hword c hc).1

/-! ## Truth values -/

theorem truth?_eq_ite (s : String) : truth? s =
    if Text.lower (Text.trim s) ∈ truthWords true then some true
    else if Text.lower (Text.trim s) ∈ truthWords false then some false else none := rfl

theorem truth?_eq_some_iff {s : String} {b : Bool} :
    truth? s = some b ↔ ∃ word ∈ truthWords b, StandsFor s word := by
  have hwords : (∃ word ∈ truthWords b, StandsFor s word) ↔ Text.lower (Text.trim s) ∈ truthWords b := by
    constructor
    · rintro ⟨word, hword, h⟩
      rwa [(standsFor_iff (plain_of_mem_truthWords hword) s).1 h]
    · exact fun h => ⟨_, h, (standsFor_iff (plain_of_mem_truthWords h) s).2 rfl⟩
  have hapart : ∀ word ∈ truthWords true, word ∉ truthWords false := by decide
  rw [hwords, truth?_eq_ite]
  by_cases htrue : Text.lower (Text.trim s) ∈ truthWords true
  · rw [if_pos htrue]
    cases b <;> simp [htrue, hapart _ htrue]
  · rw [if_neg htrue]
    cases b <;> simp [htrue]

/-- The texts that are true, those that are false, and that all others are no truth value. Between the blanks they
are in ASCII. -/
theorem truth?_language (s : String) :
    (∀ b, truth? s = some b ↔ ∃ word ∈ truthWords b, StandsFor s word) ∧
    (truth? s = none ↔ ∀ b, ∀ word ∈ truthWords b, ¬ StandsFor s word) ∧
    (∀ c ∈ (Text.trim s).toList, 128 ≤ c.toNat → truth? s = none) ∧
    Text.lower "\u212A" = "k" ∧ Text.lower "\u0130" = "i\u0307" := by
  refine ⟨fun b => truth?_eq_some_iff, ?_, fun c hc houtside => ?_, by decide +kernel, by decide +kernel⟩
  · rw [Option.eq_none_iff_forall_ne_some]
    refine forall_congr' fun b => ?_
    rw [ne_eq, truth?_eq_some_iff]
    simp only [not_exists, not_and]
  · refine Option.eq_none_iff_forall_ne_some.2 fun b hb => ?_
    obtain ⟨word, hword, h⟩ := truth?_eq_some_iff.1 hb
    exact absurd (h.ascii (plain_of_mem_truthWords hword) c hc) (by omega)

/-- The capital of the long s is an s, its lower case is not. -/
theorem truth?_longS :
    'ſ' ∈ (Text.trim "\u2003Yeſ\u00a0").toList ∧ 128 ≤ 'ſ'.toNat ∧ truth? "\u2003Yeſ\u00a0" = none ∧
      truth? "\u2003YeS\u00a0" = some true := by
  have hmem : 'ſ' ∈ (Text.trim "\u2003Yeſ\u00a0").toList := by decide
  have hyes : StandsFor "\u2003YeS\u00a0" "yes" :=
    ⟨['\u2003'], ['Y', 'e', 'S'], ['\u00a0'], by decide, List.all_eq_true.1 (by decide), by decide⟩
  exact ⟨hmem, by decide, (truth?_language _).2.2.1 'ſ' hmem (by decide),
    ((truth?_language _).1 true).2 ⟨"yes", by decide, hyes⟩⟩

end ImageMacros
