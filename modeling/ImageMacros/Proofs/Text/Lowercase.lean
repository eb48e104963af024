import ImageMacros.Proofs.Text.Utf8Strict
import ImageMacros.Text.Blank
import ImageMacros.Text.Lowercase
import Mathlib.Data.List.Forall2

/-!
# Texts whose lower case is a plain word

* `lowerChar_of_ascii`, `lowerChar_of_not_ascii` : the lower case of a character by itself; only two characters outside
  ASCII have one with a character of ASCII in it;
* `Plain` : the small letters of ASCII and the digits that are in the lower case of no character outside ASCII;
* `EitherCase` : a letter of ASCII in one of its two cases, or another character as it is;
* `lowerAfter_eq_iff` : a word of plain characters is the lower case of its spellings in either case, and of nothing else.
-/

namespace ImageMacros.Text

/-! ## Characters -/

theorem forall_ascii {P : Char → Prop} (h : ∀ n < 128, P (Char.ofNat n)) {c : Char} (hc : c.toNat < 128) : P c := by
  have := h c.toNat hc
  rwa [Char.ofNat_toNat] at this

theorem lowerChar_of_ascii {c : Char} (h : c.toNat < 128) : lowerChar c = [c.toLower] :=
  forall_ascii (P := fun c => lowerChar c = [c.toLower]) (by decide +kernel) h

/-- Outside ASCII only the Kelvin sign has its lower case in ASCII, by the table. -/
theorem stretches_outside : ∀ r ∈ stretches, r.last < 128 ∨ r.first = 0x212A ∧ r.last = 0x212A ∨
    128 ≤ r.first + r.distance ∧
      (r.last + r.distance < 0xD800 ∨ 0xDFFF < r.first + r.distance ∧ r.last + r.distance < 0x110000) := by
  decide +kernel

/-- Outside ASCII only the Kelvin sign and the dotted capital I have an ASCII character in their lower case. -/
theorem lowerChar_of_not_ascii {c : Char} (h : 128 ≤ c.toNat) :
    c = '\u212A' ∧ lowerChar c = ['k'] ∨ c = '\u0130' ∧ lowerChar c = ['i', '\u0307'] ∨
      ∃ d, 128 ≤ d.toNat ∧ lowerChar c = [d] := by
  by_cases hkelvin : c = '\u212A'
  · exact .inl ⟨hkelvin, by rw [hkelvin]; decide +kernel⟩
  by_cases hdotted : c = '\u0130'
  · exact .inr (.inl ⟨hdotted, if_pos hdotted⟩)
  refine .inr (.inr ?_)
  rw [lowerChar, if_neg hdotted]
  cases hfind : stretches.find? (·.contains c.toNat) with
  | none => exact ⟨c, h, rfl⟩
  | some r =>
    have hcontains := List.find?_some hfind
    simp only [Stretch.contains, Bool.and_eq_true, decide_eq_true_eq] at hcontains
    have hne : c.toNat ≠ 0x212A := fun he => hkelvin (Char.toNat_inj.1 he)
    have houtside := stretches_outside r (List.mem_of_find?_eq_some hfind)
    have hvalid : 128 ≤ (c.toNat + r.distance).toNat ∧ ((c.toNat + r.distance).toNat < 0xD800 ∨
        0xDFFF < (c.toNat + r.distance).toNat ∧ (c.toNat + r.distance).toNat < 0x110000) := by
      omega
    exact ⟨_, by rw [Utf8.toNat_ofNat_of_valid hvalid.2]; exact hvalid.1, rfl⟩

/-! ## Words -/

/-- A small letter or digit that is in the lower case of no character outside ASCII. -/
def Plain (w : Char) : Prop := (w.isLower = true ∨ w.isDigit = true) ∧ w ≠ 'i' ∧ w ≠ 'k'

instance (w : Char) : Decidable (Plain w) := inferInstanceAs (Decidable (_ ∧ _))

theorem Plain.ascii {w : Char} (h : Plain w) : w.toNat < 128 := by
  rcases h.1 with hletter | hdigit
  · have hlast : w.val ≤ 'z'.val := of_decide_eq_true (Bool.and_eq_true_iff.1 hletter).2
    exact Nat.lt_of_le_of_lt (UInt32.le_iff_toNat_le.1 hlast) (by decide)
  · have hlast : w.val ≤ '9'.val := of_decide_eq_true (Bool.and_eq_true_iff.1 hdigit).2
    exact Nat.lt_of_le_of_lt (UInt32.le_iff_toNat_le.1 hlast) (by decide)

def EitherCase (c w : Char) : Prop := c = w ∨ c = w.toUpper

instance (c w : Char) : Decidable (EitherCase c w) := inferInstanceAs (Decidable (_ ∨ _))

theorem EitherCase.ascii {c w : Char} (h : EitherCase c w) (hw : Plain w) : c.toNat < 128 := by
  rcases h with rfl | rfl
  · exact hw.ascii
  · exact forall_ascii (P := fun w => w.toUpper.toNat < 128) (by decide +kernel) hw.ascii

theorem EitherCase.not_blank {c w : Char} (h : EitherCase c w) (hw : Plain w) : isBlank c = false := by
  rcases h with rfl | rfl
  · exact forall_ascii (P := fun w => Plain w → isBlank w = false) (by decide +kernel) hw.ascii hw
  · exact forall_ascii (P := fun w => Plain w → isBlank w.toUpper = false) (by decide +kernel) hw.ascii hw

theorem ascii_of_eitherCase {cs word : List Char} (h : List.Forall₂ EitherCase cs word)
    (hword : ∀ w ∈ word, Plain w) : ∀ c ∈ cs, c.toNat < 128 ∧ isBlank c = false := by
  induction h with
  | nil => exact fun _ hc => absurd hc List.not_mem_nil
  | cons hcase _ ih =>
    obtain ⟨hw, hrest⟩ := List.forall_mem_cons.1 hword
    exact List.forall_mem_cons.2 ⟨⟨hcase.ascii hw, hcase.not_blank hw⟩, ih hrest⟩

theorem toLower_eq_iff {c w : Char} (hc : c.toNat < 128) (hw : Plain w) : c.toLower = w ↔ EitherCase c w := by
  constructor
  · rintro rfl
    exact forall_ascii (P := fun c => EitherCase c c.toLower) (by decide +kernel) hc
  · rintro (rfl | rfl)
    · exact forall_ascii (P := fun w => Plain w → w.toLower = w) (by decide +kernel) hw.ascii hw
    · exact forall_ascii (P := fun w => Plain w → w.toUpper.toLower = w) (by decide +kernel) hw.ascii hw

theorem lowerAfter_cons_of_ascii {c : Char} (h : c.toNat < 128) (before cs : List Char) :
    lowerAfter before (c :: cs) = c.toLower :: lowerAfter (c :: before) cs := by
  have hsigma : c ≠ 'Σ' := by
    rintro rfl
    exact absurd h (by decide)
  rw [lowerAfter, if_neg hsigma, lowerChar_of_ascii h, List.singleton_append]

theorem lowerAfter_cons_of_not_ascii {c : Char} (h : 128 ≤ c.toNat) (before cs : List Char) :
    ∃ d ds, lowerAfter before (c :: cs) = d :: ds ∧ ¬ Plain d := by
  have hplain : ∀ d : Char, 128 ≤ d.toNat → ¬ Plain d := fun d hd hp => by
    have := hp.ascii
    omega
  unfold lowerAfter
  split
  · split
    · exact ⟨'ς', _, rfl, by decide⟩
    · exact ⟨'σ', _, rfl, by decide⟩
  · rcases lowerChar_of_not_ascii h with ⟨-, hlower⟩ | ⟨-, hlower⟩ | ⟨d, hd, hlower⟩ <;> rw [hlower]
    · exact ⟨'k', _, rfl, by decide⟩
    · exact ⟨'i', _, rfl, by decide⟩
    · exact ⟨d, _, rfl, hplain d hd⟩

theorem lower_ne_empty {s : String} (h : s ≠ "") : lower s ≠ "" := by
  obtain ⟨c, cs, hs⟩ := List.exists_cons_of_ne_nil fun he => h (String.toList_eq_nil_iff.1 he)
  have hlower : ∃ d ds, lowerAfter [] (c :: cs) = d :: ds := by
    by_cases hc : c.toNat < 128
    · exact ⟨_, _, lowerAfter_cons_of_ascii hc [] cs⟩
    · obtain ⟨d, ds, hd, -⟩ := lowerAfter_cons_of_not_ascii (Nat.le_of_not_lt hc) [] cs
      exact ⟨d, ds, hd⟩
  obtain ⟨d, ds, hd⟩ := hlower
  intro hempty
  rw [← hs, ← toList_lower, hempty] at hd
  cases hd

/-- A plain word is the lower case of its spellings in either case, and of nothing else. -/
theorem lowerAfter_eq_iff {word : List Char} (hword : ∀ w ∈ word, Plain w) (before cs : List Char) :
    lowerAfter before cs = word ↔ List.Forall₂ EitherCase cs word := by
  induction cs generalizing before word with
  | nil => rw [lowerAfter, List.forall₂_nil_left_iff, eq_comm]
  | cons c cs ih =>
    by_cases hc : c.toNat < 128
    · rw [lowerAfter_cons_of_ascii hc]
      cases word with
      | nil => simp
      | cons w word =>
        obtain ⟨hw, hrest⟩ := List.forall_mem_cons.1 hword
        rw [List.cons_eq_cons, List.forall₂_cons, toLower_eq_iff hc hw, ih hrest]
    · obtain ⟨d, ds, hlower, hd⟩ := lowerAfter_cons_of_not_ascii (Nat.le_of_not_lt hc) before cs
      rw [hlower]
      constructor
      · rintro rfl
        exact absurd (hword d List.mem_cons_self) hd
      · rintro (_ | ⟨hcase, -⟩)
        exact absurd (hcase.ascii (hword _ List.mem_cons_self)) hc

end ImageMacros.Text
