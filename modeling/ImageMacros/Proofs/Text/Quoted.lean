import ImageMacros.Text.Quoted
import ImageMacros.Text.Terminal
import Mathlib.Algebra.Group.Nat.Defs

/-!
# Quoted texts

* `isPrintable_escapeChar` : a character inside quotes, with whatever it is spelled out by;
* `isPrintable_quoted` : a quoted text, which holds no escape character for that reason (`escape_not_mem_quoted`);
* `readEscaped` : a character read back from inside quotes (`readEscaped_escapeChar`);
* `quoted_inj` : different texts look different between quotes.
-/

namespace ImageMacros.Text

/-! ## What is printed -/

theorem isPrintable_hexDigit {d : Nat} (h : d < 16) : isPrintable (hexDigit d) = true := by
  have hall : ∀ d : Fin 16, isPrintable (hexDigit d) = true := by decide +kernel
  exact hall ⟨d, h⟩

theorem isPrintable_hexDigits {width n : Nat} : ∀ c ∈ hexDigits width n, isPrintable c = true := by
  induction width generalizing n with
  | zero => exact fun _ h => nomatch h
  | succ width ih =>
    refine List.forall_mem_append.2 ⟨ih, fun c hc => ?_⟩
    rw [List.mem_singleton.1 hc]
    exact isPrintable_hexDigit (Nat.mod_lt n (by decide))

theorem isPrintable_backslash : isPrintable '\\' = true := by decide +kernel

theorem isPrintable_letter {letter : Char} (hletter : isPrintable letter = true) :
    ∀ d ∈ ['\\', letter], isPrintable d = true := by
  simp [isPrintable_backslash, hletter]

theorem isPrintable_number {letter : Char} (hletter : isPrintable letter = true) (width n : Nat) :
    ∀ d ∈ '\\' :: letter :: hexDigits width n, isPrintable d = true :=
  List.forall_mem_cons.2 ⟨isPrintable_backslash, List.forall_mem_cons.2 ⟨hletter, isPrintable_hexDigits⟩⟩

theorem isPrintable_escapeChar {mark : Char} (hmark : isPrintable mark = true) (c : Char) :
    ∀ d ∈ escapeChar mark c, isPrintable d = true := by
  unfold escapeChar
  split
  · next h =>
    exact isPrintable_letter (h.elim (fun h => h ▸ hmark) fun h => h ▸ isPrintable_backslash)
  split
  · exact isPrintable_letter (by decide +kernel)
  split
  · exact isPrintable_letter (by decide +kernel)
  split
  · exact isPrintable_letter (by decide +kernel)
  split
  · next hc => simp [hc]
  split
  · exact isPrintable_number (by decide +kernel) 2 c.toNat
  split
  · exact isPrintable_number (by decide +kernel) 4 c.toNat
  · exact isPrintable_number (by decide +kernel) 8 c.toNat

/-- Quoted texts are printable, whatever is in the text. -/
theorem isPrintable_quoted (s : String) : ∀ c ∈ (quoted s).toList, isPrintable c = true := by
  have hmark : isPrintable (quoteMark s.toList) = true := by
    unfold quoteMark
    split <;> decide +kernel
  rw [quoted, String.toList_ofList]
  refine List.forall_mem_cons.2 ⟨hmark, List.forall_mem_append.2 ⟨?_, by simp [hmark]⟩⟩
  simp only [List.forall_mem_flatMap]
  exact fun c _ => isPrintable_escapeChar hmark c

theorem escape_not_mem_quoted (s : String) : '\x1b' ∉ (quoted s).toList := fun h =>
  absurd (isPrintable_quoted s _ h) (by decide +kernel)

/-! ## Reading back -/

theorem length_hexDigits (width n : Nat) : (hexDigits width n).length = width := by
  induction width generalizing n with
  | zero => rfl
  | succ width ih => simp [hexDigits, ih]

def hexValue (c : Char) : Nat := if c.toNat < 0x3A then c.toNat - 0x30 else c.toNat - 0x57

def readHex (cs : List Char) : Nat := cs.foldl (fun n c => n * 16 + hexValue c) 0

theorem hexValue_hexDigit {d : Nat} (h : d < 16) : hexValue (hexDigit d) = d := by
  have hall : ∀ d : Fin 16, hexValue (hexDigit d) = d := by decide
  exact hall ⟨d, h⟩

theorem readHex_append (cs : List Char) (c : Char) : readHex (cs ++ [c]) = readHex cs * 16 + hexValue c := by
  simp [readHex, List.foldl_append]

theorem readHex_hexDigits (width n : Nat) : readHex (hexDigits width n) = n % 16 ^ width := by
  induction width generalizing n with
  | zero => rw [hexDigits, Nat.pow_zero, Nat.mod_one]; rfl
  | succ width ih =>
    rw [hexDigits, readHex_append, ih, hexValue_hexDigit (Nat.mod_lt n (by decide)), Nat.pow_succ', Nat.mod_mul]
    omega

/-- The first character between quotes, however it is spelled, and the rest. -/
def readEscaped : List Char → Option (Char × List Char)
  | [] => none
  | '\\' :: 'n' :: rest => some ('\n', rest)
  | '\\' :: 'r' :: rest => some ('\r', rest)
  | '\\' :: 't' :: rest => some ('\t', rest)
  | '\\' :: 'x' :: rest => some (.ofNat (readHex (rest.take 2)), rest.drop 2)
  | '\\' :: 'u' :: rest => some (.ofNat (readHex (rest.take 4)), rest.drop 4)
  | '\\' :: 'U' :: rest => some (.ofNat (readHex (rest.take 8)), rest.drop 8)
  | '\\' :: c :: rest => some (c, rest)
  | c :: rest => some (c, rest)

theorem readEscaped_of_ne {c : Char} (h : c ≠ '\\') (rest : List Char) : readEscaped (c :: rest) = some (c, rest) := by
  unfold readEscaped
  split <;> simp_all

theorem ofNat_readHex {c : Char} (width : Nat) (h : c.toNat < 16 ^ width) (rest : List Char) :
    Char.ofNat (readHex ((hexDigits width c.toNat ++ rest).take width)) = c ∧
      (hexDigits width c.toNat ++ rest).drop width = rest := by
  have hlength := length_hexDigits width c.toNat
  rw [List.take_left' hlength, List.drop_left' hlength, readHex_hexDigits, Nat.mod_eq_of_lt h]
  exact ⟨Char.ofNat_toNat c, rfl⟩

theorem quoteMark_cases (cs : List Char) : quoteMark cs = '\'' ∨ quoteMark cs = '"' := by
  unfold quoteMark
  split
  · exact .inr rfl
  · exact .inl rfl

/-- A character is read back from whatever it is spelled out by. -/
theorem readEscaped_escapeChar {mark : Char} (hmark : mark = '\'' ∨ mark = '"') (c : Char) (rest : List Char) :
    readEscaped (escapeChar mark c ++ rest) = some (c, rest) := by
  have hc : c.toNat < 0x110000 := by
    have := c.valid
    simp only [UInt32.isValidChar, Nat.isValidChar] at this
    simp only [Char.toNat]
    omega
  unfold escapeChar
  split
  · next h =>
    rcases hmark with rfl | rfl <;> rcases h with rfl | rfl <;> rfl
  next hplain =>
  split
  · next h => rw [h]; rfl
  split
  · next h => rw [h]; rfl
  split
  · next h => rw [h]; rfl
  split
  · exact readEscaped_of_ne (fun h => hplain (.inr h)) rest
  split
  · next h =>
    obtain ⟨hread, hrest⟩ := ofNat_readHex 2 h rest
    simp only [List.cons_append, readEscaped, hread, hrest]
  split
  · next h =>
    obtain ⟨hread, hrest⟩ := ofNat_readHex 4 h rest
    simp only [List.cons_append, readEscaped, hread, hrest]
  · obtain ⟨hread, hrest⟩ := @ofNat_readHex c 8 (by omega) rest
    simp only [List.cons_append, readEscaped, hread, hrest]

theorem flatMap_escapeChar_inj {mark : Char} (hmark : mark = '\'' ∨ mark = '"') {cs ds : List Char}
    (h : cs.flatMap (escapeChar mark) = ds.flatMap (escapeChar mark)) : cs = ds := by
  -- no character is spelled like the start of another, so the first ones can be read off both sides
  have hcons : ∀ c (cs : List Char), readEscaped ((c :: cs).flatMap (escapeChar mark)) =
      some (c, cs.flatMap (escapeChar mark)) := fun c cs => by
    rw [List.flatMap_cons, readEscaped_escapeChar hmark]
  induction cs generalizing ds with
  | nil =>
    cases ds with
    | nil => rfl
    | cons d ds => exact absurd ((congrArg readEscaped h).trans (hcons d ds)) (by simp [readEscaped])
  | cons c cs ih =>
    have hread := (hcons c cs).symm.trans (congrArg readEscaped h)
    cases ds with
    | nil => exact absurd hread (by simp [readEscaped])
    | cons d ds =>
      rw [hcons] at hread
      obtain ⟨rfl, hrest⟩ := Prod.mk.inj (Option.some.inj hread)
      rw [ih hrest]

theorem quoted_inj {s t : String} : quoted s = quoted t ↔ s = t := by
  refine ⟨fun h => ?_, congrArg quoted⟩
  have hchars : quotedChars s.toList = quotedChars t.toList := String.ofList_injective h
  unfold quotedChars at hchars
  obtain ⟨hmark, hrest⟩ := List.cons.inj hchars
  rw [hmark] at hrest
  exact String.toList_inj.1 (flatMap_escapeChar_inj (quoteMark_cases t.toList) (List.append_cancel_right hrest))

end ImageMacros.Text
