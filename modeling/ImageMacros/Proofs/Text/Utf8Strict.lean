import ImageMacros.Proofs.Text.Utf8
import Mathlib.Data.List.Basic

/-!
# UTF-8: only what is written is read

* `encodeChar_two`, `encodeChar_three`, `encodeChar_four` : the bytes of the character that bytes in their ranges spell;
* `State.Inside` : a state in which any bytes that may come end a character, and its bytes are the ones read
  (`inside_of_begin?`, `exact_of_step`);
* `run_exact`, `runBlocks_exact` : the bytes of what has been read are the bytes read;
* `decode_eq_ok_iff`, `decodeBlocks_eq_none_iff` : bytes are read as a text if they are its bytes, and only then.
-/

namespace ImageMacros.Text.Utf8

/-! ## Characters -/

theorem toNat_ofNat_of_valid {n : Nat} (h : n < 0xD800 ∨ 0xDFFF < n ∧ n < 0x110000) : (Char.ofNat n).toNat = n := by
  rw [Char.ofNat, dif_pos h]
  rfl

section Bytes

variable {a b c d : UInt8}

theorem ofNat_eq_of_toNat {n : Nat} (h : n = a.toNat) : UInt8.ofNat n = a := h ▸ UInt8.ofNat_toNat

theorem encodeChar_two (ha : 0xC2 ≤ a.toNat ∧ a.toNat ≤ 0xDF) (hb : 0x80 ≤ b.toNat ∧ b.toNat ≤ 0xBF) :
    encodeChar (.ofNat ((a.toNat - 0xC0) * 0x40 + (b.toNat - 0x80))) = [a, b] := by
  rw [encodeChar, toNat_ofNat_of_valid (by omega)]
  rw [if_neg (by omega), if_pos (by omega), ofNat_eq_of_toNat (a := a) (by omega),
    ofNat_eq_of_toNat (a := b) (by omega)]

theorem encodeChar_three (ha : 0xE0 ≤ a.toNat ∧ a.toNat ≤ 0xEF) (hb : 0x80 ≤ b.toNat ∧ b.toNat ≤ 0xBF)
    (hc : 0x80 ≤ c.toNat ∧ c.toNat ≤ 0xBF) (hlow : a.toNat = 0xE0 → 0xA0 ≤ b.toNat)
    (hhigh : a.toNat = 0xED → b.toNat ≤ 0x9F) :
    encodeChar (.ofNat (((a.toNat - 0xE0) * 0x40 + (b.toNat - 0x80)) * 0x40 + (c.toNat - 0x80))) = [a, b, c] := by
  rw [encodeChar, toNat_ofNat_of_valid (by omega)]
  rw [if_neg (by omega), if_neg (by omega), if_pos (by omega), ofNat_eq_of_toNat (a := a) (by omega),
    ofNat_eq_of_toNat (a := b) (by omega), ofNat_eq_of_toNat (a := c) (by omega)]

theorem encodeChar_four (ha : 0xF0 ≤ a.toNat ∧ a.toNat ≤ 0xF4) (hb : 0x80 ≤ b.toNat ∧ b.toNat ≤ 0xBF)
    (hc : 0x80 ≤ c.toNat ∧ c.toNat ≤ 0xBF) (hd : 0x80 ≤ d.toNat ∧ d.toNat ≤ 0xBF)
    (hlow : a.toNat = 0xF0 → 0x90 ≤ b.toNat) (hhigh : a.toNat = 0xF4 → b.toNat ≤ 0x8F) :
    encodeChar (.ofNat ((((a.toNat - 0xF0) * 0x40 + (b.toNat - 0x80)) * 0x40 + (c.toNat - 0x80)) * 0x40 +
      (d.toNat - 0x80))) = [a, b, c, d] := by
  rw [encodeChar, toNat_ofNat_of_valid (by omega)]
  rw [if_neg (by omega), if_neg (by omega), if_neg (by omega), ofNat_eq_of_toNat (a := a) (by omega),
    ofNat_eq_of_toNat (a := b) (by omega), ofNat_eq_of_toNat (a := c) (by omega),
    ofNat_eq_of_toNat (a := d) (by omega)]

end Bytes

/-! ## States -/

namespace State

/-- The number of the character that the bytes end. -/
def number (st : State) (ks : List UInt8) : Nat := ks.foldl (fun n k => n * 0x40 + (k.toNat - 0x80)) st.bits

/-- Bytes that may end the character, with a range of its own for the first. -/
structure Admits (st : State) (ks : List UInt8) : Prop where
  length : ks.length = st.owed
  first : ∀ k ∈ ks.head?, st.low.toNat ≤ k.toNat ∧ k.toNat ≤ st.high.toNat
  others : ∀ k ∈ ks.tail, 0x80 ≤ k.toNat ∧ k.toNat ≤ 0xBF

/-- The bytes seen and any that may end the character are the bytes of the character they give. -/
structure Inside (st : State) : Prop where
  owed : st.owed ≠ 0
  encode : ∀ ks, st.Admits ks → encodeChar (.ofNat (st.number ks)) = st.seen ++ ks

variable {a low high : UInt8}

theorem inside_two (ha : 0xC2 ≤ a.toNat ∧ a.toNat ≤ 0xDF) : Inside ⟨1, 0x80, 0xBF, a.toNat - 0xC0, [a]⟩ where
  owed := Nat.one_ne_zero
  encode := by
    intro ks h
    obtain ⟨b, rfl⟩ := List.length_eq_one_iff.1 h.length
    exact encodeChar_two ha (h.first b rfl)

theorem inside_three (ha : 0xE0 ≤ a.toNat ∧ a.toNat ≤ 0xEF) (hrange : 0x80 ≤ low.toNat ∧ high.toNat ≤ 0xBF)
    (hlow : a.toNat = 0xE0 → 0xA0 ≤ low.toNat) (hhigh : a.toNat = 0xED → high.toNat ≤ 0x9F) :
    Inside ⟨2, low, high, a.toNat - 0xE0, [a]⟩ where
  owed := Nat.succ_ne_zero 1
  encode := by
    intro ks h
    obtain ⟨b, c, rfl⟩ := List.length_eq_two.1 h.length
    have hb : low.toNat ≤ b.toNat ∧ b.toNat ≤ high.toNat := h.first b rfl
    have hc := h.others c (by simp)
    exact encodeChar_three ha ⟨by omega, by omega⟩ hc (by omega) (by omega)

theorem inside_four (ha : 0xF0 ≤ a.toNat ∧ a.toNat ≤ 0xF4) (hrange : 0x80 ≤ low.toNat ∧ high.toNat ≤ 0xBF)
    (hlow : a.toNat = 0xF0 → 0x90 ≤ low.toNat) (hhigh : a.toNat = 0xF4 → high.toNat ≤ 0x8F) :
    Inside ⟨3, low, high, a.toNat - 0xF0, [a]⟩ where
  owed := Nat.succ_ne_zero 2
  encode := by
    intro ks h
    obtain ⟨b, c, d, rfl⟩ := List.length_eq_three.1 h.length
    have hb : low.toNat ≤ b.toNat ∧ b.toNat ≤ high.toNat := h.first b rfl
    have hc := h.others c (by simp)
    have hd := h.others d (by simp)
    exact encodeChar_four ha ⟨by omega, by omega⟩ hc hd (by omega) (by omega)

theorem inside_of_begin? {b : UInt8} {st : State} (h : begin? b = some st) : st.Inside := by
  unfold begin? at h
  simp only [UInt8.le_iff_toNat_le] at h
  split_ifs at h with h₁ h₂ h₃ h₄ h₅ h₆ h₇ <;> obtain rfl := Option.some.inj h
  · exact inside_two h₁
  · subst h₂
    exact inside_three (a := 0xE0) (by decide) (by decide) (by decide) (by decide)
  · subst h₃
    exact inside_three (a := 0xED) (by decide) (by decide) (by decide) (by decide)
  · have hne : b.toNat ≠ 0xE0 ∧ b.toNat ≠ 0xED :=
      ⟨fun he => h₂ (UInt8.toNat_inj.1 he), fun he => h₃ (UInt8.toNat_inj.1 he)⟩
    exact inside_three ⟨Nat.le_of_lt h₄.1, h₄.2⟩ (by decide) (absurd · hne.1) (absurd · hne.2)
  · subst h₅
    exact inside_four (a := 0xF0) (by decide) (by decide) (by decide) (by decide)
  · have hrange : 0xF1 ≤ b.toNat ∧ b.toNat ≤ 0xF3 := h₆
    exact inside_four ⟨by omega, by omega⟩ (by decide) (by omega) (by omega)
  · subst h₇
    exact inside_four (a := 0xF4) (by decide) (by decide) (by decide) (by decide)

/-- The byte ends the character whose bytes were read, or leads further into it. -/
theorem exact_of_step {st : State} (hst : st = between ∨ st.Inside) (b : UInt8) :
    (∀ c, st.step b = .finished c → st.seen ++ [b] = encodeChar c) ∧
      ∀ next, st.step b = .unfinished next → next.Inside ∧ next.seen = st.seen ++ [b] := by
  rcases hst with rfl | hst
  · have howed : between.owed = 0 := rfl
    unfold step
    simp only [howed]
    split_ifs with hb
    · have hsmall : b.toNat < 0x80 := UInt8.lt_iff_toNat_lt.1 hb
      refine ⟨fun c hc => ?_, fun _ h => by cases h⟩
      obtain rfl := Progress.finished.inj hc
      rw [encodeChar, toNat_ofNat_of_valid (by omega), if_pos hsmall, ofNat_eq_of_toNat rfl]
      rfl
    · cases hbegin : begin? b with
      | none => exact ⟨fun _ h => (by cases h), fun _ h => by cases h⟩
      | some st =>
        refine ⟨fun _ h => (by cases h), fun next h => ?_⟩
        obtain rfl := Progress.unfinished.inj h
        refine ⟨inside_of_begin? hbegin, ?_⟩
        unfold begin? at hbegin
        split_ifs at hbegin <;> obtain rfl := Option.some.inj hbegin <;> rfl
  · obtain ⟨owed, howed⟩ := Nat.exists_eq_succ_of_ne_zero hst.owed
    unfold step
    simp only [howed]
    split_ifs with hb hlast
    · have hends : st.Admits [b] := by
        refine ⟨by rw [howed, hlast, List.length_singleton], fun k hk => ?_, fun k hk => by cases hk⟩
        obtain rfl := Option.some.inj hk
        exact ⟨UInt8.le_iff_toNat_le.1 hb.1, UInt8.le_iff_toNat_le.1 hb.2⟩
      refine ⟨fun c hc => ?_, fun _ h => by cases h⟩
      rw [← hst.encode [b] hends, ← Progress.finished.inj hc]
      rfl
    · refine ⟨fun _ h => (by cases h), fun next h => ?_⟩
      obtain rfl := Progress.unfinished.inj h
      refine ⟨⟨hlast, fun ks hks => ?_⟩, rfl⟩
      -- what ends the character from the next state ends it from this one behind the byte
      have hends : st.Admits (b :: ks) := by
        refine ⟨by rw [List.length_cons, hks.length, howed], fun k hk => ?_, fun k hk => ?_⟩
        · obtain rfl := Option.some.inj hk
          exact ⟨UInt8.le_iff_toNat_le.1 hb.1, UInt8.le_iff_toNat_le.1 hb.2⟩
        · cases ks with
          | nil => cases hk
          | cons first rest =>
            rcases List.mem_cons.1 hk with rfl | hk
            · exact hks.first k rfl
            · exact hks.others k hk
      have hnumber : number ⟨owed, 0x80, 0xBF, st.bits * 0x40 + (b.toNat - 0x80), st.seen ++ [b]⟩ ks =
          st.number (b :: ks) := by rw [number, number, List.foldl_cons]
      rw [List.append_assoc, List.singleton_append, ← hst.encode (b :: ks) hends, hnumber]
    · exact ⟨fun _ h => (by cases h), fun _ h => by cases h⟩

end State

/-! ## Runs -/

theorem run_exact {st st' : State} {bytes : List UInt8} {cs : List Char} (hst : st = .between ∨ st.Inside)
    (h : run st bytes = (cs, .state st')) :
    st.seen ++ bytes = encodeChars cs ++ st'.seen ∧ (st' = .between ∨ st'.Inside) := by
  induction bytes generalizing st cs with
  | nil =>
    obtain ⟨rfl, hstop⟩ := Prod.mk.inj h
    rw [← Stop.state.inj hstop, List.append_nil]
    exact ⟨rfl, hst⟩
  | cons b bs ih =>
    obtain ⟨hfinished, hunfinished⟩ := State.exact_of_step hst b
    rw [run] at h
    cases hstep : st.step b with
    | finished c =>
      simp only [hstep, Prod.mk.injEq] at h
      obtain ⟨rfl, hstop⟩ := h
      obtain ⟨hbytes, hst'⟩ := ih (.inl rfl) (Prod.ext rfl hstop)
      refine ⟨?_, hst'⟩
      calc st.seen ++ b :: bs = (st.seen ++ [b]) ++ bs := by simp
        _ = encodeChar c ++ bs := by rw [hfinished c hstep]
        _ = encodeChar c ++ (encodeChars (run .between bs).1 ++ st'.seen) := congrArg _ hbytes
        _ = encodeChars (c :: (run .between bs).1) ++ st'.seen := by simp [encodeChars]
    | unfinished next =>
      simp only [hstep] at h
      obtain ⟨hinside, hseen⟩ := hunfinished next hstep
      obtain ⟨hbytes, hst'⟩ := ih (.inr hinside) h
      rw [hseen, List.append_assoc, List.singleton_append] at hbytes
      exact ⟨hbytes, hst'⟩
    | fault bytes reason => simp [hstep] at h

theorem runBlocks_exact (size : Nat) {st : State} {bytes : List UInt8} {cs : List Char}
    (hst : st = .between ∨ st.Inside) (h : runBlocks size st bytes = (cs, none)) :
    st.seen ++ bytes = encodeChars cs := by
  induction hlength : bytes.length using Nat.strongRecOn generalizing st bytes cs with
  | ind n ih =>
    subst hlength
    cases bytes with
    | nil =>
      rw [runBlocks] at h
      obtain ⟨rfl, hfault⟩ := Prod.mk.inj h
      split_ifs at hfault with hseen
      rw [hseen]
      rfl
    | cons b bs =>
      have hblock : b :: bs = (b :: bs.take (size - 1)) ++ bs.drop (size - 1) := by simp
      rw [runBlocks] at h
      cases hrun : run st (b :: bs.take (size - 1)) with
      | mk ds stop =>
        cases stop with
        | fault bad reason =>
          simp only [hrun] at h
          split_ifs at h <;> cases (Prod.mk.inj h).2
        | state mid =>
          simp only [hrun, Prod.mk.injEq] at h
          obtain ⟨rfl, hfault⟩ := h
          obtain ⟨hbytes, hmid⟩ := run_exact hst hrun
          have hrest := ih _ (by simp only [List.length_drop, List.length_cons]; omega) hmid
            (Prod.ext rfl hfault) rfl
          rw [hblock, ← List.append_assoc, hbytes, List.append_assoc, hrest]
          simp [encodeChars]

/-! ## Whole texts -/

/-- Bytes are read as a text exactly if they are its bytes. -/
theorem decode_eq_ok_iff {bytes : List UInt8} {s : String} : decode bytes = .ok s ↔ encode s = bytes := by
  refine ⟨fun h => ?_, fun h => h ▸ decode_encode s⟩
  unfold decode decodeChars at h
  split at h
  · next cs st hrun =>
    obtain ⟨hbytes, -⟩ := run_exact (.inl rfl) hrun
    split_ifs at h with hseen
    · rw [← Except.ok.inj h, encode, String.toList_ofList]
      simpa [hseen, State.between] using hbytes.symm
    · cases h
  · cases h

theorem decodeBlocks_eq_none_iff {size : Nat} {bytes : List UInt8} {cs : List Char} :
    decodeBlocks size bytes = (cs, none) ↔ encodeChars cs = bytes := by
  refine ⟨fun h => (runBlocks_exact size (.inl rfl) h).symm, ?_⟩
  rintro rfl
  exact runBlocks_of_run size (run_encodeChars cs)

end ImageMacros.Text.Utf8
