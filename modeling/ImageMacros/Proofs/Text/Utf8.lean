import ImageMacros.Text.Utf8
import Mathlib.Tactic.SplitIfs

/-!
# UTF-8: what is written is read back

* `begin?_two`, `begin?_three`, `begin?_four` : the state after the first byte of a longer character;
* `run_last`, `run_more` : what the bytes behind it add;
* `run_encodeChar` : the reader finishes a character with the last of its bytes;
* `decode_encode` : a text is read back from its bytes;
* `runBlocks_of_run`, `decodeBlocks_encode` : blocks of any size end no character of a text early.
-/

namespace ImageMacros.Text.Utf8

/-! ## First bytes -/

theorem begin?_two : ∀ m < 32, 2 ≤ m →
    State.begin? (.ofNat (0xC0 + m)) = some ⟨1, 0x80, 0xBF, m, [.ofNat (0xC0 + m)]⟩ := by decide

/-- The second byte keeps out characters of two bytes and surrogates. -/
theorem begin?_three : ∀ m < 16, State.begin? (.ofNat (0xE0 + m)) =
    some ⟨2, if m = 0 then 0xA0 else 0x80, if m = 13 then 0x9F else 0xBF, m, [.ofNat (0xE0 + m)]⟩ := by decide

/-- The second byte keeps out characters of three bytes and what is past the last one. -/
theorem begin?_four : ∀ m < 5, State.begin? (.ofNat (0xF0 + m)) =
    some ⟨3, if m = 0 then 0x90 else 0x80, if m = 4 then 0x8F else 0xBF, m, [.ofNat (0xF0 + m)]⟩ := by decide

theorem run_of_begin? {n : Nat} {st : State} (hn : n < 0x100) (hlong : 0x80 ≤ n)
    (h : State.begin? (.ofNat n) = some st) (bs : List UInt8) : run .between (.ofNat n :: bs) = run st bs := by
  have hnot : ¬ UInt8.ofNat n < 0x80 := by
    rw [UInt8.lt_iff_toNat_lt, UInt8.toNat_ofNat_of_lt' hn]
    exact Nat.not_lt.2 hlong
  simp only [run, State.step, State.between, if_neg hnot, h]

/-! ## Bytes behind the first -/

variable {st : State} {k : Nat}

theorem step_continuation {owed : Nat} (howed : st.owed = owed + 1) (hk : k < 0x40)
    (hlow : st.low.toNat ≤ 0x80 + k) (hhigh : 0x80 + k ≤ st.high.toNat) :
    st.step (.ofNat (0x80 + k)) = if owed = 0 then .finished (.ofNat (st.bits * 0x40 + k))
      else .unfinished ⟨owed, 0x80, 0xBF, st.bits * 0x40 + k, st.seen ++ [.ofNat (0x80 + k)]⟩ := by
  have hbyte : (UInt8.ofNat (0x80 + k)).toNat = 0x80 + k := UInt8.toNat_ofNat_of_lt' (by unfold UInt8.size; omega)
  have hrange : st.low ≤ .ofNat (0x80 + k) ∧ .ofNat (0x80 + k) ≤ st.high := by
    rw [UInt8.le_iff_toNat_le, UInt8.le_iff_toNat_le, hbyte]
    exact ⟨hlow, hhigh⟩
  have hbits : (0x80 + k) - 0x80 = k := by omega
  simp only [State.step, howed, if_pos hrange, hbyte, hbits]

/-- The last byte of a character finishes it. -/
theorem run_last (howed : st.owed = 1) (hk : k < 0x40) (hlow : st.low.toNat ≤ 0x80 + k)
    (hhigh : 0x80 + k ≤ st.high.toNat) (bs : List UInt8) :
    run st (.ofNat (0x80 + k) :: bs) =
      (.ofNat (st.bits * 0x40 + k) :: (run .between bs).1, (run .between bs).2) := by
  simp only [run, step_continuation howed hk hlow hhigh, if_true]

/-- A byte in the middle of a character adds six bits. -/
theorem run_more {owed : Nat} (howed : st.owed = owed + 2) (hk : k < 0x40) (hlow : st.low.toNat ≤ 0x80 + k)
    (hhigh : 0x80 + k ≤ st.high.toNat) (bs : List UInt8) :
    run st (.ofNat (0x80 + k) :: bs) =
      run ⟨owed + 1, 0x80, 0xBF, st.bits * 0x40 + k, st.seen ++ [.ofNat (0x80 + k)]⟩ bs := by
  simp only [run, step_continuation howed hk hlow hhigh, if_neg (Nat.succ_ne_zero owed)]

/-! ## Characters -/

theorem toNat_valid (c : Char) : c.toNat < 0xD800 ∨ 0xDFFF < c.toNat ∧ c.toNat < 0x110000 := c.valid

theorem run_two {n : Nat} (hlow : 0x80 ≤ n) (hhigh : n < 0x800) (bs : List UInt8) :
    run .between (.ofNat (0xC0 + n / 0x40) :: .ofNat (0x80 + n % 0x40) :: bs) =
      (.ofNat n :: (run .between bs).1, (run .between bs).2) := by
  have hbits : n / 0x40 * 0x40 + n % 0x40 = n := Nat.div_add_mod' n 0x40
  have hk : n % 0x40 < 0x40 := Nat.mod_lt _ (by decide)
  rw [run_of_begin? (by omega) (by omega) (begin?_two (n / 0x40) (by omega) (by omega)),
    run_last rfl hk (by simp) (by simp; omega), hbits]

theorem run_three {n : Nat} (hlow : 0x800 ≤ n) (hhigh : n < 0x10000) (hvalid : n < 0xD800 ∨ 0xDFFF < n)
    (bs : List UInt8) :
    run .between (.ofNat (0xE0 + n / 0x1000) :: .ofNat (0x80 + n / 0x40 % 0x40) ::
      .ofNat (0x80 + n % 0x40) :: bs) = (.ofNat n :: (run .between bs).1, (run .between bs).2) := by
  have hbits : (n / 0x1000 * 0x40 + n / 0x40 % 0x40) * 0x40 + n % 0x40 = n := by omega
  have hk : n / 0x40 % 0x40 < 0x40 := Nat.mod_lt _ (by decide)
  have hk' : n % 0x40 < 0x40 := Nat.mod_lt _ (by decide)
  have hsecond : (if n / 0x1000 = 0 then 0xA0 else 0x80 : UInt8).toNat ≤ 0x80 + n / 0x40 % 0x40 := by
    split
    · simp only [UInt8.reduceToNat]; omega
    · simp
  have hsecond' : 0x80 + n / 0x40 % 0x40 ≤ (if n / 0x1000 = 13 then 0x9F else 0xBF : UInt8).toNat := by
    split <;> (simp only [UInt8.reduceToNat]; omega)
  rw [run_of_begin? (by omega) (by omega) (begin?_three (n / 0x1000) (by omega)),
    run_more rfl hk hsecond hsecond', run_last rfl hk' (by simp) (by simp; omega), hbits]

theorem run_four {n : Nat} (hlow : 0x10000 ≤ n) (hhigh : n < 0x110000) (bs : List UInt8) :
    run .between (.ofNat (0xF0 + n / 0x40000) :: .ofNat (0x80 + n / 0x1000 % 0x40) ::
      .ofNat (0x80 + n / 0x40 % 0x40) :: .ofNat (0x80 + n % 0x40) :: bs) =
      (.ofNat n :: (run .between bs).1, (run .between bs).2) := by
  have hbits : ((n / 0x40000 * 0x40 + n / 0x1000 % 0x40) * 0x40 + n / 0x40 % 0x40) * 0x40 + n % 0x40 = n := by
    omega
  have hk : n / 0x1000 % 0x40 < 0x40 := Nat.mod_lt _ (by decide)
  have hk' : n / 0x40 % 0x40 < 0x40 := Nat.mod_lt _ (by decide)
  have hk'' : n % 0x40 < 0x40 := Nat.mod_lt _ (by decide)
  have hsecond : (if n / 0x40000 = 0 then 0x90 else 0x80 : UInt8).toNat ≤ 0x80 + n / 0x1000 % 0x40 := by
    split
    · simp only [UInt8.reduceToNat]; omega
    · simp
  have hsecond' : 0x80 + n / 0x1000 % 0x40 ≤ (if n / 0x40000 = 4 then 0x8F else 0xBF : UInt8).toNat := by
    split <;> (simp only [UInt8.reduceToNat]; omega)
  rw [run_of_begin? (by omega) (by omega) (begin?_four (n / 0x40000) (by omega)),
    run_more rfl hk hsecond hsecond', run_more rfl hk' (by simp) (by simp; omega),
    run_last rfl hk'' (by simp) (by simp; omega), hbits]

theorem run_encodeChar (c : Char) (bs : List UInt8) :
    run .between (encodeChar c ++ bs) = (c :: (run .between bs).1, (run .between bs).2) := by
  have hvalid := toNat_valid c
  suffices h : run .between (encodeChar c ++ bs) = (.ofNat c.toNat :: (run .between bs).1, (run .between bs).2) by
    rwa [Char.ofNat_toNat] at h
  unfold encodeChar
  dsimp only
  split_ifs with h₁ h₂ h₃
  · have hbyte : (UInt8.ofNat c.toNat).toNat = c.toNat := UInt8.toNat_ofNat_of_lt' (by unfold UInt8.size; omega)
    have hlt : UInt8.ofNat c.toNat < 0x80 := by rwa [UInt8.lt_iff_toNat_lt, hbyte]
    simp only [List.singleton_append, run, State.step, State.between, if_pos hlt, hbyte]
  · exact run_two (by omega) h₂ bs
  · exact run_three (by omega) h₃ (by omega) bs
  · exact run_four (by omega) (by omega) bs

theorem run_encodeChars (cs : List Char) : run .between (encodeChars cs) = (cs, .state .between) := by
  induction cs with
  | nil => rfl
  | cons c cs ih => rw [encodeChars, List.flatMap_cons, run_encodeChar, ← encodeChars, ih]

/-- Every text is read back from its bytes. -/
@[simp] theorem decode_encode (s : String) : decode (encode s) = .ok s := by
  unfold decode decodeChars encode
  rw [run_encodeChars]
  simp [State.between, Except.map]

/-! ## Blocks -/

theorem run_append {st st' : State} {as bs : List UInt8} {cs : List Char}
    (h : run st (as ++ bs) = (cs, .state st')) :
    ∃ ds mid es, run st as = (ds, .state mid) ∧ run mid bs = (es, .state st') ∧ cs = ds ++ es := by
  induction as generalizing st cs with
  | nil => exact ⟨[], st, cs, rfl, h, rfl⟩
  | cons b as ih =>
    rw [List.cons_append, run] at h
    rw [run]
    cases hstep : st.step b with
    | finished c =>
      simp only [hstep, Prod.mk.injEq] at h
      obtain ⟨rfl, hstop⟩ := h
      obtain ⟨ds, mid, es, hds, hes, hcs⟩ := ih (Prod.ext rfl hstop)
      exact ⟨c :: ds, mid, es, by simp only [hds], hes, congrArg (c :: ·) hcs⟩
    | unfinished next =>
      simp only [hstep] at h
      exact ih h
    | fault bytes reason => simp [hstep] at h

/-- Bytes read between two characters are read alike block by block. -/
theorem runBlocks_of_run (size : Nat) {st : State} {bytes : List UInt8} {cs : List Char}
    (h : run st bytes = (cs, .state .between)) : runBlocks size st bytes = (cs, none) := by
  induction hlength : bytes.length using Nat.strongRecOn generalizing st bytes cs with
  | ind n ih =>
    subst hlength
    cases bytes with
    | nil =>
      obtain ⟨rfl, hst⟩ := Prod.mk.inj h
      rw [runBlocks, Stop.state.inj hst]
      rfl
    | cons b bs =>
      have hblock : b :: bs = (b :: bs.take (size - 1)) ++ bs.drop (size - 1) := by simp
      rw [hblock] at h
      obtain ⟨ds, mid, es, hds, hes, rfl⟩ := run_append h
      have hrest : runBlocks size mid (bs.drop (size - 1)) = (es, none) :=
        ih _ (by simp only [List.length_drop, List.length_cons]; omega) hes rfl
      rw [runBlocks, hds]
      simp only [hrest]

@[simp] theorem decodeBlocks_encode (size : Nat) (s : String) : decodeBlocks size (encode s) = (s.toList, none) :=
  runBlocks_of_run size (run_encodeChars s.toList)

end ImageMacros.Text.Utf8
