import ImageMacros.Proofs.Path.Ancestry
import ImageMacros.Proofs.Storage.Walk
import ImageMacros.Storage.Lines

/-!
# What a write adds to a storage

* `Grows s t W` : directories are added at missing places in `W`, all else stays (`Grows.trans`);
* `makeFirst_induction` : what each new directory keeps, making directories keeps;
* `Above` : the places that a write to a path may fill with directories;
* `makeDirectories_grows` : making directories only adds some on the way;
* `writeLines_cases` : a write adds directories above its path and then either puts the file in its
  place, or fails and changes nothing more (`failure_writeLines` : what it fails with).
-/

namespace ImageMacros.Storage

/-! ## Growth -/

/-- Directories are added at missing places in `W`, and nothing else. -/
structure Grows (s t : Storage) (W : Location → Prop) : Prop where
  home : t.home = s.home
  node : ∀ l, t.node? l = s.node? l ∨ s.node? l = none ∧ t.node? l = some .directory ∧ W l

theorem Grows.refl (s : Storage) (W : Location → Prop) : Grows s s W := ⟨rfl, fun _ => .inl rfl⟩

theorem Grows.trans {s t u : Storage} {W : Location → Prop} (h₁ : Grows s t W) (h₂ : Grows t u W) :
    Grows s u W := by
  refine ⟨h₂.home.trans h₁.home, fun l => ?_⟩
  rcases h₁.node l with h | ⟨hs, ht, hW⟩
  · rw [← h]; exact h₂.node l
  · rcases h₂.node l with h' | ⟨h', -, -⟩
    · exact .inr ⟨hs, h'.trans ht, hW⟩
    · simp [ht] at h'

theorem Grows.mono {s t : Storage} {W W' : Location → Prop} (h : Grows s t W) (hW : ∀ l, W l → W' l) :
    Grows s t W' := ⟨h.home, fun l => (h.node l).imp_right fun ⟨hs, ht, hl⟩ => ⟨hs, ht, hW l hl⟩⟩

theorem Grows.get {s t : Storage} {W : Location → Prop} (h : Grows s t W) {l : Location} {n : Node}
    (hl : s.node? l = some n) : t.node? l = some n := by
  rcases h.node l with h | ⟨hs, -, -⟩
  · rw [h, hl]
  · simp [hl] at hs

theorem Grows.put {s : Storage} {l : Location} (h : s.node? l = none) :
    Grows s (s.put l .directory) (· = l) := by
  refine ⟨rfl, fun m => ?_⟩
  rw [node?_put]
  split
  · next hm => exact .inr ⟨hm.1 ▸ h, rfl, hm.1⟩
  · exact .inl rfl

/-! ## Directories -/

theorem makeDirectory_eq_ok_iff {s t : Storage} {p : Path} :
    s.makeDirectory p = .ok t ↔ ∃ l, s.slot p = .ok (some l) ∧ s.node? l = none ∧ t = s.put l .directory := by
  unfold makeDirectory
  cases h : s.slot p with
  | error o => simp
  | ok slot =>
    cases slot with
    | none => simp
    | some l => cases hl : s.node? l <;> simp [hl, eq_comm]

/-- What each new directory keeps, making directories keeps. -/
theorem makeFirst_induction {motive : Storage → Prop} {s : Storage} {ps : List Path} (h : motive s)
    (step : ∀ p ∈ ps, ∀ u t, motive u → u.makeDirectory p = .ok t → motive t) : motive (s.makeFirst ps).2 := by
  induction ps with
  | nil => exact h
  | cons p above ih =>
    have hp := step p List.mem_cons_self
    unfold makeFirst
    cases hmade : s.makeDirectory p with
    | ok made => exact hp s made h hmade
    | error o =>
      cases o with
      | missing =>
        cases above with
        | nil => exact h
        | cons q rest =>
          have hup := ih fun r hr => step r (List.mem_cons_of_mem p hr)
          dsimp only
          split
          · next r made hfirst => rwa [hfirst] at hup
          · next made hfirst =>
            rw [hfirst] at hup
            cases hagain : made.makeDirectory p with
            | ok done => exact hp made done hup hagain
            | error o => cases o <;> exact hup
      | _ => exact h

/-- The places of paths whose names are not too long. -/
def PlaceOf (s : Storage) (ps : List Path) (l : Location) : Prop :=
  ∃ p ∈ ps, p.names ≠ [] ∧ (∀ name ∈ p.names, tooLong name = false) ∧ l = s.place p

theorem makeDirectory_grows {s t : Storage} {p : Path} (h : s.makeDirectory p = .ok t) :
    Grows s t (s.PlaceOf [p]) := by
  obtain ⟨l, hslot, hnone, rfl⟩ := makeDirectory_eq_ok_iff.1 h
  obtain ⟨-, hpass, ⟨name, hlast, -⟩, rfl⟩ := slot_eq_some_iff.1 hslot
  have hne : p.names ≠ [] := fun he => by simp [he] at hlast
  refine (Grows.put hnone).mono fun m hm => ⟨p, List.mem_singleton_self p, hne, hpass.short, hm⟩

theorem PlaceOf.congr {s t : Storage} (h : t.home = s.home) {ps : List Path} {l : Location}
    (hl : t.PlaceOf ps l) : s.PlaceOf ps l := by
  obtain ⟨p, hp, hne, hshort, rfl⟩ := hl
  exact ⟨p, hp, hne, hshort, place_congr h p⟩

theorem PlaceOf.mono {s : Storage} {ps qs : List Path} {l : Location} (hps : ps ⊆ qs) (hl : s.PlaceOf ps l) :
    s.PlaceOf qs l := by
  obtain ⟨p, hp, hplace⟩ := hl
  exact ⟨p, hps hp, hplace⟩

theorem makeFirst_grows (s : Storage) (ps : List Path) : Grows s (s.makeFirst ps).2 (s.PlaceOf ps) := by
  refine makeFirst_induction (motive := fun u => Grows s u (s.PlaceOf ps)) (.refl s _) fun p hp u t hu hmade => ?_
  have hps : [p] ⊆ ps := by simpa using hp
  exact hu.trans ((makeDirectory_grows hmade).mono fun l hl => (hl.congr hu.home).mono hps)

/-- The directories that a write may make, down to the first name that is too long. -/
def Above (s : Storage) (p : Path) (l : Location) : Prop :=
  p.parent.hasNull = false ∧ pathTooLong p.parent.text = false ∧
    ∃ names, names ≠ [] ∧ names <+: p.parent.names ∧ (∀ name ∈ names, tooLong name = false) ∧
      l = follow (s.start p.anchor) names

/-- Without double dots, these places are in front of the place of the path. -/
theorem Above.ancestor {s : Storage} {p : Path} {l : Location} (h : s.Above p l) (hplain : ".." ∉ p.names) :
    l <+: s.place p ∧ l ≠ s.place p := by
  obtain ⟨-, -, names, hne, hfirst, -, rfl⟩ := h
  have hnames : names <+: p.names := hfirst.trans (List.dropLast_prefix _)
  have hlength : names.length < p.names.length := by
    have hle : names.length ≤ p.names.length - 1 := by simpa [Path.parent] using hfirst.length_le
    have hpos := List.length_pos_iff.2 hne
    omega
  rw [place_of_plain hplain, follow_of_plain (fun n hn => p.proper n (hnames.subset hn))
    fun hn => hplain (hnames.subset hn)]
  refine ⟨(List.prefix_append_right_inj _).2 hnames, fun he => ?_⟩
  rw [List.append_cancel_left he] at hlength
  omega

/-- Unless something above is missing, only the directory itself is tried. -/
theorem makeDirectories_of_error {s : Storage} {p : Path} {o : Obstacle} (ho : o ≠ .missing)
    (h : s.makeDirectory p = .error o) : s.makeDirectories p = (s.unlessDirectory p o, s) := by
  obtain ⟨above, habove⟩ := p.exists_ancestry
  unfold makeDirectories makeFirst
  rw [habove]
  dsimp only
  rw [h]
  cases o <;> first | rfl | exact absurd rfl ho

theorem makeDirectories_of_tooLong {s : Storage} {p : Path} (h : pathTooLong p.text = true) :
    (s.makeDirectories p).2 = s := by
  have hslot : s.slot p = .error .nameTooLong := by simp [slot, h]
  rw [makeDirectories_of_error (o := .nameTooLong) (by simp) (by simp [makeDirectory, hslot])]

theorem makeDirectories_grows (s : Storage) (p : Path) (hnull : p.parent.hasNull = false) :
    Grows s (s.makeDirectories p.parent).2 (s.Above p) := by
  by_cases hlong : pathTooLong p.parent.text = true
  · rw [makeDirectories_of_tooLong hlong]
    exact .refl s _
  · refine (makeFirst_grows s p.parent.ancestry).mono ?_
    rintro l ⟨q, hq, hne, hshort, rfl⟩
    obtain ⟨n, -, rfl⟩ := Path.mem_ancestry.1 hq
    exact ⟨hnull, by simpa using hlong, (p.parent.take n).names, hne, List.take_prefix _ _, hshort, rfl⟩

/-! ## Files -/

theorem writeFile_eq_ok_iff {s t : Storage} {p : Path} {content : List UInt8} :
    s.writeFile p content = .ok t ↔ s.slot p = .ok (some (s.place p)) ∧
      s.node? (s.place p) ≠ some .directory ∧ t = s.put (s.place p) (.file content) := by
  unfold writeFile
  cases h : s.slot p with
  | error o => simp
  | ok slot =>
    cases slot with
    | none => simp
    | some l =>
      obtain ⟨-, -, -, rfl⟩ := slot_eq_some_iff.1 h
      dsimp only
      split
      · next hl => simp [hl]
      · next hl => exact ⟨fun ht => ⟨rfl, hl, (Except.ok.inj ht).symm⟩, fun ⟨_, _, ht⟩ => by rw [ht]⟩

def fileOf (lines : List String) : Node := .file (Text.Utf8.encode (Text.unlines lines))

/-- A write makes directories above its path, and then puts the file or fails. -/
theorem writeLines_cases (s : Storage) (p : Path) (lines : List String) :
    ∃ made, Grows s made (s.Above p) ∧
      ((s.writeLines p lines).result = .ok () ∧ p.hasNull = false ∧ made.slot p = .ok (some (s.place p)) ∧
          made.node? (s.place p) ≠ some .directory ∧
          (s.writeLines p lines).storage = made.put (s.place p) (fileOf lines) ∨
        (∃ f, (s.writeLines p lines).result = .error f) ∧ (s.writeLines p lines).storage = made) := by
  unfold writeLines
  cases hnull : p.parent.hasNull with
  | true => exact ⟨s, .refl s _, .inr ⟨⟨_, rfl⟩, rfl⟩⟩
  | false =>
    have hgrows := makeDirectories_grows s p hnull
    rw [if_neg (by simp)]
    split
    · next r made hmade => exact ⟨made, by rwa [hmade] at hgrows, .inr ⟨⟨_, rfl⟩, rfl⟩⟩
    · next made hmade =>
      rw [hmade] at hgrows
      refine ⟨made, hgrows, ?_⟩
      unfold writeText
      cases hname : p.hasNull with
      | true => exact .inr ⟨⟨_, rfl⟩, rfl⟩
      | false =>
        rw [if_neg (by simp)]
        cases hwrite : made.writeFile p (Text.Utf8.encode (Text.unlines lines)) with
        | error o => exact .inr ⟨⟨_, rfl⟩, rfl⟩
        | ok written =>
          obtain ⟨hslot, hdir, rfl⟩ := writeFile_eq_ok_iff.1 hwrite
          rw [place_congr hgrows.home] at hslot hdir ⊢
          exact .inl ⟨rfl, rfl, hslot, hdir, rfl⟩

/-- A write that fails is refused by the storage, unless its path has a null character. -/
theorem failure_writeLines {s : Storage} {p : Path} {ls : List String} {f : Failure}
    (h : (s.writeLines p ls).result = .error f) : (∃ u, f = .unwritable u) ∨ f = .nullInPath ∧ p.hasNull = true := by
  unfold writeLines at h
  split at h
  · next hnull =>
    refine .inr ⟨(Except.error.inj h).symm, ?_⟩
    by_contra hp
    simp [Path.hasNull_parent (Bool.eq_false_iff.2 hp)] at hnull
  · split at h
    · exact .inl ⟨_, (Except.error.inj h).symm⟩
    · unfold writeText at h
      split at h
      · next hnull => exact .inr ⟨(Except.error.inj h).symm, hnull⟩
      · split at h
        · cases h
        · exact .inl ⟨_, (Except.error.inj h).symm⟩

end ImageMacros.Storage
