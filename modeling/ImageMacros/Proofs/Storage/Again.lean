import ImageMacros.Proofs.Storage.Holds

/-!
# Changes that are made again

* `makeDirectories_of_missing` : where something above a directory is missing, it is made from its parent on;
* `isDirectory_makeDirectories`, `refused_makeDirectories` : how making directories ends, with the directory there
  or with one that is refused;
* `makeDirectories_again` : directories that cannot all be made cannot be made in what is left either;
* `Outcome.report` : what an outcome tells, without the cause of a failure; `Outcome.Echoes` : outcomes that tell the
  same;
* `writeLines_again` : a write that is made again tells the same and changes nothing more.
-/

namespace ImageMacros

namespace Storage

variable {s t : Storage} {p q : Path}

/-! ## One directory -/

theorem isDirectory_take (h : s.isDirectory q = true) (n : Nat) : s.isDirectory (q.take n) = true := by
  obtain ⟨hlong, hpass, hdir⟩ := isDirectory_iff.1 h
  have hnames : (q.take n).names ++ q.names.drop n = q.names := List.take_append_drop n q.names
  refine isDirectory_iff.2 ⟨pathTooLong_take hlong n, ?_⟩
  rw [← hnames, passable_append] at hpass
  refine ⟨hpass.1, ?_⟩
  by_cases hrest : q.names.drop n = []
  · rw [hrest, List.append_nil] at hnames
    rwa [place, hnames]
  · obtain ⟨name, rest, hcons⟩ := List.exists_cons_of_ne_nil hrest
    rw [hcons] at hpass
    exact hpass.2.1

theorem isDirectory_of_makeDirectory (h : s.makeDirectory q = .ok t) : t.isDirectory q = true := by
  have hgrows := makeDirectory_grows h
  obtain ⟨l, hslot, hnone, rfl⟩ := makeDirectory_eq_ok_iff.1 h
  obtain ⟨hlong, hpass, -, rfl⟩ := slot_eq_some_iff.1 hslot
  have hne : s.place q ≠ [] := fun he => by simp [he] at hnone
  refine isDirectory_iff.2 ⟨hlong, hpass.mono fun l => hgrows.get, ?_⟩
  rw [place_congr hgrows.home, node?_put, if_pos ⟨rfl, hne⟩]

theorem makeDirectory_ne_missing (h : s.isDirectory q.parent = true) : s.makeDirectory q ≠ .error .missing := by
  obtain ⟨-, hpass, hdir⟩ := isDirectory_iff.1 h
  have hwalk : s.walk (s.start q.anchor) q.names.dropLast = .ok (s.place q.parent, .directory) :=
    walk_eq_ok_iff.2 ⟨hpass, rfl, hdir⟩
  unfold makeDirectory slot
  rw [hwalk]
  cases q.names.getLast? with
  | none => split_ifs <;> simp
  | some name =>
    dsimp only
    split_ifs
    · simp
    · simp
    · simp
    · dsimp only
      split <;> simp

theorem names_ne_nil_of_missing (h : s.makeDirectory q = .error .missing) : q.names ≠ [] := by
  intro hq
  unfold makeDirectory slot at h
  rw [hq] at h
  split_ifs at h <;> cases h

/-! ## All that is missing -/

theorem makeDirectories_of_ok (h : s.makeDirectory q = .ok t) : s.makeDirectories q = (.ok (), t) := by
  obtain ⟨above, habove⟩ := q.exists_ancestry
  unfold makeDirectories makeFirst
  rw [habove]
  dsimp only
  rw [h]

theorem isDirectory_makeDirectories (h : s.makeDirectories q = (.ok (), t)) : t.isDirectory q = true := by
  have hunless {u : Storage} {o : Obstacle} (hu : (u.unlessDirectory q o, u) = (.ok (), t)) :
      t.isDirectory q = true := by
    obtain ⟨hresult, rfl⟩ := Prod.mk.inj hu
    unfold unlessDirectory at hresult
    split at hresult
    · next hdir => exact hdir
    · cases hresult
  obtain ⟨above, habove⟩ := q.exists_ancestry
  unfold makeDirectories makeFirst at h
  rw [habove] at h
  dsimp only at h
  split at h
  · next made hmade =>
    cases h
    exact isDirectory_of_makeDirectory hmade
  · split at h
    · cases h
    · split at h
      · cases h
      · next made _ =>
        split at h
        · next done hdone =>
          cases h
          exact isDirectory_of_makeDirectory hdone
        · cases h
        · exact hunless h
  · exact hunless h

/-- Where something above is missing, it is made first. -/
theorem makeDirectories_of_missing (h : s.makeDirectory q = .error .missing) :
    s.makeDirectories q =
      match s.makeDirectories q.parent with
      | (.error r, made) => (.error r, made)
      | (.ok (), made) => made.makeDirectories q := by
  obtain ⟨above, habove⟩ := q.parent.exists_ancestry
  have hparent : s.makeDirectories q.parent = s.makeFirst (q.parent :: above) := by rw [makeDirectories, habove]
  have hq : s.makeDirectories q = s.makeFirst (q :: q.parent :: above) := by
    rw [makeDirectories, Path.ancestry_cons (names_ne_nil_of_missing h), habove]
  rw [hq]
  unfold makeFirst
  rw [h, hparent]
  dsimp only
  cases hfirst : s.makeFirst (q.parent :: above) with
  | mk result made =>
    cases result with
    | error r => rfl
    | ok =>
      dsimp only
      have hdir : made.isDirectory q.parent = true := isDirectory_makeDirectories (hparent.trans hfirst)
      cases hagain : made.makeDirectory q with
      | ok done => rw [makeDirectories_of_ok hagain]
      | error o =>
        by_cases ho : o = .missing
        · subst ho
          exact absurd hagain (makeDirectory_ne_missing hdir)
        · rw [makeDirectories_of_error ho hagain]
          cases o <;> first | rfl | exact absurd rfl ho

/-- Making directories fails at one that is not there and whose parent is. -/
theorem refused_makeDirectories {r : Refusal} (h : s.makeDirectories q = (.error r, t)) :
    ∃ n ≤ q.names.length, r.obstacle ≠ .missing ∧ r.path = (q.take n).text ∧
      t.makeDirectory (q.take n) = .error r.obstacle ∧ t.isDirectory (q.take n) = false := by
  induction q using Path.parent_induction with | step q ih
  have hself {u : Storage} {o : Obstacle} (ho : o ≠ .missing) (hu : u.makeDirectory q = .error o)
      (hmade : u.makeDirectories q = (.error r, t)) :
      ∃ n ≤ q.names.length, r.obstacle ≠ .missing ∧ r.path = (q.take n).text ∧
        t.makeDirectory (q.take n) = .error r.obstacle ∧ t.isDirectory (q.take n) = false := by
    rw [makeDirectories_of_error ho hu, unlessDirectory] at hmade
    split at hmade
    · cases hmade
    · next hdir =>
      cases hmade
      refine ⟨q.names.length, Nat.le_refl _, ho, ?_⟩
      rw [Path.take_length]
      exact ⟨rfl, hu, by simpa using hdir⟩
  cases hmade : s.makeDirectory q with
  | ok made => simp [makeDirectories_of_ok hmade] at h
  | error o =>
    by_cases ho : o = .missing
    · subst ho
      have hlength := q.length_parent
      rw [makeDirectories_of_missing hmade] at h
      split at h
      · next r' made hparent =>
        cases h
        obtain ⟨n, hn, hrefused⟩ := ih (names_ne_nil_of_missing hmade) hparent
        rw [q.take_parent hn] at hrefused
        exact ⟨n, by omega, hrefused⟩
      · next made hparent =>
        have hdir := isDirectory_makeDirectories hparent
        cases hagain : made.makeDirectory q with
        | ok done => simp [makeDirectories_of_ok hagain] at h
        | error o => exact hself (fun he => makeDirectory_ne_missing hdir (he ▸ hagain)) hagain h
    · exact hself ho hmade h

theorem makeDirectories_of_parent {r : Refusal} (h : t.makeDirectories q.parent = (.error r, t)) :
    ∃ r', t.makeDirectories q = (.error r', t) := by
  have hparent : t.isDirectory q.parent ≠ true := fun hdir => by simp [makeDirectories_of_isDirectory hdir] at h
  have hdir : ¬ t.isDirectory q = true := fun hdir => hparent (q.parent_eq_take ▸ isDirectory_take hdir _)
  cases hmade : t.makeDirectory q with
  | ok made =>
    obtain ⟨l, hslot, -, -⟩ := makeDirectory_eq_ok_iff.1 hmade
    obtain ⟨-, -, -, rfl⟩ := slot_eq_some_iff.1 hslot
    exact absurd (isDirectory_parent hslot) hparent
  | error o =>
    by_cases ho : o = .missing
    · subst ho
      rw [makeDirectories_of_missing hmade, h]
      exact ⟨r, rfl⟩
    · rw [makeDirectories_of_error ho hmade, unlessDirectory, if_neg hdir]
      exact ⟨_, rfl⟩

/-- Directories that could not all be made cannot be made in what is left. -/
theorem makeDirectories_again {r : Refusal} (h : s.makeDirectories q = (.error r, t)) :
    ∃ r', t.makeDirectories q = (.error r', t) := by
  obtain ⟨n, hn, ho, -, hrefused, hdir⟩ := refused_makeDirectories h
  -- from the directory that is refused on, down to the last one
  have hdown (m : Nat) (hm : n ≤ m) (hle : m ≤ q.names.length) :
      ∃ r', t.makeDirectories (q.take m) = (.error r', t) := by
    induction hm with
    | refl =>
      rw [makeDirectories_of_error ho hrefused, unlessDirectory, if_neg (by simp [hdir])]
      exact ⟨_, rfl⟩
    | step hm ih =>
      obtain ⟨r', hr'⟩ := ih (by omega)
      rw [← Path.parent_take hle] at hr'
      exact makeDirectories_of_parent hr'
  simpa only [Path.take_length] using hdown q.names.length hn (Nat.le_refl _)

end Storage

/-! ## Files -/

/-- The path of a file that could not be written, and the message. -/
def Failure.report : Failure → Option Path × String
  | .unwritable u => (some u.path, u.message)
  | f => (none, f.message)

namespace Outcome

variable {α : Type} {o q : Outcome α}

/-- What an outcome tells whoever asked for it. -/
def report (o : Outcome α) : Except (Option Path × String) α := o.result.mapError Failure.report

/-- A file that could not be written, with its path and message. -/
def Refuses (o : Outcome α) (p : Path) (message : String) : Prop :=
  ∃ u, o.result = .error (.unwritable u) ∧ u.path = p ∧ u.message = message

/-- The same value in both or in neither, and the same file that cannot be written. -/
structure Echoes (o q : Outcome α) : Prop where
  value : ∀ a, o.result = .ok a ↔ q.result = .ok a
  refusal : ∀ p message, o.Refuses p message ↔ q.Refuses p message

theorem report_eq_ok_iff {a : α} : o.report = .ok a ↔ o.result = .ok a := by
  unfold report
  cases o.result <;> simp [Except.mapError]

theorem report_eq_error_iff {p : Path} {message : String} :
    o.report = .error (some p, message) ↔ o.Refuses p message := by
  unfold report Refuses
  cases o.result with
  | ok a => simp [Except.mapError]
  | error f => cases f <;> simp [Except.mapError, Failure.report]

theorem echoes_of_report (h : o.report = q.report) : o.Echoes q := by
  refine ⟨fun a => ?_, fun p message => ?_⟩
  · rw [← report_eq_ok_iff, h, report_eq_ok_iff]
  · rw [← report_eq_error_iff, h, report_eq_error_iff]

end Outcome

namespace Storage

variable {s t : Storage} {p : Path} {lines : List String}

theorem writeLines_of_refused {r : Refusal} (hnull : p.parent.hasNull = false)
    (h : s.makeDirectories p.parent = (.error r, t)) :
    s.writeLines p lines = Unwritable.outcome ⟨.directory, p.parent, r⟩ t := by
  unfold writeLines
  rw [hnull, if_neg (by simp), h]

theorem writeLines_of_made (hnull : p.parent.hasNull = false) (h : s.makeDirectories p.parent = (.ok (), t)) :
    s.writeLines p lines = t.writeText p (Text.unlines lines) := by
  unfold writeLines
  rw [hnull, if_neg (by simp), h]

theorem storage_writeText_of_error {text : String} {f : Failure} (h : (s.writeText p text).result = .error f) :
    (s.writeText p text).storage = s := by
  unfold writeText at h ⊢
  split_ifs at h ⊢
  · rfl
  · cases hwrite : s.writeFile p (Text.Utf8.encode text) with
    | ok written => simp [hwrite] at h
    | error o => rfl

/-- A write that is made again tells the same and changes nothing more. -/
theorem writeLines_again (s : Storage) (p : Path) (lines : List String) :
    let written := s.writeLines p lines
    (written.storage.writeLines p lines).storage = written.storage ∧
      (written.storage.writeLines p lines).report = written.report := by
  intro written
  cases hresult : written.result with
  | ok =>
    rw [(holds_writeLines hresult).writeLines]
    exact ⟨rfl, by simp [Outcome.report, hresult]⟩
  | error f =>
    cases hnull : p.parent.hasNull with
    | true =>
      have hfails (u : Storage) : u.writeLines p lines = ⟨.error .nullInPath, u, []⟩ := by
        unfold writeLines
        rw [if_pos hnull]
      rw [show written = ⟨.error .nullInPath, s, []⟩ from hfails s, hfails]
      exact ⟨rfl, rfl⟩
    | false =>
      cases hmade : s.makeDirectories p.parent with
      | mk result made =>
        cases result with
        | error r =>
          obtain ⟨r', hagain⟩ := makeDirectories_again hmade
          have hwritten : written = Unwritable.outcome ⟨.directory, p.parent, r⟩ made :=
            writeLines_of_refused hnull hmade
          have hstorage : written.storage = made := by rw [hwritten]; rfl
          rw [hstorage, writeLines_of_refused hnull hagain, hwritten]
          exact ⟨rfl, rfl⟩
        | ok =>
          have hagain := makeDirectories_of_isDirectory (isDirectory_makeDirectories hmade)
          simp only [written, writeLines_of_made hnull hmade] at hresult ⊢
          rw [storage_writeText_of_error hresult, writeLines_of_made hnull hagain]
          exact ⟨storage_writeText_of_error hresult, rfl⟩

end Storage
end ImageMacros
