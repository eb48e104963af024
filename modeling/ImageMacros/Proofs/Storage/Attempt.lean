import ImageMacros.Proofs.Storage.Growth

/-!
# Writes one after the other

* `Write`, `Attempt` : a file to be written; a write that was tried, and whether it succeeded;
* `writeAll`, `attempts` : writes up to the first that fails: the storage afterwards, what was tried;
* `lastDone` : the last write that succeeded at a place;
* `Follows s t as` : `t` is what the attempts `as` leave of `s` (`Follows.trans`, `follows_writeAll`).
-/

namespace ImageMacros

structure Write where
  path : Path
  lines : List String
deriving DecidableEq

structure Attempt extends Write where
  done : Bool
deriving DecidableEq

namespace Storage

/-! ## Runs of writes -/

/-- The storage after the writes up to the first that fails. -/
def writeAll (s : Storage) : List Write → Storage
  | [] => s
  | w :: rest =>
    match (s.writeLines w.path w.lines).result with
    | .ok () => (s.writeLines w.path w.lines).storage.writeAll rest
    | .error _ => (s.writeLines w.path w.lines).storage

/-- What is tried of these writes. -/
def attempts (s : Storage) : List Write → List Attempt
  | [] => []
  | w :: rest =>
    match (s.writeLines w.path w.lines).result with
    | .ok () => ⟨w, true⟩ :: (s.writeLines w.path w.lines).storage.attempts rest
    | .error _ => [⟨w, false⟩]

theorem mem_of_mem_attempts {s : Storage} {ws : List Write} {a : Attempt} (h : a ∈ s.attempts ws) :
    a.toWrite ∈ ws := by
  induction ws generalizing s with
  | nil => cases h
  | cons w rest ih =>
    unfold attempts at h
    split at h
    · rcases List.mem_cons.1 h with rfl | h
      · exact List.mem_cons_self
      · exact List.mem_cons_of_mem w (ih h)
    · obtain rfl := List.mem_singleton.1 h
      exact List.mem_cons_self

/-- Only the last attempt can have failed. -/
theorem done_of_mem_dropLast_attempts {s : Storage} {ws : List Write} {a : Attempt}
    (h : a ∈ (s.attempts ws).dropLast) : a.done = true := by
  induction ws generalizing s with
  | nil => simp [attempts] at h
  | cons w rest ih =>
    unfold attempts at h
    split at h
    · cases hrest : (s.writeLines w.path w.lines).storage.attempts rest with
      | nil => simp [hrest] at h
      | cons b bs =>
        rw [hrest, List.dropLast_cons_cons, List.mem_cons] at h
        rcases h with rfl | h
        · rfl
        · exact ih (hrest ▸ h)
    · simp at h

/-- Whether all of these writes succeed. -/
def Succeeds (s : Storage) (ws : List Write) : Prop := ∀ a ∈ s.attempts ws, a.done = true

theorem succeeds_nil (s : Storage) : s.Succeeds [] := fun a ha => by simp [attempts] at ha

theorem succeeds_cons {s : Storage} {w : Write} {ws : List Write} :
    s.Succeeds (w :: ws) ↔ (s.writeLines w.path w.lines).result = .ok () ∧
      (s.writeLines w.path w.lines).storage.Succeeds ws := by
  unfold Succeeds
  rw [attempts]
  cases (s.writeLines w.path w.lines).result with
  | ok => simp
  | error f => simp

theorem writeAll_cons_of_ok {s : Storage} {w : Write} (h : (s.writeLines w.path w.lines).result = .ok ())
    (ws : List Write) : s.writeAll (w :: ws) = (s.writeLines w.path w.lines).storage.writeAll ws := by
  rw [writeAll, h]

/-- Where not all succeed, the last attempt is the one that failed. -/
theorem done_getLast?_attempts {s : Storage} {ws : List Write} {a : Attempt} (h : ¬ s.Succeeds ws)
    (ha : (s.attempts ws).getLast? = some a) : a.done = false := by
  by_contra hdone
  refine h fun b hb => ?_
  rw [← List.dropLast_append_getLast? a ha, List.mem_append, List.mem_singleton] at hb
  rcases hb with hb | rfl
  · exact done_of_mem_dropLast_attempts hb
  · simpa using hdone

theorem writeAll_append {s : Storage} {vs : List Write} (h : s.Succeeds vs) (ws : List Write) :
    s.writeAll (vs ++ ws) = (s.writeAll vs).writeAll ws ∧
      s.attempts (vs ++ ws) = s.attempts vs ++ (s.writeAll vs).attempts ws := by
  induction vs generalizing s with
  | nil => exact ⟨rfl, rfl⟩
  | cons v vs ih =>
    unfold Succeeds attempts at h
    simp only [List.cons_append, writeAll, attempts]
    split at h
    · exact ⟨(ih fun a ha => h a (List.mem_cons_of_mem _ ha)).1,
        congrArg _ (ih fun a ha => h a (List.mem_cons_of_mem _ ha)).2⟩
    · simp at h

theorem writeAll_append_of_not {s : Storage} {vs : List Write} (h : ¬ s.Succeeds vs) (ws : List Write) :
    s.writeAll (vs ++ ws) = s.writeAll vs ∧ s.attempts (vs ++ ws) = s.attempts vs := by
  induction vs generalizing s with
  | nil => exact absurd (fun a ha => by simp [attempts] at ha) h
  | cons v vs ih =>
    unfold Succeeds attempts at h
    simp only [List.cons_append, writeAll, attempts]
    split at h
    · have := ih fun hs => h fun a ha => by
        rcases List.mem_cons.1 ha with rfl | ha
        · rfl
        · exact hs a ha
      exact ⟨this.1, congrArg _ this.2⟩
    · exact ⟨rfl, rfl⟩

/-! ## Writes that succeed -/

section Written

variable {s : Storage}

/-- The places of the writes that succeed. -/
def written (s : Storage) (ws : List Write) : List Path := ((s.attempts ws).filter (·.done)).map (·.path)

end Written

/-! ## What attempts leave -/

/-- The last write that succeeded at a place. -/
def lastDone (s : Storage) (l : Location) (as : List Attempt) : Option Attempt :=
  (as.filter fun a => a.done && s.place a.path = l).getLast?

theorem lastDone_eq_some {s : Storage} {l : Location} {as : List Attempt} {a : Attempt}
    (h : s.lastDone l as = some a) : a ∈ as ∧ a.done = true ∧ s.place a.path = l := by
  have := List.mem_filter.1 (List.mem_of_getLast? h)
  simpa using this

theorem lastDone_eq_none {s : Storage} {l : Location} {as : List Attempt}
    (h : ∀ a ∈ as, a.done = true → s.place a.path ≠ l) : s.lastDone l as = none := by
  unfold lastDone
  rw [List.getLast?_eq_none_iff, List.filter_eq_nil_iff]
  simpa using h

theorem lastDone_append (s : Storage) (l : Location) (as bs : List Attempt) :
    s.lastDone l (as ++ bs) = (s.lastDone l bs).or (s.lastDone l as) := by
  unfold lastDone
  rw [List.filter_append, List.getLast?_append]

theorem lastDone_congr {s t : Storage} (h : t.home = s.home) (l : Location) (as : List Attempt) :
    t.lastDone l as = s.lastDone l as := by
  unfold lastDone
  simp only [place_congr h]

theorem Above.congr {s t : Storage} (h : t.home = s.home) {p : Path} {l : Location} (hl : t.Above p l) :
    s.Above p l := by
  unfold Above at hl ⊢
  rwa [start_congr h] at hl

/-- What attempts leave: the last file written at each place, and new directories above the paths tried. -/
structure Follows (s t : Storage) (as : List Attempt) : Prop where
  home : t.home = s.home
  written : ∀ {l a}, s.lastDone l as = some a → t.node? l = some (fileOf a.lines)
  kept : ∀ {l n}, s.lastDone l as = none → s.node? l = some n → t.node? l = some n
  directory : ∀ {l}, s.node? l = some .directory → t.node? l = some .directory
  added : ∀ {l n}, s.lastDone l as = none → s.node? l = none → t.node? l = some n →
    n = .directory ∧ ∃ a ∈ as, s.Above a.path l

theorem Follows.refl (s : Storage) : Follows s s [] where
  home := rfl
  written h := by simp [lastDone] at h
  kept _ h := h
  directory h := h
  added _ hs ht := by simp [hs] at ht

theorem Follows.trans {s t u : Storage} {as bs : List Attempt} (h₁ : Follows s t as)
    (h₂ : Follows t u bs) : Follows s u (as ++ bs) where
  home := h₂.home.trans h₁.home
  directory h := h₂.directory (h₁.directory h)
  written {l a} h := by
    rw [lastDone_append, ← lastDone_congr h₁.home l bs] at h
    cases hb : t.lastDone l bs with
    | some b =>
      rw [hb, Option.some_or, Option.some.injEq] at h
      rw [h₂.written hb, h]
    | none =>
      rw [hb, Option.none_or] at h
      exact h₂.kept hb (h₁.written h)
  kept {l n} h hs := by
    rw [lastDone_append, ← lastDone_congr h₁.home l bs, Option.or_eq_none_iff] at h
    exact h₂.kept h.1 (h₁.kept h.2 hs)
  added {l n} h hs hu := by
    rw [lastDone_append, ← lastDone_congr h₁.home l bs, Option.or_eq_none_iff] at h
    cases ht : t.node? l with
    | some m =>
      obtain ⟨rfl, a, ha, habove⟩ := h₁.added h.2 hs ht
      rw [h₂.directory ht, Option.some.injEq] at hu
      exact ⟨hu.symm, a, List.mem_append_left _ ha, habove⟩
    | none =>
      obtain ⟨rfl, b, hb, habove⟩ := h₂.added h.1 ht hu
      exact ⟨rfl, b, List.mem_append_right _ hb, habove.congr h₁.home⟩

theorem Follows.of_grows {s t : Storage} {w : Write} (h : Grows s t (s.Above w.path)) :
    Follows s t [⟨w, false⟩] where
  home := h.home
  written h := by simp [lastDone] at h
  kept _ hs := h.get hs
  directory hs := h.get hs
  added {l n} _ hs ht := by
    rcases h.node l with he | ⟨-, htl, hl⟩
    · simp [he, hs] at ht
    · rw [htl, Option.some.injEq] at ht
      exact ⟨ht.symm, _, List.mem_singleton_self _, hl⟩

theorem Follows.of_put {s made : Storage} {w : Write} (h : Grows s made (s.Above w.path))
    (hne : s.place w.path ≠ []) (hdir : made.node? (s.place w.path) ≠ some .directory) :
    Follows s (made.put (s.place w.path) (fileOf w.lines)) [⟨w, true⟩] := by
  have hdone (l : Location) : s.lastDone l [⟨w, true⟩] = if s.place w.path = l then some ⟨w, true⟩ else none := by
    by_cases hl : s.place w.path = l <;> simp [lastDone, hl]
  have hother {l : Location} (hl : s.place w.path ≠ l) :
      (made.put (s.place w.path) (fileOf w.lines)).node? l = made.node? l := by
    rw [node?_put, if_neg fun he => hl he.1.symm]
  refine ⟨h.home, fun {l a} ha => ?_, fun {l n} ha hs => ?_, fun {l} hs => ?_, fun {l n} ha hs ht => ?_⟩
  · rw [hdone] at ha
    obtain ⟨hl, ha⟩ := Option.ite_none_right_eq_some.1 ha
    rw [node?_put, if_pos ⟨hl.symm, hne⟩, ← Option.some.inj ha]
  · have hl : s.place w.path ≠ l := fun he => by simp [hdone, he] at ha
    rw [hother hl, h.get hs]
  · have hl : s.place w.path ≠ l := fun he => hdir (he ▸ h.get hs)
    rw [hother hl, h.get hs]
  · have hl : s.place w.path ≠ l := fun he => by simp [hdone, he] at ha
    rw [hother hl] at ht
    rcases h.node l with he | ⟨-, htl, habove⟩
    · simp [he, hs] at ht
    · rw [htl, Option.some.injEq] at ht
      exact ⟨ht.symm, _, List.mem_singleton_self _, habove⟩

theorem follows_writeLines (s : Storage) (w : Write) :
    Follows s (s.writeLines w.path w.lines).storage
      [⟨w, (s.writeLines w.path w.lines).result matches .ok ()⟩] := by
  obtain ⟨made, hgrows, ⟨hok, -, hslot, hdir, hput⟩ | ⟨⟨f, herror⟩, hmade⟩⟩ := writeLines_cases s w.path w.lines
  · rw [hok, hput]
    refine .of_put hgrows (fun he => ?_) hdir
    rw [he, node?_root] at hdir
    exact hdir rfl
  · rw [herror, hmade]
    exact .of_grows hgrows

theorem follows_writeAll (s : Storage) (ws : List Write) : Follows s (s.writeAll ws) (s.attempts ws) := by
  induction ws generalizing s with
  | nil => exact .refl s
  | cons w rest ih =>
    have hw := follows_writeLines s w
    unfold writeAll attempts
    cases hresult : (s.writeLines w.path w.lines).result with
    | ok =>
      rw [hresult] at hw
      exact hw.trans (ih _)
    | error f =>
      rw [hresult] at hw
      exact hw

theorem Follows.file_iff {s t : Storage} {as : List Attempt} (h : Follows s t as) {l : Location}
    (hother : s.lastDone l as = none) {content : List UInt8} :
    t.node? l = some (.file content) ↔ s.node? l = some (.file content) := by
  refine ⟨fun ht => ?_, fun hs => h.kept hother hs⟩
  cases hs : s.node? l with
  | none => cases (h.added hother hs ht).1
  | some n => rw [← h.kept hother hs, ht]

end Storage
end ImageMacros
