import ImageMacros.Proofs.Storage.Growth

/-!
# What the content of files does not decide

* `AgreesOff C s t` : the storages differ in nothing but what files at places in `C` hold;
* `AgreesOff.walk`, `AgreesOff.slot` : then paths lead to the same places, and changes are about the same;
* `Agreeing` : outcomes with the same result and log in storages that agree (`AgreesOff.writeLines`): a write does the
  same whatever these files hold.
-/

namespace ImageMacros

namespace Storage

/-- The storages differ only in what files at places in `C` hold. -/
structure AgreesOff (C : Location → Prop) (s t : Storage) : Prop where
  home : t.home = s.home
  node : ∀ l, t.node? l = s.node? l ∨
    C l ∧ (∃ content, s.node? l = some (.file content)) ∧ ∃ content, t.node? l = some (.file content)

namespace AgreesOff

variable {C : Location → Prop} {s t : Storage}

theorem refl (C : Location → Prop) (s : Storage) : AgreesOff C s s := ⟨rfl, fun _ => .inl rfl⟩

theorem put_files (s : Storage) {l : Location} (hne : l ≠ []) (a b : List UInt8) :
    AgreesOff (· = l) (s.put l (.file a)) (s.put l (.file b)) := by
  refine ⟨rfl, fun m => ?_⟩
  by_cases hm : m = l
  · exact .inr ⟨hm, ⟨a, by rw [node?_put, if_pos ⟨hm, hne⟩]⟩, b, by rw [node?_put, if_pos ⟨hm, hne⟩]⟩
  · exact .inl (by rw [node?_put, node?_put, if_neg fun h => hm h.1, if_neg fun h => hm h.1])

/-! ## Walking -/

/-- Names lead to the same place or obstacle, but for what a file at their end holds. -/
theorem walk (h : AgreesOff C s t) (l : Location) (names : List String) :
    t.walk l names = s.walk l names ∨
      ∃ m a b, s.walk l names = .ok (m, .file a) ∧ t.walk l names = .ok (m, .file b) := by
  induction names generalizing l with
  | nil =>
    rcases h.node l with he | ⟨-, ⟨a, ha⟩, b, hb⟩
    · exact .inl (by simp only [Storage.walk, he])
    · exact .inr ⟨l, a, b, by simp only [Storage.walk, ha], by simp only [Storage.walk, hb]⟩
  | cons name rest ih =>
    rcases h.node l with he | ⟨-, ⟨a, ha⟩, b, hb⟩
    · unfold Storage.walk
      rw [he]
      cases s.node? l with
      | none => exact .inl rfl
      | some n =>
        cases n with
        | file content => exact .inl rfl
        | directory =>
          dsimp only
          split_ifs
          · exact ih l
          · exact ih l.dropLast
          · exact .inl rfl
          · exact ih (l ++ [name])
    · exact .inl (by simp only [Storage.walk, ha, hb])

theorem start (h : AgreesOff C s t) (a : Anchor) : t.start a = s.start a := start_congr h.home a

theorem slot (h : AgreesOff C s t) (p : Path) : t.slot p = s.slot p := by
  unfold Storage.slot
  rw [h.start]
  split
  · rfl
  · cases p.names.getLast? with
    | none => rfl
    | some name =>
      dsimp only
      rcases h.walk (s.start p.anchor) p.names.dropLast with he | ⟨m, a, b, ha, hb⟩
      · rw [he]
      · rw [ha, hb]

theorem isDirectory (h : AgreesOff C s t) (p : Path) : t.isDirectory p = s.isDirectory p := by
  unfold Storage.isDirectory locate
  rw [h.start]
  by_cases hlong : pathTooLong p.text = true
  · rw [if_pos hlong, if_pos hlong]
  · rw [if_neg hlong, if_neg hlong]
    rcases h.walk (s.start p.anchor) p.names with he | ⟨m, a, b, ha, hb⟩
    · rw [he]
    · rw [ha, hb]

theorem locateText_file (h : AgreesOff C s t) {text : String} {l : Location} {content : List UInt8}
    (hfile : t.locateText text = .ok (l, .file content)) : ∃ a, s.locateText text = .ok (l, .file a) := by
  unfold locateText at hfile ⊢
  rw [h.home] at hfile
  split at hfile
  · cases hfile
  · split at hfile
    · cases hfile
    · next hempty hlong =>
      rw [if_neg hempty, if_neg hlong]
      rcases h.walk (if text.toList.head? = some '/' then [] else s.home) (segments text) with he | ⟨m, a, b, ha, hb⟩
      · exact ⟨content, he ▸ hfile⟩
      · rw [hb] at hfile
        cases hfile
        exact ⟨a, ha⟩

/-! ## Changes -/

theorem node_none_iff (h : AgreesOff C s t) (l : Location) : t.node? l = none ↔ s.node? l = none := by
  rcases h.node l with he | ⟨-, ⟨a, ha⟩, b, hb⟩
  · rw [he]
  · simp [ha, hb]

theorem put (h : AgreesOff C s t) (l : Location) (n : Node) : AgreesOff C (s.put l n) (t.put l n) := by
  refine ⟨h.home, fun m => ?_⟩
  rw [node?_put, node?_put]
  split
  · exact .inl rfl
  · exact h.node m

/-- Both meet the same obstacle, or both succeed. -/
def Alike (C : Location → Prop) {ε : Type} (r q : Except ε Storage) : Prop :=
  (∃ e, r = .error e ∧ q = .error e) ∨ ∃ u v, r = .ok u ∧ q = .ok v ∧ AgreesOff C u v

theorem makeDirectory (h : AgreesOff C s t) (p : Path) : Alike C (s.makeDirectory p) (t.makeDirectory p) := by
  unfold Storage.makeDirectory
  rw [h.slot]
  cases s.slot p with
  | error o => exact .inl ⟨o, rfl, rfl⟩
  | ok place =>
    cases place with
    | none => exact .inl ⟨_, rfl, rfl⟩
    | some l =>
      dsimp only
      cases hs : s.node? l with
      | none =>
        rw [(h.node_none_iff l).2 hs]
        exact .inr ⟨_, _, rfl, rfl, h.put l .directory⟩
      | some n =>
        cases ht : t.node? l with
        | none => cases hs.symm.trans ((h.node_none_iff l).1 ht)
        | some k => exact .inl ⟨_, rfl, rfl⟩

theorem unlessDirectory (h : AgreesOff C s t) (p : Path) (o : Obstacle) :
    t.unlessDirectory p o = s.unlessDirectory p o := by
  unfold Storage.unlessDirectory
  rw [h.isDirectory]

theorem makeFirst (h : AgreesOff C s t) (ps : List Path) :
    (t.makeFirst ps).1 = (s.makeFirst ps).1 ∧ AgreesOff C (s.makeFirst ps).2 (t.makeFirst ps).2 := by
  induction ps with
  | nil => exact ⟨rfl, h⟩
  | cons p above ih =>
    unfold Storage.makeFirst
    rcases h.makeDirectory p with ⟨o, hs, ht⟩ | ⟨u, v, hs, ht, huv⟩
    · rw [hs, ht]
      cases o with
      | missing =>
        cases above with
        | nil => exact ⟨rfl, h⟩
        | cons q rest =>
          dsimp only
          generalize s.makeFirst (q :: rest) = first at ih ⊢
          generalize t.makeFirst (q :: rest) = second at ih ⊢
          obtain ⟨result, made⟩ := first
          obtain ⟨result', made'⟩ := second
          obtain ⟨rfl : result' = result, hmade⟩ := ih
          cases result' with
          | error r => exact ⟨rfl, hmade⟩
          | ok =>
            dsimp only at hmade ⊢
            rcases hmade.makeDirectory p with ⟨o, hs, ht⟩ | ⟨u, v, hs, ht, huv⟩
            · rw [hs, ht]
              cases o with
              | missing => exact ⟨rfl, hmade⟩
              | _ => exact ⟨hmade.unlessDirectory p _, hmade⟩
            · rw [hs, ht]
              exact ⟨rfl, huv⟩
      | _ => exact ⟨h.unlessDirectory p _, h⟩
    · rw [hs, ht]
      exact ⟨rfl, huv⟩

theorem writeFile (h : AgreesOff C s t) (p : Path) (content : List UInt8) :
    Alike C (s.writeFile p content) (t.writeFile p content) := by
  unfold Storage.writeFile
  rw [h.slot]
  cases s.slot p with
  | error o => exact .inl ⟨o, rfl, rfl⟩
  | ok place =>
    cases place with
    | none => exact .inl ⟨_, rfl, rfl⟩
    | some l =>
      have hput := h.put l (.file content)
      rcases h.node l with he | ⟨-, ⟨a, ha⟩, b, hb⟩
      · dsimp only
        rw [he]
        split
        · exact .inl ⟨_, rfl, rfl⟩
        · exact .inr ⟨_, _, rfl, rfl, hput⟩
      · simp only [ha, hb]
        exact .inr ⟨_, _, rfl, rfl, hput⟩

end AgreesOff
end Storage

open Storage (AgreesOff)

/-! ## Outcomes -/

/-- Outcomes with the same result and log, in storages that agree. -/
structure Agreeing (C : Location → Prop) {α : Type} (o q : Outcome α) : Prop where
  result : q.result = o.result
  storage : AgreesOff C o.storage q.storage
  log : q.log = o.log

namespace Storage.AgreesOff

variable {C : Location → Prop} {s t : Storage}

theorem writeLines (h : AgreesOff C s t) (p : Path) (lines : List String) :
    Agreeing C (s.writeLines p lines) (t.writeLines p lines) := by
  unfold Storage.writeLines
  split
  · exact ⟨rfl, h, rfl⟩
  · have hmade := h.makeFirst p.parent.ancestry
    unfold Storage.makeDirectories
    generalize s.makeFirst p.parent.ancestry = first at hmade ⊢
    generalize t.makeFirst p.parent.ancestry = second at hmade ⊢
    obtain ⟨result, made⟩ := first
    obtain ⟨result', made'⟩ := second
    obtain ⟨rfl : result' = result, hmade⟩ := hmade
    cases result' with
    | error r => exact ⟨rfl, hmade, rfl⟩
    | ok =>
      dsimp only at hmade ⊢
      unfold writeText
      split
      · exact ⟨rfl, hmade, rfl⟩
      · rcases hmade.writeFile p (Text.Utf8.encode (Text.unlines lines)) with ⟨o, hs, ht⟩ | ⟨u, v, hs, ht, huv⟩
        · rw [hs, ht]
          exact ⟨rfl, hmade, rfl⟩
        · rw [hs, ht]
          exact ⟨rfl, huv, rfl⟩

end Storage.AgreesOff
end ImageMacros
