import ImageMacros.Proofs.Storage.Again
import ImageMacros.Proofs.Storage.Contents

/-!
# Files that can be written again

* `ext_node?`, `root_writeAll` : storages with the same nodes are equal after writes;
* `Settled` : files that are there, where writes can get, at each place with the lines of the last of its writes;
* `settled_writeAll` : so it is after writes that succeed;
* `Settled.writeAll` : settled files can be written again, and that changes nothing.
-/

namespace ImageMacros.Storage

variable {s t : Storage}

/-! ## The same storage -/

/-- What a storage has for the root is never looked at, but it is part of it. -/
theorem ext_node? (hhome : t.home = s.home) (hroot : t.nodes.get? [] = s.nodes.get? [])
    (hnode : ∀ l, t.node? l = s.node? l) : t = s := by
  have hnodes : t.nodes = s.nodes := Dictionary.ext_get? fun l => by
    by_cases hl : l = []
    · rw [hl, hroot]
    · simpa [node?, hl] using hnode l
  cases s
  cases t
  simp_all

theorem root_put {l : Location} (hne : l ≠ []) (n : Node) : (s.put l n).nodes.get? [] = s.nodes.get? [] := by
  rw [put, Dictionary.get?_insert, if_neg (Ne.symm hne)]

theorem root_makeDirectory {q : Path} (h : s.makeDirectory q = .ok t) : t.nodes.get? [] = s.nodes.get? [] := by
  obtain ⟨l, -, hnone, rfl⟩ := makeDirectory_eq_ok_iff.1 h
  exact root_put (fun he => by simp [he] at hnone) _

theorem root_makeDirectories (s : Storage) (q : Path) :
    (s.makeDirectories q).2.nodes.get? [] = s.nodes.get? [] :=
  makeFirst_induction (motive := fun u => u.nodes.get? [] = s.nodes.get? []) rfl
    fun _ _ _ _ hu hmade => (root_makeDirectory hmade).trans hu

theorem root_writeLines (s : Storage) (p : Path) (lines : List String) :
    (s.writeLines p lines).storage.nodes.get? [] = s.nodes.get? [] := by
  cases hnull : p.parent.hasNull with
  | true =>
    unfold writeLines
    rw [if_pos hnull]
  | false =>
    have hroot := root_makeDirectories s p.parent
    cases hmade : s.makeDirectories p.parent with
    | mk result made =>
      rw [hmade] at hroot
      cases result with
      | error r => rwa [writeLines_of_refused hnull hmade]
      | ok =>
        rw [writeLines_of_made hnull hmade, ← hroot]
        unfold writeText
        split
        · rfl
        · split
          · next written hwrite =>
            obtain ⟨-, hdir, rfl⟩ := writeFile_eq_ok_iff.1 hwrite
            refine root_put (fun he => hdir ?_) _
            rw [he, node?_root]
          · rfl

theorem root_writeAll (s : Storage) (ws : List Write) : (s.writeAll ws).nodes.get? [] = s.nodes.get? [] := by
  induction ws generalizing s with
  | nil => rfl
  | cons w rest ih =>
    unfold writeAll
    split
    · rw [ih, root_writeLines]
    · exact root_writeLines s w.path w.lines

/-! ## Files one after the other -/

/-- At each place stands the file of the last of its writes. -/
def Settled (s : Storage) : List Write → Prop
  | [] => True
  | w :: rest =>
    w.path.hasNull = false ∧ s.slot w.path = .ok (some (s.place w.path)) ∧
      (s.node? (s.place w.path) = some (fileOf w.lines) ∨ ∃ v ∈ rest, s.place v.path = s.place w.path) ∧
      s.Settled rest

theorem Settled.file {ws : List Write} (h : s.Settled ws) {w : Write} (hw : w ∈ ws) :
    ∃ content, s.node? (s.place w.path) = some (.file content) := by
  induction ws generalizing w with
  | nil => cases hw
  | cons v rest ih =>
    obtain ⟨-, -, hfile, hrest⟩ := h
    rcases List.mem_cons.1 hw with rfl | hw
    · rcases hfile with hfile | ⟨v, hv, hplace⟩
      · exact ⟨_, hfile⟩
      · exact hplace ▸ ih hrest hv
    · exact ih hrest hw

theorem Settled.grows {ws : List Write} {W : Location → Prop} (h : s.Settled ws) (hgrows : Grows s t W) :
    t.Settled ws := by
  induction ws with
  | nil => trivial
  | cons w rest ih =>
    obtain ⟨hnull, hslot, hfile, hrest⟩ := h
    obtain ⟨hlong, hpass, hlast, -⟩ := slot_eq_some_iff.1 hslot
    have hplace (p : Path) : t.place p = s.place p := place_congr hgrows.home p
    refine ⟨hnull, slot_eq_some_iff.2 ⟨hlong, ?_, hlast, rfl⟩, ?_, ih hrest⟩
    · rw [start_congr hgrows.home]
      exact hpass.mono fun l => hgrows.get
    · simp only [hplace]
      exact hfile.imp_left hgrows.get

theorem settled_writeAll {ws : List Write} (h : s.Succeeds ws) : (s.writeAll ws).Settled ws := by
  induction ws generalizing s with
  | nil => trivial
  | cons w rest ih =>
    obtain ⟨hresult, hsucceeds⟩ := succeeds_cons.1 h
    have hholds := holds_writeLines hresult
    have hlater := follows_writeAll (s.writeLines w.path w.lines).storage rest
    rw [writeAll_cons_of_ok hresult]
    refine ⟨hholds.noNull, hlater.slot hholds.slot, ?_, ih hsucceeds⟩
    simp only [place_congr hlater.home]
    cases hlast : (s.writeLines w.path w.lines).storage.lastDone
        ((s.writeLines w.path w.lines).storage.place w.path)
        ((s.writeLines w.path w.lines).storage.attempts rest) with
    | none => exact .inl (hlater.kept hlast hholds.file)
    | some a =>
      obtain ⟨ha, -, hplace⟩ := lastDone_eq_some hlast
      exact .inr ⟨a.toWrite, mem_of_mem_attempts ha, hplace⟩

/-- Writing settled files ends with what was there, whatever they hold in between. -/
theorem Settled.agreesOff {ws : List Write} (h : s.Settled ws)
    (hst : AgreesOff (fun l => ∃ w ∈ ws, s.place w.path = l) s t) :
    t.Succeeds ws ∧ AgreesOff (fun _ => False) s (t.writeAll ws) := by
  induction ws generalizing t with
  | nil =>
    refine ⟨t.succeeds_nil, hst.home, fun l => .inl ((hst.node l).resolve_right ?_)⟩
    rintro ⟨⟨w, hw, -⟩, -⟩
    cases hw
  | cons w rest ih =>
    obtain ⟨content, hcontent⟩ := h.file List.mem_cons_self
    obtain ⟨hnull, hslot, hfile, hrest⟩ := h
    have hplace : t.place w.path = s.place w.path := place_congr hst.home w.path
    have hdir : t.node? (t.place w.path) ≠ some .directory := by
      rw [hplace]
      rcases hst.node (s.place w.path) with he | ⟨-, -, content, hc⟩
      · simp [he, hcontent]
      · simp [hc]
    have hne : s.place w.path ≠ [] := fun he => by simp [he] at hcontent
    have hwrite := writeLines_of_slot hnull (by rw [hst.slot, hslot, hplace]) hdir w.lines
    have hnext : AgreesOff (fun l => ∃ v ∈ rest, s.place v.path = l) s (t.put (s.place w.path) (fileOf w.lines)) := by
      refine ⟨hst.home, fun l => ?_⟩
      rw [node?_put]
      split
      · next hl =>
        rw [hl.1]
        rcases hfile with hfile | hlater
        · exact .inl hfile.symm
        · exact .inr ⟨hlater, ⟨content, hcontent⟩, _, rfl⟩
      · next hl =>
        rcases hst.node l with he | ⟨⟨v, hv, hvl⟩, hfiles⟩
        · exact .inl he
        · rcases List.mem_cons.1 hv with rfl | hv
          · exact absurd ⟨hvl.symm, hne⟩ hl
          · exact .inr ⟨⟨v, hv, hvl⟩, hfiles⟩
    have hwritten : t.writeLines w.path w.lines = ⟨.ok (), t.put (s.place w.path) (fileOf w.lines), []⟩ :=
      hplace ▸ hwrite
    have hresult : (t.writeLines w.path w.lines).result = .ok () := by rw [hwritten]
    rw [succeeds_cons, writeAll_cons_of_ok hresult, hwritten]
    obtain ⟨hsucceeds, hagree⟩ := ih hrest hnext
    exact ⟨⟨rfl, hsucceeds⟩, hagree⟩

/-- Settled files can be written again, and that changes nothing. -/
theorem Settled.writeAll {ws : List Write} (h : s.Settled ws) : s.Succeeds ws ∧ s.writeAll ws = s := by
  obtain ⟨hsucceeds, hhome, hnode⟩ := h.agreesOff (AgreesOff.refl _ s)
  refine ⟨hsucceeds, ext_node? hhome (root_writeAll s ws) fun l => (hnode l).resolve_right ?_⟩
  rintro ⟨hfalse, -⟩
  exact hfalse

end ImageMacros.Storage
