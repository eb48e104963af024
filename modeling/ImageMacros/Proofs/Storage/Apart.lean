import ImageMacros.Proofs.Storage.Settled
import ImageMacros.Proofs.Storage.Success

/-!
# Writes to different paths

Two paths with the same anchor, without double dots and null characters.

* `makeable_writeLines_iff`, `writable_writeLines_iff` : a write neither helps nor hinders a write to a path that it
  does not meet;
* `gain_writeLines`, `gain_agree` : both bring what they would bring alone, and do not disagree anywhere;
* `writeLines_comm` : so they can be made in either order;
* `writable_after_iff` : after a write that succeeds, one to a path above or below it fails.
-/

namespace ImageMacros.Storage

variable {s : Storage} {p q : Path} {lines others : List String}

theorem Reaches.clear {l : Location} (hplain : ".." ∉ q.names) (h : s.Reaches q l) :
    s.node? l = none ∨ s.node? l = some .directory := by
  obtain ⟨n, -, rfl, hmake⟩ := h
  rw [place_of_plain (Path.plain_take hplain n)]
  exact hmake.free.way _ List.prefix_rfl

/-! ## What a write leaves open -/

section

variable (hp : ".." ∉ p.names) (hnull : p.hasNull = false)
include hp hnull

theorem directory_writeLines_iff {l : Location} (hl : l ≠ s.place p) :
    (s.writeLines p lines).storage.node? l = some .directory ↔
      s.node? l = some .directory ∨ pathTooLong p.parent.text = false ∧ s.Reaches p.parent l := by
  rw [node?_writeLines s hp hnull, gain_of_not_file fun h => hl h.2]
  split_ifs with hgain <;> simp [hgain]

theorem clear_writeLines_iff {l : Location} (hl : l ≠ s.place p) :
    ((s.writeLines p lines).storage.node? l = none ∨ (s.writeLines p lines).storage.node? l = some .directory) ↔
      (s.node? l = none ∨ s.node? l = some .directory) := by
  rw [node?_writeLines s hp hnull, gain_of_not_file fun h => hl h.2]
  split_ifs with hgain
  · simp [hgain.2.clear (Path.plain_parent hp)]
  · rfl

/-- A write does not decide about directories that are not at or below its path. -/
theorem makeable_writeLines_iff (hanchor : q.anchor = p.anchor) (hmeet : ¬ p.names <+: q.names) :
    (s.writeLines p lines).storage.Makeable q ↔ s.Makeable q := by
  have hstart : (s.writeLines p lines).storage.start q.anchor = s.start q.anchor :=
    start_congr (home_writeLines s p lines) _
  have hne {front : List String} (hfront : front <+: q.names) : s.start q.anchor ++ front ≠ s.place p := fun he => by
    rw [place_of_plain hp, hanchor] at he
    exact hmeet (List.append_cancel_left he ▸ hfront)
  have hroot : (s.writeLines p lines).storage.node? (s.start q.anchor) = some .directory ↔
      s.node? (s.start q.anchor) = some .directory := by
    have hl : s.start q.anchor ≠ s.place p := by simpa using hne List.nil_prefix
    rw [directory_writeLines_iff hp hnull hl, or_iff_left_of_imp]
    rintro ⟨-, n, -, -, hmake⟩
    rw [hanchor]
    exact hmake.free.start
  constructor
  · rintro ⟨hasked, hshort, hfree⟩
    rw [hstart] at hfree
    exact ⟨hasked, hshort, hroot.1 hfree.start,
      fun front hfront => (clear_writeLines_iff hp hnull (hne hfront)).1 (hfree.way front hfront)⟩
  · rintro ⟨hasked, hshort, hfree⟩
    refine ⟨hasked, hshort, ?_⟩
    rw [hstart]
    exact ⟨hroot.2 hfree.start,
      fun front hfront => (clear_writeLines_iff hp hnull (hne hfront)).2 (hfree.way front hfront)⟩

theorem reaches_writeLines_iff (hanchor : q.anchor = p.anchor) (hmeet : ¬ p.names <+: q.names) {l : Location} :
    (s.writeLines p lines).storage.Reaches q l ↔ s.Reaches q l := by
  have hmake (n : Nat) : (s.writeLines p lines).storage.Makeable (q.take n) ↔ s.Makeable (q.take n) :=
    makeable_writeLines_iff hp hnull hanchor fun h => hmeet (h.trans (List.take_prefix n q.names))
  unfold Reaches
  simp only [hmake, place_congr (home_writeLines s p lines)]

/-- A write does not decide about files that are not at, above or below its path. -/
theorem writable_writeLines_iff (hq : ".." ∉ q.names) (hanchor : q.anchor = p.anchor) (hbelow : ¬ p.names <+: q.names)
    (habove : ¬ q.names <+: p.names) : (s.writeLines p lines).storage.Writable q ↔ s.Writable q := by
  have hmake : (s.writeLines p lines).storage.Makeable q.parent ↔ s.Makeable q.parent :=
    makeable_writeLines_iff hp hnull hanchor fun h => hbelow (h.trans q.parent_prefix)
  have hplace : (s.writeLines p lines).storage.place q = s.place q := place_congr (home_writeLines s p lines) q
  have hl : s.place q ≠ s.place p := fun he => by
    rw [place_of_plain hp, place_of_plain hq, hanchor] at he
    exact habove (List.append_cancel_left he ▸ List.prefix_rfl)
  have hdir : (s.writeLines p lines).storage.node? (s.place q) = some .directory ↔
      s.node? (s.place q) = some .directory := by
    rw [directory_writeLines_iff hp hnull hl, or_iff_left_of_imp]
    rintro ⟨-, hreach⟩
    have hfirst := ((reaches_place_iff (Path.plain_parent hp) hq hanchor).1 hreach).1
    exact absurd (hfirst.trans p.parent_prefix) habove
  constructor
  · rintro ⟨hparent, hasked, hshort, hnot⟩
    rw [hplace] at hnot
    exact ⟨hmake.1 hparent, hasked, hshort, fun h => hnot (hdir.2 h)⟩
  · rintro ⟨hparent, hasked, hshort, hnot⟩
    refine ⟨hmake.2 hparent, hasked, hshort, ?_⟩
    rw [hplace]
    exact fun h => hnot (hdir.1 h)

/-! ## Two writes in either order -/

theorem gain_writeLines (hq : ".." ∉ q.names) (hanchor : q.anchor = p.anchor) (hbelow : ¬ p.names <+: q.names)
    (habove : ¬ q.names <+: p.names) (l : Location) :
    (s.writeLines p lines).storage.gain q others l = s.gain q others l := by
  have hparent : ¬ p.names <+: q.parent.names := fun h => hbelow (h.trans q.parent_prefix)
  have hreach : (s.writeLines p lines).storage.Reaches q.parent l ↔ s.Reaches q.parent l :=
    reaches_writeLines_iff (q := q.parent) hp hnull hanchor hparent
  unfold gain
  simp only [writable_writeLines_iff hp hnull hq hanchor hbelow habove, hreach,
    place_congr (home_writeLines s p lines)]

end

theorem gain_agree (hp : ".." ∉ p.names) (hq : ".." ∉ q.names) (hanchor : q.anchor = p.anchor)
    (hbelow : ¬ p.names <+: q.names) (habove : ¬ q.names <+: p.names) {l : Location} {m n : Node}
    (hm : s.gain p lines l = some m) (hn : s.gain q others l = some n) : m = n := by
  unfold gain at hm hn
  split_ifs at hm hn with hfile hfile' hdir' hdir hfile' hdir'
  · have hplace := hfile.2.symm.trans hfile'.2
    rw [place_of_plain hp, place_of_plain hq, hanchor] at hplace
    exact absurd (List.append_cancel_left hplace ▸ List.prefix_rfl) hbelow
  · have hfirst := ((reaches_place_iff (Path.plain_parent hq) hp hanchor.symm).1 (hfile.2 ▸ hdir'.2)).1
    exact absurd (hfirst.trans q.parent_prefix) hbelow
  · have hfirst := ((reaches_place_iff (Path.plain_parent hp) hq hanchor).1 (hfile'.2 ▸ hdir.2)).1
    exact absurd (hfirst.trans p.parent_prefix) habove
  · exact Option.some.inj (hm.symm.trans hn)

section

variable (hp : ".." ∉ p.names) (hq : ".." ∉ q.names) (hnull : p.hasNull = false) (hnull' : q.hasNull = false)
  (hanchor : q.anchor = p.anchor)
include hp hq hnull hnull' hanchor

theorem report_writeLines_after (hbelow : ¬ p.names <+: q.names) (habove : ¬ q.names <+: p.names) :
    ((s.writeLines p lines).storage.writeLines q others).report = (s.writeLines q others).report := by
  have hparent : ¬ p.names <+: q.parent.names := fun h => hbelow (h.trans q.parent_prefix)
  have hmake : (s.writeLines p lines).storage.Makeable q.parent ↔ s.Makeable q.parent :=
    makeable_writeLines_iff (q := q.parent) hp hnull hanchor hparent
  rw [report_writeLines hq hnull', report_writeLines hq hnull']
  simp only [writable_writeLines_iff hp hnull hq hanchor hbelow habove, hmake]

/-- Writes that do not meet leave the same in either order. -/
theorem writeLines_comm (hbelow : ¬ p.names <+: q.names) (habove : ¬ q.names <+: p.names) :
    ((s.writeLines p lines).storage.writeLines q others).storage =
      ((s.writeLines q others).storage.writeLines p lines).storage := by
  refine ext_node? ?_ ?_ fun l => ?_
  · simp only [home_writeLines]
  · simp only [root_writeLines]
  · rw [node?_writeLines _ hq hnull', node?_writeLines _ hp hnull, node?_writeLines _ hp hnull,
      node?_writeLines _ hq hnull', gain_writeLines hp hnull hq hanchor hbelow habove,
      gain_writeLines hq hnull' hp hanchor.symm habove hbelow]
    cases hm : s.gain p lines l with
    | none => simp
    | some m =>
      cases hn : s.gain q others l with
      | none => simp
      | some n => simp [gain_agree hp hq hanchor hbelow habove hm hn]

/-! ## Writes that meet -/

/-- A second file can be put if it could be before, and neither path is above the other. -/
theorem writable_after_iff (h : s.Writable p) : (s.writeLines p lines).storage.Writable q ↔
    s.Writable q ∧ ¬ p.AncestorOf q ∧ ¬ q.AncestorOf p := by
  have hhome := home_writeLines s p lines
  have hnode := node?_writeLines s hp hnull lines
  by_cases hbelow : p.names <+: q.names
  · rcases Path.eq_or_ancestorOf hanchor.symm hbelow with rfl | hancestor
    · have hholds : (s.writeLines p lines).storage.Holds p lines := holds_writeLines ((writeLines_ok_iff hp hnull).2 h)
      have hresult : ((s.writeLines p lines).storage.writeLines p lines).result = .ok () := by rw [hholds.writeLines]
      have hagain : (s.writeLines p lines).storage.Writable p := (writeLines_ok_iff hp hnull).1 hresult
      simp [hagain, h, Path.AncestorOf]
    · refine ⟨fun hafter => ?_, fun hboth => absurd hancestor hboth.2.1⟩
      have hway := hafter.above.free.way p.names hancestor.prefix_parent
      rw [start_congr hhome, show q.parent.anchor = p.anchor from hanchor, ← place_of_plain hp, hnode, gain,
        if_pos ⟨h, rfl⟩] at hway
      rcases hway with hway | hway <;> cases hway
  · by_cases habove : q.names <+: p.names
    · rcases Path.eq_or_ancestorOf hanchor habove with rfl | hancestor
      · exact absurd habove hbelow
      · refine ⟨fun hafter => absurd ?_ hafter.notDirectory, fun hboth => absurd hancestor hboth.2.2⟩
        have htake : p.parent.take q.names.length = q :=
          Path.ext_iff'.2 ⟨hanchor.symm, (List.prefix_iff_eq_take.1 hancestor.prefix_parent).symm⟩
        have hreach : s.Reaches p.parent (s.place q) :=
          (reaches_place_iff (Path.plain_parent hp) hq hanchor).2 ⟨hancestor.prefix_parent, htake ▸ h.above.take _⟩
        have hne : s.place q ≠ s.place p := fun he => not_reaches_parent hp h.names_ne_nil (he ▸ hreach)
        rw [place_congr hhome, directory_writeLines_iff hp hnull hne]
        exact .inr ⟨h.above.asked, hreach⟩
    · rw [writable_writeLines_iff hp hnull hq hanchor hbelow habove]
      exact ⟨fun hq => ⟨hq, fun ha => hbelow ha.2.1, fun ha => habove ha.2.1⟩, fun hboth => hboth.1⟩

end

end ImageMacros.Storage
