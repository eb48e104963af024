import ImageMacros.Proofs.Storage.Attempt

/-!
# Whole storages

* `Whole`, `locate_file_iff` : where everything is in a directory, a file is found by its place alone;
* `node?_bare`, `whole_bare` : a bare storage has the directories above its working directory, and no more;
* `Whole.put`, `Whole.remove` : one place filled below a directory, a place emptied with all below it;
* `Whole.makeDirectories`, `Whole.writeFile`, `Whole.writeAll` : what the program writes leaves a storage whole.
-/

namespace ImageMacros.Storage

/-- What is there is in a directory. -/
def Whole (s : Storage) : Prop := ∀ l name, s.node? (l ++ [name]) ≠ none → s.node? l = some .directory

theorem Whole.directory {s : Storage} (h : s.Whole) {l m : Location} (hm : m ≠ []) (hnode : s.node? (l ++ m) ≠ none) :
    s.node? l = some .directory := by
  induction m generalizing l with
  | nil => exact absurd rfl hm
  | cons name rest ih =>
    refine h l name ?_
    rcases eq_or_ne rest [] with rfl | hrest
    · exact hnode
    · simp [ih hrest (l := l ++ [name]) (by rwa [List.append_assoc, List.singleton_append])]

/-- Without double dots, names lead to whatever is there. -/
theorem Whole.passable {s : Storage} (h : s.Whole) {l : Location} {names : List String}
    (hproper : ∀ name ∈ names, ProperName name) (hplain : ".." ∉ names)
    (hshort : ∀ name ∈ names, tooLong name = false) (hnode : s.node? (l ++ names) ≠ none) : s.Passable l names := by
  induction names generalizing l with
  | nil => trivial
  | cons name rest ih =>
    obtain ⟨hempty, hdot, -⟩ := hproper name List.mem_cons_self
    simp only [List.mem_cons, not_or] at hplain
    have henter : enter l name = l ++ [name] := by
      rw [enter, if_neg (not_or.2 ⟨hempty, hdot⟩), if_neg (Ne.symm hplain.1)]
    refine ⟨h.directory (List.cons_ne_nil name rest) hnode, hshort name List.mem_cons_self, ?_⟩
    rw [henter]
    refine ih (fun n hn => hproper n (List.mem_cons_of_mem _ hn)) hplain.2
      (fun n hn => hshort n (List.mem_cons_of_mem _ hn)) ?_
    rwa [List.append_assoc, List.singleton_append]

theorem Whole.locate_file_iff {s : Storage} (h : s.Whole) {p : Path} (hplain : ".." ∉ p.names)
    (hshort : ∀ name ∈ p.names, tooLong name = false) (hlong : pathTooLong p.text = false) {l : Location}
    {content : List UInt8} :
    s.locate p = .ok (l, .file content) ↔ l = s.place p ∧ s.node? (s.place p) = some (.file content) := by
  rw [locate_eq_ok_iff]
  constructor
  · rintro ⟨-, -, rfl, hfile⟩
    exact ⟨rfl, hfile⟩
  · rintro ⟨rfl, hfile⟩
    refine ⟨hlong, h.passable p.proper hplain hshort ?_, rfl, hfile⟩
    rw [← place_of_plain hplain, hfile]
    simp

/-! ## A bare storage -/

theorem node?_bare (home l : Location) : (bare home).node? l = if l <+: home then some .directory else none := by
  by_cases hl : l = []
  · simp [hl]
  have hnodup : (((List.range home.length).map fun n => (home.take (n + 1), Node.directory)).map (·.1)).Nodup := by
    rw [List.map_map]
    refine List.Nodup.map_on (fun m hm n hn he => ?_) List.nodup_range
    have hlength := congrArg List.length he
    simp only [Function.comp_apply, List.length_take, List.mem_range] at hlength hm hn
    omega
  have hmem (n : Node) : (bare home).nodes.get? l = some n ↔ l <+: home ∧ n = .directory := by
    rw [bare, Dictionary.get?_ofList_eq_some_iff hnodup]
    simp only [List.mem_map, List.mem_range, Prod.mk.injEq]
    constructor
    · rintro ⟨k, -, rfl, rfl⟩
      exact ⟨List.take_prefix _ _, rfl⟩
    · rintro ⟨hfront, rfl⟩
      have hle := hfront.length_le
      have hpos := List.length_pos_iff.2 hl
      refine ⟨l.length - 1, by omega, ?_, rfl⟩
      rw [Nat.sub_add_cancel hpos]
      exact (List.prefix_iff_eq_take.1 hfront).symm
  rw [node?, if_neg hl]
  cases hget : (bare home).nodes.get? l with
  | some n =>
    obtain ⟨hfront, rfl⟩ := (hmem n).1 hget
    rw [if_pos hfront]
  | none =>
    rw [if_neg fun hfront => ?_]
    simp [(hmem .directory).2 ⟨hfront, rfl⟩] at hget

theorem whole_bare (home : Location) : (bare home).Whole := by
  intro l name h
  rw [node?_bare] at h ⊢
  split at h
  · next hfront => rw [if_pos ((List.prefix_append l [name]).trans hfront)]
  · exact absurd rfl h

/-! ## Changes -/

variable {s : Storage}

/-- Below a directory, a place can be filled; what was a directory stays one. -/
theorem Whole.put (h : s.Whole) {l : Location} {n : Node} (hparent : s.node? l.dropLast = some .directory)
    (hkeep : s.node? l = some .directory → n = .directory) : (s.put l n).Whole := by
  intro m name hm
  have hdir : s.node? m = some .directory := by
    rw [node?_put] at hm
    split at hm
    · next hl =>
      rw [← hl.1, List.dropLast_concat] at hparent
      exact hparent
    · exact h m name hm
  rw [node?_put]
  split
  · next hl => rw [hkeep (hl.1 ▸ hdir)]
  · exact hdir

theorem Whole.remove (h : s.Whole) (l : Location) : (s.remove l).Whole := by
  intro m name hm
  rw [node?_remove] at hm
  split at hm
  · exact absurd rfl hm
  · next hl =>
    have hout : ¬ (m ≠ [] ∧ l.isPrefixOf m = true) := fun hin => hl ⟨by simp, by
      rw [List.isPrefixOf_iff_prefix] at hin ⊢
      exact hin.2.trans (List.prefix_append m [name])⟩
    rw [node?_remove, if_neg hout]
    exact h m name hm

theorem Whole.makeDirectory (h : s.Whole) {t : Storage} {p : Path} (hmade : s.makeDirectory p = .ok t) : t.Whole := by
  obtain ⟨l, hslot, -, rfl⟩ := makeDirectory_eq_ok_iff.1 hmade
  exact h.put (directory_of_slot_eq hslot) fun _ => rfl

theorem Whole.makeDirectories (h : s.Whole) (p : Path) : (s.makeDirectories p).2.Whole :=
  makeFirst_induction h fun _ _ _ _ hu hmade => hu.makeDirectory hmade

theorem Whole.writeFile (h : s.Whole) {t : Storage} {p : Path} {content : List UInt8}
    (hwrite : s.writeFile p content = .ok t) : t.Whole := by
  obtain ⟨hslot, hdir, rfl⟩ := writeFile_eq_ok_iff.1 hwrite
  exact h.put (directory_of_slot_eq hslot) fun he => absurd he hdir

theorem Whole.writeLines (h : s.Whole) (p : Path) (lines : List String) : (s.writeLines p lines).storage.Whole := by
  unfold Storage.writeLines
  split
  · exact h
  · have hmade := h.makeDirectories p.parent
    split
    · next r made hfirst => rwa [hfirst] at hmade
    · next made hfirst =>
      rw [hfirst] at hmade
      unfold writeText
      split
      · exact hmade
      · split
        · next hwrite => exact hmade.writeFile hwrite
        · exact hmade

theorem Whole.writeAll (h : s.Whole) (ws : List Write) : (s.writeAll ws).Whole := by
  induction ws generalizing s with
  | nil => exact h
  | cons w rest ih =>
    unfold Storage.writeAll
    split
    · exact ih (h.writeLines w.path w.lines)
    · exact h.writeLines w.path w.lines

end ImageMacros.Storage
