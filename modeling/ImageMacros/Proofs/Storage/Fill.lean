import ImageMacros.Proofs.Storage.Growth

/-!
# The places that a write can fill

* `pathTooLong_take` : what is in front of a path is no longer than the path;
* `Path.ofLongNames`, `pathTooLong_of_longNames` : names that fit, together too long for a path;
* `Path.Fills` : the first names of a path lead to a place that a write can fill, with a directory or,
  at the end, with the file (`Above.fills`);
* `writeLines_of_slot` : a write whose directory is there puts the file and does nothing else;
* `Ready` : there are directories up to such a place, and nothing in it;
* `Ready.node?_makeFirst`, `Ready.node?_writeLines` : then the write fills it.
-/

namespace ImageMacros

open Storage

/-! ## Lengths of paths -/

/-- What is in front of a path is no longer than the path. -/
theorem pathTooLong_take {p : Path} (h : pathTooLong p.text = false) (n : Nat) :
    pathTooLong (p.take n).text = false := by
  by_cases hn : (p.take n).names = []
  · have htext : (p.take n).text = if p.anchor = .relative then "." else p.anchor.text := by
      unfold Path.text
      rw [hn]
      cases hanchor : p.anchor <;> simp [Path.take, hanchor]
    rw [htext]
    cases p.anchor <;> decide
  · have hp : p.names ≠ [] := fun he => hn (by simp [Path.take, he])
    have hsize := size_intercalate_append (p.names.take n) (p.names.drop n)
    rw [List.take_append_drop] at hsize
    rw [Path.text_of_ne_nil hp] at h
    rw [Path.text_of_ne_nil hn, show (p.take n).anchor = p.anchor from rfl,
      show (p.take n).names = p.names.take n from rfl]
    simp only [pathTooLong, String.utf8ByteSize_append, decide_eq_false_iff_not] at h ⊢
    omega

/-! ## Names that fit, and too many of them -/

def longName : String := String.ofList (List.replicate 100 'a')

theorem longName_fits : tooLong longName = false ∧ longName.utf8ByteSize = 100 ∧
    '\x00' ∉ longName.toList ∧ '\x1b' ∉ longName.toList ∧ longName ≠ ".." := by
  decide

def Path.ofLongNames (n : Nat) : Path where
  anchor := .relative
  names := List.replicate n longName
  proper := fun name h => by rw [List.eq_of_mem_replicate h]; decide

theorem Path.eq_longName {n : Nat} {name : String} (h : name ∈ (ofLongNames n).names) : name = longName :=
  List.eq_of_mem_replicate h

theorem Path.plain_ofLongNames (n : Nat) : ".." ∉ (ofLongNames n).names := fun h =>
  longName_fits.2.2.2.2 (eq_longName h).symm

theorem Path.hasNull_ofLongNames (n : Nat) : (ofLongNames n).hasNull = false :=
  List.any_eq_false.2 fun name h => by simpa [eq_longName h] using longName_fits.2.2.1

/-- Forty-one long names are too long, whatever follows. -/
theorem pathTooLong_of_longNames {p : Path} (rest : List String)
    (h : p.names = (Path.ofLongNames 41).names ++ rest) : pathTooLong p.text = true := by
  have hfront := mul_le_size_intercalate longName 41
  rw [longName_fits.2.1] at hfront
  have hsize := size_intercalate_append (List.replicate 41 longName) rest
  rw [Path.text_of_ne_nil (by simp [h, Path.ofLongNames])]
  unfold pathTooLong pathLimit
  rw [String.utf8ByteSize_append, h]
  exact decide_eq_true (by simp only [Path.ofLongNames]; omega)

/-! ## Places to fill -/

/-- The names lead to a place that a write to the path can fill, with a directory or at the end with the file. -/
def Path.Fills (p : Path) (names : List String) : Prop :=
  (∀ name ∈ names, tooLong name = false) ∧
    (names <+: p.parent.names ∧ p.parent.hasNull = false ∧ pathTooLong p.parent.text = false ∨
      names = p.names ∧ p.hasNull = false ∧ pathTooLong p.text = false)

instance (p : Path) (names : List String) : Decidable (p.Fills names) := by unfold Path.Fills; infer_instance

theorem Path.Fills.first {p : Path} {names : List String} (h : p.Fills names) : names <+: p.names := by
  rcases h.2 with ⟨hfirst, -⟩ | ⟨rfl, -⟩
  · exact hfirst.trans (List.dropLast_prefix _)
  · exact List.prefix_rfl

theorem Path.Fills.front {p : Path} {names front : List String} (h : p.Fills names)
    (hfront : front <+: names) : p.Fills front := by
  refine ⟨fun name hname => h.1 name (hfront.subset hname), ?_⟩
  rcases h.2 with ⟨hfirst, hparent⟩ | ⟨rfl, hnull, hlong⟩
  · exact .inl ⟨hfront.trans hfirst, hparent⟩
  · rcases eq_or_ne front p.names with rfl | hne
    · exact .inr ⟨rfl, hnull, hlong⟩
    · refine .inl ⟨prefix_parent hfront hne, hasNull_parent hnull, ?_⟩
      rw [parent_eq_take]
      exact pathTooLong_take hlong _

namespace Storage

theorem Above.fills {s : Storage} {p : Path} {l : Location} (h : s.Above p l) :
    ∃ names, p.Fills names ∧ l = follow (s.start p.anchor) names := by
  obtain ⟨hnull, hlong, names, -, hfirst, hshort, hl⟩ := h
  exact ⟨names, ⟨hshort, .inl ⟨hfirst, hnull, hlong⟩⟩, hl⟩

/-! ## Filling a place -/

theorem makeDirectory_of_isDirectory {s : Storage} {p : Path} (h : s.isDirectory p = true) :
    s.makeDirectory p = .error .occupied := by
  obtain ⟨hlong, hpass, hdir⟩ := isDirectory_iff.1 h
  unfold makeDirectory
  cases hlast : p.names.getLast? with
  | none => simp [slot, hlong, hlast]
  | some name =>
    rw [← List.dropLast_append_getLast? name hlast, passable_append] at hpass
    obtain ⟨hfront, hparent, hname, -⟩ := hpass
    by_cases hup : name = ".."
    · have hwalk := walk_eq_ok_iff.2 ⟨hfront, rfl, hparent⟩
      simp [slot, hlong, hlast, hwalk, hup]
    · have hslot : s.slot p = .ok (some (s.place p)) :=
        slot_eq_some_iff.2 ⟨hlong, (isDirectory_iff.1 h).2.1, ⟨name, hlast, hup⟩, rfl⟩
      simp [hslot, hdir]

theorem makeDirectories_of_isDirectory {s : Storage} {p : Path} (h : s.isDirectory p = true) :
    s.makeDirectories p = (.ok (), s) := by
  rw [makeDirectories_of_error (by simp) (makeDirectory_of_isDirectory h), unlessDirectory, if_pos h]

theorem isDirectory_parent {s : Storage} {p : Path} (h : s.slot p = .ok (some (s.place p))) :
    s.isDirectory p.parent = true := by
  obtain ⟨hlong, hpass, ⟨name, hlast, -⟩, -⟩ := slot_eq_some_iff.1 h
  rw [← List.dropLast_append_getLast? name hlast, passable_append] at hpass
  refine isDirectory_iff.2 ⟨?_, hpass.1, hpass.2.1⟩
  rw [Path.parent_eq_take]
  exact pathTooLong_take hlong _

/-- A write whose directory is there only puts the file. -/
theorem writeLines_of_slot {s : Storage} {p : Path} (hnull : p.hasNull = false)
    (hslot : s.slot p = .ok (some (s.place p))) (hdir : s.node? (s.place p) ≠ some .directory)
    (lines : List String) : s.writeLines p lines = ⟨.ok (), s.put (s.place p) (fileOf lines), []⟩ := by
  have hwrite : s.writeFile p (Text.Utf8.encode (Text.unlines lines)) = .ok (s.put (s.place p) (fileOf lines)) :=
    writeFile_eq_ok_iff.2 ⟨hslot, hdir, rfl⟩
  unfold writeLines writeText
  rw [Path.hasNull_parent hnull, makeDirectories_of_isDirectory (isDirectory_parent hslot), hnull]
  simp only [hwrite, Bool.false_eq_true, if_false]

/-- Directories along the front of a path, and nothing where the next name leads. -/
structure Ready (s : Storage) (p : Path) (front : List String) (x : String) : Prop where
  next : front ++ [x] <+: p.names
  passable : s.Passable (s.start p.anchor) front
  directory : s.node? (follow (s.start p.anchor) front) = some .directory
  short : tooLong x = false
  down : x ≠ ".."
  missing : s.node? (follow (s.start p.anchor) (front ++ [x])) = none

section

variable {s : Storage} {p : Path} {front : List String} {x : String}

theorem Ready.passable_next (h : s.Ready p front x) : s.Passable (s.start p.anchor) (front ++ [x]) :=
  passable_append.2 ⟨h.passable, h.directory, h.short, trivial⟩

theorem Ready.makeDirectory_next (h : s.Ready p front x) (hlong : pathTooLong p.text = false) :
    s.makeDirectory (p.take (front.length + 1)) =
      .ok (s.put (follow (s.start p.anchor) (front ++ [x])) .directory) := by
  have hnames : (p.take (front.length + 1)).names = front ++ [x] := by
    have := List.prefix_iff_eq_take.1 h.next
    rw [List.length_append, List.length_singleton] at this
    exact this.symm
  have hplace : s.place (p.take (front.length + 1)) = follow (s.start p.anchor) (front ++ [x]) := by
    rw [place, hnames]
    rfl
  refine makeDirectory_eq_ok_iff.2 ⟨_, slot_eq_some_iff.2 ⟨pathTooLong_take hlong _, ?_, ?_, hplace.symm⟩,
    h.missing, rfl⟩
  · rw [hnames]
    exact h.passable_next
  · exact ⟨x, by rw [hnames, List.getLast?_concat], h.down⟩

theorem Ready.makeDirectory_below (h : s.Ready p front x) (hlong : pathTooLong p.text = false) {n : Nat}
    (hn : front.length < n) (hle : n < p.names.length) :
    s.makeDirectory (p.take (n + 1)) = .error .missing := by
  have hdrop : (p.take (n + 1)).names.dropLast = p.names.take n := by
    rw [show (p.take (n + 1)).names = p.names.take (n + 1) from rfl, List.dropLast_eq_take, List.length_take,
      List.take_take]
    congr 1
    omega
  have hfirst : front ++ [x] <+: p.names.take n := by
    refine List.prefix_of_prefix_length_le h.next (List.take_prefix _ _) ?_
    rw [List.length_append, List.length_singleton, List.length_take]
    omega
  have hwalk : s.walk (s.start p.anchor) (p.names.take n) = .error .missing := by
    obtain ⟨rest, hrest⟩ := hfirst
    rw [← hrest, walk_append h.passable_next, walk_of_missing h.missing]
  have hslot : s.slot (p.take (n + 1)) = .error .missing := by
    unfold slot
    rw [pathTooLong_take hlong, hdrop, show (p.take (n + 1)).anchor = p.anchor from rfl, hwalk]
    cases hlast : (p.take (n + 1)).names.getLast? with
    | none =>
      have hlength := congrArg List.length (List.getLast?_eq_none_iff.1 hlast)
      simp only [Path.take, List.length_take, List.length_nil] at hlength
      omega
    | some name => rfl
  unfold makeDirectory
  rw [hslot]

/-- The missing place is filled on the way back from the paths that go on behind it. -/
theorem Ready.node?_makeFirst (h : s.Ready p front x) (hlong : pathTooLong p.text = false) {n : Nat}
    (hn : front.length < n) (hle : n ≤ p.names.length) :
    (s.makeFirst ((List.range (n + 1)).reverse.map p.take)).2.node? (follow (s.start p.anchor) (front ++ [x])) =
      some .directory := by
  have hne : follow (s.start p.anchor) (front ++ [x]) ≠ [] := fun he => by
    have := h.missing
    simp [he] at this
  induction n with
  | zero => omega
  | succ n ih =>
    rw [List.range_succ, List.reverse_append, List.reverse_singleton, List.singleton_append, List.map_cons]
    rcases Nat.eq_or_lt_of_le (Nat.le_of_lt_succ hn) with rfl | hlt
    · unfold makeFirst
      rw [h.makeDirectory_next hlong]
      simp [node?_put, hne]
    · have hmade := ih hlt (by omega)
      generalize (List.range (n + 1)).reverse.map p.take = above at hmade ⊢
      unfold makeFirst
      rw [h.makeDirectory_below hlong hlt (by omega)]
      cases above with
      | nil => simp [makeFirst, h.missing] at hmade
      | cons q above =>
        dsimp only
        split
        · next r made hfirst => rwa [hfirst] at hmade
        · next made hfirst =>
          rw [hfirst] at hmade
          split
          · next done hdone => exact (makeDirectory_grows hdone).get hmade
          · exact hmade
          · exact hmade

end

theorem node?_writeLines_of_makeDirectories {s : Storage} {p : Path} {l : Location}
    (hnull : p.parent.hasNull = false) (h : (s.makeDirectories p.parent).2.node? l ≠ none)
    (lines : List String) : (s.writeLines p lines).storage.node? l ≠ none := by
  unfold writeLines
  rw [hnull, if_neg (by simp)]
  split
  · next r made hmade => rwa [hmade] at h
  · next made hmade =>
    rw [hmade] at h
    unfold writeText
    split
    · exact h
    · split
      · next written hwrite =>
        rw [(writeFile_eq_ok_iff.1 hwrite).2.2, node?_put]
        split
        · simp
        · exact h
      · exact h

theorem Ready.node?_writeLines {s : Storage} {p : Path} {front : List String} {x : String}
    (h : s.Ready p front x) (hfills : p.Fills (front ++ [x])) (lines : List String) :
    (s.writeLines p lines).storage.node? (follow (s.start p.anchor) (front ++ [x])) ≠ none := by
  rcases hfills.2 with ⟨hfirst, hnull, hlong⟩ | ⟨hnames, hnull, hlong⟩
  · have hparent : s.Ready p.parent front x := ⟨hfirst, h.passable, h.directory, h.short, h.down, h.missing⟩
    have hlength : front.length < p.parent.names.length := by
      have := hfirst.length_le
      rwa [List.length_append, List.length_singleton] at this
    have hmade := hparent.node?_makeFirst hlong hlength (Nat.le_refl _)
    refine node?_writeLines_of_makeDirectories hnull (fun hnone => ?_) lines
    cases hmade.symm.trans hnone
  · have hplace : s.place p = follow (s.start p.anchor) (front ++ [x]) := by rw [place, hnames]
    have hslot : s.slot p = .ok (some (s.place p)) :=
      slot_eq_some_iff.2 ⟨hlong, hnames ▸ h.passable_next, ⟨x, by rw [← hnames, List.getLast?_concat], h.down⟩, rfl⟩
    have hdir : s.node? (s.place p) ≠ some .directory := by simp [hplace, h.missing]
    have hne : s.place p ≠ [] := fun he => by
      have := h.missing
      simp [← hplace, he] at this
    rw [writeLines_of_slot hnull hslot hdir, ← hplace]
    simp [node?_put, hne]

end Storage
end ImageMacros
