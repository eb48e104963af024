import ImageMacros.Proofs.Storage.Fill
import ImageMacros.Proofs.Storage.Whole
import ImageMacros.Proofs.Text.Line
import ImageMacros.Proofs.Text.Utf8

/-!
# Files that are there already

* `Holds s p ls` : the path leads to a file with these lines, and a write can get there;
* `holds_writeLines`, `holds_writeAll` : so it is after a write that succeeds, and after writes to different
  places that all do;
* `readFile_writeLines`, `readLines_writeLines` : what is read then;
* `Holds.writeLines`, `writeAll_of_holds` : writing the same lines once more changes nothing;
* `exists_holds_of_written`, `file_or_written` : each file that was written is there in the end, and no other is new;
* `Follows.locate_file_iff` : where no write succeeded, a path leads to the file that it led to before.
-/

namespace ImageMacros.Storage

/-! ## One file -/

/-- A path that leads to a file with these lines, where a write can get. -/
structure Holds (s : Storage) (p : Path) (lines : List String) : Prop where
  noNull : p.hasNull = false
  slot : s.slot p = .ok (some (s.place p))
  file : s.node? (s.place p) = some (fileOf lines)

theorem put_of_node? {s : Storage} {l : Location} {n : Node} (hne : l ≠ []) (h : s.node? l = some n) :
    s.put l n = s := by
  have hget : s.nodes.get? l = some n := by
    unfold node? at h
    rwa [if_neg hne] at h
  have hnodes : s.nodes.insert l n = s.nodes := Dictionary.ext_get? fun k => by
    rw [Dictionary.get?_insert]
    split
    · next hk => rw [hk, hget]
    · rfl
  rw [put, hnodes]

section

variable {s t : Storage} {p : Path} {lines : List String}

theorem Holds.locate (h : s.Holds p lines) : s.locate p = .ok (s.place p, fileOf lines) := by
  obtain ⟨hlong, hpass, -, -⟩ := slot_eq_some_iff.1 h.slot
  exact locate_eq_ok_iff.2 ⟨hlong, hpass, rfl, h.file⟩

theorem Holds.readFile (h : s.Holds p lines) : s.readFile p.text = .ok (Text.Utf8.encode (Text.unlines lines)) := by
  obtain ⟨-, -, ⟨name, hlast, -⟩, -⟩ := slot_eq_some_iff.1 h.slot
  have hne : p.names ≠ [] := fun he => by simp [he] at hlast
  rw [Storage.readFile, locateText_text s hne, h.locate]
  rfl

theorem Holds.writeLines (h : s.Holds p lines) : s.writeLines p lines = ⟨.ok (), s, []⟩ := by
  have hne : s.place p ≠ [] := fun he => by
    have := h.file
    rw [he, node?_root] at this
    cases this
  rw [writeLines_of_slot h.noNull h.slot (by rw [h.file]; simp [fileOf]), put_of_node? hne h.file]

theorem Follows.slot {as : List Attempt} (hst : Follows s t as) (h : s.slot p = .ok (some (s.place p))) :
    t.slot p = .ok (some (t.place p)) := by
  obtain ⟨hlong, hpass, hlast, -⟩ := slot_eq_some_iff.1 h
  have hpass : t.Passable (t.start p.anchor) p.names := by
    rw [start_congr hst.home]
    exact hpass.mono fun l => hst.directory
  exact slot_eq_some_iff.2 ⟨hlong, hpass, hlast, rfl⟩

/-- The file stays through attempts of which none succeeds in its place. -/
theorem Holds.follows {as : List Attempt} (h : s.Holds p lines) (hst : Follows s t as)
    (hother : s.lastDone (s.place p) as = none) : t.Holds p lines := by
  refine ⟨h.noNull, hst.slot h.slot, ?_⟩
  rw [place_congr hst.home]
  exact hst.kept hother h.file

theorem holds_writeLines (h : (s.writeLines p lines).result = .ok ()) :
    (s.writeLines p lines).storage.Holds p lines := by
  obtain ⟨made, hgrows, ⟨-, hnull, hslot, hdir, hput⟩ | ⟨⟨f, herror⟩, -⟩⟩ := writeLines_cases s p lines
  · obtain ⟨hlong, hpass, hlast, -⟩ := slot_eq_some_iff.1 hslot
    have hne : s.place p ≠ [] := fun he => hdir (he ▸ node?_root made)
    have hhome : (made.put (s.place p) (fileOf lines)).home = s.home := hgrows.home
    have hkeep : ∀ l, made.node? l = some .directory →
        (made.put (s.place p) (fileOf lines)).node? l = some .directory := by
      intro l hl
      have hl' : ¬ (l = s.place p ∧ s.place p ≠ []) := fun he => hdir (he.1 ▸ hl)
      rw [node?_put, if_neg hl', hl]
    rw [hput]
    refine ⟨hnull, slot_eq_some_iff.2 ⟨hlong, hpass.mono hkeep, hlast, rfl⟩, ?_⟩
    rw [place_congr hhome, node?_put, if_pos ⟨rfl, hne⟩]
  · rw [h] at herror
    cases herror

end

/-! ## Reading what was written -/

theorem readFile_writeLines {s : Storage} {p : Path} {ls : List String}
    (h : (s.writeLines p ls).result = .ok ()) : p.hasNull = false ∧
      (s.writeLines p ls).storage.readFile p.text = .ok (Text.Utf8.encode (Text.unlines ls)) :=
  ⟨(holds_writeLines h).noNull, (holds_writeLines h).readFile⟩

/-- What is read after a write is the lines of the text that was written. -/
theorem readLines_writeLines {s : Storage} {p : Path} {ls : List String}
    (h : (s.writeLines p ls).result = .ok ()) :
    (s.writeLines p ls).storage.readLines p.text = .ok (Text.lines (Text.unlines ls)) := by
  obtain ⟨hnull, hread⟩ := readFile_writeLines h
  unfold readLines
  rw [if_neg (Path.null_not_mem_text hnull), hread]
  simp only [Text.Utf8.decode_encode]

theorem readLines_writeLines_iff {s : Storage} {p : Path} {ls : List String}
    (h : (s.writeLines p ls).result = .ok ()) :
    (s.writeLines p ls).storage.readLines p.text = .ok ls ↔ ∀ l ∈ ls, Text.OneLine l := by
  rw [readLines_writeLines h, Except.ok.injEq, Text.lines_unlines_iff]

theorem oneLine_of_readLines {s : Storage} {t : String} {ls : List String} (h : s.readLines t = .ok ls) :
    ∀ l ∈ ls, Text.OneLine l := by
  unfold readLines at h
  split at h
  · cases h
  · split at h
    · cases h
    · split at h
      · cases h
      · cases h
        exact fun l hl => Text.oneLine_of_mem_lines hl

/-! ## Files one after the other -/

/-- After writes to different places that all succeed, each file is there. -/
theorem holds_writeAll {s : Storage} {ws : List Write} (h : s.Succeeds ws)
    (hplaces : ws.Pairwise fun v w => s.place v.path ≠ s.place w.path) :
    ∀ w ∈ ws, (s.writeAll ws).Holds w.path w.lines := by
  induction ws generalizing s with
  | nil => simp
  | cons v rest ih =>
    obtain ⟨hv, hrest⟩ := List.pairwise_cons.1 hplaces
    obtain ⟨hresult, hsucceeds⟩ := succeeds_cons.1 h
    have hhome : (s.writeLines v.path v.lines).storage.home = s.home := (follows_writeLines s v).home
    rw [writeAll_cons_of_ok hresult]
    intro w hw
    rcases List.mem_cons.1 hw with rfl | hw
    · refine (holds_writeLines hresult).follows (follows_writeAll _ rest) (lastDone_eq_none fun a ha _ => ?_)
      rw [place_congr hhome, place_congr hhome]
      exact (hv a.toWrite (mem_of_mem_attempts ha)).symm
    · refine ih hsucceeds (hrest.imp fun hne => ?_) w hw
      rwa [place_congr hhome, place_congr hhome]

/-- Files that are there are written once more without any change. -/
theorem writeAll_of_holds {s : Storage} {ws : List Write} (h : ∀ w ∈ ws, s.Holds w.path w.lines) :
    s.writeAll ws = s := by
  induction ws with
  | nil => rfl
  | cons v rest ih =>
    rw [writeAll, (h v List.mem_cons_self).writeLines]
    exact ih fun w hw => h w (List.mem_cons_of_mem v hw)

theorem Follows.locate_file_iff {s t : Storage} {as : List Attempt} (h : Follows s t as) (hwhole : s.Whole) {p : Path}
    (hplain : ".." ∉ p.names) (hshort : ∀ name ∈ p.names, tooLong name = false) (hlong : pathTooLong p.text = false)
    (hother : s.lastDone (s.place p) as = none) {l : Location} {content : List UInt8} :
    t.locate p = .ok (l, .file content) ↔ s.locate p = .ok (l, .file content) := by
  rw [hwhole.locate_file_iff hplain hshort hlong, locate_eq_ok_iff, start_congr h.home, place_congr h.home]
  constructor
  · rintro ⟨-, -, rfl, hfile⟩
    exact ⟨rfl, (h.file_iff hother).1 hfile⟩
  · rintro ⟨rfl, hfile⟩
    have hpass : s.Passable (s.start p.anchor) p.names :=
      hwhole.passable p.proper hplain hshort (by rw [← place_of_plain hplain, hfile]; simp)
    exact ⟨hlong, hpass.mono fun l => h.directory, rfl, (h.file_iff hother).2 hfile⟩

end ImageMacros.Storage
