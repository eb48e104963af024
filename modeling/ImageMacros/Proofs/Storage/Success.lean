import ImageMacros.Proofs.Storage.Makeable

/-!
# When a write succeeds, and what it leaves

Everything here is about paths without double dots and without the null character.

* `Writable` : a file that can be put at a path, with the directories it needs;
* `writeLines_of_writable`, `writeLines_of_makeable`, `writeLines_of_not_makeable` : the three ways a write ends;
* `gain`, `node?_writeLines` : what a write brings to each place;
* `InFront`, `Barred` : the places in front of a path; what keeps its directory from being made (`writable_iff`);
* `Writable.leaves`, `refused_directory`, `refused_file` : what a write leaves that succeeds, and one that fails;
* `writeLines_outcome` : all of this, told by what is in front of the path.
-/

namespace ImageMacros.Storage

variable {s t : Storage} {p q : Path} {lines : List String}

/-! ## Files that can be put -/

/-- A file that can be put, with the directories that are missing above it. -/
structure Writable (s : Storage) (p : Path) : Prop where
  above : s.Makeable p.parent
  asked : pathTooLong p.text = false
  short : ∀ name ∈ p.names, tooLong name = false
  notDirectory : s.node? (s.place p) ≠ some .directory

instance (s : Storage) (p : Path) : Decidable (s.Writable p) :=
  decidable_of_iff (s.Makeable p.parent ∧ pathTooLong p.text = false ∧ (∀ name ∈ p.names, tooLong name = false) ∧
      s.node? (s.place p) ≠ some .directory)
    ⟨fun h => ⟨h.1, h.2.1, h.2.2.1, h.2.2.2⟩, fun h => ⟨h.above, h.asked, h.short, h.notDirectory⟩⟩

theorem Writable.names_ne_nil (h : s.Writable p) : p.names ≠ [] := by
  intro hnil
  refine h.notDirectory ?_
  rw [place, hnil]
  exact h.above.free.start

theorem not_reaches_parent (hplain : ".." ∉ p.names) (hne : p.names ≠ []) : ¬ s.Reaches p.parent (s.place p) := by
  intro hreach
  have hlength := ((reaches_place_iff (Path.plain_parent hplain) hplain rfl).1 hreach).1.length_le
  have hpos := List.length_pos_iff.2 hne
  rw [Path.length_parent] at hlength
  omega

theorem writeFile_eq_ok_iff_writable {u : Storage} {content : List UInt8} (hplain : ".." ∉ p.names)
    (hmade : s.makeDirectories p.parent = (.ok (), t)) :
    t.writeFile p content = .ok u ↔ s.Writable p ∧ u = t.put (s.place p) (.file content) := by
  have hgrows := makeDirectories_reaches s (Path.plain_parent hplain)
  have habove : s.Makeable p.parent := (makeDirectories_ok_iff (Path.plain_parent hplain)).1 (by rw [hmade])
  rw [hmade] at hgrows
  rw [writeFile_eq_ok_iff, place_congr hgrows.home]
  constructor
  · rintro ⟨hslot, hdir, hu⟩
    obtain ⟨hlong, hpass, -⟩ := slot_eq_some_iff.1 hslot
    exact ⟨⟨habove, hlong, hpass.short, fun h => hdir (hgrows.get h)⟩, hu⟩
  · rintro ⟨h, hu⟩
    refine ⟨?_, fun hdir => ?_, hu⟩
    · obtain ⟨name, hlast⟩ : ∃ name, p.names.getLast? = some name :=
        ⟨_, List.getLast?_eq_getLast_of_ne_nil h.names_ne_nil⟩
      have hname : name ∈ p.names := List.mem_of_getLast? hlast
      obtain ⟨-, hpass, hdir⟩ := isDirectory_iff.1 (isDirectory_makeDirectories hmade)
      refine slot_eq_some_iff.2 ⟨h.asked, ?_, ⟨name, hlast, fun he => hplain (he ▸ hname)⟩, ?_⟩
      · rw [← List.dropLast_append_getLast? name hlast, passable_append]
        exact ⟨hpass, hdir, h.short name hname, trivial⟩
      · rw [place_congr hgrows.home]
    · rcases hgrows.node (s.place p) with he | ⟨-, -, hreach⟩
      · exact h.notDirectory (he ▸ hdir)
      · exact not_reaches_parent hplain h.names_ne_nil hreach

/-! ## The ways a write ends -/

theorem writeLines_of_writable (hplain : ".." ∉ p.names) (hnull : p.hasNull = false) (h : s.Writable p) :
    s.writeLines p lines = ⟨.ok (), (s.makeDirectories p.parent).2.put (s.place p) (fileOf lines), []⟩ := by
  have hmade : s.makeDirectories p.parent = (.ok (), (s.makeDirectories p.parent).2) :=
    Prod.ext ((makeDirectories_ok_iff (Path.plain_parent hplain)).2 h.above) rfl
  have hwrite : (s.makeDirectories p.parent).2.writeFile p (Text.Utf8.encode (Text.unlines lines)) =
      .ok ((s.makeDirectories p.parent).2.put (s.place p) (fileOf lines)) :=
    (writeFile_eq_ok_iff_writable hplain hmade).2 ⟨h, rfl⟩
  rw [writeLines_of_made (Path.hasNull_parent hnull) hmade, writeText, hnull, if_neg (by simp), hwrite]

theorem writeLines_of_makeable (hplain : ".." ∉ p.names) (hnull : p.hasNull = false) (h : s.Makeable p.parent)
    (hnot : ¬ s.Writable p) (lines : List String) :
    ∃ o, (s.makeDirectories p.parent).2.writeFile p (Text.Utf8.encode (Text.unlines lines)) = .error o ∧
      s.writeLines p lines = Unwritable.outcome ⟨.file, p, ⟨o, p.text⟩⟩ (s.makeDirectories p.parent).2 := by
  have hmade : s.makeDirectories p.parent = (.ok (), (s.makeDirectories p.parent).2) :=
    Prod.ext ((makeDirectories_ok_iff (Path.plain_parent hplain)).2 h) rfl
  cases hwrite : (s.makeDirectories p.parent).2.writeFile p (Text.Utf8.encode (Text.unlines lines)) with
  | ok u => exact absurd ((writeFile_eq_ok_iff_writable hplain hmade).1 hwrite).1 hnot
  | error o =>
    refine ⟨o, rfl, ?_⟩
    rw [writeLines_of_made (Path.hasNull_parent hnull) hmade, writeText, hnull, if_neg (by simp), hwrite]

theorem writeLines_of_not_makeable (hplain : ".." ∉ p.names) (hnull : p.hasNull = false) (h : ¬ s.Makeable p.parent)
    (lines : List String) : ∃ r, s.makeDirectories p.parent = (.error r, (s.makeDirectories p.parent).2) ∧
      s.writeLines p lines = Unwritable.outcome ⟨.directory, p.parent, r⟩ (s.makeDirectories p.parent).2 := by
  cases hresult : (s.makeDirectories p.parent).1 with
  | ok => exact absurd ((makeDirectories_ok_iff (Path.plain_parent hplain)).1 hresult) h
  | error r =>
    have hmade : s.makeDirectories p.parent = (.error r, (s.makeDirectories p.parent).2) := Prod.ext hresult rfl
    exact ⟨r, hmade, writeLines_of_refused (Path.hasNull_parent hnull) hmade⟩

theorem report_writeLines (hplain : ".." ∉ p.names) (hnull : p.hasNull = false) :
    (s.writeLines p lines).report =
      if s.Writable p then .ok ()
      else if s.Makeable p.parent then .error (some p, "Failed to write file: " ++ p.text)
      else .error (some p.parent, "Failed to create directory: " ++ p.parent.text) := by
  split_ifs with h hmake
  · rw [writeLines_of_writable hplain hnull h]
    rfl
  · obtain ⟨o, -, hwrite⟩ := writeLines_of_makeable hplain hnull hmake h lines
    rw [hwrite]
    rfl
  · obtain ⟨r, -, hwrite⟩ := writeLines_of_not_makeable hplain hnull hmake lines
    rw [hwrite]
    rfl

theorem writeLines_ok_iff (hplain : ".." ∉ p.names) (hnull : p.hasNull = false) :
    (s.writeLines p lines).result = .ok () ↔ s.Writable p := by
  rw [← Outcome.report_eq_ok_iff, report_writeLines hplain hnull]
  split_ifs with h <;> simp [h]

/-! ## What a write brings -/

theorem home_writeLines (s : Storage) (p : Path) (lines : List String) :
    (s.writeLines p lines).storage.home = s.home :=
  (follows_writeLines s ⟨p, lines⟩).home

/-- What a write brings to a place: the file, or a directory on the way to it. -/
def gain (s : Storage) (p : Path) (lines : List String) (l : Location) : Option Node :=
  if s.Writable p ∧ l = s.place p then some (fileOf lines)
  else if pathTooLong p.parent.text = false ∧ s.Reaches p.parent l then some .directory
  else none

theorem gain_of_not_file {l : Location} (h : ¬ (s.Writable p ∧ l = s.place p)) :
    s.gain p lines l = if pathTooLong p.parent.text = false ∧ s.Reaches p.parent l then some .directory else none :=
  if_neg h

theorem node?_makeDirectories_parent (s : Storage) (hplain : ".." ∉ p.names) (l : Location) :
    (s.makeDirectories p.parent).2.node? l =
      (if pathTooLong p.parent.text = false ∧ s.Reaches p.parent l then some .directory else none).or (s.node? l) := by
  cases hlong : pathTooLong p.parent.text with
  | true =>
    rw [makeDirectories_of_tooLong hlong]
    simp
  | false =>
    rw [node?_makeDirectories s (Path.plain_parent hplain) hlong]
    by_cases hreach : s.Reaches p.parent l <;> simp [hreach]

theorem node?_writeLines (s : Storage) (hplain : ".." ∉ p.names) (hnull : p.hasNull = false) (lines : List String)
    (l : Location) : (s.writeLines p lines).storage.node? l = (s.gain p lines l).or (s.node? l) := by
  have hmade := node?_makeDirectories_parent s hplain l
  by_cases h : s.Writable p
  · have hne : s.place p ≠ [] := fun he => h.notDirectory (he ▸ node?_root s)
    rw [writeLines_of_writable hplain hnull h, node?_put, hmade]
    by_cases hl : l = s.place p
    · rw [if_pos ⟨hl, hne⟩, gain, if_pos ⟨h, hl⟩]
      rfl
    · rw [if_neg fun he => hl he.1, gain_of_not_file fun he => hl he.2]
  · rw [gain_of_not_file fun he => h he.1, ← hmade]
    by_cases hmake : s.Makeable p.parent
    · obtain ⟨o, -, hwrite⟩ := writeLines_of_makeable hplain hnull hmake h lines
      rw [hwrite]
      rfl
    · obtain ⟨r, -, hwrite⟩ := writeLines_of_not_makeable hplain hnull hmake lines
      rw [hwrite]
      rfl

/-! ## What is in front of a path -/

/-- The places from where a path starts to its parent. -/
def InFront (s : Storage) (p : Path) (l : Location) : Prop := ∃ n < p.names.length, l = s.place (p.take n)

/-- A file in front of the path, or a directory with a name or a path that is too long. -/
def Barred (s : Storage) (p : Path) : Prop :=
  (∃ l content, s.InFront p l ∧ s.node? l = some (.file content)) ∨ (∃ name ∈ p.parent.names, tooLong name = true) ∨
    pathTooLong p.parent.text = true

theorem Reaches.inFront {l : Location} (h : s.Reaches p.parent l) (hne : p.names ≠ []) : s.InFront p l := by
  obtain ⟨n, hn, hl, -⟩ := h
  rw [p.take_parent hn] at hl
  rw [p.length_parent] at hn
  have hpos := List.length_pos_iff.2 hne
  exact ⟨n, by omega, hl⟩

theorem not_inFront_place (hplain : ".." ∉ p.names) : ¬ s.InFront p (s.place p) := by
  rintro ⟨n, hn, hplace⟩
  rw [place_of_plain hplain, place_of_plain (Path.plain_take hplain n)] at hplace
  have hnames : p.names = p.names.take n := List.append_cancel_left hplace
  have hlength := congrArg List.length hnames
  rw [List.length_take] at hlength
  omega

theorem grows_inFront (s : Storage) (hplain : ".." ∉ p.names) :
    Grows s (s.makeDirectories p.parent).2 (s.InFront p) := by
  have hgrows := makeDirectories_reaches s (Path.plain_parent hplain)
  refine ⟨hgrows.home, fun l => (hgrows.node l).imp_right fun ⟨hnone, hdir, hreach⟩ => ⟨hnone, hdir, ?_⟩⟩
  refine hreach.inFront fun hnil => ?_
  obtain ⟨n, -, rfl, hmake⟩ := hreach
  have hstart : s.place (p.parent.take n) = s.start p.anchor := by
    simp [place, Path.take, Path.parent, hnil]
  rw [hstart] at hnone
  exact absurd (hnone.symm.trans hmake.free.start) (by simp)

/-- The directory of a path can be made if there are no files in front of it and it is not too long. -/
theorem makeable_parent_iff (hhome : s.node? s.home = some .directory) (hplain : ".." ∉ p.names) :
    s.Makeable p.parent ↔ (∀ l, s.InFront p l → s.node? l = none ∨ s.node? l = some .directory) ∧
      (∀ name ∈ p.parent.names, tooLong name = false) ∧ pathTooLong p.parent.text = false := by
  have hstart : s.node? (s.start p.anchor) = some .directory := by
    cases p.anchor with
    | relative => exact hhome
    | root => exact node?_root s
    | doubleRoot => exact node?_root s
  constructor
  · intro h
    refine ⟨?_, h.short, h.asked⟩
    rintro l ⟨n, hn, rfl⟩
    have hle : n ≤ p.parent.names.length := by
      rw [p.length_parent]
      omega
    rw [← p.take_parent hle, place_of_plain (Path.plain_take (Path.plain_parent hplain) n)]
    exact h.free.way _ (List.take_prefix _ _)
  · rintro ⟨hfront, hshort, hlong⟩
    refine ⟨hlong, hshort, hstart, fun front hfirst => ?_⟩
    by_cases hnil : p.names = []
    · have hempty : front = [] := by
        have hparent : p.parent.names = [] := by simp [Path.parent, hnil]
        exact List.prefix_nil.1 (hparent ▸ hfirst)
      rw [hempty, List.append_nil]
      exact .inr hstart
    · have hlength := hfirst.length_le
      have hpos := List.length_pos_iff.2 hnil
      rw [p.length_parent] at hlength
      have htake : front = (p.take front.length).names :=
        List.prefix_iff_eq_take.1 (hfirst.trans p.parent_prefix)
      have hplace : s.place (p.take front.length) = s.start p.anchor ++ front := by
        rw [place_of_plain (Path.plain_take hplain _), ← htake]
        rfl
      exact hplace ▸ hfront _ ⟨front.length, by omega, rfl⟩

theorem not_makeable_iff_barred (hhome : s.node? s.home = some .directory) (hplain : ".." ∉ p.names) :
    ¬ s.Makeable p.parent ↔ s.Barred p := by
  have hnode (l : Location) : ¬ (s.node? l = none ∨ s.node? l = some .directory) ↔ ∃ c, s.node? l = some (.file c) := by
    cases s.node? l with
    | none => simp
    | some n => cases n <;> simp
  rw [makeable_parent_iff hhome hplain]
  simp only [not_and_or, not_forall, hnode, Barred, exists_prop, Bool.not_eq_false, exists_and_left]

theorem writable_iff (hhome : s.node? s.home = some .directory) (hplain : ".." ∉ p.names) :
    s.Writable p ↔ (∀ l, s.InFront p l → s.node? l = none ∨ s.node? l = some .directory) ∧
      s.node? (s.place p) ≠ some .directory ∧ (∀ name ∈ p.names, tooLong name = false) ∧
      pathTooLong p.text = false := by
  constructor
  · intro h
    exact ⟨((makeable_parent_iff hhome hplain).1 h.above).1, h.notDirectory, h.short, h.asked⟩
  · rintro ⟨hfront, hdir, hshort, hlong⟩
    have hparent : pathTooLong p.parent.text = false := by
      rw [Path.parent_eq_take]
      exact pathTooLong_take hlong _
    refine ⟨(makeable_parent_iff hhome hplain).2 ⟨hfront, fun name hname => ?_, hparent⟩, hlong, hshort, hdir⟩
    exact hshort name (p.parent_prefix.subset hname)

/-! ## The outcome -/

theorem Writable.leaves (h : s.Writable p) (hplain : ".." ∉ p.names) (hnull : p.hasNull = false) (lines : List String) :
    let written := (s.writeLines p lines).storage
    written.node? (s.place p) = some (fileOf lines) ∧
      (∀ l, s.InFront p l → written.node? l = some .directory) ∧
      ∀ l, l ≠ s.place p → ¬ s.InFront p l → written.node? l = s.node? l := by
  intro written
  have hnode (l : Location) : written.node? l = (s.gain p lines l).or (s.node? l) :=
    node?_writeLines s hplain hnull lines l
  refine ⟨?_, fun l hfront => ?_, fun l hl hfront => ?_⟩
  · rw [hnode, gain, if_pos ⟨h, rfl⟩]
    rfl
  · have hl : l ≠ s.place p := fun he => not_inFront_place hplain (he ▸ hfront)
    obtain ⟨n, hn, rfl⟩ := hfront
    have hle : n ≤ p.parent.names.length := by
      rw [p.length_parent]
      omega
    have hreach : s.Reaches p.parent (s.place (p.take n)) :=
      ⟨n, hle, by rw [p.take_parent hle], h.above.take n⟩
    rw [hnode, gain_of_not_file fun he => hl he.2, if_pos ⟨h.above.asked, hreach⟩]
    rfl
  · rw [hnode, gain_of_not_file fun he => hl he.2, if_neg fun he => hfront (he.2.inFront h.names_ne_nil)]
    rfl

/-- One of the directories is not there, and cannot be made in what is left. -/
theorem refused_directory (hmake : ¬ s.Makeable p.parent) (hplain : ".." ∉ p.names) (hnull : p.hasNull = false)
    {f : Failure} (hf : (s.writeLines p lines).result = .error f) :
    ∃ u, f = .unwritable u ∧ u.path = p.parent ∧ u.message = "Failed to create directory: " ++ p.parent.text ∧
      (∃ n ≤ p.parent.names.length, u.cause.path = (p.parent.take n).text ∧
        (s.writeLines p lines).storage.makeDirectory (p.parent.take n) = .error u.cause.obstacle) ∧
      Grows s (s.writeLines p lines).storage (s.InFront p) := by
  obtain ⟨r, hmade, hwrite⟩ := writeLines_of_not_makeable hplain hnull hmake lines
  obtain ⟨n, hn, -, hpath, hrefused, -⟩ := refused_makeDirectories hmade
  rw [hwrite] at hf ⊢
  exact ⟨_, (Except.error.inj hf).symm, rfl, rfl, ⟨n, hn, hpath, hrefused⟩, grows_inFront s hplain⟩

theorem refused_file (hmake : s.Makeable p.parent) (hplain : ".." ∉ p.names) (hnull : p.hasNull = false) {f : Failure}
    (hf : (s.writeLines p lines).result = .error f) :
    ∃ u, f = .unwritable u ∧ u.path = p ∧ u.message = "Failed to write file: " ++ p.text ∧
      (u.cause.path = p.text ∧ (s.writeLines p lines).storage.writeFile p (Text.Utf8.encode (Text.unlines lines)) =
        .error u.cause.obstacle) ∧
      Grows s (s.writeLines p lines).storage (s.InFront p) := by
  have hnot : ¬ s.Writable p := fun h => by simp [(writeLines_ok_iff hplain hnull).2 h] at hf
  obtain ⟨o, hfile, hwrite⟩ := writeLines_of_makeable hplain hnull hmake hnot lines
  rw [hwrite] at hf ⊢
  exact ⟨_, (Except.error.inj hf).symm, rfl, rfl, ⟨rfl, hfile⟩, grows_inFront s hplain⟩

/-- When a write succeeds, what it leaves, and how it fails: at the directory if that is barred, at the file
otherwise. In both cases nothing is new but directories in front of the path. -/
theorem writeLines_outcome (s : Storage) (p : Path) (lines : List String)
    (hhome : s.node? s.home = some .directory) (hnull : p.hasNull = false) (hplain : ".." ∉ p.names) :
    let written := s.writeLines p lines
    (written.result = .ok () ↔
      (∀ l, s.InFront p l → s.node? l = none ∨ s.node? l = some .directory) ∧
      s.node? (s.place p) ≠ some .directory ∧ (∀ name ∈ p.names, tooLong name = false) ∧ pathTooLong p.text = false) ∧
    (written.result = .ok () → written.storage.home = s.home ∧
      written.storage.node? (s.place p) = some (fileOf lines) ∧
      (∀ l, s.InFront p l → written.storage.node? l = some .directory) ∧
      ∀ l, l ≠ s.place p → ¬ s.InFront p l → written.storage.node? l = s.node? l) ∧
    ∀ f, written.result = .error f → ∃ u, f = .unwritable u ∧
      (s.Barred p → u.path = p.parent ∧ u.message = "Failed to create directory: " ++ p.parent.text ∧
        ∃ n ≤ p.parent.names.length, u.cause.path = (p.parent.take n).text ∧
          written.storage.makeDirectory (p.parent.take n) = .error u.cause.obstacle) ∧
      (¬ s.Barred p → u.path = p ∧ u.message = "Failed to write file: " ++ p.text ∧ u.cause.path = p.text ∧
        written.storage.writeFile p (Text.Utf8.encode (Text.unlines lines)) = .error u.cause.obstacle) ∧
      Grows s written.storage (s.InFront p) := by
  intro written
  have hok : written.result = .ok () ↔ s.Writable p := writeLines_ok_iff hplain hnull
  refine ⟨hok.trans (writable_iff hhome hplain), fun h => ⟨home_writeLines s p lines, ?_⟩, fun f hf => ?_⟩
  · exact (hok.1 h).leaves hplain hnull lines
  by_cases hmake : s.Makeable p.parent
  · have hbarred : ¬ s.Barred p := fun h => (not_makeable_iff_barred hhome hplain).2 h hmake
    obtain ⟨u, hu, hpath, hmessage, ⟨hcause, hfile⟩, hgrows⟩ := refused_file hmake hplain hnull hf
    exact ⟨u, hu, fun h => absurd h hbarred, fun _ => ⟨hpath, hmessage, hcause, hfile⟩, hgrows⟩
  · have hbarred : s.Barred p := (not_makeable_iff_barred hhome hplain).1 hmake
    obtain ⟨u, hu, hpath, hmessage, hcause, hgrows⟩ := refused_directory hmake hplain hnull hf
    exact ⟨u, hu, fun _ => ⟨hpath, hmessage, hcause⟩, fun h => absurd hbarred h, hgrows⟩

/-- A file in front of the path stops the write at the directory. -/
theorem writeLines_outcome_barred :
    let s := (bare ["w"]).put ["w", "a"] (.file [])
    let p := Path.ofString "a/b/c"
    (s.node? s.home = some .directory ∧ p.hasNull = false ∧ ".." ∉ p.names) ∧ s.Barred p ∧
      ∃ u, (s.writeLines p ["x"]).result = .error (.unwritable u) ∧ u.path = Path.ofString "a/b" ∧
        u.message = "Failed to create directory: a/b" ∧
        Grows s (s.writeLines p ["x"]).storage (s.InFront p) := by
  intro s p
  have hhome : s.node? s.home = some .directory := by decide
  have hnull : p.hasNull = false := by decide
  have hplain : ".." ∉ p.names := by decide
  have hfile : s.InFront p ["w", "a"] ∧ s.node? ["w", "a"] = some (.file []) := ⟨⟨1, by decide, by decide⟩, by decide⟩
  have hbarred : s.Barred p := .inl ⟨["w", "a"], [], hfile⟩
  obtain ⟨hok, -, herror⟩ := writeLines_outcome s p ["x"] hhome hnull hplain
  cases hresult : (s.writeLines p ["x"]).result with
  | ok =>
    rcases (hok.1 hresult).1 _ hfile.1 with h | h <;> rw [hfile.2] at h <;> cases h
  | error f =>
    obtain ⟨u, rfl, hdirectory, -, hgrows⟩ := herror f hresult
    obtain ⟨hpath, hmessage, -⟩ := hdirectory hbarred
    exact ⟨⟨hhome, hnull, hplain⟩, hbarred, u, rfl, hpath.trans (by decide), hmessage.trans (by decide), hgrows⟩

/-! ## A path that is too long as a whole -/

/-- Short names, together more than can be asked for, even in front of the last. -/
def deepPath : Path := .ofLongNames 42

/-- Short names with nothing in front are not enough for a write to succeed. -/
theorem refused_deepPath :
    let s := bare ["w"]
    (s.node? s.home = some .directory ∧ deepPath.hasNull = false ∧ ".." ∉ deepPath.names) ∧
      ((∀ l, s.InFront deepPath l → s.node? l = none ∨ s.node? l = some .directory) ∧
        s.node? (s.place deepPath) ≠ some .directory ∧ ∀ name ∈ deepPath.names, tooLong name = false) ∧
      (s.writeLines deepPath ["x"]).result ≠ .ok () := by
  intro s
  have hnull : deepPath.hasNull = false := Path.hasNull_ofLongNames 42
  have hplain : ".." ∉ deepPath.names := Path.plain_ofLongNames 42
  have hshort : ∀ name ∈ deepPath.names, tooLong name = false := fun name h => Path.eq_longName h ▸ longName_fits.1
  have hlong : pathTooLong deepPath.text = true := pathTooLong_of_longNames [longName] rfl
  refine ⟨⟨by decide, hnull, hplain⟩, ⟨fun l _ => ?_, ?_, hshort⟩, fun hok => ?_⟩
  · rw [node?_bare]
    split
    · exact .inr rfl
    · exact .inl rfl
  · have hplace : ¬ s.place deepPath <+: ["w"] := fun hfront => by
      have hlength := hfront.length_le
      rw [place_of_plain hplain, List.length_append, show deepPath.names = List.replicate 42 longName from rfl,
        List.length_replicate, List.length_singleton] at hlength
      omega
    rw [node?_bare, if_neg hplace]
    simp
  · have hasked := ((writeLines_ok_iff hplain hnull).1 hok).asked
    rw [hlong] at hasked
    cases hasked

end ImageMacros.Storage
