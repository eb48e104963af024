import ImageMacros.Proofs.Storage.Again

/-!
# Directories that can be made

Everything here is about paths without double dots.

* `Free` : no file stands in the way of names (`Free.walk`);
* `Makeable` : a directory that is there, or can be made with all that is missing above it;
* `makeDirectories_ok_iff` : directories are made exactly if the last of them can be;
* `Reaches`, `node?_makeDirectories` : otherwise they are made as far as that is possible.
-/

namespace ImageMacros.Storage

variable {s t : Storage} {p q : Path}

/-! ## Free ways -/

/-- Names that lead down from a directory, with no file on their way or at their end. -/
structure Free (s : Storage) (l : Location) (names : List String) : Prop where
  start : s.node? l = some .directory
  way : ∀ front, front <+: names → s.node? (l ++ front) = none ∨ s.node? (l ++ front) = some .directory

instance (s : Storage) (l : Location) (names : List String) : Decidable (s.Free l names) :=
  decidable_of_iff (s.node? l = some .directory ∧
      ∀ front ∈ names.inits, s.node? (l ++ front) = none ∨ s.node? (l ++ front) = some .directory)
    ⟨fun h => ⟨h.1, fun front hfront => h.2 front ((List.mem_inits _ _).2 hfront)⟩,
      fun h => ⟨h.start, fun front hfront => h.way front ((List.mem_inits _ _).1 hfront)⟩⟩

theorem Free.front {l : Location} {front names : List String} (h : s.Free l names) (hfront : front <+: names) :
    s.Free l front := ⟨h.start, fun k hk => h.way k (hk.trans hfront)⟩

/-- A free way leads to a directory, as long as nothing is missing. -/
theorem Free.walk {l : Location} {names : List String} (h : s.Free l names)
    (hproper : ∀ name ∈ names, ProperName name) (hplain : ".." ∉ names)
    (hshort : ∀ name ∈ names, tooLong name = false) :
    s.walk l names = .ok (l ++ names, .directory) ∨ s.walk l names = .error .missing := by
  induction names generalizing l with
  | nil => exact .inl (by simp [Storage.walk, h.start])
  | cons name rest ih =>
    obtain ⟨hempty, hdot, -⟩ := hproper name List.mem_cons_self
    simp only [List.mem_cons, not_or] at hplain
    have hstep : s.walk l (name :: rest) = s.walk (l ++ [name]) rest := by
      rw [Storage.walk, h.start]
      simp [hempty, hdot, Ne.symm hplain.1, hshort name List.mem_cons_self]
    rw [hstep]
    rcases h.way [name] (List.cons_prefix_cons.2 ⟨rfl, List.nil_prefix⟩) with hnone | hdir
    · exact .inr (walk_of_missing hnone rest)
    · have hrest : s.Free (l ++ [name]) rest := by
        refine ⟨hdir, fun front hfront => ?_⟩
        have hway := h.way (name :: front) (List.cons_prefix_cons.2 ⟨rfl, hfront⟩)
        rwa [List.append_assoc, List.singleton_append]
      have hwalk := ih hrest (fun n hn => hproper n (List.mem_cons_of_mem _ hn)) hplain.2
        fun n hn => hshort n (List.mem_cons_of_mem _ hn)
      rwa [List.append_assoc, List.singleton_append] at hwalk

/-! ## Directories that can be made -/

/-- A directory that is there, or can be made with all that is missing above it. -/
structure Makeable (s : Storage) (q : Path) : Prop where
  asked : pathTooLong q.text = false
  short : ∀ name ∈ q.names, tooLong name = false
  free : s.Free (s.start q.anchor) q.names

instance (s : Storage) (q : Path) : Decidable (s.Makeable q) :=
  decidable_of_iff (pathTooLong q.text = false ∧ (∀ name ∈ q.names, tooLong name = false) ∧
      s.Free (s.start q.anchor) q.names)
    ⟨fun h => ⟨h.1, h.2.1, h.2.2⟩, fun h => ⟨h.asked, h.short, h.free⟩⟩

theorem Makeable.take (h : s.Makeable q) (n : Nat) : s.Makeable (q.take n) where
  asked := pathTooLong_take h.asked n
  short name hname := h.short name (List.mem_of_mem_take hname)
  free := h.free.front (List.take_prefix n q.names)

theorem Makeable.grows {W : Location → Prop} (h : s.Makeable q) (hgrows : Grows s t W) : t.Makeable q := by
  refine ⟨h.asked, h.short, ?_⟩
  rw [start_congr hgrows.home]
  refine ⟨hgrows.get h.free.start, fun front hfront => ?_⟩
  rcases hgrows.node (s.start q.anchor ++ front) with he | ⟨-, hdir, -⟩
  · rw [he]
    exact h.free.way front hfront
  · exact .inr hdir

theorem makeDirectory_of_walk (hne : q.names ≠ []) (hlong : pathTooLong q.text = false)
    (hwalk : s.walk (s.start q.anchor) q.parent.names = .error .missing) : s.makeDirectory q = .error .missing := by
  have hlast : q.names.getLast? = some (q.names.getLast hne) := List.getLast?_eq_getLast_of_ne_nil hne
  unfold makeDirectory slot
  rw [hlong, if_neg (by simp), hlast, show q.names.dropLast = q.parent.names from rfl, hwalk]

/-- What can be made is there, can be made at once, or something above it is missing. -/
theorem Makeable.makeDirectory (h : s.Makeable q) (hplain : ".." ∉ q.names) :
    s.isDirectory q = true ∨ (∃ made, s.makeDirectory q = .ok made) ∨ s.makeDirectory q = .error .missing := by
  cases hlast : q.names.getLast? with
  | none =>
    have hnil := List.getLast?_eq_none_iff.1 hlast
    refine .inl (isDirectory_iff.2 ⟨h.asked, ?_, ?_⟩)
    · rw [hnil]
      trivial
    · rw [place, hnil]
      exact h.free.start
  | some name =>
    have hfront : q.names.dropLast <+: q.names := List.dropLast_prefix _
    have hname : name ∈ q.names := List.mem_of_getLast? hlast
    have hwalk := (h.free.front hfront).walk (fun n hn => q.proper n (hfront.subset hn))
      (fun hn => hplain (hfront.subset hn)) fun n hn => h.short n (hfront.subset hn)
    rcases hwalk with hwalk | hwalk
    · obtain ⟨hpass, -, hdir⟩ := walk_eq_ok_iff.1 hwalk
      have hpassable : s.Passable (s.start q.anchor) q.names := by
        rw [← List.dropLast_append_getLast? name hlast, passable_append]
        refine ⟨hpass, ?_, h.short name hname, trivial⟩
        rwa [follow_of_plain (fun n hn => q.proper n (hfront.subset hn)) fun hn => hplain (hfront.subset hn)]
      have hslot : s.slot q = .ok (some (s.place q)) :=
        slot_eq_some_iff.2 ⟨h.asked, hpassable, ⟨name, hlast, fun he => hplain (he ▸ hname)⟩, rfl⟩
      have hplace := h.free.way q.names List.prefix_rfl
      rw [← place_of_plain hplain] at hplace
      rcases hplace with hnone | hthere
      · exact .inr (.inl ⟨_, makeDirectory_eq_ok_iff.2 ⟨_, hslot, hnone, rfl⟩⟩)
      · exact .inl (isDirectory_iff.2 ⟨h.asked, hpassable, hthere⟩)
    · have hne : q.names ≠ [] := fun he => by simp [he] at hlast
      exact .inr (.inr (makeDirectory_of_walk hne h.asked hwalk))

theorem not_makeable_of_refused {o : Obstacle} (hplain : ".." ∉ q.names) (ho : o ≠ .missing)
    (hrefused : s.makeDirectory q = .error o) (hdir : s.isDirectory q = false) : ¬ s.Makeable q := by
  intro hmake
  rcases hmake.makeDirectory hplain with hthere | ⟨made, hmade⟩ | hmissing
  · simp [hthere] at hdir
  · simp [hmade] at hrefused
  · exact ho (Except.error.inj (hrefused.symm.trans hmissing))

/-- Names can be followed to where nothing is, or a directory. -/
theorem makeable_of_passable (hplain : ".." ∉ q.names) (hlong : pathTooLong q.text = false)
    (hpass : s.Passable (s.start q.anchor) q.names) (hstart : s.node? (s.start q.anchor) = some .directory)
    (hend : s.node? (s.place q) = none ∨ s.node? (s.place q) = some .directory) : s.Makeable q := by
  refine ⟨hlong, hpass.short, hstart, fun front hfront => ?_⟩
  obtain ⟨rest, hrest⟩ := hfront
  by_cases hnil : rest = []
  · rw [hnil, List.append_nil] at hrest
    rwa [hrest, ← place_of_plain hplain]
  · rw [← hrest] at hpass
    have hdir := hpass.directory hnil
    rw [follow_of_plain (fun n hn => q.proper n (hrest ▸ List.mem_append_left _ hn))
      fun hn => hplain (hrest ▸ List.mem_append_left _ hn)] at hdir
    exact .inr hdir

theorem makeable_of_isDirectory (hplain : ".." ∉ q.names) (h : s.isDirectory q = true) : s.Makeable q := by
  obtain ⟨hlong, hpass, hdir⟩ := isDirectory_iff.1 h
  refine makeable_of_passable hplain hlong hpass ?_ (.inr hdir)
  exact (isDirectory_iff.1 (isDirectory_take h 0)).2.2

theorem makeable_of_slot (hplain : ".." ∉ q.names) (hslot : s.slot q = .ok (some (s.place q)))
    (hnone : s.node? (s.place q) = none) : s.Makeable q := by
  obtain ⟨hlong, hpass, ⟨name, hlast, -⟩, -⟩ := slot_eq_some_iff.1 hslot
  have hne : q.names ≠ [] := fun he => by simp [he] at hlast
  have hstart : s.node? (follow (s.start q.anchor) []) = some .directory := hpass.directory hne
  exact makeable_of_passable hplain hlong hpass hstart (.inl hnone)

/-! ## Making directories -/

/-- The directories on the way that can be made. -/
def Reaches (s : Storage) (q : Path) (l : Location) : Prop :=
  ∃ n ≤ q.names.length, l = s.place (q.take n) ∧ s.Makeable (q.take n)

theorem Makeable.of_grows (h : t.Makeable q) (hgrows : Grows s t (s.Reaches p)) (hanchor : q.anchor = p.anchor) :
    s.Makeable q := by
  have hfree := h.free
  rw [start_congr hgrows.home] at hfree
  refine ⟨h.asked, h.short, ?_, fun front hfront => ?_⟩
  · rcases hgrows.node (s.start q.anchor) with he | ⟨-, -, n, -, -, hmake⟩
    · rw [← he]
      exact hfree.start
    · rw [hanchor]
      exact hmake.free.start
  · rcases hgrows.node (s.start q.anchor ++ front) with he | ⟨hnone, -, -⟩
    · rw [← he]
      exact hfree.way front hfront
    · exact .inl hnone

/-- Of two paths with one anchor, the one is on the way to the other if its names come first. -/
theorem reaches_place_iff (hp : ".." ∉ p.names) (hq : ".." ∉ q.names) (hanchor : q.anchor = p.anchor) :
    s.Reaches p (s.place q) ↔ q.names <+: p.names ∧ s.Makeable q := by
  constructor
  · rintro ⟨n, -, hplace, hmake⟩
    rw [place_of_plain hq, place_of_plain (Path.plain_take hp n), hanchor] at hplace
    have hnames : q.names = p.names.take n := List.append_cancel_left hplace
    have htake : p.take n = q := Path.ext_iff'.2 ⟨hanchor.symm, hnames.symm⟩
    exact ⟨hnames ▸ List.take_prefix _ _, htake ▸ hmake⟩
  · rintro ⟨hnames, hmake⟩
    have htake : p.take q.names.length = q :=
      Path.ext_iff'.2 ⟨hanchor.symm, (List.prefix_iff_eq_take.1 hnames).symm⟩
    exact ⟨_, hnames.length_le, by rw [htake], htake.symm ▸ hmake⟩

instance (s : Storage) (q : Path) (l : Location) : Decidable (s.Reaches q l) := by
  unfold Reaches
  infer_instance

theorem makeDirectories_reaches (s : Storage) (hplain : ".." ∉ q.names) :
    Grows s (s.makeDirectories q).2 (s.Reaches q) := by
  refine makeFirst_induction (motive := fun u => Grows s u (s.Reaches q)) (.refl s _) fun p hp u t hu hmade => ?_
  obtain ⟨n, hn, rfl⟩ := Path.mem_ancestry.1 hp
  obtain ⟨l, hslot, hnone, rfl⟩ := makeDirectory_eq_ok_iff.1 hmade
  obtain rfl := (slot_eq_some_iff.1 hslot).2.2.2
  -- what was made before could be made from the start, so this directory could be too
  have hmake : s.Makeable (q.take n) := (makeable_of_slot (Path.plain_take hplain n) hslot hnone).of_grows hu rfl
  exact hu.trans ((Grows.put hnone).mono fun l hl => ⟨n, hn, hl.trans (place_congr hu.home _), hmake⟩)

/-- Directories are made exactly if the last of them can be. -/
theorem makeDirectories_ok_iff (hplain : ".." ∉ q.names) : (s.makeDirectories q).1 = .ok () ↔ s.Makeable q := by
  have hgrows := makeDirectories_reaches s hplain
  generalize hmade : s.makeDirectories q = made at hgrows ⊢
  obtain ⟨result, made⟩ := made
  cases result with
  | ok =>
    have hdir := isDirectory_makeDirectories hmade
    exact ⟨fun _ => (makeable_of_isDirectory hplain hdir).of_grows hgrows rfl, fun _ => rfl⟩
  | error r =>
    obtain ⟨n, -, ho, -, hrefused, hdir⟩ := refused_makeDirectories hmade
    have hnot := not_makeable_of_refused (Path.plain_take hplain n) ho hrefused hdir
    exact ⟨fun h => by simp at h, fun h => absurd ((h.take n).grows hgrows) hnot⟩

theorem walk_append_error {l : Location} {as : List String} {o : Obstacle} (h : s.walk l as = .error o)
    (bs : List String) : s.walk l (as ++ bs) = .error o := by
  induction as generalizing l with
  | nil =>
    unfold walk at h
    cases hl : s.node? l with
    | none =>
      rw [hl] at h
      rw [List.nil_append, walk_of_missing hl, ← h]
    | some n => simp [hl] at h
  | cons name as ih =>
    unfold walk at h
    rw [List.cons_append, walk]
    split at h
    · exact h
    · exact h
    · split_ifs at h ⊢ with hdot hup hlong
      · exact ih h
      · exact ih h
      · exact h
      · exact ih h

theorem isDirectory_makeDirectories_take (hplain : ".." ∉ q.names) (hlong : pathTooLong q.text = false) {n : Nat}
    (h : s.Makeable (q.take n)) : (s.makeDirectories q).2.isDirectory (q.take n) = true := by
  have hgrows := makeDirectories_reaches s hplain
  generalize hmade : s.makeDirectories q = made at hgrows ⊢
  obtain ⟨result, made⟩ := made
  cases result with
  | ok => exact isDirectory_take (isDirectory_makeDirectories hmade) n
  | error r =>
    obtain ⟨m, hm, ho, -, hrefused, hdir⟩ := refused_makeDirectories hmade
    have hmake : made.Makeable (q.take n) := h.grows hgrows
    have hrefuse := not_makeable_of_refused (Path.plain_take hplain m) ho hrefused hdir
    have hlt : n < m := by
      by_contra hle
      have htake := hmake.take m
      rw [Path.take_take, Nat.min_eq_left (Nat.le_of_not_lt hle)] at htake
      exact hrefuse htake
    rcases hmake.free.walk (q.take n).proper (Path.plain_take hplain n) hmake.short with hwalk | hwalk
    · obtain ⟨hpass, -, hnode⟩ := walk_eq_ok_iff.1 hwalk
      refine isDirectory_iff.2 ⟨hmake.asked, hpass, ?_⟩
      rwa [place_of_plain (Path.plain_take hplain n)]
    · obtain ⟨k, rfl⟩ : ∃ k, m = k + 1 := ⟨m - 1, by omega⟩
      have hfront : (q.take n).names ++ (q.names.take k).drop n = q.names.take k := by
        have htake : (q.names.take k).take n = q.names.take n := by
          rw [List.take_take, Nat.min_eq_left (by omega)]
        rw [show (q.take n).names = q.names.take n from rfl, ← htake, List.take_append_drop]
      have hparent : made.walk (made.start (q.take (k + 1)).anchor) (q.take (k + 1)).parent.names =
          .error .missing := by
        rw [Path.parent_take hm, show (q.take k).names = q.names.take k from rfl, ← hfront]
        exact walk_append_error hwalk _
      have hne : (q.take (k + 1)).names ≠ [] := by
        rw [← List.length_pos_iff, show (q.take (k + 1)).names = q.names.take (k + 1) from rfl, List.length_take]
        omega
      rw [makeDirectory_of_walk hne (pathTooLong_take hlong _) hparent] at hrefused
      exact absurd (Except.error.inj hrefused).symm ho

/-- Those that can be made are made, even if the ones behind them cannot. -/
theorem node?_makeDirectories (s : Storage) (hplain : ".." ∉ q.names) (hlong : pathTooLong q.text = false)
    (l : Location) :
    (s.makeDirectories q).2.node? l = if s.Reaches q l then some .directory else s.node? l := by
  have hgrows := makeDirectories_reaches s hplain
  split
  · next h =>
    obtain ⟨n, -, rfl, hmake⟩ := h
    have hdir := (isDirectory_iff.1 (isDirectory_makeDirectories_take hplain hlong hmake)).2.2
    rwa [place_congr hgrows.home] at hdir
  · next h => exact (hgrows.node l).resolve_right fun hnew => h hnew.2.2

end ImageMacros.Storage
