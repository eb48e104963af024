import ImageMacros.Proofs.MacroFile.Writes
import ImageMacros.Proofs.Storage.Fill
import ImageMacros.Proofs.Storage.Whole
import Mathlib.Data.List.Infix

/-!
# Staying below an install root

* `OnPath` : the places on a root's own path, above it and below;
* `Confined` : only the root, what is missing above it and what is below it has changed;
* `confined_writeLines` : a write is confined if all places that it can fill are on the path;
* `exists_leaving` : names that leave the path do so at a first place;
* `Storage.along` : the storage with directories along given names, in which a write gets to that place;
* `stage_confined_iff` : the macro files that are staged below their root in every storage.
-/

namespace ImageMacros

open Storage

/-! ## The root's own path -/

/-- The places above and below a root, and the root. -/
def OnPath (root l : Location) : Prop := l <+: root ∨ root <+: l

instance (root l : Location) : Decidable (OnPath root l) := by unfold OnPath; infer_instance

theorem OnPath.above {root l m : Location} (h : OnPath root l) (hm : m <+: l) : OnPath root m := by
  rcases h with h | h
  · exact .inl (hm.trans h)
  · exact List.prefix_or_prefix_of_prefix hm h

/-- Names that lead from a place below `l` to one that is not pass `l` on the way. -/
theorem exists_passing {l m : Location} {names : List String} (hm : l <+: m) (h : ¬ l <+: follow m names) :
    ∃ front, front <+: names ∧ front ≠ names ∧ follow m front = l := by
  induction names generalizing m with
  | nil => exact absurd hm h
  | cons name rest ih =>
    by_cases hnext : l <+: enter m name
    · obtain ⟨front, hfirst, hne, hl⟩ := ih hnext h
      exact ⟨name :: front, List.cons_prefix_cons.2 ⟨rfl, hfirst⟩, by simpa using hne, hl⟩
    · refine ⟨[], List.nil_prefix, by simp, ?_⟩
      -- only the way up leaves the places below `l`, and from a place further below it would not
      unfold enter at hnext
      split_ifs at hnext with hdot hup
      · exact absurd hm hnext
      · by_contra hne
        obtain ⟨rest, rfl⟩ := hm
        have hrest : rest ≠ [] := fun he => hne (by simp [he])
        rw [List.dropLast_append_of_ne_nil hrest] at hnext
        exact hnext (List.prefix_append _ _)
      · exact absurd (hm.trans (List.prefix_append _ _)) hnext

theorem exists_leaving {root l : Location} {names : List String} (hl : OnPath root l)
    (h : ¬ OnPath root (follow l names)) :
    ∃ front x, front ++ [x] <+: names ∧ (∀ k, k <+: front → OnPath root (follow l k)) ∧
      ¬ OnPath root (follow l (front ++ [x])) := by
  induction names generalizing l with
  | nil => exact absurd hl h
  | cons name rest ih =>
    by_cases hnext : OnPath root (enter l name)
    · obtain ⟨front, x, hfirst, hfront, hx⟩ := ih hnext h
      refine ⟨name :: front, x, List.cons_prefix_cons.2 ⟨rfl, hfirst⟩, fun k hk => ?_, hx⟩
      rcases List.prefix_cons_iff.1 hk with rfl | ⟨rest, rfl, hrest⟩
      · exact hl
      · exact hfront rest hrest
    · refine ⟨[], name, List.cons_prefix_cons.2 ⟨rfl, List.nil_prefix⟩, fun k hk => ?_, hnext⟩
      rw [List.prefix_nil.1 hk]
      exact hl

/-! ## Confined changes -/

/-- Nothing has changed but the root, directories above it and what is below it. -/
def Confined (s t : Storage) (root : Location) : Prop :=
  ∀ l, t.node? l ≠ s.node? l →
    root <+: l ∨ l <+: root ∧ s.node? l = none ∧ t.node? l = some .directory

/-- A path below a root that leads above the root has passed it. -/
theorem directory_of_slot {s : Storage} {root q : Path} {m : Location}
    (h : s.slot (root.within q) = .ok (some m)) (habove : m <+: s.place root) (hne : m ≠ s.place root) :
    s.node? m = some .directory := by
  obtain ⟨-, hpass, ⟨x, hlast, hup⟩, hm⟩ := slot_eq_some_iff.1 h
  have hplace : m = follow (s.place root) q.names := by
    rw [hm, place, place, ← follow_append]
    rfl
  rcases List.eq_nil_or_concat' q.names with hq | ⟨names, y, hq⟩
  · rw [hq] at hplace
    exact absurd hplace hne
  · have hy : y = x := by
      have hnames : (root.within q).names = root.names ++ (names ++ [y]) := by rw [← hq]; rfl
      rw [hnames, ← List.append_assoc, List.getLast?_concat] at hlast
      exact Option.some.inj hlast
    subst hy
    have hproper : ProperName y := q.proper y (by simp [hq])
    rw [hq, follow_append, follow_cons, follow_nil, enter, if_neg (not_or.2 ⟨hproper.1, hproper.2.1⟩),
      if_neg hup] at hplace
    have hout : ¬ m <+: follow (s.place root) names := fun hm => by
      have := hm.length_le
      rw [hplace, List.length_append, List.length_singleton] at this
      omega
    obtain ⟨front, ⟨rest, rfl⟩, -, hfront⟩ := exists_passing habove hout
    have hnames : (root.within q).names = (root.names ++ front) ++ (rest ++ [y]) := by
      rw [show (root.within q).names = root.names ++ q.names from rfl, hq, List.append_assoc, List.append_assoc]
    rw [hnames] at hpass
    have hdir := hpass.directory (by simp)
    rwa [follow_append, show follow (s.start (root.within q).anchor) root.names = s.place root from rfl,
      hfront] at hdir

/-- A write is confined if all places that it can fill are on the root's path. -/
theorem confined_writeLines {s : Storage} {root q : Path}
    (h : ∀ names, (root.within q).Fills names → OnPath (s.place root) (follow (s.start root.anchor) names))
    (lines : List String) : Confined s (s.writeLines (root.within q) lines).storage (s.place root) := by
  intro l hl
  by_cases hbelow : s.place root <+: l
  · exact .inl hbelow
  obtain ⟨made, hgrows, hcases⟩ := writeLines_cases s (root.within q) lines
  have hmade : (s.writeLines (root.within q) lines).storage.node? l = made.node? l := by
    rcases hcases with ⟨-, hnull, hslot, hdir, hput⟩ | ⟨-, hmade⟩
    · rw [hput, node?_put]
      refine if_neg fun he => ?_
      obtain ⟨hlong, hpass, -, -⟩ := slot_eq_some_iff.1 hslot
      have hpath := h _ ⟨hpass.short, .inr ⟨rfl, hnull, hlong⟩⟩
      rw [show follow (s.start root.anchor) (root.within q).names = s.place (root.within q) from rfl, ← he.1] at hpath
      have habove : l <+: made.place root := by
        rw [place_congr hgrows.home]
        exact hpath.resolve_right hbelow
      have hne : l ≠ made.place root := by
        rintro rfl
        exact hbelow (by rw [place_congr hgrows.home])
      rw [← he.1] at hslot hdir
      exact hdir (directory_of_slot hslot habove hne)
    · rw [hmade]
  rw [hmade] at hl ⊢
  rcases hgrows.node l with he | ⟨hs, hdir, habove⟩
  · exact absurd he hl
  · obtain ⟨names, hfills, rfl⟩ := habove.fills
    exact .inr ⟨(h names hfills).resolve_right hbelow, hs, hdir⟩

/-! ## A storage for a way -/

namespace Storage

def ofDirectories (home : Location) : List Location → Storage
  | [] => ⟨.empty, home⟩
  | l :: ls => (ofDirectories home ls).put l .directory

theorem home_ofDirectories (home : Location) (ls : List Location) : (ofDirectories home ls).home = home := by
  induction ls with
  | nil => rfl
  | cons l ls ih => exact ih

theorem node?_ofDirectories (home : Location) (ls : List Location) (m : Location) :
    (ofDirectories home ls).node? m = if m = [] ∨ m ∈ ls then some .directory else none := by
  induction ls with
  | nil => by_cases hm : m = [] <;> simp [ofDirectories, node?, hm, Dictionary.get?_empty]
  | cons l ls ih =>
    rw [ofDirectories, node?_put, ih]
    by_cases hm : m = []
    · simp [hm]
    · by_cases hl : m = l
      · subst hl; simp [hm]
      · simp [hm, hl]

/-- Directories at all places along the names, and above them. -/
def along (home l : Location) (names : List String) : Storage :=
  ofDirectories home (names.inits.flatMap fun k => (follow l k).inits)

theorem node?_along_ne_none {home l m : Location} {names : List String} :
    (along home l names).node? m ≠ none ↔ ∃ k, k <+: names ∧ m <+: follow l k := by
  have hmem : (m = [] ∨ m ∈ names.inits.flatMap fun k => (follow l k).inits) ↔
      ∃ k, k <+: names ∧ m <+: follow l k := by
    simp only [List.mem_flatMap, List.mem_inits]
    exact ⟨fun h => h.elim (fun he => ⟨[], List.nil_prefix, he ▸ List.nil_prefix⟩) id, .inr⟩
  rw [along, node?_ofDirectories, ← hmem]
  split <;> simp_all

theorem node?_along {home l m : Location} {names : List String}
    (h : ∃ k, k <+: names ∧ m <+: follow l k) : (along home l names).node? m = some .directory := by
  have hne : (along home l names).node? m ≠ none := node?_along_ne_none.2 h
  rw [along, node?_ofDirectories] at hne ⊢
  split at hne
  · next hm => rw [if_pos hm]
  · exact absurd rfl hne

theorem whole_along (home l : Location) (names : List String) : (along home l names).Whole := by
  intro m name h
  obtain ⟨k, hk, hm⟩ := node?_along_ne_none.1 h
  exact node?_along ⟨k, hk, (List.prefix_append _ _).trans hm⟩

theorem home_along (home l : Location) (names : List String) : (along home l names).home = home :=
  home_ofDirectories _ _

theorem ready_along {home l : Location} {p : Path} {front : List String} {x : String}
    (hl : l = (bare home).start p.anchor) (hnext : front ++ [x] <+: p.names)
    (hshort : ∀ name ∈ front ++ [x], tooLong name = false) (hdown : x ≠ "..")
    (hout : ∀ k, k <+: front → ¬ follow l (front ++ [x]) <+: follow l k) :
    (along home l front).Ready p front x := by
  have hstart : (along home l front).start p.anchor = l :=
    (start_congr (home_along home l front) p.anchor : _ = (bare home).start p.anchor).trans hl.symm
  have hdir : ∀ k, k <+: front → (along home l front).node? (follow l k) = some .directory :=
    fun k hk => node?_along ⟨k, hk, List.prefix_rfl⟩
  refine ⟨hnext, ?_, ?_, hshort x (by simp), hdown, ?_⟩ <;> rw [hstart]
  · exact passable_of_directories hdir fun name hname => hshort name (List.mem_append_left _ hname)
  · exact hdir front List.prefix_rfl
  · by_contra hne
    obtain ⟨k, hk, hm⟩ := node?_along_ne_none.1 hne
    exact hout k hk hm

end Storage

/-! ## Macro files -/

namespace MacroFile

/-- Each place that the macro file's path can fill is on the path of the root. -/
def Stays (home : Location) (root name : String) : Prop :=
  ∀ names, (Path.under root name).Fills names →
    OnPath ((bare home).place (Path.ofString root)) (follow ((bare home).start (Path.ofString root).anchor) names)

instance (home : Location) (root name : String) : Decidable (Stays home root name) :=
  decidable_of_iff (∀ names ∈ (Path.under root name).names.inits, (Path.under root name).Fills names →
      OnPath ((bare home).place (Path.ofString root))
        (follow ((bare home).start (Path.ofString root).anchor) names))
    ⟨fun h names hfills => h names ((List.mem_inits _ _).2 hfills.first) hfills, fun h names _ => h names⟩

theorem confined_stage {s : Storage} {root name : String} (h : Stays s.home root name)
    (definitions : Definitions) (comments : List String) :
    Confined s (stage s root name definitions comments).storage (s.place (Path.ofString root)) := by
  cases hne : definitions.isEmpty with
  | true =>
    have hsame : (stage s root name definitions comments).storage = s := by simp [stage, hne]
    rw [hsame]
    exact fun l hl => absurd rfl hl
  | false =>
    rw [storage_stage_of_ne s root name comments hne]
    refine confined_writeLines (fun names hnames => ?_) _
    have hplace : (bare s.home).place (Path.ofString root) = s.place (Path.ofString root) := place_congr rfl _
    have hstart : (bare s.home).start (Path.ofString root).anchor = s.start (Path.ofString root).anchor :=
      start_congr rfl _
    rw [← hplace, ← hstart]
    exact h names hnames

theorem stays_of_plain {root name : String} (hroot : ".." ∉ (Path.ofString root).names)
    (hname : ".." ∉ (Path.ofString name).names) (home : Location) : Stays home root name := by
  intro names hfills
  have hnames : names <+: (Path.ofString root).names ++ (Path.ofString name).names := hfills.first
  have hplain : ".." ∉ names := fun h => (List.mem_append.1 (hnames.subset h)).elim hroot hname
  have hproper : ∀ n ∈ names, ProperName n := fun n hn => (Path.under root name).proper n (hfills.first.subset hn)
  rw [place_of_plain hroot, follow_of_plain hproper hplain]
  rcases List.prefix_or_prefix_of_prefix hnames (List.prefix_append _ _) with h | h
  · exact .inl ((List.prefix_append_right_inj _).2 h)
  · exact .inr ((List.prefix_append_right_inj _).2 h)

/-- A macro file is confined in every storage exactly if all places that its path can fill are on the root's
path. -/
theorem stage_confined_iff (home : Location) (root name : String)
    (hroot : ".." ∉ (Path.ofString root).names) :
    (∀ s : Storage, s.home = home → s.Whole → ∀ (definitions : Definitions) (comments : List String),
      Confined s (stage s root name definitions comments).storage (s.place (Path.ofString root))) ↔
    Stays home root name := by
  refine ⟨fun hall names hfills => ?_, fun h s hs _ definitions comments => ?_⟩
  · by_contra hleaves
    generalize hl : (bare home).start (Path.ofString root).anchor = l at hleaves
    have hstart : OnPath ((bare home).place (Path.ofString root)) l := by
      rw [place_of_plain hroot, hl]
      exact .inl (List.prefix_append _ _)
    obtain ⟨front, x, hfirst, hfront, hx⟩ := exists_leaving hstart hleaves
    have hdown : x ≠ ".." := by
      rintro rfl
      have hup : follow l (front ++ [".."]) = (follow l front).dropLast := by rw [follow_append]; rfl
      exact hx (hup ▸ (hfront front List.prefix_rfl).above (List.dropLast_prefix _))
    have hfills := hfills.front hfirst
    have hready := ready_along (p := Path.under root name) hl.symm hfills.first hfills.1 hdown
      fun k hk hm => hx ((hfront k hk).above hm)
    have hhome : (along home l front).home = (bare home).home := home_along home l front
    have hplace := place_congr hhome (Path.ofString root)
    have hat : (along home l front).start (Path.under root name).anchor = l := (start_congr hhome _).trans hl
    have hne : (Dictionary.ofList [("a", "1")] : Definitions).isEmpty = false := by decide
    have hconfined := hall _ hhome (whole_along home l front) (.ofList [("a", "1")]) []
    have hfilled := hready.node?_writeLines hfills (render (.ofList [("a", "1")]) [])
    have hmissing := hready.missing
    rw [hat] at hfilled hmissing
    rw [storage_stage_of_ne _ _ _ _ hne, hplace] at hconfined
    have hpath := hconfined (follow l (front ++ [x])) (by rw [hmissing]; exact hfilled)
    exact hx (hpath.elim .inr fun habove => .inl habove.1)
  · subst hs
    exact confined_stage h definitions comments

/-- Double dots that come back to the root leave everything else as it is. -/
theorem confined_returning :
    ".." ∉ (Path.ofString "image").names ∧
      ∀ s : Storage, s.home = ["w"] → s.Whole → ∀ (definitions : Definitions) (comments : List String),
        Confined s (stage s "image" "//../image/macros" definitions comments).storage
          (s.place (Path.ofString "image")) := by
  have hroot : ".." ∉ (Path.ofString "image").names := by decide
  exact ⟨hroot, (stage_confined_iff ["w"] "image" "//../image/macros" hroot).2 (by decide)⟩

/-- Double dots that do not come back put the macro file beside the root. -/
theorem not_confined_outside :
    ".." ∉ (Path.ofString "image").names ∧
      ¬ Confined (bare ["w"]) (stage (bare ["w"]) "image" "../outside" (.ofList [("a", "1")]) []).storage
        ((bare ["w"]).place (Path.ofString "image")) := by
  refine ⟨by decide, fun h => ?_⟩
  have hpath := h ["w", "outside"] (by decide)
  revert hpath
  decide

end MacroFile
end ImageMacros
