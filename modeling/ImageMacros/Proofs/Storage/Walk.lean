import ImageMacros.Proofs.Dictionary
import ImageMacros.Proofs.Path.Text
import ImageMacros.Storage
import Mathlib.Data.List.Basic
import Mathlib.Data.List.Nodup
import Mathlib.Data.List.Range
import Mathlib.Tactic.SplitIfs

/-!
# Where walks lead

* `enter`, `follow` : where a name leads, and names one after the other, whatever is there;
* `Passable` : names can be followed in a storage (`walk_eq_ok_iff`);
* `place` : where a path leads; `locate_eq_ok_iff`, `slot_eq_some_iff` : when it can be followed;
* `locateText_text` : the text of a path leads where the path does;
* `follow_of_plain`, `place_of_plain` : without double dots, following names appends them;
* `tooLong_of_locate` : what a length that stops a walk is the length of.
-/

namespace ImageMacros.Storage

/-! ## Following names -/

def enter (l : Location) (name : String) : Location :=
  if name = "" ∨ name = "." then l else if name = ".." then l.dropLast else l ++ [name]

def follow (l : Location) (names : List String) : Location := names.foldl enter l

@[simp] theorem follow_nil (l : Location) : follow l [] = l := rfl

@[simp] theorem follow_cons (l : Location) (name : String) (names : List String) :
    follow l (name :: names) = follow (enter l name) names := rfl

theorem follow_append (l : Location) (as bs : List String) :
    follow l (as ++ bs) = follow (follow l as) bs := List.foldl_append

/-- Without double dots every name leads one place down. -/
theorem follow_of_plain {l : Location} {names : List String} (hproper : ∀ name ∈ names, ProperName name)
    (hplain : ".." ∉ names) : follow l names = l ++ names := by
  induction names generalizing l with
  | nil => simp
  | cons name rest ih =>
    obtain ⟨hempty, hdot, -⟩ := hproper name List.mem_cons_self
    simp only [List.mem_cons, not_or] at hplain
    rw [follow_cons, enter, if_neg (not_or.2 ⟨hempty, hdot⟩), if_neg (Ne.symm hplain.1),
      ih (fun n hn => hproper n (List.mem_cons_of_mem _ hn)) hplain.2, List.append_assoc, List.singleton_append]

/-- Names that can be followed: each leads on from a directory, and none is too long. -/
def Passable (s : Storage) : Location → List String → Prop
  | _, [] => True
  | l, name :: rest => s.node? l = some .directory ∧ tooLong name = false ∧ s.Passable (enter l name) rest

theorem passable_append {s : Storage} {l : Location} {as bs : List String} :
    s.Passable l (as ++ bs) ↔ s.Passable l as ∧ s.Passable (follow l as) bs := by
  induction as generalizing l with
  | nil => simp [Passable]
  | cons name as ih => simp only [List.cons_append, Passable, ih, follow_cons, and_assoc]

/-- Where directories stay, what could be followed still can. -/
theorem Passable.mono {s t : Storage} (h : ∀ l, s.node? l = some .directory → t.node? l = some .directory) :
    ∀ {l : Location} {names : List String}, s.Passable l names → t.Passable l names
  | _, [], _ => trivial
  | l, _ :: _, ⟨hl, hname, hrest⟩ => ⟨h l hl, hname, hrest.mono h⟩

theorem Passable.short {s : Storage} : ∀ {l : Location} {names : List String}, s.Passable l names →
    ∀ name ∈ names, tooLong name = false
  | _, _ :: _, ⟨_, hname, hrest⟩, n, hn => by
    rcases List.mem_cons.1 hn with rfl | hn
    · exact hname
    · exact hrest.short n hn

theorem Passable.directory {s : Storage} {l : Location} {as bs : List String} (hbs : bs ≠ [])
    (h : s.Passable l (as ++ bs)) : s.node? (follow l as) = some .directory := by
  obtain ⟨name, rest, rfl⟩ := List.exists_cons_of_ne_nil hbs
  exact (passable_append.1 h).2.1

theorem passable_of_directories {s : Storage} {l : Location} {names : List String}
    (hdir : ∀ front, front <+: names → s.node? (follow l front) = some .directory)
    (hshort : ∀ name ∈ names, tooLong name = false) : s.Passable l names := by
  induction names generalizing l with
  | nil => trivial
  | cons name rest ih =>
    refine ⟨hdir [] List.nil_prefix, hshort name List.mem_cons_self, ih (fun front hfront => ?_) fun n hn => ?_⟩
    · exact hdir (name :: front) (List.cons_prefix_cons.2 ⟨rfl, hfront⟩)
    · exact hshort n (List.mem_cons_of_mem _ hn)

theorem walk_eq_ok_iff {s : Storage} {l m : Location} {names : List String} {n : Node} :
    s.walk l names = .ok (m, n) ↔ s.Passable l names ∧ m = follow l names ∧ s.node? m = some n := by
  induction names generalizing l with
  | nil =>
    simp only [walk, Passable, follow_nil, true_and]
    cases h : s.node? l with
    | none => simp only [reduceCtorEq, false_iff, not_and]; rintro rfl; simp [h]
    | some k =>
      simp only [Except.ok.injEq, Prod.mk.injEq]
      constructor
      · rintro ⟨rfl, rfl⟩; exact ⟨rfl, h⟩
      · rintro ⟨rfl, hm⟩; exact ⟨rfl, by simpa [h] using hm⟩
  | cons name rest ih =>
    have hstays : name = "" ∨ name = "." ∨ name = ".." → tooLong name = false := by
      rintro (rfl | rfl | rfl) <;> decide
    simp only [walk, Passable, follow_cons, enter]
    cases h : s.node? l with
    | none => simp
    | some k =>
      cases k with
      | file content => simp
      | directory =>
        dsimp only
        split_ifs with hdot hup hlong
        · simp [ih, hstays (hdot.elim .inl (.inr ∘ .inl))]
        · simp [ih, hstays (.inr (.inr hup))]
        · simp [hlong]
        · simp [ih, hlong]

/-- Names that can be followed are followed first. -/
theorem walk_append {s : Storage} {l : Location} {as : List String} (h : s.Passable l as) (bs : List String) :
    s.walk l (as ++ bs) = s.walk (follow l as) bs := by
  induction as generalizing l with
  | nil => rfl
  | cons name as ih =>
    obtain ⟨hl, hname, hrest⟩ := h
    rw [follow_cons, ← ih hrest, List.cons_append, walk, hl, enter]
    dsimp only
    split_ifs <;> simp_all

theorem walk_of_missing {s : Storage} {l : Location} (h : s.node? l = none) (names : List String) :
    s.walk l names = .error .missing := by
  cases names <;> simp [walk, h]

/-! ## Paths -/

/-- Where a path leads, whatever is there. -/
def place (s : Storage) (p : Path) : Location := follow (s.start p.anchor) p.names

theorem place_of_plain {s : Storage} {p : Path} (h : ".." ∉ p.names) :
    s.place p = s.start p.anchor ++ p.names := follow_of_plain p.proper h

theorem start_congr {s t : Storage} (h : t.home = s.home) (a : Anchor) : t.start a = s.start a := by
  cases a <;> simp [start, h]

theorem place_congr {s t : Storage} (h : t.home = s.home) (p : Path) : t.place p = s.place p := by
  rw [place, place, start_congr h]

/-- Where no names lead up, different paths with one anchor lead to different places. -/
theorem eq_of_place_eq {s : Storage} {p q : Path} (hanchor : p.anchor = q.anchor) (hp : ".." ∉ p.names)
    (hq : ".." ∉ q.names) (h : s.place p = s.place q) : p = q := by
  rw [place_of_plain hp, place_of_plain hq, hanchor] at h
  exact Path.ext_iff'.2 ⟨hanchor, List.append_cancel_left h⟩

theorem locate_eq_ok_iff {s : Storage} {p : Path} {m : Location} {n : Node} :
    s.locate p = .ok (m, n) ↔ pathTooLong p.text = false ∧ s.Passable (s.start p.anchor) p.names ∧
      m = s.place p ∧ s.node? m = some n := by
  unfold locate
  split
  · next h => simp [h]
  · next h => simp [h, walk_eq_ok_iff, place]

/-- A change to a path is about the place where it leads. -/
theorem slot_eq_some_iff {s : Storage} {p : Path} {m : Location} :
    s.slot p = .ok (some m) ↔ pathTooLong p.text = false ∧ s.Passable (s.start p.anchor) p.names ∧
      (∃ name, p.names.getLast? = some name ∧ name ≠ "..") ∧ m = s.place p := by
  unfold slot place
  split
  · next h => simp [h]
  · next h =>
    cases hlast : p.names.getLast? with
    | none => simp
    | some name =>
      have hnames : p.names.dropLast ++ [name] = p.names := List.dropLast_append_getLast? name hlast
      have hproper : ProperName name := p.proper name (List.mem_of_getLast? hlast)
      have henter : name ≠ ".." → ∀ l, enter l name = l ++ [name] := fun hup l => by
        rw [enter, if_neg (not_or.2 ⟨hproper.1, hproper.2.1⟩), if_neg hup]
      conv_rhs => rw [← hnames, passable_append, follow_append]
      generalize p.names.dropLast = front
      cases hwalk : s.walk (s.start p.anchor) front with
      | error o =>
        have hno : ¬ (s.Passable (s.start p.anchor) front ∧
            s.node? (follow (s.start p.anchor) front) = some .directory) := fun ⟨hpass, hdir⟩ => by
          simp [walk_eq_ok_iff.2 ⟨hpass, rfl, hdir⟩] at hwalk
        simp only [Passable, reduceCtorEq, false_iff]
        rintro ⟨-, ⟨hpass, hdir, -⟩, -⟩
        exact hno ⟨hpass, hdir⟩
      | ok r =>
        obtain ⟨l, n⟩ := r
        obtain ⟨hpass, rfl, hl⟩ := walk_eq_ok_iff.1 hwalk
        cases n with
        | file content => simp [Passable, hl]
        | directory =>
          dsimp only
          split_ifs with hup hlong
          · simp [hup]
          · simp [Passable, hlong]
          · simp [Passable, hpass, hl, h, hup, hlong, henter hup, eq_comm]

theorem directory_of_slot_eq {s : Storage} {p : Path} {m : Location} (h : s.slot p = .ok (some m)) :
    s.node? m.dropLast = some .directory := by
  unfold slot at h
  split at h
  · cases h
  · split at h
    · cases h
    · split at h
      · cases h
      · cases h
      · next l hwalk =>
        split_ifs at h with hup hlong
        · cases h
        · obtain rfl := Option.some.inj (Except.ok.inj h)
          rw [List.dropLast_concat]
          exact (walk_eq_ok_iff.1 hwalk).2.2

theorem isDirectory_iff {s : Storage} {p : Path} :
    s.isDirectory p = true ↔ pathTooLong p.text = false ∧ s.Passable (s.start p.anchor) p.names ∧
      s.node? (s.place p) = some .directory := by
  unfold isDirectory
  cases h : s.locate p with
  | error o =>
    simp only [Bool.false_eq_true, false_iff]
    rintro ⟨hlong, hpass, hdir⟩
    simp [locate_eq_ok_iff.2 ⟨hlong, hpass, rfl, hdir⟩] at h
  | ok r =>
    obtain ⟨m, n⟩ := r
    obtain ⟨hlong, hpass, rfl, hn⟩ := locate_eq_ok_iff.1 h
    cases n <;> simp [hlong, hpass, hn]

theorem walk_segments (s : Storage) (a : Anchor) (names : List String) :
    s.walk (if a ≠ .relative then [] else s.home) (a.segments ++ names) = s.walk (s.start a) names := by
  cases a <;> simp [Anchor.segments, start, walk]

/-- The text of a path leads where the path does. -/
theorem locateText_text (s : Storage) {p : Path} (h : p.names ≠ []) : s.locateText p.text = s.locate p := by
  obtain ⟨hne, hhead⟩ := Path.head?_text h
  unfold locateText locate
  rw [if_neg hne, Path.segments_text h]
  simp only [hhead, walk_segments s p.anchor p.names]

/-- The names that a path does not keep lead nowhere. -/
theorem follow_filter_proper {names : List String} (h : ∀ name ∈ names, '/' ∉ name.toList) (l : Location) :
    follow l (names.filter fun name => ProperName name) = follow l names := by
  induction names generalizing l with
  | nil => rfl
  | cons name rest ih =>
    have hrest := ih fun n hn => h n (List.mem_cons_of_mem name hn)
    rw [List.filter_cons, follow_cons]
    split
    · rw [follow_cons, hrest]
    · next hname =>
      have hstay : name = "" ∨ name = "." := by
        by_contra hne
        rw [not_or] at hne
        exact hname (decide_eq_true ⟨hne.1, hne.2, h name List.mem_cons_self⟩)
      rw [hrest, enter, if_pos hstay]

theorem start_ofChars (s : Storage) (cs : List Char) :
    s.start (Anchor.ofChars cs) = if cs.head? = some '/' then [] else s.home := by
  unfold Anchor.ofChars
  split
  · rfl
  · rfl
  · rfl
  · next hslash =>
    rw [if_neg, start]
    intro hhead
    obtain ⟨rest, rfl⟩ := List.head?_eq_some_iff.1 hhead
    exact hslash rest rfl

theorem locateText_eq_ok {s : Storage} {t : String} {l : Location} {n : Node} (h : s.locateText t = .ok (l, n)) :
    l = s.place (Path.ofString t) ∧ s.node? l = some n := by
  have hslash : ∀ name ∈ segments t, '/' ∉ name.toList := by
    intro name hname
    obtain ⟨part, hpart, rfl⟩ := List.mem_map.1 hname
    rw [String.toList_ofList]
    exact slash_not_mem_segmentChars hpart
  unfold locateText at h
  split_ifs at h with hempty hlong hhead <;> obtain ⟨-, hl, hn⟩ := walk_eq_ok_iff.1 h
  all_goals
    refine ⟨?_, hn⟩
    rw [place, Path.ofString, start_ofChars, follow_filter_proper hslash, hl]
    simp only [hhead, if_true, if_false]

/-! ## Names that are too long -/

theorem tooLong_of_walk {s : Storage} {l : Location} {names : List String}
    (h : s.walk l names = .error .nameTooLong) : ∃ name ∈ names, tooLong name = true := by
  induction names generalizing l with
  | nil => unfold walk at h; split at h <;> cases h
  | cons name rest ih =>
    have hrest {m : Location} (h : s.walk m rest = .error .nameTooLong) : ∃ n ∈ name :: rest, tooLong n = true := by
      obtain ⟨n, hn, hlong⟩ := ih h
      exact ⟨n, List.mem_cons_of_mem name hn, hlong⟩
    unfold walk at h
    split at h
    · cases h
    · cases h
    · split_ifs at h with hdot hup hlong
      · exact hrest h
      · exact hrest h
      · exact ⟨name, List.mem_cons_self, hlong⟩
      · exact hrest h

theorem tooLong_of_locate {s : Storage} {p : Path} (h : s.locate p = .error .nameTooLong) :
    pathTooLong p.text = true ∨ ∃ name ∈ p.names, tooLong name = true := by
  unfold locate at h
  split at h
  · next hlong => exact .inl hlong
  · exact .inr (tooLong_of_walk h)

end ImageMacros.Storage
