import ImageMacros.Path
import Mathlib.Data.List.Infix

/-!
# What is above a path

* `parent_eq_take`, `take_take`, `parent_take`, `take_parent` : the parent and the first names of a path;
* `prefix_parent` : the first names of a path, if not all of them, are names of its parent;
* `AncestorOf`, `eq_or_ancestorOf` : a path that leads to a place above another;
* `ancestry_cons` : the ancestry of a path is the path, and then the ancestry of its parent;
* `parent_induction` : what holds of a path as soon as it holds of its parent holds of every path.
-/

namespace ImageMacros.Path

theorem parent_eq_take (p : Path) : p.parent = p.take (p.names.length - 1) := by
  rw [Path.ext_iff']
  exact ⟨rfl, List.dropLast_eq_take⟩

theorem parent_prefix (p : Path) : p.parent.names <+: p.names := List.dropLast_prefix _

/-- The first names of a path, if not all of them, are names of its parent. -/
theorem prefix_parent {p : Path} {front : List String} (h : front <+: p.names) (hne : front ≠ p.names) :
    front <+: p.parent.names := by
  have hlt : front.length < p.names.length :=
    Nat.lt_of_le_of_ne h.length_le fun he => hne (h.eq_of_length he)
  refine List.prefix_of_prefix_length_le h (List.dropLast_prefix _) ?_
  rw [show p.parent.names = p.names.dropLast from rfl, List.length_dropLast]
  omega

theorem take_length (p : Path) : p.take p.names.length = p := by simp [take]

theorem take_take (p : Path) (m n : Nat) : (p.take m).take n = p.take (min n m) := by
  rw [ext_iff']
  exact ⟨rfl, List.take_take⟩

theorem parent_take {p : Path} {n : Nat} (h : n < p.names.length) : (p.take (n + 1)).parent = p.take n := by
  have hlength : (p.take (n + 1)).names.length = n + 1 := by
    rw [show (p.take (n + 1)).names = p.names.take (n + 1) from rfl, List.length_take]
    omega
  rw [parent_eq_take, take_take, hlength]
  congr 1
  omega

theorem length_parent (p : Path) : p.parent.names.length = p.names.length - 1 := List.length_dropLast

theorem take_parent (p : Path) {n : Nat} (h : n ≤ p.parent.names.length) : p.parent.take n = p.take n := by
  rw [length_parent] at h
  rw [parent_eq_take, take_take, Nat.min_eq_left h]

theorem plain_take {q : Path} (h : ".." ∉ q.names) (n : Nat) : ".." ∉ (q.take n).names :=
  fun hmem => h (List.mem_of_mem_take hmem)

theorem plain_parent {q : Path} (h : ".." ∉ q.names) : ".." ∉ q.parent.names :=
  fun hmem => h (q.parent_prefix.subset hmem)

/-- One path leads to a place above the other. -/
def AncestorOf (p q : Path) : Prop := p.anchor = q.anchor ∧ p.names <+: q.names ∧ p.names ≠ q.names

instance (p q : Path) : Decidable (p.AncestorOf q) := by unfold AncestorOf; infer_instance

theorem AncestorOf.prefix_parent {p q : Path} (h : p.AncestorOf q) : p.names <+: q.parent.names :=
  Path.prefix_parent h.2.1 h.2.2

theorem eq_or_ancestorOf {p q : Path} (hanchor : p.anchor = q.anchor) (h : p.names <+: q.names) :
    p = q ∨ p.AncestorOf q := by
  by_cases hnames : p.names = q.names
  · exact .inl (ext_iff'.2 ⟨hanchor, hnames⟩)
  · exact .inr ⟨hanchor, h, hnames⟩

theorem mem_ancestry {p q : Path} : q ∈ p.ancestry ↔ ∃ n ≤ p.names.length, q = p.take n := by
  simp only [ancestry, List.mem_map, List.mem_reverse, List.mem_range, Nat.lt_succ_iff, @eq_comm _ q]

/-- A path comes first, and then its parent with what is above it. -/
theorem ancestry_cons {p : Path} (h : p.names ≠ []) : p.ancestry = p :: p.parent.ancestry := by
  have hpos := List.length_pos_iff.2 h
  have hlength : p.names.length = p.parent.names.length + 1 := by
    rw [length_parent]
    omega
  have hup : ∀ n ∈ (List.range (p.parent.names.length + 1)).reverse, p.take n = p.parent.take n := by
    intro n hn
    rw [List.mem_reverse, List.mem_range] at hn
    exact (p.take_parent (by omega)).symm
  unfold ancestry
  rw [List.range_succ, List.reverse_append, List.reverse_singleton, List.singleton_append, List.map_cons,
    take_length, hlength, List.map_congr_left hup]

theorem exists_ancestry (p : Path) : ∃ above, p.ancestry = p :: above := by
  by_cases h : p.names = []
  · refine ⟨[], ?_⟩
    have htake := p.take_length
    rw [h] at htake
    unfold ancestry
    rw [h]
    exact congrArg (· :: []) htake
  · exact ⟨_, ancestry_cons h⟩

/-- What holds of a path as soon as it holds of its parent holds of every path. -/
@[elab_as_elim]
theorem parent_induction {motive : Path → Prop} (step : ∀ p, (p.names ≠ [] → motive p.parent) → motive p)
    (p : Path) : motive p := by
  refine step p fun h => ?_
  have hlt : p.parent.names.length < p.names.length := by
    have := List.length_pos_iff.2 h
    rw [length_parent]
    omega
  exact parent_induction step p.parent
termination_by p.names.length

end ImageMacros.Path
