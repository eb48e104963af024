import ImageMacros.Dictionary
import Mathlib.Data.List.Nodup

/-!
# Entries with different keys

* `find?_eq_some_iff`, `mem_keys_iff` : a key is found wherever it stands;
* `get?_ofList_eq_some_iff`, `get?_laidOver` : what dictionaries made of them answer;
* `ofList_perm` : the order in which they are given does not matter;
* `map_eq_self` : a change that leaves every value leaves the dictionary.
-/

namespace ImageMacros.Dictionary

theorem find?_eq_some_iff {κ ν : Type} [DecidableEq κ] {k : κ} {v : ν} {es : List (κ × ν)}
    (h : (es.map (·.1)).Nodup) : find? k es = some v ↔ (k, v) ∈ es := by
  induction es with
  | nil => simp
  | cons e es ih =>
    obtain ⟨hfresh, hes⟩ := List.nodup_cons.1 h
    rw [find?_cons, List.mem_cons]
    split
    · next hk =>
      subst hk
      have hnot : (e.1, v) ∉ es := fun hmem => hfresh (List.mem_map_of_mem (f := (·.1)) hmem)
      simp [Prod.ext_iff, hnot, eq_comm]
    · next hk => simp [ih hes, Prod.ext_iff, hk]

theorem find?_map_eq_none {α κ ν : Type} [DecidableEq κ] {k : α → κ} {v : α → ν} {as : List α} {l : κ}
    (h : l ∉ as.map k) : find? l (as.map fun a => (k a, v a)) = none := by
  induction as with
  | nil => rfl
  | cons a as ih =>
    rw [List.map_cons, List.mem_cons, not_or] at h
    rw [List.map_cons, find?_cons, if_neg h.1, ih h.2]

section Views

variable {κ ν : Type} [LT κ] [Keys κ]

theorem nodup_keys (d : Dictionary κ ν) : (d.entries.map (·.1)).Nodup := by
  have hne : ∀ {a b : κ × ν}, a.1 < b.1 → a.1 ≠ b.1 := fun hlt he => Keys.lt_irrefl _ (he ▸ hlt)
  exact List.pairwise_map.2 (d.ascending.imp hne)

theorem mem_entries_iff [DecidableEq κ] {d : Dictionary κ ν} {k : κ} {v : ν} :
    (k, v) ∈ d.entries ↔ d.get? k = some v := (find?_eq_some_iff d.nodup_keys).symm

theorem mem_keys_iff [DecidableEq κ] {d : Dictionary κ ν} {k : κ} : k ∈ d.keys ↔ d.get? k ≠ none := by
  rw [keys, List.mem_map, Option.ne_none_iff_exists']
  constructor
  · rintro ⟨e, he, rfl⟩
    exact ⟨e.2, mem_entries_iff.1 he⟩
  · rintro ⟨v, hv⟩
    exact ⟨(k, v), mem_entries_iff.2 hv, rfl⟩

omit [Keys κ] in
theorem map_eq_self {d : Dictionary κ ν} {f : ν → ν} (h : ∀ e ∈ d.entries, f e.2 = e.2) : d.map f = d := by
  have hentries : (d.entries.map fun e => (e.1, f e.2)) = d.entries := by
    conv_rhs => rw [← List.map_id d.entries]
    exact List.map_congr_left fun e he => by rw [h e he]; rfl
  unfold map
  congr 1

end Views

section Insertion

variable {κ ν : Type} [DecidableEq κ] [LT κ] [DecidableLT κ] [Keys κ]

theorem get?_ofList_eq_some_iff {pairs : List (κ × ν)} (h : (pairs.map (·.1)).Nodup) {k : κ} {v : ν} :
    (ofList pairs).get? k = some v ↔ (k, v) ∈ pairs := by
  have hreverse : (pairs.reverse.map (·.1)).Nodup := by rwa [List.map_reverse, List.nodup_reverse]
  rw [get?_ofList, find?_eq_some_iff hreverse, List.mem_reverse]

theorem ofList_perm {pairs others : List (κ × ν)} (h : (pairs.map (·.1)).Nodup) (hperm : others.Perm pairs) :
    ofList others = ofList pairs := by
  have hothers : (others.map (·.1)).Nodup := (hperm.map (·.1)).nodup_iff.2 h
  refine ext_get? fun k => Option.ext fun v => ?_
  rw [get?_ofList_eq_some_iff hothers, get?_ofList_eq_some_iff h, hperm.mem_iff]

/-- Where both have a key, the upper dictionary answers. -/
theorem get?_laidOver (upper lower : Dictionary κ ν) (k : κ) :
    (upper.laidOver lower).get? k = (upper.get? k).or (lower.get? k) := by
  have hreverse : (upper.entries.reverse.map (·.1)).Nodup := by
    rw [List.map_reverse, List.nodup_reverse]
    exact upper.nodup_keys
  have hupper : find? k upper.entries.reverse = upper.get? k := Option.ext fun v => by
    rw [get?, find?_eq_some_iff hreverse, find?_eq_some_iff upper.nodup_keys, List.mem_reverse]
  rw [laidOver, get?_insertAll, hupper]

end Insertion

end ImageMacros.Dictionary
