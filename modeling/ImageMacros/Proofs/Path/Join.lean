import ImageMacros.Proofs.Path.Text

/-!
# Paths joined below a root

* `components`, `leadingSlashes`, `Anchor.ofCount` : the parts of a text that a path follows, and where the slashes in
  front of it start;
* `names_ofString`, `anchor_ofString` : a path is read from a text by these;
* `components_append_slash`, `components_append_idle`, `components_slashes_append` : texts with a separator between them,
  with a part in between that is nothing to follow, and with slashes in front;
* `under_joins` : a path below a root starts where the root does and follows both, however they are spelled.
-/

namespace ImageMacros

/-! ## What a text spells -/

/-- The parts of a text between slashes that are neither empty nor a dot. -/
def components (s : String) : List String :=
  ((s.toList.splitOn '/').filter fun part => part ≠ [] ∧ part ≠ ['.']).map String.ofList

def leadingSlashes (s : String) : Nat := (s.toList.takeWhile (· = '/')).length

/-- The anchor of a text with so many slashes in front. -/
def Anchor.ofCount : Nat → Anchor
  | 0 => .relative
  | 2 => .doubleRoot
  | _ => .root

theorem takeWhile_slash_eq_nil {cs : List Char} (h : ∀ rest, cs = '/' :: rest → False) :
    cs.takeWhile (· = '/') = [] := by
  cases cs with
  | nil => rfl
  | cons c cs => exact List.takeWhile_cons_of_neg (by simpa using fun hc : c = '/' => h cs (hc ▸ rfl))

theorem Anchor.ofChars_eq_ofCount (cs : List Char) :
    ofChars cs = ofCount (cs.takeWhile (· = '/')).length := by
  unfold ofChars
  split
  · simp [ofCount]
  · next rest h => simp [takeWhile_slash_eq_nil h, ofCount]
  · next rest _ h => simp [takeWhile_slash_eq_nil h, ofCount]
  · next h => rw [takeWhile_slash_eq_nil h]; rfl

theorem segmentChars_eq_splitOn (cs : List Char) : segmentChars cs = cs.splitOn '/' := by
  induction cs with
  | nil => rfl
  | cons c cs ih =>
    rw [segmentChars, ih, List.splitOn_cons_eq_if_modifyHead]
    by_cases hc : c = '/'
    · simp [hc]
    · rw [if_neg hc, if_neg (by simpa using hc)]
      obtain ⟨part, rest, hparts⟩ := List.exists_cons_of_ne_nil (List.splitOn_ne_nil '/' cs)
      rw [hparts, List.modifyHead_cons]

theorem components_append_slash (s t : String) : components (s ++ "/" ++ t) = components s ++ components t := by
  have hchars : (s ++ "/" ++ t).toList = s.toList ++ '/' :: t.toList := by simp
  unfold components
  rw [hchars, List.splitOn_eq_splitOnP, List.splitOnP_append_cons _ _ (by simp), List.filter_append, List.map_append]
  rfl

/-- A part between separators that is nothing to follow. -/
theorem components_append_idle {idle : String} (h : components idle = []) (s t : String) :
    components (s ++ "/" ++ idle ++ "/" ++ t) = components (s ++ "/" ++ t) := by
  rw [components_append_slash, components_append_slash, h, List.append_nil, components_append_slash]

theorem components_slashes_append (n : Nat) (s : String) :
    components (String.ofList (List.replicate n '/') ++ s) = components s := by
  induction n with
  | zero => simp
  | succ n ih =>
    have hfirst : String.ofList (List.replicate (n + 1) '/') ++ s =
        "" ++ "/" ++ (String.ofList (List.replicate n '/') ++ s) :=
      String.toList_inj.1 (by simp [List.replicate_succ])
    rw [hfirst, components_append_slash, ih]
    rfl

namespace Path

theorem names_ofString (s : String) : (ofString s).names = components s := by
  change (segments s).filter (fun name => ProperName name) = components s
  unfold segments components
  rw [List.filter_map, segmentChars_eq_splitOn]
  refine congrArg _ (List.filter_congr fun part hpart => ?_)
  have hslash : '/' ∉ part := slash_not_mem_segmentChars (segmentChars_eq_splitOn s.toList ▸ hpart)
  have hdot : String.ofList part = "." ↔ part = ['.'] := by rw [← String.toList_inj, String.toList_ofList]; rfl
  simp [ProperName, hslash, hdot]

theorem anchor_ofString (s : String) : (ofString s).anchor = .ofCount (leadingSlashes s) :=
  Anchor.ofChars_eq_ofCount s.toList

/-! ## Joining -/

theorem anchor_under (root relative : String) : (under root relative).anchor = .ofCount (leadingSlashes root) :=
  anchor_ofString root

theorem names_under (root relative : String) :
    (under root relative).names = components root ++ components relative :=
  congr (congrArg _ (names_ofString root)) (names_ofString relative)

/-- Below a root only the components count. -/
theorem under_congr (root : String) {s t : String} (h : components s = components t) : under root s = under root t := by
  rw [ext_iff', names_under, names_under, h]
  exact ⟨rfl, rfl⟩

theorem under_text_under (root s t : String) : under (under root s).text t = under root (s ++ "/" ++ t) := by
  rw [ext_iff', names_under root, components_append_slash, ← List.append_assoc, ← names_under, ← names_ofString t]
  unfold under
  rw [ofString_text]
  exact ⟨rfl, rfl⟩

/-- A path below a root has the root's anchor and the components of both texts; slashes in front, doubled separators
and dots change nothing. -/
theorem under_joins (root relative : String) :
    (under root relative).anchor = .ofCount (leadingSlashes root) ∧
    (under root relative).names = components root ++ components relative ∧
    (∀ next, under (under root relative).text next = under root (relative ++ "/" ++ next)) ∧
    (∀ n, under root (String.ofList (List.replicate n '/') ++ relative) = under root relative) ∧
    (∀ front back, under root (front ++ "//" ++ back) = under root (front ++ "/" ++ back) ∧
      under root (front ++ "/./" ++ back) = under root (front ++ "/" ++ back)) ∧
    ofString (under root relative).text = under root relative := by
  refine ⟨anchor_under root relative, names_under root relative, under_text_under root relative,
    fun n => under_congr root (components_slashes_append n relative), fun front back => ⟨?_, ?_⟩, ofString_text _⟩
  · have hspelled : front ++ "//" ++ back = front ++ "/" ++ "" ++ "/" ++ back := String.toList_inj.1 (by simp)
    exact under_congr root (hspelled ▸ components_append_idle rfl front back)
  · have hspelled : front ++ "/./" ++ back = front ++ "/" ++ "." ++ "/" ++ back := String.toList_inj.1 (by simp)
    exact under_congr root (hspelled ▸ components_append_idle rfl front back)

end Path
end ImageMacros
