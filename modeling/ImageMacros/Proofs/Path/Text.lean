import ImageMacros.Path

/-!
# The text of a path

* `segmentChars_append`, `segments_intercalate` : a text put together from names has these names as
  its segments;
* `size_intercalate_append`, `mul_le_size_intercalate` : joined names are not shorter than some of them;
* `Anchor.segments`, `segments_text` : the segments of a path's text are empty ones for its anchor, and
  its names;
* `not_mem_text`, `mem_of_mem_names` : the characters of a path's text come from its names, and these from the
  text that it is read from;
* `ofString_text` : a path is read back from its text.
-/

namespace ImageMacros

/-! ## Segments of joined names -/

theorem segmentChars_append {cs : List Char} (h : '/' ∉ cs) (rest : List Char) :
    segmentChars (cs ++ '/' :: rest) = cs :: segmentChars rest := by
  induction cs with
  | nil => simp [segmentChars]
  | cons c cs ih =>
    simp only [List.mem_cons, not_or] at h
    rw [List.cons_append, segmentChars, if_neg (Ne.symm h.1), ih h.2]

theorem segmentChars_of_not_mem {cs : List Char} (h : '/' ∉ cs) : segmentChars cs = [cs] := by
  induction cs with
  | nil => rfl
  | cons c cs ih =>
    simp only [List.mem_cons, not_or] at h
    rw [segmentChars, if_neg (Ne.symm h.1), ih h.2]

theorem segments_append_slash {name : String} (h : '/' ∉ name.toList) (rest : String) :
    segments (name ++ "/" ++ rest) = name :: segments rest := by
  unfold segments
  rw [String.toList_append, String.toList_append, List.append_assoc,
    show "/".toList ++ rest.toList = '/' :: rest.toList from rfl, segmentChars_append h]
  simp

theorem segments_of_not_mem {name : String} (h : '/' ∉ name.toList) : segments name = [name] := by
  unfold segments
  rw [segmentChars_of_not_mem h]
  simp

theorem segments_intercalate : ∀ {names : List String}, names ≠ [] → (∀ name ∈ names, '/' ∉ name.toList) →
    segments ("/".intercalate names) = names
  | [], h, _ => absurd rfl h
  | [name], _, h => by
    rw [String.intercalate_singleton, segments_of_not_mem (h name List.mem_cons_self)]
  | name :: next :: rest, _, h => by
    rw [String.intercalate_cons_cons, segments_append_slash (h name List.mem_cons_self),
      segments_intercalate (List.cons_ne_nil next rest) fun n hn => h n (List.mem_cons_of_mem _ hn)]

/-- What is in no name and is no slash is not in the joined names. -/
theorem not_mem_intercalate {c : Char} (hc : c ≠ '/') : ∀ {names : List String},
    (∀ name ∈ names, c ∉ name.toList) → c ∉ ("/".intercalate names).toList
  | [], _ => by simp
  | [name], h => by simpa using h name List.mem_cons_self
  | name :: next :: rest, h => by
    have hname := h name List.mem_cons_self
    have hrest := not_mem_intercalate hc fun n hn => h n (List.mem_cons_of_mem name hn)
    rw [String.intercalate_cons_cons, String.toList_append, String.toList_append, List.mem_append,
      List.mem_append, not_or, not_or]
    exact ⟨⟨hname, by simpa using hc⟩, hrest⟩

/-! ## Sizes of joined names -/

theorem size_intercalate_append : ∀ as bs : List String,
    ("/".intercalate as).utf8ByteSize ≤ ("/".intercalate (as ++ bs)).utf8ByteSize
  | [], _ => by simp
  | [a], [] => by simp
  | [a], b :: bs => by
    rw [List.singleton_append, String.intercalate_cons_cons, String.intercalate_singleton,
      String.utf8ByteSize_append, String.utf8ByteSize_append]
    omega
  | a :: b :: as, bs => by
    have := size_intercalate_append (b :: as) bs
    rw [List.cons_append] at this
    rw [List.cons_append, List.cons_append, String.intercalate_cons_cons, String.intercalate_cons_cons]
    simp only [String.utf8ByteSize_append]
    omega

/-- Joined names are at least as long as all of them together. -/
theorem mul_le_size_intercalate (name : String) : ∀ n : Nat,
    n * name.utf8ByteSize ≤ ("/".intercalate (List.replicate n name)).utf8ByteSize
  | 0 => by simp
  | 1 => by simp
  | n + 2 => by
    have := mul_le_size_intercalate name (n + 1)
    rw [List.replicate_succ] at this
    rw [List.replicate_succ, List.replicate_succ, String.intercalate_cons_cons]
    simp only [String.utf8ByteSize_append]
    rw [Nat.succ_mul]
    omega

/-! ## Characters of segments -/

theorem mem_of_mem_segmentChars {c : Char} {cs part : List Char} (hpart : part ∈ segmentChars cs) (hc : c ∈ part) :
    c ∈ cs := by
  induction cs generalizing part with
  | nil =>
    obtain rfl : part = [] := by simpa [segmentChars] using hpart
    exact hc
  | cons d cs ih =>
    unfold segmentChars at hpart
    split at hpart
    · rcases List.mem_cons.1 hpart with rfl | hpart
      · cases hc
      · exact List.mem_cons_of_mem d (ih hpart hc)
    · split at hpart
      · obtain rfl : part = [d] := by simpa using hpart
        exact List.mem_singleton.1 hc ▸ List.mem_cons_self
      · next first rest hrest =>
        rcases List.mem_cons.1 hpart with rfl | hpart
        · rcases List.mem_cons.1 hc with rfl | hc
          · exact List.mem_cons_self
          · exact List.mem_cons_of_mem d (ih (hrest ▸ List.mem_cons_self) hc)
        · exact List.mem_cons_of_mem d (ih (hrest ▸ List.mem_cons_of_mem first hpart) hc)

/-! ## Paths -/

/-- The empty segments in front of the names of a path. -/
def Anchor.segments : Anchor → List String
  | .relative => []
  | .root => [""]
  | .doubleRoot => ["", ""]

namespace Path

theorem slash_not_mem (p : Path) : ∀ name ∈ p.names, '/' ∉ name.toList := fun name h => (p.proper name h).2.2

theorem text_of_ne_nil {p : Path} (h : p.names ≠ []) : p.text = p.anchor.text ++ "/".intercalate p.names := by
  unfold text
  rw [if_neg fun he => h he.2]

theorem segments_text {p : Path} (h : p.names ≠ []) : segments p.text = p.anchor.segments ++ p.names := by
  have hnames := segments_intercalate h p.slash_not_mem
  have hempty (rest : String) : segments ("/" ++ rest) = "" :: segments rest := by
    have := segments_append_slash (show '/' ∉ "".toList by simp) rest
    rwa [String.empty_append] at this
  rw [text_of_ne_nil h]
  cases p.anchor with
  | relative => rw [Anchor.text, String.empty_append, hnames]; rfl
  | root => rw [Anchor.text, hempty, hnames]; rfl
  | doubleRoot =>
    rw [Anchor.text, show "//" ++ "/".intercalate p.names = "/" ++ ("/" ++ "/".intercalate p.names) by
      rw [← String.append_assoc]; rfl, hempty, hempty, hnames]
    rfl

theorem head?_text {p : Path} (h : p.names ≠ []) :
    p.text ≠ "" ∧ (p.text.toList.head? = some '/' ↔ p.anchor ≠ .relative) := by
  have hsegments := segments_text h
  obtain ⟨name, rest, hnames⟩ := List.exists_cons_of_ne_nil h
  have hproper : ProperName name := p.proper name (by simp [hnames])
  unfold segments at hsegments
  cases ha : p.anchor with
  | relative =>
    rw [ha, hnames] at hsegments
    cases ht : p.text.toList with
    | nil => simp_all [segmentChars, Anchor.segments, ProperName]
    | cons c cs =>
      have hc : c ≠ '/' := by
        rintro rfl
        simp [ht, segmentChars, Anchor.segments, Ne.symm hproper.1] at hsegments
      refine ⟨fun he => by simp [he] at ht, by simp [hc]⟩
  | root => rw [text_of_ne_nil h, ha]; simp [Anchor.text]
  | doubleRoot => rw [text_of_ne_nil h, ha]; simp [Anchor.text]

/-- Other than slashes and the dot, the characters of a path come from its names. -/
theorem not_mem_text {p : Path} {c : Char} (hslash : c ≠ '/') (hdot : c ≠ '.')
    (h : ∀ name ∈ p.names, c ∉ name.toList) : c ∉ p.text.toList := by
  unfold text
  split
  · simpa using hdot
  · rw [String.toList_append, List.mem_append, not_or]
    exact ⟨by cases p.anchor <;> simp [Anchor.text, hslash], not_mem_intercalate hslash h⟩

theorem null_not_mem_text {p : Path} (h : p.hasNull = false) : '\x00' ∉ p.text.toList := by
  refine not_mem_text (by decide) (by decide) ?_
  unfold hasNull at h
  simpa using h

theorem hasNull_parent {p : Path} (h : p.hasNull = false) : p.parent.hasNull = false := by
  unfold hasNull at h ⊢
  rw [List.any_eq_false] at h ⊢
  exact fun name hname => h name (List.dropLast_subset _ hname)

@[simp] theorem hasNull_within (root p : Path) : (root.within p).hasNull = (root.hasNull || p.hasNull) :=
  List.any_append

/-- What is in a name of a path that is read is in the text. -/
theorem mem_of_mem_names {s name : String} {c : Char} (hname : name ∈ (ofString s).names) (hc : c ∈ name.toList) :
    c ∈ s.toList := by
  obtain ⟨part, hpart, rfl⟩ := List.mem_map.1 (List.mem_filter.1 hname).1
  exact mem_of_mem_segmentChars hpart (by rwa [String.toList_ofList] at hc)

theorem null_of_hasNull_under {root relative : String} (h : (under root relative).hasNull = true) :
    '\x00' ∈ root.toList ∨ '\x00' ∈ relative.toList := by
  obtain ⟨name, hname, hnull⟩ := List.any_eq_true.1 h
  have hnull : '\x00' ∈ name.toList := of_decide_eq_true hnull
  exact (List.mem_append.1 hname).imp (mem_of_mem_names · hnull) (mem_of_mem_names · hnull)

/-! ## Reading the text of a path -/

theorem exists_cons_intercalate {p : Path} (h : p.names ≠ []) :
    ∃ c cs, ("/".intercalate p.names).toList = c :: cs ∧ c ≠ '/' := by
  obtain ⟨name, rest, hnames⟩ := List.exists_cons_of_ne_nil h
  obtain ⟨hne, -, hslash⟩ : ProperName name := p.proper name (by simp [hnames])
  obtain ⟨c, cs, hc⟩ := List.exists_cons_of_ne_nil (mt String.toList_eq_nil_iff.1 hne)
  have hfirst : c ≠ '/' := fun he => hslash (by simp [hc, he])
  rw [hnames]
  cases rest with
  | nil => exact ⟨c, cs, by rw [String.intercalate_singleton, hc], hfirst⟩
  | cons next rest =>
    refine ⟨c, cs ++ ("/".toList ++ ("/".intercalate (next :: rest)).toList), ?_, hfirst⟩
    rw [String.intercalate_cons_cons, String.toList_append, String.toList_append, hc, List.append_assoc,
      List.cons_append]

/-- A path is read back from its text. -/
theorem ofString_text (p : Path) : ofString p.text = p := by
  rw [ext_iff']
  by_cases h : p.names = []
  · have htext : p.text = if p.anchor = .relative then "." else p.anchor.text := by
      unfold text
      rw [h]
      cases p.anchor <;> simp
    rw [htext, h]
    cases p.anchor <;> decide
  · obtain ⟨c, cs, hcs, hc⟩ := exists_cons_intercalate h
    constructor
    · change Anchor.ofChars p.text.toList = p.anchor
      rw [text_of_ne_nil h, String.toList_append, hcs]
      cases p.anchor <;> simp [Anchor.text, Anchor.ofChars, hc]
    · have hempty : p.anchor.segments.filter (fun name => ProperName name) = [] := by
        cases p.anchor <;> decide
      have hkeep : p.names.filter (fun name => ProperName name) = p.names :=
        List.filter_eq_self.2 fun name hname => decide_eq_true (p.proper name hname)
      change (segments p.text).filter (fun name => ProperName name) = p.names
      rw [segments_text h, List.filter_append, hempty, hkeep, List.nil_append]

end Path
end ImageMacros
