import ImageMacros.Proofs.Config.Line
import ImageMacros.Proofs.Dictionary
import ImageMacros.Proofs.Text.Lowercase
import ImageMacros.Proofs.Text.Utf8

/-!
# Config files that are read back

* `Section`, `File` : sections with options and files of them, as they can be written (`File.text`);
* `Reader.Gains` : what a reader has gained from lines of one section (`step_headerLine`, `step_line`);
* `Reader.steps_section`, `Reader.steps_sections` : what sections do to the document, one after the other;
* `File.options?`, `File.own?_document` : what the document of a file holds under a name;
* `File.readBytes_text` : a file that was written is read into this document.
-/

namespace ImageMacros.Config

open Text (unlines)

/-! ## Files -/

/-- A section that a file can hold: no two of its keys are read as the same. -/
structure Section where
  name : String
  entries : List Entry
  name_ne_empty : name ≠ "" := by decide
  name_unbroken : Unbroken name := by decide
  distinct : (entries.map fun e => Text.lower e.key).Nodup := by decide

namespace Section

def lines (s : Section) : List String := headerLine s.name :: s.entries.map Entry.line

def pairs (s : Section) : List (String × String) := s.entries.map Entry.pair

theorem nodup_pairs (s : Section) : (s.pairs.map (·.1)).Nodup := by
  rw [pairs, List.map_map]
  exact s.distinct

end Section

/-- A file of sections with different names. -/
structure File where
  sections : List Section
  distinct : (sections.map Section.name).Nodup := by decide

namespace File

def lines (f : File) : List String := f.sections.flatMap Section.lines

def text (f : File) : String := unlines f.lines

theorem unbroken_lines (f : File) : ∀ l ∈ f.lines, Unbroken l := by
  intro l hl
  obtain ⟨s, -, hl⟩ := List.mem_flatMap.1 hl
  rcases List.mem_cons.1 hl with rfl | hl
  · exact unbroken_headerLine s.name_unbroken
  · obtain ⟨e, -, rfl⟩ := List.mem_map.1 hl
    exact e.unbroken_line

end File

/-! ## Documents -/

namespace Document

theorem modify_modify (d : Document) (name : String) (f g : Options → Options) :
    (d.modify name f).modify name g = d.modify name (g ∘ f) := by
  unfold modify
  split
  · rfl
  · simp only [Dictionary.get?_insert, if_true, Option.getD_some, Function.comp_apply, mk.injEq, true_and]
    exact Dictionary.ext_get? fun k => by simp only [Dictionary.get?_insert]; split <;> rfl

/-- The values under a name, without the defaults. -/
def own? (d : Document) (name : String) : Option Options :=
  if name = defaultSection then some d.defaults else d.sections.get? name

theorem own?_modify (d : Document) (name other : String) (f : Options → Options) :
    (d.modify name f).own? other = if other = name then some (f ((d.own? name).getD .empty)) else d.own? other := by
  unfold modify own?
  by_cases hname : name = defaultSection <;> by_cases hother : other = defaultSection <;>
    simp [hname, hother, Dictionary.get?_insert, eq_comm]

theorem own?_settle (d : Document) (f : String → String) (name : String) :
    (d.settle f).own? name = (d.own? name).map (·.map f) := by
  unfold settle own?
  split
  · rfl
  · exact Dictionary.get?_map d.sections (·.map f) name

theorem values?_eq (d : Document) {name : String} (h : name ≠ defaultSection) :
    d.values? name = (d.own? name).map fun own => own.laidOver ((d.own? defaultSection).getD .empty) := by
  simp only [values?, own?, if_neg h, if_true, Option.getD_some]

def giveAll (d : Document) (sections : List Section) : Document :=
  sections.foldl (fun d s => d.modify s.name fun o => o.insertAll s.pairs) d

theorem own?_giveAll (d : Document) {sections : List Section} (h : (sections.map Section.name).Nodup)
    (name : String) : (d.giveAll sections).own? name =
      match Dictionary.find? name (sections.map fun s => (s.name, s.pairs)) with
      | none => d.own? name
      | some pairs => some (((d.own? name).getD .empty).insertAll pairs) := by
  induction sections generalizing d with
  | nil => rfl
  | cons s rest ih =>
    obtain ⟨hfresh, hrest⟩ := List.nodup_cons.1 h
    rw [giveAll, List.foldl_cons, ← giveAll, ih _ hrest, own?_modify, List.map_cons, Dictionary.find?_cons]
    by_cases hname : name = s.name
    · subst hname
      rw [if_pos rfl, if_pos rfl, Dictionary.find?_map_eq_none hfresh]
    · rw [if_neg hname, if_neg hname]

end Document

/-! ## Reading sections -/

namespace Reader

/-- Options of one section that a reader has gained, and traces of nothing else. -/
structure Gains (r : Reader) (name : String) (pairs : List (String × String)) (r' : Reader) : Prop where
  document : r'.document = r.document.modify name fun o => o.insertAll pairs
  current : r'.current = some name
  headers : ∀ h ∈ r'.headers, h = name ∨ h ∈ r.headers
  keys : ∀ k ∈ r'.keys, k ∈ pairs.map (fun e => (name, e.1)) ∨ k ∈ r.keys
  unusable : r'.unusable = r.unusable

variable {r r' r'' : Reader} {name : String}

theorem Gains.trans {as bs : List (String × String)} (h : r.Gains name as r') (h' : r'.Gains name bs r'') :
    r.Gains name (as ++ bs) r'' where
  document := by
    rw [h'.document, h.document, Document.modify_modify]
    exact congrArg _ (funext fun o => (o.insertAll_append as bs).symm)
  current := h'.current
  headers := fun k hk => (h'.headers k hk).elim .inl (h.headers k)
  keys := by
    intro k hk
    rw [List.map_append, List.mem_append]
    rcases h'.keys k hk with hk | hk
    · exact .inl (.inr hk)
    · exact (h.keys k hk).imp_left .inl
  unusable := h'.unusable.trans h.unusable

theorem step_headerLine (hne : name ≠ "") (hfresh : name ∉ r.headers) (number : Nat) :
    ∃ r', r.step number (ended (headerLine name)) = .ok r' ∧ r.Gains name [] r' := by
  have hline : ended (headerLine name) = '[' :: (name.toList ++ [']', '\n']) := by simp [ended, headerLine]
  have hbody : '[' :: Text.trimEndChars (name.toList ++ [']', '\n']) = (headerLine name).toList := by
    rw [Text.trimEndChars_append_cons (by decide)]
    simp [headerLine, Text.trimEndChars, show Text.isBlank '\n' = true by decide]
  rw [hline, step_cons (by decide) (by decide), hbody, entry, header?_headerLine hne]
  dsimp only
  unfold openSection
  by_cases hdefault : name = defaultSection
  · subst hdefault
    exact ⟨_, if_pos rfl, rfl, rfl, fun _ => .inr, fun _ => .inr, rfl⟩
  · rw [if_neg hdefault, if_neg hfresh]
    exact ⟨_, rfl, rfl, rfl, fun _ hk => List.mem_cons.1 hk, fun _ => .inr, rfl⟩

theorem step_line (e : Entry) (hcurrent : r.current = some name) (hfresh : (name, e.pair.1) ∉ r.keys)
    (number : Nat) : ∃ r', r.step number (ended e.line) = .ok r' ∧ r.Gains name [e.pair] r' := by
  obtain ⟨c, cs, hline, hblank, hhash, hsemicolon, hbracket, hbody⟩ := e.exists_line
  have hkey : e.pair.1 ≠ "" := Text.lower_ne_empty e.key_ne_empty
  rw [hline, step_cons hblank ⟨hhash, hsemicolon⟩, entry, header?_cons hbracket, hbody, e.option?_line]
  dsimp only
  rw [hcurrent]
  dsimp only
  rw [if_neg hkey, setOption, if_neg hfresh]
  exact ⟨_, rfl, rfl, rfl, fun _ => .inr, fun _ hk => by simpa using hk, rfl⟩

theorem Gains.steps_lines {as : List (String × String)} {entries : List Entry} (h : r.Gains name as r')
    (hdistinct : ((as ++ entries.map Entry.pair).map (·.1)).Nodup) (hfresh : ∀ key, (name, key) ∉ r.keys)
    (number : Nat) : ∃ r'', r'.steps number (entries.map fun e => ended e.line) = .ok r'' ∧
      r.Gains name (as ++ entries.map Entry.pair) r'' := by
  induction entries generalizing as r' number with
  | nil => exact ⟨r', rfl, by rwa [List.map_nil, List.append_nil]⟩
  | cons e rest ih =>
    have hsplit : as ++ (e :: rest).map Entry.pair = (as ++ [e.pair]) ++ rest.map Entry.pair := by simp
    rw [hsplit] at hdistinct
    have hnew : (name, e.pair.1) ∉ r'.keys := by
      intro hk
      rcases h.keys _ hk with hk | hk
      · obtain ⟨a, ha, hname⟩ := List.mem_map.1 hk
        rw [List.map_append, List.map_append] at hdistinct
        refine List.disjoint_of_nodup_append (List.Nodup.of_append_left hdistinct) (List.mem_map_of_mem ha) ?_
        simp [(Prod.mk.inj hname).2]
      · exact hfresh _ hk
    obtain ⟨r₁, hstep, hgains⟩ := step_line e h.current hnew number
    obtain ⟨r₂, hsteps, hgains⟩ := ih (h.trans hgains) hdistinct (number + 1)
    refine ⟨r₂, ?_, hsplit ▸ hgains⟩
    rw [List.map_cons, steps, hstep]
    exact hsteps

theorem steps_append (r : Reader) (number : Nat) (as bs : List (List Char)) :
    r.steps number (as ++ bs) = r.steps number as >>= fun r => r.steps (number + as.length) bs := by
  induction as generalizing r number with
  | nil => rfl
  | cons line as ih =>
    rw [List.cons_append, steps, steps]
    cases r.step number line with
    | error defect => rfl
    | ok r =>
      change r.steps (number + 1) (as ++ bs) = _
      rw [ih, List.length_cons, Nat.add_assoc, Nat.add_comm 1]
      rfl

theorem steps_section (s : Section) (hheader : s.name ∉ r.headers) (hkeys : ∀ key, (s.name, key) ∉ r.keys)
    (number : Nat) : ∃ r', r.steps number (s.lines.map ended) = .ok r' ∧ r.Gains s.name s.pairs r' := by
  obtain ⟨r₁, hstep, hgains⟩ := step_headerLine s.name_ne_empty hheader number
  obtain ⟨r₂, hsteps, hgains⟩ := hgains.steps_lines s.nodup_pairs hkeys (number + 1)
  refine ⟨r₂, ?_, hgains⟩
  rw [Section.lines, List.map_cons, List.map_map, steps, hstep]
  exact hsteps

/-- New sections give the document their options, and leave nothing unusable. -/
theorem steps_sections {sections : List Section} (hdistinct : (sections.map Section.name).Nodup)
    (hheaders : ∀ s ∈ sections, s.name ∉ r.headers) (hkeys : ∀ s ∈ sections, ∀ key, (s.name, key) ∉ r.keys)
    (number : Nat) : ∃ r', r.steps number ((sections.flatMap Section.lines).map ended) = .ok r' ∧
      r'.document = r.document.giveAll sections ∧ r'.unusable = r.unusable := by
  induction sections generalizing r number with
  | nil => exact ⟨r, rfl, rfl, rfl⟩
  | cons s rest ih =>
    obtain ⟨hfresh, hrest⟩ := List.nodup_cons.1 hdistinct
    have hne : ∀ t ∈ rest, t.name ≠ s.name := fun t ht he => hfresh (he ▸ List.mem_map_of_mem ht)
    obtain ⟨r₁, hsection, hgains⟩ :=
      steps_section s (hheaders s List.mem_cons_self) (hkeys s List.mem_cons_self) number
    have hheaders₁ : ∀ t ∈ rest, t.name ∉ r₁.headers := fun t ht hmem =>
      (hgains.headers _ hmem).elim (hne t ht) (hheaders t (List.mem_cons_of_mem s ht))
    have hkeys₁ : ∀ t ∈ rest, ∀ key, (t.name, key) ∉ r₁.keys := by
      intro t ht key hmem
      rcases hgains.keys _ hmem with hmem | hmem
      · obtain ⟨e, -, he⟩ := List.mem_map.1 hmem
        exact hne t ht (Prod.mk.inj he).1.symm
      · exact hkeys t (List.mem_cons_of_mem s ht) key hmem
    obtain ⟨r₂, hsteps, hdocument, hunusable⟩ := ih hrest hheaders₁ hkeys₁ (number + (s.lines.map ended).length)
    refine ⟨r₂, ?_, ?_, hunusable.trans hgains.unusable⟩
    · rw [List.flatMap_cons, List.map_append, steps_append, hsection]
      exact hsteps
    · rw [hdocument, hgains.document]
      rfl

end Reader

/-! ## Reading files -/

namespace File

def options? (f : File) (name : String) : Option Options :=
  (Dictionary.find? name (f.sections.map fun s => (s.name, s.pairs))).map .ofList

theorem options?_eq_some_iff {f : File} {name : String} {o : Options} :
    f.options? name = some o ↔ ∃ s ∈ f.sections, s.name = name ∧ .ofList s.pairs = o := by
  have hdistinct : ((f.sections.map fun s => (s.name, s.pairs)).map (·.1)).Nodup := by
    rw [List.map_map]
    exact f.distinct
  simp only [options?, Option.map_eq_some_iff, Dictionary.find?_eq_some_iff hdistinct, List.mem_map, Prod.mk.injEq]
  constructor
  · rintro ⟨pairs, ⟨s, hs, hname, rfl⟩, ho⟩
    exact ⟨s, hs, hname, ho⟩
  · rintro ⟨s, hs, hname, ho⟩
    exact ⟨s.pairs, ⟨s, hs, hname, rfl⟩, ho⟩

def document (f : File) : Document := Document.giveAll {} f.sections

theorem own?_document (f : File) (name : String) : f.document.own? name =
    (f.options? name).or (if name = defaultSection then some .empty else none) := by
  rw [document, Document.own?_giveAll {} f.distinct, options?]
  cases Dictionary.find? name (f.sections.map fun s => (s.name, s.pairs)) with
  | none => rfl
  | some pairs =>
    have hempty : ((({} : Document).own? name).getD .empty : Options) = .empty := by
      unfold Document.own?
      split <;> rfl
    simp only [hempty, Option.map_some, Option.some_or, Dictionary.ofList]

/-- Values that were written have no blanks at their end to lose. -/
theorem own?_settle_document (f : File) (name : String) :
    (f.document.settle Text.trimEnd).own? name = f.document.own? name := by
  have htrimmed : ∀ o, f.document.own? name = some o → o.map Text.trimEnd = o := by
    intro o ho
    rw [own?_document, Option.or_eq_some_iff, options?_eq_some_iff] at ho
    refine Dictionary.map_eq_self fun p hp => ?_
    rcases ho with ho | ⟨-, ho⟩
    · obtain ⟨s, -, -, rfl⟩ := ho
      obtain ⟨e, -, rfl⟩ := List.mem_map.1 (Dictionary.mem_of_mem_ofList hp)
      exact e.value_trimmed.trimEnd_eq
    · split at ho
      · cases ho
        cases hp
      · cases ho
  rw [Document.own?_settle]
  cases h : f.document.own? name with
  | none => rfl
  | some o => rw [Option.map_some, htrimmed o h]

theorem readBytes_text (f : File) (place : String) :
    readBytes {} place (Text.Utf8.encode f.text) = .ok (f.document.settle Text.trimEnd) := by
  obtain ⟨r, hsteps, hdocument, hunusable⟩ := Reader.steps_sections (r := { file := place, document := {} })
    f.distinct (fun _ _ => List.not_mem_nil) (fun _ _ _ => List.not_mem_nil) 1
  have hlines : fileLines f.text.toList = (f.sections.flatMap Section.lines).map ended :=
    fileLines_unlines f.unbroken_lines
  rw [readBytes, Text.Utf8.decodeBlocks_encode]
  dsimp only
  rw [readText, hlines, hsteps]
  change r.finish = _
  rw [Reader.finish, if_pos hunusable, hdocument]
  rfl

end File

end ImageMacros.Config
