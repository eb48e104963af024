import ImageMacros.Config
import ImageMacros.Proofs.Text.Utf8Strict

/-!
# Which config files are refused

* `Item`, `Layout.items` : what the lines of a file give, each with the section it stands in;
* `Faulty` : what makes an item a fault behind those before it, and `Spoiled` : a text with a fault somewhere;
* `Reader.At` : a reader that has met the items before the next line and no fault among them;
* `Reader.steps_iff` : the lines are read to the end with nothing left unused if they have no fault, and only then;
* `Defective`, `readBytes_iff` : the bytes that are refused, whatever has been read before them;
* `read_iff` : the files of a place are read if none of them is defective, and only then.
-/

namespace ImageMacros.Config

open Text (isBlank trimChars)

/-! ## Items -/

/-- What a line gives that is neither left out nor continues a value. -/
inductive Item
  | header (name : String)
  | option (key : String)
  | undelimited
deriving DecidableEq

def Item.ofBody (body : List Char) : Item :=
  match header? body with
  | some name => .header name
  | none =>
    match option? body with
    | some (key, _) => .option key
    | none => .undelimited

/-- An item and the section that is open in front of it. -/
structure Placed where
  current : Option String
  item : Item
deriving DecidableEq

def indentOf (line : List Char) : Nat := (line.takeWhile isBlank).length

/-- The section and the option that the next line may belong to, and the indent to compare it with. -/
structure Layout where
  current : Option String := none
  key : Option String := none
  indent : Nat := 0

namespace Layout

/-- Whether a line that is indented further belongs to the option in front of it. -/
def Continues (l : Layout) (line : List Char) : Prop :=
  l.current.isSome ∧ (∃ key ∈ l.key, key ≠ "") ∧ l.indent < indentOf line

instance (l : Layout) (line : List Char) : Decidable (l.Continues line) := inferInstanceAs (Decidable (_ ∧ _ ∧ _))

/-- Comments, blank lines and lines that continue a value give none. -/
def item? (l : Layout) (line : List Char) : Option Item :=
  if isComment (trimChars line) ∨ trimChars line = [] ∨ l.Continues line then none
  else some (.ofBody (trimChars line))

variable {l : Layout} {line : List Char}

theorem item?_eq_none_iff :
    l.item? line = none ↔ isComment (trimChars line) ∨ trimChars line = [] ∨ l.Continues line := by
  simp only [item?, ite_eq_left_iff, reduceCtorEq, imp_false, not_not]

theorem item?_eq_some_iff {item : Item} : l.item? line = some item ↔
    (¬ isComment (trimChars line) ∧ trimChars line ≠ [] ∧ ¬ l.Continues line) ∧ .ofBody (trimChars line) = item := by
  simp only [item?, Option.ite_none_left_eq_some, not_or, Option.some.injEq, ne_eq]

def behind (l : Layout) : Item → Layout
  | .header name => { l with current := some name, key := none }
  | .option key => { l with key := some key }
  | .undelimited => l

def items (l : Layout) : List (List Char) → List Placed
  | [] => []
  | line :: rest =>
    match l.item? line with
    | none => l.items rest
    | some item => ⟨l.current, item⟩ :: ({ l with indent := indentOf line }.behind item).items rest

end Layout

/-! ## Faults -/

/-- What cannot stand behind the given items, such as a header or a key once more in its section. -/
inductive Faulty (before : List Placed) : Placed → Prop
  | noHeader {item : Item} (h : ∀ name, item ≠ .header name) : Faulty before ⟨none, item⟩
  | repeatedHeader {current : Option String} {name : String} (hname : name ≠ defaultSection)
      (h : .header name ∈ before.map (·.item)) : Faulty before ⟨current, .header name⟩
  | repeatedOption {name key : String} (h : ⟨some name, .option key⟩ ∈ before) :
      Faulty before ⟨some name, .option key⟩
  | undelimited {current : Option String} : Faulty before ⟨current, .undelimited⟩
  | unnamed {current : Option String} : Faulty before ⟨current, .option ""⟩

section Faulty

variable {before : List Placed} {current : Option String} {name key : String}

theorem faulty_header_iff :
    Faulty before ⟨current, .header name⟩ ↔ name ≠ defaultSection ∧ .header name ∈ before.map (·.item) := by
  refine ⟨fun h => ?_, fun h => .repeatedHeader h.1 h.2⟩
  cases h with
  | noHeader h => exact absurd rfl (h name)
  | repeatedHeader hname h => exact ⟨hname, h⟩

theorem faulty_option_iff :
    Faulty before ⟨current, .option key⟩ ↔ current = none ∨ key = "" ∨ ⟨current, .option key⟩ ∈ before := by
  constructor
  · intro h
    cases h with
    | noHeader => exact .inl rfl
    | repeatedOption h => exact .inr (.inr h)
    | unnamed => exact .inr (.inl rfl)
  · cases current with
    | none => exact fun _ => .noHeader fun _ => Item.noConfusion
    | some name =>
      rintro (h | rfl | h)
      · cases h
      · exact .unnamed
      · exact .repeatedOption h

instance : (p : Placed) → Decidable (Faulty before p)
  | ⟨_, .header _⟩ => decidable_of_iff _ faulty_header_iff.symm
  | ⟨_, .option _⟩ => decidable_of_iff _ faulty_option_iff.symm
  | ⟨_, .undelimited⟩ => .isTrue .undelimited

end Faulty

/-- A fault somewhere among the items, behind the given ones. -/
def FaultyIn (before items : List Placed) : Prop :=
  ∃ front p back, items = front ++ p :: back ∧ Faulty (before ++ front) p

theorem not_faultyIn_nil (before : List Placed) : ¬ FaultyIn before [] := by
  rintro ⟨front, p, back, h, -⟩
  simp at h

theorem faultyIn_cons {before items : List Placed} {p : Placed} :
    FaultyIn before (p :: items) ↔ Faulty before p ∨ FaultyIn (before ++ [p]) items := by
  constructor
  · rintro ⟨front, q, back, h, hfault⟩
    cases front with
    | nil =>
      obtain ⟨rfl, -⟩ := List.cons.inj h
      exact .inl (by simpa using hfault)
    | cons first front =>
      obtain ⟨rfl, hrest⟩ := List.cons.inj h
      exact .inr ⟨front, q, back, hrest, by simpa using hfault⟩
  · rintro (hfault | ⟨front, q, back, rfl, hfault⟩)
    · exact ⟨[], p, items, rfl, by simpa using hfault⟩
    · exact ⟨p :: front, q, back, rfl, by simpa using hfault⟩

instance decidableFaultyIn (before : List Placed) : (items : List Placed) → Decidable (FaultyIn before items)
  | [] => .isFalse (not_faultyIn_nil before)
  | p :: items =>
    have := decidableFaultyIn (before ++ [p]) items
    decidable_of_iff _ faultyIn_cons.symm

def Spoiled (text : String) : Prop := FaultyIn [] (Layout.items {} (fileLines text.toList))

instance (text : String) : Decidable (Spoiled text) := decidableFaultyIn _ _

/-! ## The reader among the items -/

namespace Reader

/-- A reader in front of a line, with what it keeps of the items before. -/
structure At (r : Reader) (l : Layout) (before : List Placed) : Prop where
  current : r.current = l.current
  key : r.key = l.key
  indent : r.indent = l.indent
  headers : ∀ name, name ≠ defaultSection → (name ∈ r.headers ↔ .header name ∈ before.map (·.item))
  keys : ∀ name key, (name, key) ∈ r.keys ↔ ⟨some name, .option key⟩ ∈ before

variable {r r' : Reader} {l : Layout} {before : List Placed} {line body : List Char}

theorem At.append (h : r.At l before) (name key text : String) : (r.append name key text).At l before :=
  ⟨h.current, h.key, h.indent, h.headers, h.keys⟩

theorem At.indented (h : r.At l before) (indent : Nat) :
    { r with indent := indent }.At { l with indent := indent } before :=
  ⟨h.current, h.key, rfl, h.headers, h.keys⟩

theorem At.continues_iff (h : r.At l before) (line : List Char) :
    l.Continues line ↔ r.continued?.isSome ∧ r.indent < indentOf line := by
  unfold Layout.Continues continued?
  rw [h.current, h.key, h.indent]
  cases l.current <;> cases l.key <;> simp

/-- A line that gives no item leaves the reader where it is. -/
theorem At.step_none (h : r.At l before) (hitem : l.item? line = none) (number : Nat) :
    ∃ r', r.step number line = .ok r' ∧ r'.At l before ∧ r'.unusable = r.unusable := by
  rw [Layout.item?_eq_none_iff, h.continues_iff line] at hitem
  unfold step
  dsimp only
  by_cases hcomment : isComment (trimChars line)
  · exact ⟨r, if_pos hcomment, h, rfl⟩
  by_cases hblank : trimChars line = []
  · rw [if_neg hcomment, if_pos hblank]
    cases r.continued? with
    | none => exact ⟨r, rfl, h, rfl⟩
    | some option => exact ⟨_, rfl, h.append _ _ _, rfl⟩
  · obtain ⟨hoption, hindent⟩ := (hitem.resolve_left hcomment).resolve_left hblank
    obtain ⟨option, hoption⟩ := Option.isSome_iff_exists.1 hoption
    rw [if_neg hcomment, if_neg hblank, hoption]
    exact ⟨_, if_pos hindent, h.append _ _ _, rfl⟩

/-- A line that gives an item is read as an entry. -/
theorem At.step_some {item : Item} (h : r.At l before) (hitem : l.item? line = some item) (number : Nat) :
    r.step number line = { r with indent := indentOf line }.entry number line (trimChars line) := by
  obtain ⟨⟨hcomment, hblank, hcontinues⟩, -⟩ := Layout.item?_eq_some_iff.1 hitem
  rw [h.continues_iff line] at hcontinues
  unfold step
  dsimp only
  rw [if_neg hcomment, if_neg hblank]
  cases hoption : r.continued? with
  | none => rfl
  | some option => exact if_neg fun hindent => hcontinues ⟨by rw [hoption]; rfl, hindent⟩

/-! ### Entries -/

variable {number : Nat} {name key value : String}

theorem unusable_giveUp_ne_nil (r : Reader) (number : Nat) (line : List Char) : (r.giveUp number line).unusable ≠ [] :=
  List.append_ne_nil_of_right_ne_nil _ (List.cons_ne_nil _ _)

theorem openSection_eq_ok (h : r.openSection number name = .ok r') :
    (name = defaultSection ∨ name ∉ r.headers) ∧ r'.unusable = r.unusable := by
  unfold openSection at h
  split_ifs at h with hname hold
  · exact ⟨.inl hname, by rw [← Except.ok.inj h]⟩
  · exact ⟨.inr hold, by rw [← Except.ok.inj h]⟩

theorem setOption_eq_ok (h : r.setOption number name key value = .ok r') :
    (name, key) ∉ r.keys ∧ r'.unusable = r.unusable := by
  unfold setOption at h
  split_ifs at h with hold
  exact ⟨hold, by rw [← Except.ok.inj h]⟩

theorem At.openSection (h : r.At l before) (hfault : ¬ Faulty before ⟨l.current, .header name⟩) (number : Nat) :
    ∃ r', r.openSection number name = .ok r' ∧
      r'.At (l.behind (.header name)) (before ++ [⟨l.current, .header name⟩]) ∧ r'.unusable = r.unusable := by
  have hkeys : ∀ section' key, (section', key) ∈ r.keys ↔
      ⟨some section', .option key⟩ ∈ before ++ [⟨l.current, .header name⟩] := by simp [h.keys]
  rw [faulty_header_iff] at hfault
  unfold Reader.openSection
  by_cases hname : name = defaultSection
  · refine ⟨_, if_pos hname, ⟨rfl, rfl, h.indent, fun other hother => ?_, hkeys⟩, rfl⟩
    have hne : other ≠ name := hname ▸ hother
    simp [h.headers other hother, hne]
  · have hold : name ∉ r.headers := fun hold => hfault ⟨hname, (h.headers name hname).1 hold⟩
    rw [if_neg hname]
    refine ⟨_, if_neg hold, ⟨rfl, rfl, h.indent, fun other hother => ?_, hkeys⟩, rfl⟩
    simp [h.headers other hother, or_comm]

theorem At.setOption (h : r.At l before) (hname : l.current = some name)
    (hfault : ¬ Faulty before ⟨l.current, .option key⟩) (number : Nat) (value : String) :
    ∃ r', r.setOption number name key value = .ok r' ∧
      r'.At (l.behind (.option key)) (before ++ [⟨l.current, .option key⟩]) ∧ r'.unusable = r.unusable := by
  have hold : (name, key) ∉ r.keys := fun hold => hfault (hname ▸ .repeatedOption ((h.keys name key).1 hold))
  refine ⟨_, if_neg hold, ⟨h.current, rfl, h.indent, ?_, ?_⟩, rfl⟩
  · simpa using h.headers
  · simp [h.keys, hname, or_comm]

theorem At.entry_of_not_faulty (h : r.At l before) (hfault : ¬ Faulty before ⟨l.current, .ofBody body⟩) :
    ∃ r', r.entry number line body = .ok r' ∧
      r'.At (l.behind (.ofBody body)) (before ++ [⟨l.current, .ofBody body⟩]) ∧ r'.unusable = r.unusable := by
  unfold entry
  unfold Item.ofBody at hfault ⊢
  rw [h.current]
  cases hheader : header? body with
  | some name =>
    rw [hheader] at hfault
    exact h.openSection hfault number
  | none =>
    rw [hheader] at hfault
    cases hoption : option? body with
    | none =>
      rw [hoption] at hfault
      exact absurd .undelimited hfault
    | some option =>
      obtain ⟨key, value⟩ := option
      rw [hoption] at hfault
      obtain ⟨hcurrent, hkey, -⟩ := not_or.1 (faulty_option_iff.not.1 hfault) |>.imp_right not_or.1
      obtain ⟨name, hname⟩ := Option.ne_none_iff_exists'.1 hcurrent
      obtain ⟨r', hset, hr'⟩ := h.setOption hname hfault number value
      refine ⟨r', ?_, hr'⟩
      rw [hname]
      dsimp only
      rw [if_neg hkey, hset]

/-- A fault ends the reading or leaves a line unused. -/
theorem At.unusable_of_faulty (h : r.At l before) (hfault : Faulty before ⟨l.current, .ofBody body⟩)
    (hentry : r.entry number line body = .ok r') : r'.unusable ≠ [] := by
  unfold entry at hentry
  unfold Item.ofBody at hfault
  rw [h.current] at hentry
  cases hheader : header? body with
  | some name =>
    rw [hheader] at hentry hfault
    obtain ⟨hname, hold⟩ := faulty_header_iff.1 hfault
    have := (openSection_eq_ok hentry).1.resolve_left hname
    exact absurd ((h.headers name hname).2 hold) this
  | none =>
    rw [hheader] at hentry hfault
    cases hcurrent : l.current with
    | none =>
      rw [hcurrent] at hentry
      cases hentry
    | some name =>
      rw [hcurrent] at hentry hfault
      cases hoption : option? body with
      | none =>
        rw [hoption] at hentry
        rw [← Except.ok.inj hentry]
        exact unusable_giveUp_ne_nil r number line
      | some option =>
        obtain ⟨key, value⟩ := option
        rw [hoption] at hentry hfault
        dsimp only at hentry
        obtain ⟨hnew, hunusable⟩ := setOption_eq_ok hentry
        rw [hunusable]
        split_ifs at hnew ⊢ with hkey
        · exact unusable_giveUp_ne_nil r number line
        · rcases faulty_option_iff.1 hfault with hnone | hempty | hold
          · cases hnone
          · exact absurd hempty hkey
          · exact absurd ((h.keys name key).2 hold) hnew

theorem unusable_of_entry (hentry : r.entry number line body = .ok r') (h : r'.unusable = []) : r.unusable = [] := by
  unfold entry at hentry
  split at hentry
  · rw [← (openSection_eq_ok hentry).2, h]
  · split at hentry
    · cases hentry
    · split at hentry
      · exact absurd (Except.ok.inj hentry ▸ h) (unusable_giveUp_ne_nil r number line)
      · have hset := (setOption_eq_ok hentry).2
        rw [h] at hset
        split_ifs at hset
        · exact absurd hset.symm (unusable_giveUp_ne_nil r number line)
        · exact hset.symm

/-! ### Runs -/

theorem unusable_of_step (hstep : r.step number line = .ok r') (h : r'.unusable = []) : r.unusable = [] := by
  unfold step at hstep
  dsimp only at hstep
  split at hstep
  · rwa [Except.ok.inj hstep]
  · split at hstep
    · split at hstep <;> rw [← Except.ok.inj hstep] at h <;> exact h
    · split at hstep
      · split_ifs at hstep
        · rw [← Except.ok.inj hstep] at h
          exact h
        · exact unusable_of_entry (r := { r with indent := indentOf line }) hstep h
      · exact unusable_of_entry (r := { r with indent := indentOf line }) hstep h

theorem unusable_of_steps {lines : List (List Char)} (hsteps : r.steps number lines = .ok r') (h : r'.unusable = []) :
    r.unusable = [] := by
  induction lines generalizing r number with
  | nil => rwa [Except.ok.inj hsteps]
  | cons line rest ih =>
    rw [steps] at hsteps
    cases hstep : r.step number line with
    | error defect =>
      rw [hstep] at hsteps
      cases hsteps
    | ok next =>
      rw [hstep] at hsteps
      exact unusable_of_step hstep (ih hsteps)

/-- The lines are read with nothing unusable exactly if none of their items is a fault. -/
theorem At.steps_iff {lines : List (List Char)} (h : r.At l before) :
    (∃ r', r.steps number lines = .ok r' ∧ r'.unusable = []) ↔
      r.unusable = [] ∧ ¬ FaultyIn before (l.items lines) := by
  induction lines generalizing r l before number with
  | nil => simp [steps, Layout.items, not_faultyIn_nil]
  | cons line rest ih =>
    rw [steps, Layout.items]
    cases hitem : l.item? line with
    | none =>
      obtain ⟨next, hstep, hnext, hunusable⟩ := h.step_none hitem number
      rw [hstep]
      exact (ih hnext).trans (by rw [hunusable])
    | some item =>
      have hbody := (Layout.item?_eq_some_iff.1 hitem).2
      subst hbody
      have hindented := h.indented (indentOf line)
      rw [h.step_some hitem number, faultyIn_cons, not_or]
      by_cases hfault : Faulty before ⟨l.current, .ofBody (trimChars line)⟩
      · refine iff_of_false ?_ fun hgood => hgood.2.1 hfault
        rintro ⟨r', hsteps, hunusable⟩
        cases hentry : Reader.entry { r with indent := indentOf line } number line (trimChars line) with
        | error defect =>
          rw [hentry] at hsteps
          cases hsteps
        | ok next =>
          rw [hentry] at hsteps
          exact hindented.unusable_of_faulty hfault hentry (unusable_of_steps hsteps hunusable)
      · obtain ⟨next, hentry, hnext, hunusable⟩ := hindented.entry_of_not_faulty hfault
        rw [hentry]
        exact (ih hnext).trans (by simp [hunusable, hfault])

end Reader

/-! ## Files -/

theorem Reader.finish_iff (r : Reader) : (∃ d, r.finish = .ok d) ↔ r.unusable = [] := by
  unfold finish
  split_ifs with h <;> simp [h]

/-- A text is read with nothing unusable exactly if it has no fault. -/
theorem readText_iff (d : Document) (file text : String) :
    (∃ d', readText d file text.toList = .ok d') ↔ ¬ Spoiled text := by
  have hstart : Reader.At { file := file, document := d } {} [] :=
    ⟨rfl, rfl, rfl, fun _ _ => by simp, fun _ _ => by simp⟩
  have hsteps : (∃ r, Reader.steps { file := file, document := d } 1 (fileLines text.toList) = .ok r ∧
      r.unusable = []) ↔ [] = [] ∧ ¬ Spoiled text := hstart.steps_iff
  refine Iff.trans ?_ (hsteps.trans (and_iff_right rfl))
  unfold readText
  cases Reader.steps { file := file, document := d } 1 (fileLines text.toList) with
  | error defect => exact iff_of_false (fun h => by cases h.choose_spec) fun h => by cases h.choose_spec.1
  | ok r => exact r.finish_iff.trans (by simp)

/-- What looks like a header or lacks a delimiter is no fault where it continues a value. -/
example : ¬ Spoiled "[a]\nk = v\n [a]\n\n  x\n[DEFAULT]\n; y\n[DEFAULT]\n" ∧ Spoiled "[a]\nk =\n[b]\n  x\n" := by
  decide +kernel

/-- Bytes that are no text, or the text of a file with a fault. -/
inductive Defective (bytes : List UInt8) : Prop
  | undecodable (h : ∀ text, Text.Utf8.encode text ≠ bytes)
  | spoiled {text : String} (htext : Text.Utf8.encode text = bytes) (h : Spoiled text)

theorem defective_encode_iff (text : String) : Defective (Text.Utf8.encode text) ↔ Spoiled text := by
  refine ⟨fun h => ?_, .spoiled rfl⟩
  cases h with
  | undecodable h => exact absurd rfl (h text)
  | spoiled htext h =>
    have hdecode := Text.Utf8.decode_encode text
    rw [← htext, Text.Utf8.decode_encode] at hdecode
    exact Except.ok.inj hdecode ▸ h

instance (bytes : List UInt8) : Decidable (Defective bytes) :=
  match h : Text.Utf8.decode bytes with
  | .ok text => decidable_of_iff (Spoiled text) (Text.Utf8.decode_eq_ok_iff.1 h ▸ (defective_encode_iff text).symm)
  | .error _ => .isTrue (.undecodable fun text htext => by
      rw [← htext, Text.Utf8.decode_encode] at h
      cases h)

/-- Whatever has been read before, bytes are read exactly if they are not defective. -/
theorem readBytes_iff (d : Document) (file : String) (bytes : List UInt8) :
    (∃ d', readBytes d file bytes = .ok d') ↔ ¬ Defective bytes := by
  unfold readBytes
  cases hdecode : Text.Utf8.decodeBlocks blockSize bytes with
  | mk cs fault =>
    cases fault with
    | none =>
      obtain rfl := Text.Utf8.decodeBlocks_eq_none_iff.1 hdecode
      have hread := readText_iff d file (String.ofList cs)
      have hdefective := defective_encode_iff (String.ofList cs)
      rw [String.toList_ofList] at hread
      rw [Text.Utf8.encode, String.toList_ofList] at hdefective
      rw [hdefective]
      exact hread
    | some fault =>
      refine iff_of_false ?_ (not_not_intro (.undecodable fun text htext => ?_))
      · rintro ⟨d', hread⟩
        dsimp only at hread
        cases hsteps : Reader.steps { file := file, document := d } 1 (startedLines cs) <;> rw [hsteps] at hread <;>
          cases hread
      · have hwhole : Text.Utf8.decodeBlocks blockSize bytes = (text.toList, none) :=
          Text.Utf8.decodeBlocks_eq_none_iff.2 htext
        rw [hdecode] at hwhole
        cases hwhole

theorem foldlM_readBytes_iff (fs : List (String × List UInt8)) (d : Document) :
    (∃ d', fs.foldlM (fun d f => readBytes d f.1 f.2) d = .ok d') ↔ ∀ f ∈ fs, ¬ Defective f.2 := by
  induction fs generalizing d with
  | nil => simp [pure, Except.pure]
  | cons f fs ih =>
    rw [List.foldlM_cons, List.forall_mem_cons, ← readBytes_iff d f.1 f.2]
    cases readBytes d f.1 f.2 with
    | error defect => exact iff_of_false (fun h => by cases h.choose_spec) fun h => by cases h.1.choose_spec
    | ok next => exact (ih next).trans (by simp)

theorem read_iff (s : Storage) (place : String) :
    (∃ d, Config.read s place = .ok d) ↔ ∀ f ∈ files s place, ¬ Defective f.2 :=
  foldlM_readBytes_iff (files s place) {}

end ImageMacros.Config
