import ImageMacros.Proofs.Session.Precedence

/-!
# Settings asked for in any order

* `Question` : what can be asked about the settings, with the look-ups that it takes;
* `Record.OfReading`, `readings` : the records that reading a config file makes (`log_fileLayer_cases`);
* `Session.takeAll_lookups`, `Session.readingsOf_eq` : what look-ups leave loaded, and what they log of the reading: all
  that counts is whether the environment leaves one of them open;
* `Session.ask`, `Session.asked` : questions one after the other, their replies and the session afterwards;
* `Session.replies_stable` : questions are answered alike in every order, and a config file is read for the first that
  needs it.
-/

namespace ImageMacros

/-! ## Questions -/

/-- One of the settings, or all at once. -/
inductive Question
  | excludeDocs
  | locales
  | installRoot
  | settings
deriving DecidableEq, Repr

namespace Question

def operation : Question → Operation
  | .excludeDocs => .excludeDocs
  | .locales => .locales
  | .installRoot => .installRoot
  | .settings => .settings

def variableNames : Question → List String
  | .excludeDocs => [Setting.excludeDocs.variableName]
  | .locales => [Setting.locales.variableName]
  | .installRoot => [Setting.installRoot.variableName]
  | .settings => [Setting.excludeDocs.variableName, Setting.locales.variableName, Setting.installRoot.variableName]

end Question

/-! ## Records of a reading -/

/-- A record that reading a config file makes, told by how its message starts. -/
def Record.OfReading (r : Record) : Prop :=
  ∃ lead ∈ ["No [customizations] section in ", "Failed to read config file ", "Ignoring unknown keys in "],
    lead.toList <+: r.message.toList

instance (r : Record) : Decidable r.OfReading := inferInstanceAs (Decidable (∃ _ ∈ _, _))

def readings (log : List Record) : List Record := log.filter fun r => r.OfReading

@[simp] theorem readings_nil : readings [] = [] := rfl

@[simp] theorem readings_append (as bs : List Record) : readings (as ++ bs) = readings as ++ readings bs :=
  List.filter_append ..

theorem readings_eq_nil {log : List Record} (h : ∀ r ∈ log, ¬ r.OfReading) : readings log = [] :=
  List.filter_eq_nil_iff.2 fun r hr => by simpa using h r hr

theorem readings_eq_self {log : List Record} (h : ∀ r ∈ log, r.OfReading) : readings log = log :=
  List.filter_eq_self.2 fun r hr => by simpa using h r hr

theorem not_ofReading {r : Record} (h : r.message.toList.take 2 ∈ [['I', 'n'], ['R', 'e']]) : ¬ r.OfReading := by
  rintro ⟨lead, hlead, hprefix⟩
  have hstart : ∀ lead ∈ ["No [customizations] section in ", "Failed to read config file ",
      "Ignoring unknown keys in "], 2 ≤ lead.toList.length ∧ lead.toList.take 2 ∉ [['I', 'n'], ['R', 'e']] := by decide
  obtain ⟨hlength, hnot⟩ := hstart lead hlead
  obtain ⟨rest, hrest⟩ := hprefix
  rw [← hrest, List.take_append_of_le_length hlength] at h
  exact hnot h

theorem Setting.readings_complaint {α : Type} (st : Setting α) (layer text : String) :
    readings (st.complaint layer text) = [] := by
  refine readings_eq_nil fun r hr => ?_
  unfold complaint at hr
  split at hr
  · cases hr
  · rw [List.mem_singleton.1 hr]
    refine not_ofReading ?_
    simp only [invalid, String.toList_append, List.append_assoc]
    exact List.mem_cons_self

namespace FileLayer

theorem ofReading_unreadable (place : String) (d : Config.Defect) : (unreadable place d).OfReading := by
  refine ⟨"Failed to read config file ", by decide, ?_⟩
  simp only [unreadable, String.toList_append, List.append_assoc]
  exact List.prefix_append _ _

theorem ofReading_noSection (place : String) : (noSection place).OfReading := by
  refine ⟨"No [customizations] section in ", by decide, place.toList, ?_⟩
  simp only [noSection, String.toList_append]
  exact congrArg (· ++ place.toList) (by decide)

theorem ofReading_unknownKeys (place : String) (keys : List String) : (unknownKeys place keys).OfReading := by
  refine ⟨"Ignoring unknown keys in ", by decide, ?_⟩
  simp only [unknownKeys, String.toList_append, List.append_assoc]
  exact List.prefix_append _ _

theorem log_read_cases (s : Storage) (place : String) :
    (read s place).2 = [] ∨ ∃ r, (read s place).2 = [r] ∧ r.OfReading := by
  unfold read
  split
  · exact .inl rfl
  · cases Config.read s place with
    | error defect => exact .inr ⟨_, rfl, ofReading_unreadable place defect⟩
    | ok document =>
      dsimp only
      unfold ofDocument
      split
      · exact .inr ⟨_, rfl, ofReading_noSection place⟩
      · split
        · exact .inl rfl
        · exact .inr ⟨_, rfl, ofReading_unknownKeys place _⟩

end FileLayer

namespace Session

theorem readings_resolved (s : Settings) : readings [resolved s] = [] := by
  refine readings_eq_nil fun r hr => ?_
  rw [List.mem_singleton.1 hr]
  refine not_ofReading ?_
  simp only [resolved, String.toList_append]
  exact List.mem_cons_of_mem _ List.mem_cons_self

theorem log_fileLayer_cases (x : Session) :
    x.fileLayer.log = [] ∨ x.loaded = none ∧ ∃ r, x.fileLayer.log = [r] ∧ r.OfReading := by
  rw [log_fileLayer]
  split
  · next hloaded =>
    unfold readLayer
    split
    · exact (FileLayer.log_read_cases x.storage x.configPlace).imp_right fun h => ⟨hloaded, h⟩
    · exact .inl rfl
  · exact .inl rfl

theorem readings_fileLayer (x : Session) : readings x.fileLayer.log = x.fileLayer.log := by
  rcases x.log_fileLayer_cases with h | ⟨-, r, h, hr⟩
  · rw [h, readings_nil]
  · rw [h]
    exact readings_eq_self fun _ hmem => List.mem_singleton.1 hmem ▸ hr

/-! ## Look-ups one after the other -/

variable {α : Type}

theorem readings_lookup (x : Session) (st : Setting α) : readings (x.lookup st).log =
    if x.environment.get? st.variableName = none then x.fileLayer.log else [] := by
  cases h : x.environment.get? st.variableName with
  | some text => rw [(lookup_of_set h).2, st.readings_complaint, if_neg (Option.some_ne_none text)]
  | none =>
    rw [log_lookup_of_unset h, readings_append, readings_fileLayer, if_pos rfl]
    cases x.fileLayer.value.get? st.key with
    | none => rw [readings_nil, List.append_nil]
    | some text => rw [st.readings_complaint, List.append_nil]

/-- Whether one of these look-ups is left to the file layer. -/
def Misses (x : Session) (names : List String) : Prop := ∃ name ∈ names, x.environment.get? name = none

instance (x : Session) (names : List String) : Decidable (x.Misses names) :=
  inferInstanceAs (Decidable (∃ _ ∈ _, _))

theorem misses_cons_of_set {x : Session} {name : String} (h : x.environment.get? name ≠ none) {names : List String} :
    x.Misses (name :: names) ↔ x.Misses names := by
  simp [Misses, h]

theorem session_fileLayer (x : Session) : x.fileLayer.session = { x with loaded := some x.fileLayer.value } := by
  unfold fileLayer
  cases h : x.loaded with
  | some values => simp only [← h]
  | none => rfl

theorem session_fileLayer_again (x : Session) : x.fileLayer.session.fileLayer.session = x.fileLayer.session := by
  rw [session_fileLayer x]
  rfl

theorem log_fileLayer_again (x : Session) : x.fileLayer.session.fileLayer.log = [] := by
  rw [session_fileLayer x]
  rfl

/-- Look-ups leave the file layer loaded if one of them is left to it. -/
theorem takeAll_lookups (x : Session) (names : List String) :
    x.takeAll (names.map .lookup) = if x.Misses names then x.fileLayer.session else x := by
  induction names generalizing x with
  | nil => simp [Misses]
  | cons name names ih =>
    rw [List.map_cons, takeAll_cons, take]
    by_cases hname : x.environment.get? name = none
    · rw [if_pos hname, ih, session_fileLayer_again, ite_self, if_pos ⟨name, List.mem_cons_self, hname⟩]
    · rw [if_neg hname, ih, if_congr (misses_cons_of_set hname) rfl rfl]

/-- What look-ups log of the reading. -/
def readingsOf (x : Session) : List String → List Record
  | [] => []
  | name :: names =>
    (if x.environment.get? name = none then x.fileLayer.log else []) ++ (x.take (.lookup name)).readingsOf names

theorem readingsOf_append (x : Session) (as bs : List String) :
    x.readingsOf (as ++ bs) = x.readingsOf as ++ (x.takeAll (as.map .lookup)).readingsOf bs := by
  induction as generalizing x with
  | nil => rfl
  | cons name as ih =>
    rw [List.cons_append, readingsOf, ih, readingsOf, List.append_assoc]
    rfl

/-- However many look-ups are left to the file layer, it is read once at most. -/
theorem readingsOf_eq (x : Session) (names : List String) :
    x.readingsOf names = if x.Misses names then x.fileLayer.log else [] := by
  induction names generalizing x with
  | nil => simp [readingsOf, Misses]
  | cons name names ih =>
    rw [readingsOf, take, ih]
    by_cases hname : x.environment.get? name = none
    · rw [if_pos hname, if_pos hname, log_fileLayer_again, ite_self, List.append_nil,
        if_pos ⟨name, List.mem_cons_self, hname⟩]
    · rw [if_neg hname, if_neg hname, List.nil_append, if_congr (misses_cons_of_set hname) rfl rfl]

/-! ## One question -/

def answer (x : Session) : Question → Answer
  | .excludeDocs => .truth (x.lookup .excludeDocs).value
  | .locales => .text (x.lookup .locales).value
  | .installRoot => .text (x.lookup .installRoot).value
  | .settings =>
    .settings ⟨(x.lookup .excludeDocs).value, (x.lookup .locales).value, (x.lookup .installRoot).value⟩

theorem result_question (x : Session) (q : Question) : (x.perform q.operation).result = .ok (x.answer q) := by
  cases q with
  | settings => exact congrArg (fun s => Except.ok (Answer.settings s)) (value_settings x)
  | _ => rfl

theorem Agrees.answer {x y : Session} (h : Agrees x y) (q : Question) : y.answer q = x.answer q := by
  cases q <;> simp only [Session.answer, h.value_lookup]

theorem session_question (x : Session) (q : Question) :
    (x.perform q.operation).session = if x.Misses q.variableNames then x.fileLayer.session else x := by
  rw [← takeAll_lookups]
  cases q with
  | excludeDocs => exact session_lookup x .excludeDocs
  | locales => exact session_lookup x .locales
  | installRoot => exact session_lookup x .installRoot
  | settings => exact session_settings x

theorem agrees_question (x : Session) (q : Question) : Agrees x (x.perform q.operation).session := by
  rw [session_question]
  split
  · exact agrees_fileLayer x
  · exact .refl x

theorem readings_question (x : Session) (q : Question) : readings (x.perform q.operation).log =
    if x.Misses q.variableNames then x.fileLayer.log else [] := by
  rw [← readingsOf_eq]
  cases q with
  | settings =>
    change readings x.settings.log = _
    unfold settings
    dsimp only
    simp only [readings_append, readings_lookup, readings_resolved, session_lookup, List.append_nil,
      Question.variableNames, readingsOf, List.append_assoc]
  | excludeDocs => exact (readings_lookup x .excludeDocs).trans (List.append_nil _).symm
  | locales => exact (readings_lookup x .locales).trans (List.append_nil _).symm
  | installRoot => exact (readings_lookup x .installRoot).trans (List.append_nil _).symm

/-! ## Questions one after the other -/

/-- The replies to questions, one after the other. -/
def ask (x : Session) : List Question → List (Reply Answer)
  | [] => []
  | q :: qs => x.perform q.operation :: (x.perform q.operation).session.ask qs

def asked (x : Session) (qs : List Question) : Session := x.performAll (qs.map (·.operation))

theorem ask_concat (x : Session) (qs : List Question) (q : Question) :
    x.ask (qs ++ [q]) = x.ask qs ++ [(x.asked qs).perform q.operation] := by
  induction qs generalizing x with
  | nil => rfl
  | cons p qs ih => exact congrArg _ (ih (x.perform p.operation).session)

/-- Questions take the look-ups that each takes, one after the other. -/
theorem asked_eq_takeAll (x : Session) (qs : List Question) :
    x.asked qs = x.takeAll ((qs.flatMap (·.variableNames)).map .lookup) := by
  induction qs generalizing x with
  | nil => rfl
  | cons q qs ih =>
    rw [List.flatMap_cons, List.map_append, takeAll_append, takeAll_lookups x q.variableNames, ← session_question]
    exact ih _

theorem asked_eq (x : Session) (qs : List Question) : x.asked qs =
    if x.Misses (qs.flatMap (·.variableNames)) then { x with loaded := some x.fileLayer.value } else x := by
  rw [asked_eq_takeAll, takeAll_lookups, session_fileLayer]

theorem results_ask (x : Session) (qs : List Question) :
    (x.ask qs).map (·.result) = qs.map fun q => .ok (x.answer q) := by
  induction qs generalizing x with
  | nil => rfl
  | cons q qs ih =>
    -- the others are asked in another session, but one in which every answer is the same
    have hnext : ∀ p, (x.perform q.operation).session.answer p = x.answer p := (x.agrees_question q).answer
    have hrest := ih (x.perform q.operation).session
    simp only [hnext] at hrest
    rw [List.map_cons, ← result_question, ← hrest]
    rfl

theorem readings_ask (x : Session) (qs : List Question) : readings ((x.ask qs).flatMap (·.log)) =
    if x.Misses (qs.flatMap (·.variableNames)) then x.fileLayer.log else [] := by
  rw [← readingsOf_eq]
  induction qs generalizing x with
  | nil => rfl
  | cons q qs ih =>
    -- the induction is over questions, what they log is counted by look-ups: both are cut behind the first question
    have hrest := ih (x.perform q.operation).session
    rw [session_question, ← takeAll_lookups] at hrest
    rw [List.flatMap_cons, readingsOf_append, readingsOf_eq x q.variableNames, ← readings_question, ← hrest,
      ← readings_append, takeAll_lookups, ← session_question]
    rfl

theorem readings_question_asked (x : Session) (front : List Question) (q : Question) :
    readings ((x.asked front).perform q.operation).log =
      if x.Misses q.variableNames ∧ ¬ x.Misses (front.flatMap (·.variableNames)) then x.fileLayer.log else [] := by
  rw [readings_question, asked_eq_takeAll, takeAll_lookups]
  by_cases hfront : x.Misses (front.flatMap (·.variableNames))
  · rw [if_pos hfront, log_fileLayer_again, ite_self, if_neg fun h => h.2 hfront]
  · rw [if_neg hfront]
    exact if_congr (and_iff_left hfront).symm rfl rfl

/-- All settings at once are each asked in turn, with a record of their values at the end. -/
theorem log_settings (x : Session) : (x.perform .settings).log =
    (x.ask [.excludeDocs, .locales, .installRoot]).flatMap (·.log) ++ [resolved x.settings.value] := by
  have hturns : (x.ask [.excludeDocs, .locales, .installRoot]).flatMap (·.log) = (x.lookup .excludeDocs).log ++
      (((x.lookup .excludeDocs).session.lookup .locales).log ++
        ((((x.lookup .excludeDocs).session.lookup .locales).session.lookup .installRoot).log ++ [])) := rfl
  rw [hturns, List.append_nil, ← List.append_assoc]
  rfl

/-- Questions have the same answers in every order and leave the same layer, and the first one that needs the config
file is the only one that logs its reading. -/
theorem replies_stable (x : Session) (qs : List Question) :
    let names (qs : List Question) := qs.flatMap (·.variableNames)
    let reading := if x.loaded = none then (x.readLayer x.configPlace).2 else []
    (x.ask qs).map (·.result) = (qs.map fun q => (x.perform q.operation).result) ∧
    (∀ q, (x.perform q.operation).result = .ok (x.answer q)) ∧
    (∀ others (i j : Nat), qs[i]? = others[j]? →
      (x.ask qs)[i]?.map (·.result) = (x.ask others)[j]?.map (·.result)) ∧
    x.asked qs = (if x.Misses (names qs) then { x with loaded := some x.fileLayer.value } else x) ∧
    (∀ others, x.Misses (names qs) → x.Misses (names others) → x.asked qs = x.asked others) ∧
    reading.length ≤ 1 ∧
    readings ((x.ask qs).flatMap (·.log)) = (if x.Misses (names qs) then reading else []) ∧
    (∀ q : Question, x.ask (qs ++ [q]) = x.ask qs ++ [(x.asked qs).perform q.operation] ∧
      readings ((x.asked qs).perform q.operation).log =
        if x.Misses q.variableNames ∧ ¬ x.Misses (names qs) then reading else []) ∧
    ((x.asked qs).perform .settings).log =
      ((x.asked qs).ask [.excludeDocs, .locales, .installRoot]).flatMap (·.log) ++
        [resolved (x.asked qs).settings.value] := by
  intro names reading
  have hreading : x.fileLayer.log = reading := x.log_fileLayer
  have hresults : ∀ qs, (x.ask qs).map (·.result) = qs.map fun q => (x.perform q.operation).result := fun qs => by
    rw [results_ask]
    exact List.map_congr_left fun q _ => (x.result_question q).symm
  refine ⟨hresults qs, x.result_question, fun others i j h => ?_, x.asked_eq qs, fun others hqs hothers => ?_, ?_, ?_,
    fun q => ⟨x.ask_concat qs q, ?_⟩, log_settings _⟩
  · rw [← List.getElem?_map, ← List.getElem?_map, hresults, hresults, List.getElem?_map, List.getElem?_map, h]
  · rw [asked_eq, asked_eq, if_pos hqs, if_pos hothers]
  · rw [← hreading]
    rcases x.log_fileLayer_cases with h | ⟨-, r, h, -⟩ <;> simp [h]
  · rw [readings_ask, hreading]
  · rw [readings_question_asked, hreading]

/-- The reading is logged for whichever of the two questions comes first. -/
theorem replies_stable_configured :
    let x := (configuredBy "[customizations]\nx = 1\ninstall_root = /r\n").performAll
      [.setVariable Setting.locales.variableName "de"]
    let qs := [Question.locales, .installRoot, .settings]
    let others := [Question.settings, .installRoot, .locales]
    qs[2]? = others[0]? ∧ (x.ask qs)[2]?.map (·.result) = (x.ask others)[0]?.map (·.result) ∧
      x.Misses (qs.flatMap (·.variableNames)) ∧ x.Misses (others.flatMap (·.variableNames)) ∧
      x.asked qs = x.asked others ∧
      readings ((x.asked [.locales]).perform .installRoot).log = [FileLayer.unknownKeys "c" ["x"]] ∧
      readings ((x.ask qs).flatMap (·.log)) = [FileLayer.unknownKeys "c" ["x"]] ∧
      readings ((x.asked qs).perform .settings).log = [] := by
  intro x qs others
  have hloaded : x.loaded = none := by decide +kernel
  have hreading : (x.readLayer x.configPlace).2 = [FileLayer.unknownKeys "c" ["x"]] := by decide +kernel
  have hset : ¬ x.Misses ([Question.locales].flatMap (·.variableNames)) := by decide +kernel
  have hroot : x.Misses (Question.installRoot.variableNames) := by decide +kernel
  have hqs : x.Misses (qs.flatMap (·.variableNames)) := by decide +kernel
  have hothers : x.Misses (others.flatMap (·.variableNames)) := by decide +kernel
  obtain ⟨-, -, hplace, -, hasked, -, hall, hone, -⟩ := replies_stable x qs
  obtain ⟨-, -, -, -, -, -, -, hfirst, -⟩ := replies_stable x [.locales]
  refine ⟨rfl, hplace others 2 0 rfl, hqs, hothers, hasked others hqs hothers, ?_, ?_, ?_⟩
  · exact (hfirst .installRoot).2.trans (by rw [if_pos ⟨hroot, hset⟩, if_pos hloaded, hreading])
  · rw [hall, if_pos hqs, if_pos hloaded, hreading]
  · exact (hone .settings).2.trans (if_neg fun h => h.2 hqs)

end Session

end ImageMacros
