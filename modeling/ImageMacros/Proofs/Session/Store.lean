import ImageMacros.Proofs.MacroFile.Writes
import ImageMacros.Proofs.Session.History
import ImageMacros.Proofs.Storage.Whole

/-!
# What a run leaves of the storage

* `Command.writes`, `Session.writes` : the files that a command line, an operation sets out to write;
* `storage_perform` : the storage after an operation is what these writes leave;
* `Session.tried`, `Session.triedAll` : the writes that are tried in an operation, in a run;
* `not_failed_of_succeeds`, `failed_tried` : an operation fails only at its last write;
* `whole_performAll` : in a session that starts with a whole storage, everything is in a directory at any time;
* `node?_performAll` : every file of a run's storage is the last one written in its place.
-/

namespace ImageMacros

open Storage
open Command (Subcommand ApplyArguments reached?)

/-! ## The writes of a command line -/

namespace Command

/-- The install root and the request that a command line hands to the customizations. -/
def applied? (x : Session) (args : List String) : Option (Found (String × Customization.Request)) :=
  match reached? x.storage args with
  | some ⟨options, .apply, words⟩ =>
    match ApplyArguments.read x.storage words with
    | .ok a => some (a.resolve (options.loadConfig x).session)
    | .error _ => none
  | _ => none

def writes (x : Session) (args : List String) : List Write :=
  match applied? x args with
  | none => []
  | some f => Customization.writes f.value.1 f.value.2 {}

end Command

namespace Session

@[simp] theorem storage_take (x : Session) (step : LayerStep) : (x.take step).storage = x.storage := by
  cases step with
  | lookup name =>
    unfold take fileLayer
    dsimp only
    split_ifs
    · split <;> rfl
    · rfl
  | _ => rfl

@[simp] theorem storage_takeAll (x : Session) (steps : List LayerStep) :
    (x.takeAll steps).storage = x.storage := by
  induction steps generalizing x with
  | nil => rfl
  | cons step steps ih => rw [takeAll_cons, ih, storage_take]

end Session

namespace Command

@[simp] theorem storage_orSetting {α : Type} (x : Session) (given : Option α) (st : Setting α) :
    (orSetting x given st).session.storage = x.storage := by
  rw [Session.session_orSetting, Session.storage_takeAll]

@[simp] theorem storage_resolve (x : Session) (a : ApplyArguments) :
    (a.resolve x).session.storage = x.storage := by
  rw [Session.session_resolve, Session.storage_takeAll]

/-- A run is the customizations it asks for, in the session that its look-ups leave. -/
theorem run_cases (x : Session) (args : List String) :
    (applied? x args = none ∧ (run x args).session.storage = x.storage) ∨
      ∃ f, applied? x args = some f ∧ f.session.storage = x.storage ∧
        (run x args).session = (f.session.customize f.value.1 f.value.2 {}).session ∧
        ((∃ ps, (f.session.customize f.value.1 f.value.2 {}).result = .ok ps) →
          (run x args).ending = .exit 0) := by
  unfold applied?
  cases hr : reached? x.storage args with
  | none => exact .inl ⟨rfl, by rw [session_run_of_not_reached hr]⟩
  | some r =>
    obtain ⟨options, command, words⟩ := r
    have hrun := run_of_reached hr
    have hstorage := storage_loadConfig options x
    cases command with
    | apply =>
      dsimp only
      cases ha : ApplyArguments.read x.storage words with
      | error stop =>
        refine .inl ⟨rfl, ?_⟩
        simp only [session_run_of_reached hr, runSubcommand, hstorage, ha, session_stop]
      | ok a =>
        refine .inr ⟨_, rfl, by rw [storage_resolve, hstorage], ?_, ?_⟩
        · simp only [session_run_of_reached hr, runSubcommand, hstorage, ha, session_runApply]
        · rintro ⟨ps, hps⟩
          simp only [ApplyArguments.resolve] at hps
          simp only [hrun, runSubcommand, hstorage, ha, runApply, Run.logFirst, hps]
    | render =>
      refine .inl ⟨rfl, ?_⟩
      simp only [session_run_of_reached hr, runSubcommand]
      split
      · rw [session_stop, storage_loadConfig]
      · exact storage_loadConfig _ x
    | «show» =>
      refine .inl ⟨rfl, ?_⟩
      simp only [session_run_of_reached hr, runSubcommand]
      split
      · simp
      · rw [session_runShow, storage_orSetting, hstorage]

theorem storage_run (x : Session) (args : List String) :
    (run x args).session.storage = x.storage.writeAll (writes x args) := by
  unfold writes
  rcases run_cases x args with ⟨hnone, hs⟩ | ⟨f, hsome, hs, hrun, -⟩
  · rw [hnone, hs]
    rfl
  · rw [hsome, hrun, ← hs]
    exact Customization.storage_apply _ _ _ _

theorem ending_of_succeeds {x : Session} {args : List String} (hne : writes x args ≠ [])
    (h : x.storage.Succeeds (writes x args)) : (run x args).ending = .exit 0 := by
  unfold writes at h hne
  rcases run_cases x args with ⟨hnone, -⟩ | ⟨f, hsome, hs, -, hending⟩
  · simp [hnone] at hne
  · rw [hsome, ← hs] at h
    exact hending ((Customization.apply_ok_iff _ _ _ _).2 h)

end Command

/-! ## The writes of an operation -/

/-- The operations that change the storage from outside the program. -/
def Operation.edits : Operation → Bool
  | .putFile .. | .putDirectory _ | .remove _ => true
  | _ => false

namespace Session

def writes (x : Session) : Operation → List Write
  | .writeLines place lines => [⟨Path.ofString place, lines⟩]
  | .stage root name definitions comments => MacroFile.writes root name definitions comments
  | .customize root r d => Customization.writes root r d
  | .customizeAsConfigured root =>
    Customization.writes root ⟨x.settings.value.excludeDocs, x.settings.value.locales⟩ {}
  | .command args => Command.writes x args
  | _ => []

/-- The writes of an operation, up to the first that fails. -/
def tried (x : Session) (op : Operation) : List Attempt := x.storage.attempts (x.writes op)

def triedAll (x : Session) : List Operation → List Attempt
  | [] => []
  | op :: ops => x.tried op ++ (x.perform op).session.triedAll ops

@[simp] theorem storage_settings (x : Session) : x.settings.session.storage = x.storage := by
  rw [session_settings, storage_takeAll]

theorem storage_lookup {α : Type} (x : Session) (st : Setting α) :
    (x.lookup st).session.storage = x.storage := by rw [session_lookup, storage_take]

theorem storage_perform (x : Session) {op : Operation} (h : op.edits = false) :
    (x.perform op).session.storage = x.storage.writeAll (x.writes op) := by
  cases op with
  | putFile | putDirectory | remove => cases h
  | writeLines place lines =>
    change (x.storage.writeLines (Path.ofString place) lines).storage = _
    simp only [writes, writeAll]
    split <;> rfl
  | stage root name definitions comments => exact MacroFile.storage_stage _ _ _ _ _
  | customize root r d => exact Customization.storage_apply _ _ _ _
  | customizeAsConfigured root =>
    rw [← x.storage_settings]
    exact Customization.storage_apply _ _ _ _
  | excludeDocs | locales | installRoot => exact x.storage_lookup _
  | settings => exact x.storage_settings
  | command args => exact Command.storage_run x args
  | _ => rfl

/-- With a failure, or as a run with another exit code than zero. -/
def Reply.Failed (r : Reply Answer) : Prop :=
  match r.result with
  | .error _ => True
  | .ok (.run run) => run.ending ≠ .exit 0
  | .ok _ => False

theorem not_failed_of_ok {α : Type} {r : Reply α} {f : α → Answer} (h : ∃ a, r.result = .ok a)
    (hf : ∀ a run, f a ≠ .run run) : ¬ (r.map f).Failed := by
  obtain ⟨a, ha⟩ := h
  unfold Reply.Failed Reply.map
  rw [ha]
  dsimp only [Except.map]
  split
  · next h => cases h
  · next run h => exact absurd (Except.ok.inj h) (hf a run)
  · simp

theorem not_failed_of_succeeds {x : Session} {op : Operation} (hne : x.writes op ≠ [])
    (h : x.storage.Succeeds (x.writes op)) : ¬ (x.perform op).Failed := by
  cases op with
  | writeLines place lines =>
    refine not_failed_of_ok ⟨(), ?_⟩ (by simp)
    have := h ⟨⟨Path.ofString place, lines⟩, false⟩
    simp only [writes, attempts] at this
    change (x.storage.writeLines (Path.ofString place) lines).result = _
    cases hresult : (x.storage.writeLines (Path.ofString place) lines).result with
    | ok => rfl
    | error f => simp [hresult] at this
  | stage root name definitions comments =>
    exact not_failed_of_ok ((MacroFile.stage_ok_iff _ _ _ _ _).2 h) (by simp)
  | customize root r d => exact not_failed_of_ok ((Customization.apply_ok_iff _ _ _ _).2 h) (by simp)
  | customizeAsConfigured root =>
    rw [← x.storage_settings] at h
    exact not_failed_of_ok ((Customization.apply_ok_iff _ _ _ _).2 h) (by simp)
  | command args => exact not_not_intro (Command.ending_of_succeeds hne h)
  | _ => exact absurd rfl hne

/-- Only the last write of an operation that failed has failed. -/
theorem failed_tried {x : Session} {op : Operation} (h : (x.perform op).Failed) :
    (∀ a ∈ (x.tried op).dropLast, a.done = true) ∧
      ∀ a, (x.tried op).getLast? = some a → a.done = false := by
  refine ⟨fun a ha => done_of_mem_dropLast_attempts ha, fun a ha => done_getLast?_attempts (fun hs => ?_) ha⟩
  have hne : x.writes op ≠ [] := fun he => by simp [tried, he, attempts] at ha
  exact not_failed_of_succeeds hne hs h

/-! ## Whole storages -/

theorem whole_perform {x : Session} (h : x.storage.Whole) (op : Operation) : (x.perform op).session.storage.Whole := by
  cases hedits : op.edits with
  | false =>
    rw [storage_perform x hedits]
    exact h.writeAll _
  | true =>
    cases op with
    | putFile place content =>
      have hmade := h.makeDirectories (Path.ofString place).parent
      change (x.storage.putFile place content).Whole
      unfold Storage.putFile
      dsimp only
      split
      · next hwrite => exact hmade.writeFile hwrite
      · exact hmade
    | putDirectory place => exact h.makeDirectories _
    | remove place =>
      unfold perform
      dsimp only
      split
      · next l n hl => exact h.remove l
      · exact h
    | _ => cases hedits

theorem whole_performAll {x : Session} (h : x.storage.Whole) (ops : List Operation) :
    (x.performAll ops).storage.Whole := by
  induction ops generalizing x with
  | nil => exact h
  | cons op ops ih => exact ih (whole_perform h op)

/-! ## Runs -/

theorem follows_perform (x : Session) {op : Operation} (h : op.edits = false) :
    Follows x.storage (x.perform op).session.storage (x.tried op) := by
  rw [storage_perform x h]
  exact follows_writeAll _ _

/-- The invariant of a run: its storage is what its attempts leave. -/
theorem follows_performAll (x : Session) {ops : List Operation} (h : ∀ op ∈ ops, op.edits = false) :
    Follows x.storage (x.performAll ops).storage (x.triedAll ops) := by
  induction ops generalizing x with
  | nil => exact .refl _
  | cons op ops ih =>
    have hop := follows_perform x (h op List.mem_cons_self)
    exact hop.trans (ih _ fun o ho => h o (List.mem_cons_of_mem _ ho))

/-- A failed operation leaves every file but those of its writes in front of the last. -/
theorem node?_perform_of_failed {x : Session} {op : Operation} (hop : op.edits = false)
    (h : (x.perform op).Failed) {l : Location} {c : List UInt8} (hl : x.storage.node? l = some (.file c))
    (hother : ∀ a ∈ (x.tried op).dropLast, x.storage.place a.path ≠ l) :
    (x.perform op).session.storage.node? l = some (.file c) := by
  refine (follows_perform x hop).kept (lastDone_eq_none fun a ha hdone => ?_) hl
  cases hlast : (x.tried op).getLast? with
  | none => simp [List.getLast?_eq_none_iff.1 hlast] at ha
  | some b =>
    rw [← List.dropLast_append_getLast? b hlast, List.mem_append, List.mem_singleton] at ha
    rcases ha with ha | rfl
    · exact hother a ha
    · simp [(failed_tried h).2 a hlast] at hdone

/-- Without double dots, each file of a run's storage is the last one written in its place, new directories are in
front of files to be written, and an operation that fails leaves all else as it was. -/
theorem node?_performAll (x : Session) (ops : List Operation) (hops : ∀ op ∈ ops, op.edits = false)
    (hplain : ∀ a ∈ x.triedAll ops, ".." ∉ a.path.names) :
    let s := x.storage
    let t := (x.performAll ops).storage
    (∀ l c, t.node? l = some (.file c) ↔
      match s.lastDone l (x.triedAll ops) with
      | some a => c = Text.Utf8.encode (Text.unlines a.lines)
      | none => s.node? l = some (.file c)) ∧
    (∀ l, s.node? l = some .directory → t.node? l = some .directory) ∧
    (∀ l c, s.node? l = some (.file c) → ∃ d, t.node? l = some (.file d)) ∧
    (∀ l n, s.node? l = none → t.node? l = some n →
      (∃ a ∈ x.triedAll ops, a.done = true ∧ s.place a.path = l ∧ n = fileOf a.lines) ∨
      n = .directory ∧ ∃ a ∈ x.triedAll ops, l <+: s.place a.path ∧ l ≠ s.place a.path) ∧
    ∀ past op, past ++ [op] <+: ops →
      let y := x.performAll past
      (y.perform op).Failed →
        (∀ a ∈ (y.tried op).dropLast, a.done = true) ∧
        (∀ a, (y.tried op).getLast? = some a → a.done = false) ∧
        ∀ l c, y.storage.node? l = some (.file c) →
          (∀ a ∈ (y.tried op).dropLast, y.storage.place a.path ≠ l) →
          (y.perform op).session.storage.node? l = some (.file c) := by
  intro s t
  have hrun : Follows s t (x.triedAll ops) := follows_performAll x hops
  refine ⟨fun l c => ?_, fun l => hrun.directory, fun l c hs => ?_, fun l n hs ht => ?_, ?_⟩
  · cases h : s.lastDone l (x.triedAll ops) with
    | none => exact hrun.file_iff h
    | some a => simp [hrun.written h, fileOf, eq_comm]
  · cases h : s.lastDone l (x.triedAll ops) with
    | none => exact ⟨c, hrun.kept h hs⟩
    | some a => exact ⟨_, hrun.written h⟩
  · cases h : s.lastDone l (x.triedAll ops) with
    | none =>
      obtain ⟨hn, a, ha, habove⟩ := hrun.added h hs ht
      exact .inr ⟨hn, a, ha, habove.ancestor (hplain a ha)⟩
    | some a =>
      obtain ⟨ha, hdone, hplace⟩ := lastDone_eq_some h
      rw [hrun.written h, Option.some.injEq] at ht
      exact .inl ⟨a, ha, hdone, hplace, ht.symm⟩
  · intro past op hpast y hfailed
    have hop : op.edits = false := hops op (hpast.subset (by simp))
    exact ⟨(failed_tried hfailed).1, (failed_tried hfailed).2, fun l c hl hother =>
      node?_perform_of_failed hop hfailed hl hother⟩

def respelledRun : List Operation :=
  [.writeLines "a/b" ["x"], .writeLines "./a//b/" ["y"], .writeLines "a/b/c" ["z"]]

theorem node?_respelledRun :
    (∀ op ∈ respelledRun, op.edits = false) ∧
      (∀ a ∈ (fresh ["w"]).triedAll respelledRun, ".." ∉ a.path.names) ∧
      ((fresh ["w"]).performAll respelledRun).storage.node? ["w", "a", "b"] =
        some (.file (Text.Utf8.encode (Text.unlines ["y"]))) := by
  have hops : ∀ op ∈ respelledRun, op.edits = false := by decide
  have hplain : ∀ a ∈ (fresh ["w"]).triedAll respelledRun, ".." ∉ a.path.names := by decide
  have hlast : (fresh ["w"]).storage.lastDone ["w", "a", "b"] ((fresh ["w"]).triedAll respelledRun) =
    some ⟨⟨Path.ofString "a/b", ["y"]⟩, true⟩ := by decide
  refine ⟨hops, hplain, ((node?_performAll _ _ hops hplain).1 _ _).2 ?_⟩
  rw [hlast]

end Session
end ImageMacros
