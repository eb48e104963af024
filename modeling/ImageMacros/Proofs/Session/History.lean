import ImageMacros.Operation
import ImageMacros.Proofs.Command.Reach
import Mathlib.Data.List.DropRight

/-!
# The file layer from the history of a session

* `LayerStep`, `Session.take` : a step on the file layer, and what it does to a session;
* `Session.layerSteps` : the steps of an operation in order (`loaded_perform`);
* `Moment`, `Session.history` : the steps of a run, each with the session in which it is taken;
* `remembered` : the file layer that a history leaves, read off its last load or `forget` and the
  first look-up behind it that the environment does not answer;
* `fileLayer_eq_remembered` : at every point of a run the file layer is the one its history leaves.
-/

namespace ImageMacros

open Command (Subcommand ApplyArguments ShowArguments reached?)

/-! ## Steps -/

/-- A step on the file layer. -/
inductive LayerStep
  | load (place : String)
  | forget
  | lookup (variableName : String)
deriving DecidableEq

namespace Session

def take (x : Session) : LayerStep → Session
  | .load place => (x.load place).session
  | .forget => x.forget
  | .lookup name => if x.environment.get? name = none then x.fileLayer.session else x

def takeAll (x : Session) (steps : List LayerStep) : Session := steps.foldl take x

@[simp] theorem takeAll_nil (x : Session) : x.takeAll [] = x := rfl

@[simp] theorem takeAll_cons (x : Session) (step : LayerStep) (steps : List LayerStep) :
    x.takeAll (step :: steps) = (x.take step).takeAll steps := rfl

theorem takeAll_append (x : Session) (as bs : List LayerStep) :
    x.takeAll (as ++ bs) = (x.takeAll as).takeAll bs := List.foldl_append

def namedLayer (x : Session) : Config.Options :=
  (x.readLayer ((x.environment.get? configVariable).getD "")).1

theorem readLayer_empty (x : Session) : (x.readLayer "").1 = .empty := by
  unfold readLayer FileLayer.read
  split <;> rfl

theorem loaded_fileLayer (x : Session) :
    x.fileLayer.session.loaded = some (x.loaded.getD x.namedLayer) := by
  unfold fileLayer namedLayer
  cases h : x.loaded with
  | none => rfl
  | some values => simpa using h

theorem value_fileLayer (x : Session) : x.fileLayer.value = x.loaded.getD x.namedLayer := by
  unfold fileLayer namedLayer
  cases x.loaded <;> rfl

theorem session_lookup {α : Type} (x : Session) (st : Setting α) :
    (x.lookup st).session = x.take (.lookup st.variableName) := by
  unfold lookup take
  dsimp only
  cases h : x.environment.get? st.variableName with
  | some text => simp
  | none =>
    rw [if_pos rfl]
    dsimp only
    split <;> rfl

theorem session_loadConfig (g : Command.Global) (x : Session) :
    (g.loadConfig x).session = x.takeAll (g.config.toList.map .load) := by
  unfold Command.Global.loadConfig
  cases g.config <;> rfl

theorem session_settings (x : Session) :
    x.settings.session = x.takeAll [.lookup Setting.excludeDocs.variableName,
      .lookup Setting.locales.variableName, .lookup Setting.installRoot.variableName] := by
  unfold settings
  simp only [session_lookup, takeAll_cons, takeAll_nil]

/-! ## The steps of an operation -/

def lookupUnless {α : Type} (given : Option α) (st : Setting α) : List LayerStep :=
  if given.isNone then [.lookup st.variableName] else []

theorem session_orSetting {α : Type} (x : Session) (given : Option α) (st : Setting α) :
    (Command.orSetting x given st).session = x.takeAll (lookupUnless given st) := by
  cases given with
  | none => exact session_lookup x st
  | some v => rfl

/-- The look-ups of the settings that a command's options leave open. -/
def commandLookups (s : Storage) (words : List String) : Subcommand → List LayerStep
  | .apply =>
    match ApplyArguments.read s words with
    | .error _ => []
    | .ok a => lookupUnless a.installRoot .installRoot ++ lookupUnless a.excludeDocs .excludeDocs ++
        lookupUnless a.locales .locales
  | .render => []
  | .show =>
    match ShowArguments.read s words with
    | .error _ => []
    | .ok a => lookupUnless a.installRoot .installRoot

/-- A command line loads the config file of its options first, whatever follows. -/
def layerSteps (x : Session) : Operation → List LayerStep
  | .loadConfig place => [.load place]
  | .forgetConfig => [.forget]
  | .excludeDocs => [.lookup Setting.excludeDocs.variableName]
  | .locales => [.lookup Setting.locales.variableName]
  | .installRoot => [.lookup Setting.installRoot.variableName]
  | .settings | .customizeAsConfigured _ =>
    [.lookup Setting.excludeDocs.variableName, .lookup Setting.locales.variableName,
      .lookup Setting.installRoot.variableName]
  | .command args =>
    match reached? x.storage args with
    | none => []
    | some r => r.options.config.toList.map .load ++ commandLookups x.storage r.words r.command
  | .putFile .. | .putDirectory _ | .remove _ | .setVariable .. | .unsetVariable _ | .setReader _
  | .writeLines .. | .readLines _ | .stage .. | .customize .. | .readConfig _ => []

theorem session_resolve (x : Session) (a : ApplyArguments) :
    (a.resolve x).session = x.takeAll (lookupUnless a.installRoot .installRoot ++
      lookupUnless a.excludeDocs .excludeDocs ++ lookupUnless a.locales .locales) := by
  unfold ApplyArguments.resolve
  simp only [session_orSetting, takeAll_append]

theorem loaded_runSubcommand (x : Session) (c : Subcommand) (words : List String) :
    (Command.runSubcommand x c words).session.loaded =
      (x.takeAll (commandLookups x.storage words c)).loaded := by
  unfold Command.runSubcommand commandLookups
  cases c with
  | apply =>
    dsimp only
    cases ApplyArguments.read x.storage words with
    | error stop => simp
    | ok a =>
      dsimp only
      rw [Command.session_runApply, ← session_resolve]
      rfl
  | render =>
    dsimp only
    split
    · rw [Command.session_stop, takeAll_nil]
    · rfl
  | «show» =>
    dsimp only
    cases ShowArguments.read x.storage words with
    | error stop => simp
    | ok a => simp only [Command.session_runShow, session_orSetting]

/-- An operation does to the file layer what its steps do. -/
theorem loaded_perform (x : Session) (op : Operation) :
    (x.perform op).session.loaded = (x.takeAll (x.layerSteps op)).loaded := by
  cases op with
  | command args =>
    unfold perform layerSteps
    dsimp only
    cases h : reached? x.storage args with
    | none => rw [Command.session_run_of_not_reached h, takeAll_nil]
    | some r =>
      rw [Command.session_run_of_reached h, loaded_runSubcommand, takeAll_append,
        ← session_loadConfig, Command.storage_loadConfig]
  | remove place =>
    simp only [perform]
    split <;> rfl
  | excludeDocs => exact congrArg loaded (session_lookup x .excludeDocs)
  | locales => exact congrArg loaded (session_lookup x .locales)
  | installRoot => exact congrArg loaded (session_lookup x .installRoot)
  | settings => exact congrArg loaded (session_settings x)
  | customizeAsConfigured root =>
    change x.settings.session.loaded = _
    exact congrArg loaded (session_settings x)
  | _ => rfl

end Session

/-! ## Histories -/

/-- A step on the file layer and the session in which it is taken. -/
structure Moment where
  session : Session
  step : LayerStep

namespace Moment

def restarts (m : Moment) : Bool :=
  match m.step with
  | .load _ | .forget => true
  | .lookup _ => false

def misses (m : Moment) : Bool :=
  match m.step with
  | .load _ | .forget => false
  | .lookup name => m.session.environment.get? name = none

end Moment

namespace Session

def moments (x : Session) : List LayerStep → List Moment
  | [] => []
  | step :: steps => ⟨x, step⟩ :: (x.take step).moments steps

def history (x : Session) : List Operation → List Moment
  | [] => []
  | op :: ops => x.moments (x.layerSteps op) ++ (x.perform op).session.history ops

end Session

/-- The layer that a history leaves: its last load, or what was named at the first look-up left to it since then. -/
def remembered (h : List Moment) : Option Config.Options :=
  match (h.rdropWhile fun m => !m.restarts).getLast? with
  | some ⟨x, .load place⟩ => some (x.readLayer place).1
  | _ => ((h.rtakeWhile fun m => !m.restarts).find? (·.misses)).map (·.session.namedLayer)

theorem remembered_concat_load (h : List Moment) (x : Session) (place : String) :
    remembered (h ++ [⟨x, .load place⟩]) = some (x.readLayer place).1 := by
  unfold remembered
  rw [List.rdropWhile_concat_neg _ _ _ (by simp [Moment.restarts])]
  simp

theorem remembered_concat_forget (h : List Moment) (x : Session) :
    remembered (h ++ [⟨x, .forget⟩]) = none := by
  unfold remembered
  rw [List.rdropWhile_concat_neg _ _ _ (by simp [Moment.restarts]),
    List.rtakeWhile_concat_neg _ _ _ (by simp [Moment.restarts])]
  simp

theorem remembered_concat_lookup (h : List Moment) (x : Session) (name : String) :
    remembered (h ++ [⟨x, .lookup name⟩]) =
      (remembered h).or (if x.environment.get? name = none then some x.namedLayer else none) := by
  unfold remembered
  rw [List.rdropWhile_concat_pos _ _ _ (by simp [Moment.restarts]),
    List.rtakeWhile_concat_pos _ _ _ (by simp [Moment.restarts])]
  split
  · simp
  · rw [List.find?_append, Option.map_or]
    congr 1
    by_cases hn : x.environment.get? name = none <;> simp [Moment.misses, hn]

namespace Session

theorem loaded_take (x : Session) (h : List Moment) (hx : x.loaded = remembered h) (step : LayerStep) :
    (x.take step).loaded = remembered (h ++ [⟨x, step⟩]) := by
  cases step with
  | load place => rw [remembered_concat_load]; rfl
  | forget => rw [remembered_concat_forget]; rfl
  | lookup name =>
    rw [remembered_concat_lookup, ← hx]
    unfold take
    dsimp only
    split
    · rw [loaded_fileLayer]
      cases x.loaded <;> rfl
    · simp

theorem loaded_takeAll (x : Session) (h : List Moment) (hx : x.loaded = remembered h)
    (steps : List LayerStep) : (x.takeAll steps).loaded = remembered (h ++ x.moments steps) := by
  induction steps generalizing x h with
  | nil => simpa [moments] using hx
  | cons step steps ih =>
    rw [takeAll_cons, ih _ _ (loaded_take x h hx step), moments, List.append_assoc, List.singleton_append]

/-- The invariant of a run: what is loaded is what the history so far leaves. -/
theorem loaded_performAll (x : Session) (h : List Moment) (hx : x.loaded = remembered h)
    (ops : List Operation) : (x.performAll ops).loaded = remembered (h ++ x.history ops) := by
  induction ops generalizing x h with
  | nil => simpa [performAll, history] using hx
  | cons op ops ih =>
    have hop : (x.perform op).session.loaded = remembered (h ++ x.moments (x.layerSteps op)) := by
      rw [loaded_perform, loaded_takeAll x h hx]
    have := ih _ _ hop
    rwa [List.append_assoc] at this

end Session

/-! ## The file layer of a run -/

def Setting.ofLayer {α : Type} (st : Setting α) (layer : Config.Options) : α :=
  match layer.get? st.key with
  | none => st.default
  | some text => (st.read (Setting.fileLayerName st.key) text).1

namespace Session

theorem value_lookup_of_unset {α : Type} {x : Session} {st : Setting α}
    (h : x.environment.get? st.variableName = none) : (x.lookup st).value = st.ofLayer x.fileLayer.value := by
  unfold lookup Setting.ofLayer
  rw [h]
  dsimp only
  cases x.fileLayer.value.get? st.key <;> rfl

/-- Look-ups that the environment answers, or that find a layer loaded. -/
def Keeps (x : Session) : LayerStep → Prop
  | .load _ | .forget => False
  | .lookup name => x.environment.get? name ≠ none ∨ x.loaded ≠ none

theorem take_of_keeps {x : Session} {step : LayerStep} (h : x.Keeps step) : x.take step = x := by
  cases step with
  | load place => exact h.elim
  | forget => exact h.elim
  | lookup name =>
    unfold take
    dsimp only
    split
    · next hn =>
      obtain ⟨values, hv⟩ := Option.ne_none_iff_exists'.1 (h.resolve_left (not_not_intro hn))
      simp only [fileLayer, hv]
    · rfl

theorem takeAll_of_keeps {x : Session} {steps : List LayerStep} (h : ∀ step ∈ steps, x.Keeps step) :
    x.takeAll steps = x := by
  induction steps with
  | nil => rfl
  | cons step steps ih =>
    rw [takeAll_cons, take_of_keeps (h step List.mem_cons_self)]
    exact ih fun s hs => h s (List.mem_cons_of_mem _ hs)

theorem loaded_at {x : Session} (hx : x.loaded = none) (ops : List Operation) (steps : List LayerStep) :
    ((x.performAll ops).takeAll steps).loaded =
      remembered (x.history ops ++ (x.performAll ops).moments steps) := by
  have hops : (x.performAll ops).loaded = remembered (x.history ops) := loaded_performAll x [] hx ops
  exact loaded_takeAll _ _ hops steps

/-- At every point of a run, between and inside its operations, the file layer is what the history leaves, or what
the environment names now. -/
theorem fileLayer_eq_remembered (x : Session) (hx : x.loaded = none) (ops : List Operation)
    (steps : List LayerStep) :
    let y := (x.performAll ops).takeAll steps
    let past := x.history ops ++ (x.performAll ops).moments steps
    let layer := (remembered past).getD y.namedLayer
    y.loaded = remembered past ∧ y.fileLayer.value = layer ∧
      (∀ {α : Type} (st : Setting α), y.environment.get? st.variableName = none →
        (y.lookup st).value = st.ofLayer layer ∧ (y.lookup st).session.loaded = some layer) ∧
      ∀ op, (∀ step ∈ y.layerSteps op, y.Keeps step) → (y.perform op).session.loaded = y.loaded := by
  intro y past layer
  have hy : y.loaded = remembered past := loaded_at hx ops steps
  have hlayer : y.fileLayer.value = layer := by rw [value_fileLayer, hy]
  refine ⟨hy, hlayer, fun st hst => ⟨?_, ?_⟩, fun op hop => ?_⟩
  · rw [value_lookup_of_unset hst, hlayer]
  · rw [session_lookup, take, if_pos hst, loaded_fileLayer, hy]
  · rw [loaded_perform, takeAll_of_keeps hop]

def rootedRun : List Operation :=
  [.putFile "c" (Text.Utf8.encode "[customizations]\ninstall_root = /r\n"), .loadConfig "c", .installRoot]

/-- A reading that gives nothing takes the place of the layer that was loaded. -/
theorem loaded_empty_load :
    (fresh ["w"]).loaded = none ∧
      (((fresh ["w"]).performAll rootedRun).takeAll [.load ""]).loaded = some .empty :=
  ⟨rfl, (fileLayer_eq_remembered (fresh ["w"]) rfl rootedRun [.load ""]).1.trans
    ((remembered_concat_load _ _ _).trans (congrArg some (readLayer_empty _)))⟩

end Session
end ImageMacros
