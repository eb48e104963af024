import ImageMacros.Proofs.Command.Alike
import ImageMacros.Proofs.Command.Ending

/-!
# What a run takes from its surroundings

* `Run.amid` : a run as it is amid other surroundings: another environment, reader and loaded layer;
* `run_of_reached_alone` : without a config file on its command line a run loads none in front of its command;
* `Explicit` : command lines that leave nothing to the settings, misused ones among them (`explicit_of_exit_two`);
* `run_of_explicit` : what they do, amid any surroundings;
* `run_shielded` : runs in the same storage do the same unless a setting that no option gives has another value.
-/

namespace ImageMacros.Command

/-- The run, amid the surroundings of another session. -/
def Run.amid (r : Run) (y : Session) : Run := { r with session := { y with storage := r.session.storage } }

theorem Run.same_amid (r : Run) (y : Session) : r.Same (r.amid y) := ⟨rfl, rfl, rfl⟩

section

variable {x y : Session}

theorem amid_self (h : y.storage = x.storage) : { y with storage := x.storage } = y := by
  rw [← h]

theorem stop_amid (h : y.storage = x.storage) (stop : Stop) : stop.run y = (stop.run x).amid y := by
  cases stop <;> simp only [Stop.run, Run.amid, amid_self h]

/-! ## The commands -/

theorem runRender_amid (h : y.storage = x.storage) (a : RenderArguments) : runRender y a = (runRender x a).amid y := by
  simp only [runRender, Run.amid, amid_self h]

theorem runShow_amid (h : y.storage = x.storage) (root : String) :
    runShow y ⟨some root⟩ = (runShow x ⟨some root⟩).amid y := by
  unfold runShow orSetting
  dsimp only
  rw [h]
  split <;> simp only [Run.amid, amid_self h]

theorem runApply_amid (h : y.storage = x.storage) (root : String) (exclude : Bool) (locales : String) :
    runApply y ⟨some root, some exclude, some locales⟩ =
      (runApply x ⟨some root, some exclude, some locales⟩).amid y := by
  rw [runApply_eq, runApply_eq, ApplyArguments.logged, ApplyArguments.logged, customized_of_given, customized_of_given, h]
  cases (Customization.apply x.storage root ⟨exclude, locales⟩ {}).result with
  | ok places => rfl
  | error f => cases f <;> rfl

end

/-! ## Command lines -/

variable {x y : Session} {args : List String}

theorem run_of_reached_alone {r : Reached} (h : reached? x.storage args = some r) (hconfig : configsNamed args = []) :
    run x args = { runSubcommand x r.command r.words with threshold := r.options.threshold } := by
  have hnone : r.options.config = none := by
    rw [config_eq_configsNamed (reached?_eq_some_iff.1 h).1, hconfig]
    rfl
  have hload : r.options.loadConfig x = ⟨(), x, []⟩ := by simp only [Global.loadConfig, hnone]
  rw [run_of_reached h, hload]
  rfl

/-- Command lines that leave nothing to the settings. -/
inductive Explicit (s : Storage) (args : List String) : Prop
  | nothing (h : args = [])
  | stopped {stop} (h : stop? s args = some stop)
  | render {r} (h : reached? s args = some r) (hcommand : r.command = .render)
  | show {r root} (h : reached? s args = some r) (hcommand : r.command = .show)
      (hread : ShowArguments.read s r.words = .ok ⟨some root⟩)
  | apply {r root exclude locales} (h : reached? s args = some r) (hcommand : r.command = .apply)
      (hread : ApplyArguments.read s r.words = .ok ⟨some root, some exclude, some locales⟩)

theorem explicit_of_exit_two (h : (run x args).ending = .exit 2) : Explicit x.storage args := by
  rcases misuse_of_exit_two h with rfl | ⟨sc, e, he⟩
  · exact .nothing rfl
  · exact .stopped he.stop?

theorem runSubcommand_amid (h : y.storage = x.storage) {r : Reached} (hreached : reached? x.storage args = some r)
    (hexplicit : Explicit x.storage args) :
    runSubcommand y r.command r.words = (runSubcommand x r.command r.words).amid y := by
  cases hexplicit with
  | nothing hnil => simp [hnil, reached?_nil] at hreached
  | stopped hstop =>
    rw [stop?, hreached] at hstop
    rw [runSubcommand_of_stop hstop, runSubcommand_of_stop (h ▸ hstop), stop_amid h]
  | render hr hcommand =>
    obtain rfl := Option.some.inj (hreached.symm.trans hr)
    rw [hcommand]
    unfold runSubcommand
    dsimp only
    split
    · exact stop_amid h _
    · exact runRender_amid h _
  | «show» hr hcommand hread =>
    obtain rfl := Option.some.inj (hreached.symm.trans hr)
    rw [hcommand]
    unfold runSubcommand
    dsimp only
    rw [h, hread]
    exact runShow_amid h _
  | apply hr hcommand hread =>
    obtain rfl := Option.some.inj (hreached.symm.trans hr)
    rw [hcommand]
    unfold runSubcommand
    dsimp only
    rw [h, hread]
    exact runApply_amid h _ _ _

/-- A command line that leaves nothing to the settings does the same amid any surroundings. -/
theorem run_of_explicit (h : y.storage = x.storage) (hconfig : configsNamed args = [])
    (hexplicit : Explicit x.storage args) : run y args = (run x args).amid y := by
  cases hr : reached? x.storage args with
  | none =>
    by_cases hne : args = []
    · subst hne
      simp only [run, if_true, Run.amid, amid_self h]
    · obtain ⟨stop, hstop⟩ := reached?_eq_none_iff.1 hr
      rw [run_of_frontStop hne hstop, run_of_frontStop hne (h ▸ hstop), stop_amid h]
  | some r =>
    rw [run_of_reached_alone hr hconfig, run_of_reached_alone (h ▸ hr) hconfig, runSubcommand_amid h hr hexplicit]
    rfl

/-! ## Settings that are left open -/

/-- The settings left open by the options of `apply` have the same values in both sessions. -/
structure ApplyArguments.Agree (a : ApplyArguments) (x y : Session) : Prop where
  installRoot : a.installRoot = none → (y.lookup .installRoot).value = (x.lookup .installRoot).value
  excludeDocs : a.excludeDocs = none → (y.lookup .excludeDocs).value = (x.lookup .excludeDocs).value
  locales : a.locales = none → (y.lookup .locales).value = (x.lookup .locales).value

theorem getD_congr {α : Type} {given : Option α} {v w : α} (h : given = none → w = v) : given.getD w = given.getD v := by
  cases given with
  | none => exact h rfl
  | some _ => rfl

theorem ApplyArguments.Agree.customized {a : ApplyArguments} (h : a.Agree x y) (hstorage : y.storage = x.storage) :
    a.customized y = a.customized x := by
  unfold ApplyArguments.customized
  rw [Session.value_resolve, Session.value_resolve, hstorage, getD_congr h.installRoot, getD_congr h.excludeDocs,
    getD_congr h.locales]

/-- What is not asked of its surroundings, a command line does in the same way amid any of them. -/
theorem run_shielded {x y : Session} (hstorage : y.storage = x.storage) {args : List String}
    (hconfig : configsNamed args = []) :
    let r := run x args
    let q := run y args
    (Explicit x.storage args →
      r.Same q ∧ q.events = r.events ∧ r.session.loaded = x.loaded ∧ q.session.loaded = y.loaded) ∧
    (r.ending = .exit 2 → Explicit x.storage args) ∧
    ∀ c a, reached? x.storage args = some c → c.command = .apply →
      ApplyArguments.read x.storage c.words = .ok a → a.Agree x y → r.Same q := by
  intro r q
  refine ⟨fun hexplicit => ?_, explicit_of_exit_two, fun c a hreached hcommand hread hagree => ?_⟩
  · have hq : q = r.amid y := run_of_explicit hstorage hconfig hexplicit
    have hr : r = r.amid x := run_of_explicit rfl hconfig hexplicit
    refine ⟨hq ▸ r.same_amid y, by rw [hq]; rfl, ?_, by rw [hq]; rfl⟩
    rw [hr]
    rfl
  · have hx : runSubcommand x c.command c.words = runApply x a := by
      simp only [runSubcommand, hcommand, hread]
    have hy : runSubcommand y c.command c.words = runApply y a := by
      simp only [runSubcommand, hcommand, hstorage, hread]
    have hsame : (runApply x a).Same (runApply y a) := same_runApply (hagree.customized hstorage)
    have hrun : r = { runApply x a with threshold := c.options.threshold } :=
      hx ▸ run_of_reached_alone hreached hconfig
    have hrun' : q = { runApply y a with threshold := c.options.threshold } :=
      hy ▸ run_of_reached_alone (hstorage ▸ hreached) hconfig
    rw [hrun, hrun']
    exact ⟨hsame.storage, hsame.stdout, hsame.ending⟩

/-- All that the surroundings could decide is given, and they differ in everything. -/
theorem run_shielded_apply :
    let x : Session := { storage := .bare ["w"], environment := .ofList [(Setting.installRoot.variableName, "a")] }
    let y : Session := { storage := .bare ["w"], reader := false, loaded := some (.ofList [("install_root", "b")]) }
    let args := ["apply", "--install-root", "img", "--override-rpm-locales", "en", "--disable-rpm-docs"]
    y.storage = x.storage ∧ configsNamed args = [] ∧ Explicit x.storage args ∧
      (y.lookup .installRoot).value ≠ (x.lookup .installRoot).value ∧ (run x args).Same (run y args) ∧
      (run y args).session.loaded = y.loaded := by
  intro x y args
  have hstorage : y.storage = x.storage := rfl
  have hconfig : configsNamed args = [] := by decide
  have hreached : reached? x.storage args = some ⟨⟨false, false, none, args⟩, .apply, args.tail⟩ := by rfl
  have hread : ApplyArguments.read x.storage args.tail = .ok ⟨some "img", some true, some "en"⟩ := by rfl
  have hexplicit : Explicit x.storage args := .apply hreached rfl hread
  obtain ⟨hsame, -, -, hloaded⟩ := (run_shielded hstorage hconfig).1 hexplicit
  exact ⟨hstorage, hconfig, hexplicit, by decide, hsame, hloaded⟩

end ImageMacros.Command
