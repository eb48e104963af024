import ImageMacros.Proofs.Command.Reach
import ImageMacros.Proofs.Command.Words
import ImageMacros.Proofs.Session.Agreement

/-!
# The command line of `apply`

* `runApply_ok`, `runApply_unwritable`, `runApply_failure` : what the command makes of each result of the
  customizations; `stdout_runApply`, `ending_runApply` : what it prints, and how it ends;
* `run_applyWords` : a command line of `apply` with the options read;
* `run_apply_eq_customize` : it does what the customizations do with the values of its options and settings.
-/

namespace ImageMacros.Command

open Text (unlines plain)

variable {x : Session} {a : ApplyArguments}

/-- The customizations that `apply` asks for, in the storage that it starts from. -/
def ApplyArguments.customized (x : Session) (a : ApplyArguments) : Outcome (List Path) :=
  Customization.apply x.storage (a.resolve x).value.1 (a.resolve x).value.2 {}

/-- All that is logged before the command tells of its result. -/
def ApplyArguments.logged (x : Session) (a : ApplyArguments) : List Record :=
  (a.resolve x).log ++ applying (a.resolve x).value.1 (a.resolve x).value.2 :: (a.customized x).log

theorem runApply_eq (x : Session) (a : ApplyArguments) :
    runApply x a = match (a.customized x).result with
      | .ok places =>
        ⟨{ (a.resolve x).session with storage := (a.customized x).storage },
          (a.logged x).map .logged ++ places.map (echo ·.text), .exit 0, .warning⟩
      | .error (.unwritable u) =>
        ⟨{ (a.resolve x).session with storage := (a.customized x).storage },
          (a.logged x).map .logged ++
            [.logged (applyFailed (a.resolve x).value.1 u), .err (plain (s!"Error: {u.message}\n"))],
          .exit 1, .warning⟩
      | .error f =>
        ⟨{ (a.resolve x).session with storage := (a.customized x).storage }, (a.logged x).map .logged,
          .escaped f, .warning⟩ := by
  unfold ApplyArguments.logged ApplyArguments.customized
  rw [← storage_resolve x a]
  rfl

theorem storage_runApply (x : Session) (a : ApplyArguments) :
    (runApply x a).session.storage = (a.customized x).storage := by
  rw [runApply_eq]
  split <;> rfl

theorem threshold_runApply (x : Session) (a : ApplyArguments) : (runApply x a).threshold = .warning := by
  rw [runApply_eq]
  split <;> rfl

theorem runApply_ok {places : List Path} (h : (a.customized x).result = .ok places) :
    (runApply x a).ending = .exit 0 ∧ (runApply x a).stdout = unlines (places.map fun p => plain p.text) := by
  have hecho : places.map (echo ·.text) = (places.map (·.text)).map echo := by rw [List.map_map]; rfl
  rw [runApply_eq, h]
  refine ⟨rfl, ?_⟩
  rw [Run.stdout, List.map_append, String.join_append, outText_logged, String.empty_append, hecho, outText_echo,
    List.map_map]
  rfl

theorem runApply_unwritable {u : Unwritable} (h : (a.customized x).result = .error (.unwritable u)) (time : String) :
    (runApply x a).ending = .exit 1 ∧ (runApply x a).stdout = "" ∧
      ∃ ls, (runApply x a).stderr time = unlines (ls ++ [plain ("Error: " ++ u.message)]) := by
  obtain ⟨ls, hls⟩ := exists_lines_logged (a.logged x) .warning time
  rw [runApply_eq, h]
  have herror : s!"Error: {u.message}\n" = "Error: " ++ u.message ++ "\n" := rfl
  refine ⟨rfl, ?_, ls, ?_⟩
  · rw [Run.stdout, List.map_append, String.join_append, outText_logged]
    rfl
  · rw [Run.stderr, List.map_append, String.join_append, hls, herror, Text.plain_newline, Text.unlines_append]
    simp [Run.errText, applyFailed, Level.rank, unlines]

theorem runApply_failure {f : Failure} (h : (a.customized x).result = .error f) (hf : ∀ u, f ≠ .unwritable u) :
    (runApply x a).ending = .escaped f ∧ (runApply x a).stdout = "" := by
  cases f with
  | unwritable u => exact absurd rfl (hf u)
  | _ =>
    rw [runApply_eq, h]
    exact ⟨rfl, outText_logged _⟩

/-- What is printed depends on nothing but the result. -/
theorem stdout_runApply (x : Session) (a : ApplyArguments) :
    (runApply x a).stdout = match (a.customized x).result with
      | .ok places => unlines (places.map fun p => plain p.text)
      | .error _ => "" := by
  cases hresult : (a.customized x).result with
  | ok places => exact (runApply_ok hresult).2
  | error f =>
    cases f with
    | unwritable u => exact (runApply_unwritable hresult "").2.1
    | _ => exact (runApply_failure hresult (by simp)).2

def Ending.ofResult : Except Failure (List Path) → Ending
  | .ok _ => .exit 0
  | .error (.unwritable _) => .exit 1
  | .error f => .escaped f

theorem ending_runApply (x : Session) (a : ApplyArguments) :
    (runApply x a).ending = .ofResult (a.customized x).result := by
  rw [runApply_eq]
  cases (a.customized x).result with
  | ok places => rfl
  | error f => cases f <;> rfl

/-! ## Command lines -/

theorem run_applyWords {given : List ApplyGiven}
    (h : ∀ place ∈ (ApplyArguments.ofGiven given).installRoot, MayBeRoot x.storage place) :
    run x (Subcommand.apply.word :: applyWords given) = runApply x (.ofGiven given) := by
  rw [run_word, runSubcommand]
  dsimp only
  rw [ApplyArguments.read_applyWords h, ← threshold_runApply x (.ofGiven given)]

theorem customized_of_given (x : Session) (root : String) (exclude : Bool) (locales : String) :
    (ApplyArguments.mk (some root) (some exclude) (some locales)).customized x =
      Customization.apply x.storage root ⟨exclude, locales⟩ {} := by
  unfold ApplyArguments.customized
  rw [Session.value_resolve]
  rfl

theorem run_given {given : List ApplyGiven} {root locales : String} {exclude : Bool}
    (hgiven : ApplyArguments.ofGiven given = ⟨some root, some exclude, some locales⟩) (hmay : MayBeRoot x.storage root) :
    run x ("apply" :: applyWords given) = runApply x ⟨some root, some exclude, some locales⟩ := by
  have hplaces : ∀ place ∈ (ApplyArguments.ofGiven given).installRoot, MayBeRoot x.storage place := by
    rw [hgiven]
    exact fun place hplace => Option.some.inj hplace ▸ hmay
  rw [show "apply" = Subcommand.apply.word from rfl, run_applyWords hplaces, hgiven]

/-- `apply` does what the customizations do with the last value of each option, or else with its setting. It prints
the places written, or reports the file that could not be written. -/
theorem run_apply_eq_customize (x : Session) (given : List ApplyGiven) (time : String)
    (hroot : ∀ place ∈ (ApplyArguments.ofGiven given).installRoot, MayBeRoot x.storage place) :
    let a := ApplyArguments.ofGiven given
    let root := a.installRoot.getD (x.lookup .installRoot).value
    let request : Customization.Request :=
      ⟨a.excludeDocs.getD (x.lookup .excludeDocs).value, a.locales.getD (x.lookup .locales).value⟩
    let done := Customization.apply x.storage root request {}
    let r := run x ("apply" :: applyWords given)
    r.session.storage = done.storage ∧
      (∀ places, done.result = .ok places →
        r.ending = .exit 0 ∧ r.stdout = unlines (places.map fun p => plain p.text)) ∧
      (∀ u, done.result = .error (.unwritable u) → r.ending = .exit 1 ∧ r.stdout = "" ∧
        ∃ ls, r.stderr time = unlines (ls ++ [plain ("Error: " ++ u.message)])) ∧
      (∀ f, done.result = .error f → (∀ u, f ≠ .unwritable u) → r.ending = .escaped f ∧ r.stdout = "") ∧
      ∀ place, a = ⟨some place, none, none⟩ →
        (x.customizeAsConfigured place).result = done.result ∧
          (x.customizeAsConfigured place).session.storage = done.storage := by
  intro a root request done r
  have hrun : r = runApply x a := run_applyWords hroot
  have hdone : a.customized x = done := by
    unfold ApplyArguments.customized
    rw [Session.value_resolve]
  rw [hrun, storage_runApply, hdone]
  refine ⟨rfl, fun places h => runApply_ok (hdone ▸ h), fun u h => runApply_unwritable (hdone ▸ h) time,
    fun f h hf => runApply_failure (hdone ▸ h) hf, fun place hplace => ?_⟩
  have hasked : root = place ∧ request = ⟨(x.lookup .excludeDocs).value, (x.lookup .locales).value⟩ := by
    simp only [root, request, hplace]
    exact ⟨rfl, rfl⟩
  rw [show done = Customization.apply x.storage root request {} from rfl, hasked.1, hasked.2]
  have hresult := congrArg Outcome.result (x.outcome_configured place)
  have hstorage := congrArg Outcome.storage (x.outcome_configured place)
  exact ⟨hresult, hstorage⟩

/-- The last root counts, the documentation is left out by an option, and the locales come from the
environment. -/
theorem run_apply_two_roots :
    let x : Session := { storage := .bare ["w"], environment := .ofList [(Setting.locales.variableName, " en ")] }
    let given : List ApplyGiven := [.installRoot "old" true, .docs true, .installRoot "image" false]
    let request : Customization.Request := ⟨true, "en"⟩
    let r := run x ("apply" :: applyWords given)
    (∀ place ∈ (ApplyArguments.ofGiven given).installRoot, MayBeRoot x.storage place) ∧
      r.session.storage = (Customization.apply x.storage "image" request {}).storage ∧ r.ending = .exit 0 ∧
      r.stdout = unlines
        ["image/usr/lib/rpm/macros.d/macros.installercustomizations_disable_docs",
          "image/usr/lib/rpm/macros.d/macros.installercustomizations_customize_locales"] := by
  intro x given request r
  have hmissing : x.storage.locateText "image" = .error .missing := by decide
  have hroot : ∀ place ∈ (ApplyArguments.ofGiven given).installRoot, MayBeRoot x.storage place := by
    intro place hplace
    obtain rfl : "image" = place := Option.some.inj hplace
    exact ⟨by decide, fun l content => by rw [hmissing]; nofun⟩
  have hresult : (Customization.apply x.storage "image" request {}).result =
      .ok [.under "image" ({} : Customization.Destinations).docs,
        .under "image" ({} : Customization.Destinations).locales] := by decide
  have hlocales : (x.lookup .locales).value = "en" := by decide
  obtain ⟨hstorage, hok, -⟩ := run_apply_eq_customize x given "" hroot
  simp only [show ApplyArguments.ofGiven given = ⟨some "image", some true, none⟩ from rfl, Option.getD_some,
    Option.getD_none, hlocales] at hstorage hok
  obtain ⟨hending, hstdout⟩ := hok _ hresult
  refine ⟨hroot, hstorage, hending, hstdout.trans ?_⟩
  rw [List.map_cons, List.map_cons, List.map_nil, Text.plain_of_not_mem (by decide),
    Text.plain_of_not_mem (by decide)]
  decide

end ImageMacros.Command
