import ImageMacros.Command.Run
import ImageMacros.Proofs.Text.Line
import ImageMacros.Proofs.Text.Terminal

/-!
# How far a command line gets, and what it prints

* `reached?` : the command that a command line names, if the options in front of it can be read
  (`reached?_eq_some_iff`);
* `frontStop?` : what ends a run that gets to none (`run_of_frontStop`);
* `session_run_of_reached`, `session_run_of_not_reached` : a run changes its session through the command it
  reaches, and not at all otherwise;
* `run_word` : a command line that starts with a command;
* `ApplyArguments.resolve` : the root and the request that `apply` works with, in the session it leaves;
* `session_runApply`, `session_runShow` : the session after a command;
* `outText_echo` : lines that are printed, each without control sequences;
* `exists_lines_logged` : a log is printed as whole lines.
-/

namespace ImageMacros

theorem Record.exists_lines (r : Record) (time : String) : ∃ ls, r.line time = Text.unlines ls := by
  unfold Record.line
  cases r.failure with
  | none => exact ⟨[s!"{time} {levelColumn r.level} {r.source.name}: {r.message}"], by simp [Text.unlines, toString]⟩
  | some u =>
    refine ⟨[s!"{time} {levelColumn r.level} {r.source.name}: {r.message}", s!"MacroFileError: {u.message}"], ?_⟩
    simp [Text.unlines, toString]

namespace Command

/-! ## The command reached -/

/-- The options in front of a command, and the words behind it. -/
structure Reached where
  options : Global
  command : Subcommand
  words : List String

/-- The command that the words name, where nothing in front of it ends the run. -/
def reached? (s : Storage) (args : List String) : Option Reached :=
  match Global.read s args with
  | .error _ => none
  | .ok g =>
    match g.rest with
    | [] => none
    | word :: rest => (Subcommand.ofWord? word).map fun c => ⟨g, c, rest⟩

/-- What ends a run in front of its command. -/
def frontStop? (s : Storage) (args : List String) : Option Stop :=
  match Global.read s args with
  | .error stop => some stop
  | .ok g =>
    match g.rest with
    | [] => some (.usage .program .commandMissing)
    | word :: rest =>
      match Subcommand.ofWord? word with
      | none => some (unknownCommand s word rest)
      | some _ => none

theorem reached?_eq_none_iff {s : Storage} {args : List String} :
    reached? s args = none ↔ ∃ stop, frontStop? s args = some stop := by
  unfold frontStop? reached?
  cases Global.read s args with
  | error stop => simp
  | ok g =>
    dsimp only
    cases g.rest with
    | nil => simp
    | cons word rest =>
      dsimp only
      cases Subcommand.ofWord? word <;> simp

theorem reached?_eq_some_iff {s : Storage} {args : List String} {r : Reached} :
    reached? s args = some r ↔ Global.read s args = .ok r.options ∧
      ∃ word, r.options.rest = word :: r.words ∧ Subcommand.ofWord? word = some r.command := by
  unfold reached?
  cases Global.read s args with
  | error stop => simp
  | ok g =>
    dsimp only
    obtain ⟨options, command, words⟩ := r
    cases hrest : g.rest with
    | nil =>
      simp only [reduceCtorEq, Except.ok.injEq, false_iff, not_and]
      rintro rfl ⟨word, hword, -⟩
      simp [hrest] at hword
    | cons word rest =>
      simp only [Option.map_eq_some_iff, Reached.mk.injEq, Except.ok.injEq]
      constructor
      · rintro ⟨c, hc, rfl, rfl, rfl⟩
        exact ⟨rfl, word, hrest, hc⟩
      · rintro ⟨rfl, word', hword, hc⟩
        obtain ⟨rfl, rfl⟩ := List.cons.inj (hrest.symm.trans hword)
        exact ⟨command, hc, rfl, rfl, rfl⟩

@[simp] theorem session_stop (x : Session) (stop : Stop) : (stop.run x).session = x := by
  cases stop <;> rfl

theorem run_of_frontStop {x : Session} {args : List String} {stop : Stop} (hne : args ≠ [])
    (h : frontStop? x.storage args = some stop) : run x args = stop.run x := by
  unfold run
  unfold frontStop? at h
  rw [if_neg hne]
  cases hg : Global.read x.storage args with
  | error stop =>
    rw [hg] at h
    exact congrArg (Stop.run x) (Option.some.inj h)
  | ok g =>
    rw [hg] at h
    dsimp only at h ⊢
    cases hr : g.rest with
    | nil =>
      rw [hr] at h
      exact congrArg (Stop.run x) (Option.some.inj h)
    | cons word rest =>
      rw [hr] at h
      dsimp only at h ⊢
      cases hc : Subcommand.ofWord? word with
      | none =>
        rw [hc] at h
        exact congrArg (Stop.run x) (Option.some.inj h)
      | some c => simp [hc] at h

theorem session_run_of_not_reached {x : Session} {args : List String}
    (h : reached? x.storage args = none) : (run x args).session = x := by
  by_cases hne : args = []
  · rw [hne]
    rfl
  · obtain ⟨stop, hstop⟩ := reached?_eq_none_iff.1 h
    rw [run_of_frontStop hne hstop, session_stop]

theorem reached?_nil (s : Storage) : reached? s [] = none := by
  simp [reached?, Global.read, readWords, Words.read, stopOption?, Words.value?, Words.values, bind, Except.bind,
    pure, Except.pure]

theorem run_of_reached {x : Session} {args : List String} {r : Reached}
    (h : reached? x.storage args = some r) :
    run x args = { (runSubcommand (r.options.loadConfig x).session r.command r.words).logFirst
      (r.options.loadConfig x).log with threshold := r.options.threshold } := by
  have hne : args ≠ [] := by
    rintro rfl
    simp [reached?_nil] at h
  unfold reached? at h
  cases hg : Global.read x.storage args with
  | error stop => simp [hg] at h
  | ok g =>
    rw [hg] at h
    dsimp only at h
    cases hr : g.rest with
    | nil => simp [hr] at h
    | cons word rest =>
      rw [hr] at h
      dsimp only at h
      obtain ⟨c, hc, rfl⟩ := Option.map_eq_some_iff.1 h
      simp only [run, if_neg hne, hg, hr, hc]

/-- The config file of the command line is loaded, and the command does the rest. -/
theorem session_run_of_reached {x : Session} {args : List String} {r : Reached}
    (h : reached? x.storage args = some r) :
    (run x args).session =
      (runSubcommand (r.options.loadConfig x).session r.command r.words).session := by
  rw [run_of_reached h]
  rfl

@[simp] theorem storage_loadConfig (g : Global) (x : Session) :
    (g.loadConfig x).session.storage = x.storage := by
  unfold Global.loadConfig
  split <;> rfl

theorem run_word (x : Session) (c : Subcommand) (words : List String) :
    run x (c.word :: words) = { runSubcommand x c words with threshold := .warning } := by
  have hread : readWord globalSpellings c.word = .operand := by cases c <;> rfl
  have hglobal : Global.read x.storage (c.word :: words) = .ok ⟨false, false, none, c.word :: words⟩ := by
    simp only [Global.read, readWords, Words.read, hread]
    rfl
  have hword : Subcommand.ofWord? c.word = some c := by cases c <;> rfl
  have hreached : reached? x.storage (c.word :: words) =
      some ⟨⟨false, false, none, c.word :: words⟩, c, words⟩ := by
    simp only [reached?, hglobal, hword, Option.map_some]
  rw [run_of_reached hreached]
  rfl

/-! ## What a command works with -/

def ApplyArguments.resolve (x : Session) (a : ApplyArguments) :
    Found (String × Customization.Request) :=
  let root := orSetting x a.installRoot .installRoot
  let docs := orSetting root.session a.excludeDocs .excludeDocs
  let locales := orSetting docs.session a.locales .locales
  ⟨(root.value, ⟨docs.value, locales.value⟩), locales.session, root.log ++ docs.log ++ locales.log⟩

/-- What the customizations do, in the session after all settings are found. -/
theorem session_runApply (x : Session) (a : ApplyArguments) :
    (runApply x a).session = ((a.resolve x).session.customize (a.resolve x).value.1
      (a.resolve x).value.2 {}).session := by
  unfold runApply
  dsimp only
  split <;> rfl

theorem session_runShow (x : Session) (a : ShowArguments) :
    (runShow x a).session = (orSetting x a.installRoot .installRoot).session := by
  unfold runShow
  dsimp only
  split <;> rfl

/-! ## What a run prints -/

open Run (outText errText)

@[simp] theorem outText_logged (log : List Record) : String.join ((log.map Event.logged).map outText) = "" := by
  induction log with
  | nil => rfl
  | cons r log ih => simpa [outText] using ih

theorem outText_echo (ls : List String) :
    String.join ((ls.map echo).map outText) = Text.unlines (ls.map Text.plain) := by
  unfold Text.unlines
  rw [List.map_map, List.map_map]
  congr 2
  funext l
  exact Text.plain_newline l

theorem exists_lines_logged (log : List Record) (threshold : Level) (time : String) :
    ∃ ls, String.join ((log.map Event.logged).map (errText threshold time)) = Text.unlines ls := by
  induction log with
  | nil => exact ⟨[], rfl⟩
  | cons r log ih =>
    obtain ⟨ls, hls⟩ := ih
    obtain ⟨first, hfirst⟩ := r.exists_lines time
    by_cases h : threshold.rank ≤ r.level.rank
    · refine ⟨first ++ ls, ?_⟩
      rw [Text.unlines_append, ← hls, ← hfirst]
      simp [errText, h]
    · refine ⟨ls, ?_⟩
      rw [← hls]
      simp [errText, h]

end Command
end ImageMacros
