import ImageMacros.Proofs.Command.Misuse

/-!
# How much of its log a run prints

* `Flag`, `Flag.set` : the options that say so, and what they change of the options in front of the command
  (`Flag.read_eq`);
* `reached?_flags`, `run_flags` : a command line that gets to a command still does with flags in front, and its run
  is the same but for the threshold;
* `Run.records`, `Run.report` : all that a run logs, and what it prints of that beside its messages if only some
  levels are printed (`stderr_eq_report`);
* `Run.SameButLog`, `verbosity_filters_log` : with flags a run does and prints the same, and they filter its log.
-/

namespace ImageMacros.Command

/-! ## Flags -/

inductive Flag
  | verbose
  | quiet
deriving DecidableEq, Repr

namespace Flag

def word : Flag → String
  | .verbose => "-v"
  | .quiet => "-q"

def option : Flag → GlobalOption
  | .verbose => .verbose
  | .quiet => .quiet

def set : Flag → Global → Global
  | .verbose, g => { g with verbose := true }
  | .quiet, g => { g with quiet := true }

theorem read_word (f : Flag) (args : List String) : Words.read globalSpellings false (f.word :: args) =
    (Words.read globalSpellings false args).map (.addOptions [(f.option, "")]) := by
  have hword : readWord globalSpellings f.word = .given [(f.option, "")] := by cases f <;> rfl
  rw [Words.read, hword]

/-- A flag stops nothing, names no config file and leaves the command where it is. -/
theorem read_eq (f : Flag) {s : Storage} {args : List String} {g : Global} (h : Global.read s args = .ok g) :
    Global.read s (f.word :: args) = .ok (f.set g) := by
  obtain ⟨w, hread, hstop, hconfig, rfl⟩ := Global.read_eq_ok_iff.1 h
  refine Global.read_eq_ok_iff.2 ⟨w.addOptions [(f.option, "")], by rw [read_word, hread]; rfl, ?_, ?_, ?_⟩
  · cases f <;> exact hstop
  · cases f <;> exact hconfig
  · cases f <;> rfl

end Flag

theorem threshold_flags {g : Global} (hverbose : g.verbose = false) (hquiet : g.quiet = false) (flags : List Flag) :
    (flags.foldr Flag.set g).threshold =
      if .verbose ∈ flags then .debug else if .quiet ∈ flags then .error else .warning := by
  have hset : (flags.foldr Flag.set g).verbose = decide (.verbose ∈ flags) ∧
      (flags.foldr Flag.set g).quiet = decide (.quiet ∈ flags) := by
    induction flags with
    | nil => exact ⟨hverbose, hquiet⟩
    | cons f flags ih => cases f <;> simp [Flag.set, ih]
  unfold Global.threshold
  simp only [hset, decide_eq_true_eq]

theorem rest_flags (g : Global) (flags : List Flag) : (flags.foldr Flag.set g).rest = g.rest := by
  induction flags with
  | nil => rfl
  | cons f flags ih => cases f <;> exact ih

theorem loadConfig_flags (g : Global) (flags : List Flag) (x : Session) :
    (flags.foldr Flag.set g).loadConfig x = g.loadConfig x := by
  induction flags with
  | nil => rfl
  | cons f flags ih => cases f <;> exact ih

theorem read_flags {s : Storage} {args : List String} {g : Global} (h : Global.read s args = .ok g)
    (flags : List Flag) : Global.read s (flags.map Flag.word ++ args) = .ok (flags.foldr Flag.set g) := by
  induction flags with
  | nil => exact h
  | cons f flags ih => exact f.read_eq ih

theorem reached?_flags {s : Storage} {args : List String} {r : Reached} (h : reached? s args = some r)
    (flags : List Flag) : reached? s (flags.map Flag.word ++ args) =
      some { r with options := flags.foldr Flag.set r.options } := by
  obtain ⟨hread, word, hrest, hword⟩ := reached?_eq_some_iff.1 h
  exact reached?_eq_some_iff.2 ⟨read_flags hread flags, word, (rest_flags _ flags).trans hrest, hword⟩

/-- Flags in front of a command line change the threshold of its run, and nothing else. -/
theorem run_flags {x : Session} {args : List String} {r : Reached} (h : reached? x.storage args = some r)
    (flags : List Flag) : run x (flags.map Flag.word ++ args) =
      { run x args with threshold := (flags.foldr Flag.set r.options).threshold } := by
  rw [run_of_reached h, run_of_reached (reached?_flags h flags), loadConfig_flags]

/-! ## What is printed of a log -/

namespace Run

/-- The records that a run makes, printed or not. -/
def records (r : Run) : List Record :=
  r.events.filterMap fun
    | .logged record => some record
    | _ => none

def entry (keep : Level → Bool) (time : String) : Event → Option String
  | .out _ => none
  | .err text => some text
  | .logged record => if keep record.level then some (record.line time) else none

/-- The messages of a run and its records of some levels, in order. -/
def report (r : Run) (keep : Level → Bool) (time : String) : String :=
  String.join (r.events.filterMap (entry keep time))

theorem stderr_eq_report {r : Run} {keep : Level → Bool} (h : ∀ l, keep l = decide (r.threshold.rank ≤ l.rank))
    (time : String) : r.stderr time = r.report keep time := by
  unfold stderr report
  induction r.events with
  | nil => rfl
  | cons e events ih =>
    cases e with
    | out text =>
      rw [List.filterMap_cons_none rfl, ← ih]
      simp [errText]
    | err text => simpa [errText, entry] using ih
    | logged record =>
      by_cases hlevel : r.threshold.rank ≤ record.level.rank
      · simpa [errText, entry, h, hlevel] using ih
      · simpa [errText, entry, h, hlevel] using ih

/-- Runs that do the same and make the same records. -/
structure SameButLog (r q : Run) : Prop where
  session : q.session = r.session
  stdout : q.stdout = r.stdout
  ending : q.ending = r.ending
  records : q.records = r.records
  messages : ∀ time, q.report (fun _ => false) time = r.report (fun _ => false) time

theorem sameButLog_threshold (r : Run) (threshold : Level) : r.SameButLog { r with threshold } :=
  ⟨rfl, rfl, rfl, rfl, fun _ => rfl⟩

end Run

/-- Flags change nothing but the records printed: all with `-v`, errors only with `-q` alone, warnings and errors
without flags. -/
theorem verbosity_filters_log {x : Session} {args : List String} {r : Reached}
    (h : reached? x.storage args = some r) (hverbose : r.options.verbose = false)
    (hquiet : r.options.quiet = false) :
    let plain := run x args
    (∀ flags : List Flag, plain.SameButLog (run x (flags.map Flag.word ++ args))) ∧
    ∀ time,
      plain.stderr time = plain.report (fun l => l = .warning ∨ l = .error) time ∧
      (run x ("-v" :: args)).stderr time = plain.report (fun _ => true) time ∧
      (run x ("-q" :: args)).stderr time = plain.report (fun l => l = .error) time ∧
      (run x ("-v" :: "-q" :: args)).stderr time = (run x ("-v" :: args)).stderr time := by
  intro plain
  have hrun (flags : List Flag) : run x (flags.map Flag.word ++ args) = { plain with threshold :=
      if .verbose ∈ flags then .debug else if .quiet ∈ flags then .error else .warning } := by
    rw [run_flags h, threshold_flags hverbose hquiet]
  have hplain : plain = { plain with threshold := .warning } := hrun []
  have hloud : run x ("-v" :: args) = { plain with threshold := .debug } := hrun [.verbose]
  have hquieter : run x ("-q" :: args) = { plain with threshold := .error } := hrun [.quiet]
  have hboth : run x ("-v" :: "-q" :: args) = { plain with threshold := .debug } := hrun [.verbose, .quiet]
  refine ⟨fun flags => ?_, fun time => ⟨?_, ?_, ?_, by rw [hboth, hloud]⟩⟩
  · rw [hrun flags]
    exact plain.sameButLog_threshold _
  · refine Run.stderr_eq_report (fun l => ?_) time
    rw [hplain]
    cases l <;> rfl
  · rw [hloud]
    exact Run.stderr_eq_report (fun l => by cases l <;> rfl) time
  · rw [hquieter]
    exact Run.stderr_eq_report (fun l => by cases l <;> rfl) time

theorem verbosity_filters_log_apply :
    let x : Session :=
      { storage := ⟨.ofList [(["r"], .file [])], []⟩,
        environment := .ofList [(Setting.excludeDocs.variableName, "maybe")] }
    let args := ["apply", "--install-root", "r/s", "--override-rpm-locales", "en"]
    (∃ r, reached? x.storage args = some r ∧ r.options.verbose = false ∧ r.options.quiet = false) ∧
      (run x args).records.map (·.level) = [.warning, .info, .error, .debug] ∧
      (run x ("-q" :: args)).stderr "T" = (run x args).report (fun l => l = .error) "T" := by
  intro x args
  have hreached : reached? x.storage args = some ⟨⟨false, false, none, args⟩, .apply, args.tail⟩ := by rfl
  exact ⟨⟨_, hreached, rfl, rfl⟩, by decide, ((verbosity_filters_log hreached rfl rfl).2 "T").2.2.1⟩

end ImageMacros.Command
