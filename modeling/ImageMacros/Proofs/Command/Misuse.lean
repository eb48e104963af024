import ImageMacros.Command.Run
import ImageMacros.Proofs.Command.Refusal

/-!
# Command lines that are misused

* `FrontMisuse` : what can be wrong with the options in front of a command (`FrontMisuse.read`,
  `read_eq_error_cases`), and what these options are if nothing is (`Global.read_eq_ok_iff`);
* `Misuse` : what can be wrong with a command line as a whole;
* `pathsNamed` : the paths that a command line names;
* `stop?_cases`, `Misuse.stop?` : a run is ended before a command does its work by what it asks for, by misuse, or
  by a path with a null character, and always by misuse if there is any.
-/

namespace ImageMacros.Command

/-! ## What can be wrong in front of a command -/

/-- What can be wrong with the options in front of a command. -/
inductive FrontMisuse (s : Storage) (args : List String) : UsageError → Prop
  | words {p} (h : Words.read globalSpellings false args = .error p) : FrontMisuse s args (.words p)
  | configMissing {w place o} (h : Words.read globalSpellings false args = .ok w) (hstop : stopOption? w = none)
      (hconfig : w.value? .config = some place) (hnull : '\x00' ∉ place.toList)
      (hmissing : s.locateText place = .error o) : FrontMisuse s args (.configMissing place)
  | configIsDirectory {w place l} (h : Words.read globalSpellings false args = .ok w) (hstop : stopOption? w = none)
      (hconfig : w.value? .config = some place) (hnull : '\x00' ∉ place.toList)
      (hdirectory : s.locateText place = .ok (l, .directory)) : FrontMisuse s args (.configIsDirectory place)

theorem checkConfig_cases (s : Storage) (place : String) :
    checkConfig s place = .ok () ∨
      (checkConfig s place = .error (.failure .nullInPath) ∧ '\x00' ∈ place.toList) ∨
      '\x00' ∉ place.toList ∧
        ((checkConfig s place = .error (.usage .program (.configMissing place)) ∧
            ∃ o, s.locateText place = .error o) ∨
          checkConfig s place = .error (.usage .program (.configIsDirectory place)) ∧
            ∃ l, s.locateText place = .ok (l, .directory)) := by
  unfold checkConfig
  split
  · next hnull => exact .inr (.inl ⟨rfl, hnull⟩)
  · next hnull =>
    split
    · next o hmissing => exact .inr (.inr ⟨hnull, .inl ⟨rfl, o, hmissing⟩⟩)
    · next l hdirectory => exact .inr (.inr ⟨hnull, .inr ⟨rfl, l, hdirectory⟩⟩)
    · exact .inl rfl

theorem Global.read_eq (s : Storage) (args : List String) :
    Global.read s args = match Words.read globalSpellings false args with
      | .error p => .error (.usage .program (.words p))
      | .ok w =>
        match stopOption? w with
        | some stop => .error stop
        | none =>
          match w.value? .config with
          | none => .ok ⟨w.has .verbose, w.has .quiet, none, w.operands⟩
          | some place =>
            (checkConfig s place).map fun _ => ⟨w.has .verbose, w.has .quiet, some place, w.operands⟩ := by
  unfold Global.read readWords
  cases Words.read globalSpellings false args with
  | error p => rfl
  | ok w =>
    simp only [bind, Except.bind]
    cases stopOption? w with
    | some stop => rfl
    | none =>
      dsimp only
      cases w.value? .config with
      | none => rfl
      | some place => cases hcheck : checkConfig s place <;> simp [hcheck, pure, Except.pure, Except.map]

theorem not_usage_of_stopOption? {w : Words GlobalOption} {stop : Stop} (h : stopOption? w = some stop) :
    stop = .version ∨ stop = .help .program := by
  obtain ⟨o, -, ho⟩ := List.exists_of_findSome?_eq_some h
  split at ho <;> simp_all

theorem FrontMisuse.read {s : Storage} {args : List String} {e : UsageError} (h : FrontMisuse s args e) :
    Global.read s args = .error (.usage .program e) := by
  rw [Global.read_eq]
  cases h with
  | words h => rw [h]
  | configMissing h hstop hconfig hnull hmissing =>
    simp [h, hstop, hconfig, checkConfig, hnull, hmissing, Except.map]
  | configIsDirectory h hstop hconfig hnull hdirectory =>
    simp [h, hstop, hconfig, checkConfig, hnull, hdirectory, Except.map]

/-- The options in front end a run by what they ask for, by misuse, or by a null character. -/
theorem read_eq_error_cases {s : Storage} {args : List String} {stop : Stop}
    (h : Global.read s args = .error stop) : stop = .version ∨ stop = .help .program ∨
      (∃ e, stop = .usage .program e ∧ FrontMisuse s args e) ∨
      stop = .failure .nullInPath ∧ ∃ place ∈ configsNamed args, '\x00' ∈ place.toList := by
  rw [Global.read_eq] at h
  cases hread : Words.read globalSpellings false args with
  | error p =>
    rw [hread] at h
    exact .inr (.inr (.inl ⟨_, (Except.error.inj h).symm, .words hread⟩))
  | ok w =>
    rw [hread] at h
    dsimp only at h
    cases hstop : stopOption? w with
    | some stop' =>
      rw [hstop] at h
      obtain rfl := Except.error.inj h
      exact (not_usage_of_stopOption? hstop).imp_right .inl
    | none =>
      rw [hstop] at h
      dsimp only at h
      cases hconfig : w.value? .config with
      | none => simp [hconfig] at h
      | some place =>
        rw [hconfig] at h
        dsimp only at h
        rcases checkConfig_cases s place with hcheck | ⟨hcheck, hnull⟩ | ⟨hnull, ⟨hcheck, o, ho⟩ | ⟨hcheck, l, hl⟩⟩
        · simp [hcheck, Except.map] at h
        · rw [hcheck] at h
          have hplace : place ∈ configsNamed args := by
            rw [configsNamed, hread]
            exact List.mem_of_getLast? hconfig
          exact .inr (.inr (.inr ⟨(Except.error.inj h).symm, place, hplace, hnull⟩))
        · rw [hcheck] at h
          exact .inr (.inr (.inl ⟨_, (Except.error.inj h).symm, .configMissing hread hstop hconfig hnull ho⟩))
        · rw [hcheck] at h
          exact .inr (.inr (.inl ⟨_, (Except.error.inj h).symm, .configIsDirectory hread hstop hconfig hnull hl⟩))

theorem Global.read_eq_ok_iff {s : Storage} {args : List String} {g : Global} : Global.read s args = .ok g ↔
    ∃ w, Words.read globalSpellings false args = .ok w ∧ stopOption? w = none ∧
      (∀ place ∈ w.value? .config, checkConfig s place = .ok ()) ∧
      g = ⟨w.has .verbose, w.has .quiet, w.value? .config, w.operands⟩ := by
  rw [Global.read_eq]
  cases Words.read globalSpellings false args with
  | error p => simp
  | ok w =>
    simp only [Except.ok.injEq, exists_eq_left']
    cases stopOption? w with
    | some stop => simp
    | none =>
      cases w.value? .config with
      | none => simp [eq_comm]
      | some place => cases hcheck : checkConfig s place <;> simp [hcheck, Except.map, eq_comm]

theorem rest_eq_commandWords {s : Storage} {args : List String} {g : Global} (h : Global.read s args = .ok g) :
    g.rest = commandWords args := by
  obtain ⟨w, hread, -, -, rfl⟩ := Global.read_eq_ok_iff.1 h
  rw [commandWords, hread]

theorem config_eq_configsNamed {s : Storage} {args : List String} {g : Global} (h : Global.read s args = .ok g) :
    g.config = (configsNamed args).getLast? := by
  obtain ⟨w, hread, -, -, rfl⟩ := Global.read_eq_ok_iff.1 h
  rw [configsNamed, hread]
  rfl

/-! ## What can be wrong with a command line -/

/-- What can be wrong with a command line. -/
inductive Misuse (s : Storage) (args : List String) : Scope → UsageError → Prop
  | front {e} (h : FrontMisuse s args e) : Misuse s args .program e
  | commandMissing {g} (h : Global.read s args = .ok g) (hrest : g.rest = []) : Misuse s args .program .commandMissing
  | commandOption {g word rest e} (h : Global.read s args = .ok g) (hrest : g.rest = word :: rest)
      (hword : Subcommand.ofWord? word = none) (hoption : FrontMisuse s (word :: rest) e) : Misuse s args .program e
  | commandUnknown {g g' word rest} (h : Global.read s args = .ok g) (hrest : g.rest = word :: rest)
      (hword : Subcommand.ofWord? word = none) (hread : Global.read s (word :: rest) = .ok g') :
      Misuse s args .program (.commandUnknown word)
  | command {r e} (h : reached? s args = some r) (hcommand : CommandMisuse s r.words r.command e) :
      Misuse s args (.command r.command) e

/-- The install root that the words from the command on name. -/
def rootNamed? : List String → Option String
  | [] => none
  | word :: words =>
    (Subcommand.ofWord? word).bind fun c =>
      match c.said words with
      | .ok w => w.root
      | .error _ => none

/-- The config files and the install root that a command line names. -/
def pathsNamed (args : List String) : List String :=
  configsNamed args ++ configsNamed (commandWords args) ++ (rootNamed? (commandWords args)).toList

theorem frontStop?_cases {s : Storage} {args : List String} {stop : Stop} (h : frontStop? s args = some stop) :
    stop = .version ∨ stop = .help .program ∨ (∃ sc e, stop = .usage sc e ∧ Misuse s args sc e) ∨
      stop = .failure .nullInPath ∧ ∃ place ∈ pathsNamed args, '\x00' ∈ place.toList := by
  unfold frontStop? at h
  cases hg : Global.read s args with
  | error stop' =>
    rw [hg] at h
    obtain rfl := Option.some.inj h
    rcases read_eq_error_cases hg with h | h | ⟨e, h, he⟩ | ⟨h, place, hplace, hnull⟩
    · exact .inl h
    · exact .inr (.inl h)
    · exact .inr (.inr (.inl ⟨_, e, h, .front he⟩))
    · exact .inr (.inr (.inr ⟨h, place, List.mem_append_left _ (List.mem_append_left _ hplace), hnull⟩))
  | ok g =>
    rw [hg] at h
    dsimp only at h
    cases hrest : g.rest with
    | nil =>
      rw [hrest] at h
      exact .inr (.inr (.inl ⟨_, _, (Option.some.inj h).symm, .commandMissing hg hrest⟩))
    | cons word rest =>
      rw [hrest] at h
      dsimp only at h
      cases hword : Subcommand.ofWord? word with
      | some c => simp [hword] at h
      | none =>
        rw [hword] at h
        obtain rfl := Option.some.inj h
        unfold unknownCommand
        cases hagain : Global.read s (word :: rest) with
        | ok g' => exact .inr (.inr (.inl ⟨_, _, rfl, .commandUnknown hg hrest hword hagain⟩))
        | error stop' =>
          dsimp only
          rcases read_eq_error_cases hagain with h | h | ⟨e, h, he⟩ | ⟨h, place, hplace, hnull⟩
          · exact .inl h
          · exact .inr (.inl h)
          · exact .inr (.inr (.inl ⟨_, e, h, .commandOption hg hrest hword he⟩))
          · rw [← hrest, rest_eq_commandWords hg] at hplace
            exact .inr (.inr (.inr ⟨h, place, List.mem_append_left _ (List.mem_append_right _ hplace), hnull⟩))

theorem commandWords_of_reached {s : Storage} {args : List String} {r : Reached} (h : reached? s args = some r) :
    ∃ word, commandWords args = word :: r.words ∧ Subcommand.ofWord? word = some r.command := by
  obtain ⟨hg, word, hrest, hc⟩ := reached?_eq_some_iff.1 h
  exact ⟨word, (rest_eq_commandWords hg).symm.trans hrest, hc⟩

theorem stop?_cases {s : Storage} {args : List String} {stop : Stop} (h : stop? s args = some stop) :
    stop = .version ∨ (∃ sc, stop = .help sc) ∨ (∃ sc e, stop = .usage sc e ∧ Misuse s args sc e) ∨
      stop = .failure .nullInPath ∧ ∃ place ∈ pathsNamed args, '\x00' ∈ place.toList := by
  unfold stop? at h
  cases hr : reached? s args with
  | none =>
    rw [hr] at h
    exact (frontStop?_cases h).imp_right (.imp_left fun h => ⟨_, h⟩)
  | some r =>
    rw [hr] at h
    dsimp only at h
    cases stop with
    | version => exact .inl rfl
    | help sc => exact .inr (.inl ⟨sc, rfl⟩)
    | usage sc e =>
      obtain ⟨rfl, he⟩ := commandMisuse_of_stop? h
      exact .inr (.inr (.inl ⟨_, e, rfl, .command hr he⟩))
    | failure f =>
      obtain ⟨rfl, w, place, hsaid, hroot, hnull⟩ := null_of_commandStop h
      obtain ⟨word, hwords, hc⟩ := commandWords_of_reached hr
      have hplace : rootNamed? (commandWords args) = some place := by
        simp [hwords, rootNamed?, hc, hsaid, hroot]
      exact .inr (.inr (.inr ⟨rfl, place, List.mem_append_right _ (by simp [hplace]), hnull⟩))

theorem Misuse.stop? {s : Storage} {args : List String} {sc : Scope} {e : UsageError} (h : Misuse s args sc e) :
    stop? s args = some (.usage sc e) := by
  have hfront : ∀ stop, frontStop? s args = some stop → Command.stop? s args = some stop := fun stop hstop => by
    rw [Command.stop?, reached?_eq_none_iff.2 ⟨stop, hstop⟩]
    exact hstop
  cases h with
  | front h => exact hfront _ (by simp only [frontStop?, h.read])
  | commandMissing h hrest => exact hfront _ (by simp only [frontStop?, h, hrest])
  | commandOption h hrest hword hoption =>
    exact hfront _ (by simp only [frontStop?, h, hrest, hword, unknownCommand, hoption.read])
  | commandUnknown h hrest hword hread =>
    exact hfront _ (by simp only [frontStop?, h, hrest, hword, unknownCommand, hread])
  | command h hcommand =>
    rw [Command.stop?, h]
    exact hcommand.stop?

end ImageMacros.Command
