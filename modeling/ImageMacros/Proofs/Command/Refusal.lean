import ImageMacros.Proofs.Command.Words
import Mathlib.Data.List.TakeWhile

/-!
# Commands that are refused

* `stop?` : what ends a run before a command does its work, if something does (`ending_of_stop`);
* `Said`, `Subcommand.said` : what the words behind a command say;
* `Malformed`, `readDefinitions_eq_error_iff` : the operands that give no definition, the first of which counts;
* `CommandMisuse` : what can be wrong with the words behind a command (`CommandMisuse.stop?`,
  `commandMisuse_of_stop?`); other than that a command is kept from its work by its help, or by a root with a
  null character (`null_of_commandStop`).
-/

namespace ImageMacros.Command

/-! ## Stops -/

def stopOf {α : Type} : Except Stop α → Option Stop
  | .error stop => some stop
  | .ok _ => none

def Subcommand.stop? (s : Storage) (words : List String) : Subcommand → Option Stop
  | .apply => stopOf (ApplyArguments.read s words)
  | .render => stopOf (RenderArguments.read words)
  | .show => stopOf (ShowArguments.read s words)

/-- What ends a run before a command does its work. -/
def stop? (s : Storage) (args : List String) : Option Stop :=
  match reached? s args with
  | none => frontStop? s args
  | some r => r.command.stop? s r.words

def Stop.ending : Stop → Ending
  | .help _ | .version => .exit 0
  | .usage .. => .exit 2
  | .failure f => .escaped f

theorem ending_stop (x : Session) (stop : Stop) : (stop.run x).ending = stop.ending := by
  cases stop <;> rfl

theorem runSubcommand_of_stop {x : Session} {c : Subcommand} {words : List String} {stop : Stop}
    (h : c.stop? x.storage words = some stop) : runSubcommand x c words = stop.run x := by
  unfold runSubcommand
  cases c with
  | apply =>
    dsimp only [Subcommand.stop?] at h ⊢
    cases hread : ApplyArguments.read x.storage words <;> simp_all [stopOf]
  | render =>
    dsimp only [Subcommand.stop?] at h ⊢
    cases hread : RenderArguments.read words <;> simp_all [stopOf]
  | «show» =>
    dsimp only [Subcommand.stop?] at h ⊢
    cases hread : ShowArguments.read x.storage words <;> simp_all [stopOf]

theorem ending_of_stop {x : Session} {args : List String} {stop : Stop} (hne : args ≠ [])
    (h : stop? x.storage args = some stop) : (run x args).ending = stop.ending := by
  unfold stop? at h
  cases hr : reached? x.storage args with
  | none =>
    rw [hr] at h
    rw [run_of_frontStop hne h, ending_stop]
  | some r =>
    rw [hr] at h
    rw [run_of_reached hr, runSubcommand_of_stop (by rwa [storage_loadConfig])]
    exact ending_stop _ stop

/-! ## What is said behind a command -/

/-- Whether help is asked for, the install root that counts, and the operands. -/
structure Said where
  help : Bool
  root : Option String
  operands : List String

def Subcommand.said (words : List String) : Subcommand → Except Problem Said
  | .apply => (Words.read applySpellings true words).map fun w => ⟨w.has .help, w.value? .installRoot, w.operands⟩
  | .render => (Words.read renderSpellings true words).map fun w => ⟨w.has .help, none, w.operands⟩
  | .show => (Words.read showSpellings true words).map fun w => ⟨w.has .help, w.value? .installRoot, w.operands⟩

theorem said_applyWords (given : List ApplyGiven) :
    Subcommand.apply.said (applyWords given) = .ok ⟨false, (ApplyArguments.ofGiven given).installRoot, []⟩ := by
  rw [← value?_installRoot_map_option, ← has_help_map_option given]
  unfold Subcommand.said
  dsimp only
  rw [read_applyWords]
  rfl

/-- No equals sign, or no name in front of the first. -/
def Malformed (operand : String) : Prop := '=' ∉ operand.toList ∨ operand.toList.head? = some '='

instance (operand : String) : Decidable (Malformed operand) := inferInstanceAs (Decidable (_ ∨ _))

theorem definition?_eq_none_iff {operand : String} : definition? operand = none ↔ Malformed operand := by
  unfold definition? Malformed splitEquals
  cases operand.toList with
  | nil => simp
  | cons c cs =>
    by_cases hc : c = '='
    · simp [hc]
    · rw [List.takeWhile_cons_of_pos (by simpa using hc), List.dropWhile_cons_of_pos (by simpa using hc)]
      have hnil : cs.dropWhile (· ≠ '=') = [] ↔ '=' ∉ cs := by
        simp only [List.dropWhile_eq_nil_iff, decide_eq_true_eq]
        exact ⟨fun h hmem => h _ hmem rfl, fun h x hx he => h (he ▸ hx)⟩
      cases hdrop : cs.dropWhile (· ≠ '=') with
      | nil => simp [hnil.1 hdrop, hc, Ne.symm hc]
      | cons d ds =>
        have hmem : '=' ∈ cs := by
          by_contra h
          rw [hnil.2 h] at hdrop
          cases hdrop
        simp [hmem, hc]

/-- The definitions are read up to the first operand that gives none. -/
theorem readDefinitions_eq_error_iff {operands : List String} {operand : String} :
    readDefinitions operands = .error operand ↔
      ∃ front rest, operands = front ++ operand :: rest ∧ (∀ o ∈ front, ¬ Malformed o) ∧
        Malformed operand := by
  induction operands with
  | nil => simp [readDefinitions]
  | cons first rest ih =>
    unfold readDefinitions
    cases hfirst : definition? first with
    | none =>
      have hmalformed := definition?_eq_none_iff.1 hfirst
      simp only [Except.error.injEq]
      constructor
      · rintro rfl
        exact ⟨[], rest, rfl, by simp, hmalformed⟩
      · rintro ⟨front, rest', hsplit, hfront, -⟩
        cases front with
        | nil => exact (List.cons.inj hsplit).1
        | cons f front =>
          rw [← (List.cons.inj hsplit).1] at hfront
          exact absurd hmalformed (hfront first List.mem_cons_self)
    | some d =>
      have hfine : ¬ Malformed first := by rw [← definition?_eq_none_iff, hfirst]; simp
      have hmap : (readDefinitions rest).map (d :: ·) = .error operand ↔ readDefinitions rest = .error operand := by
        cases readDefinitions rest <;> simp [Except.map]
      dsimp only
      rw [hmap, ih]
      constructor
      · rintro ⟨front, rest', rfl, hfront, hmalformed⟩
        exact ⟨first :: front, rest', rfl, List.forall_mem_cons.2 ⟨hfine, hfront⟩, hmalformed⟩
      · rintro ⟨front, rest', hsplit, hfront, hmalformed⟩
        cases front with
        | nil => exact absurd ((List.cons.inj hsplit).1 ▸ hmalformed) hfine
        | cons f front =>
          exact ⟨front, rest', (List.cons.inj hsplit).2, (List.forall_mem_cons.1 hfront).2, hmalformed⟩

/-! ## What can be wrong behind a command -/

def Subcommand.operandError? (operands : List String) : Subcommand → Option UsageError
  | .render =>
    if operands = [] then some .operandMissing
    else
      match readDefinitions operands with
      | .error operand => some (.noDefinition operand)
      | .ok _ => none
  | .apply | .show => if operands = [] then none else some (.operandsUnwanted operands)

/-- Help comes first, then the root, then the operands. -/
def Said.stop? (s : Storage) (c : Subcommand) (w : Said) : Option Stop :=
  if w.help then some (.help (.command c))
  else
    match w.root.bind fun place => stopOf (checkRoot s c place) with
    | some stop => some stop
    | none => (c.operandError? w.operands).map (.usage (.command c))

theorem stopOf_steps {α : Type} (s : Storage) {c : Subcommand} (hc : c ≠ .render) (w : Said) (a : α) :
    stopOf (do
      if w.help then throw (.help (.command c))
      if let some place := w.root then checkRoot s c place
      checkNoOperands c w.operands
      return a) = w.stop? s c := by
  have hoperands : stopOf (checkNoOperands c w.operands >>= fun _ => pure a) =
      (c.operandError? w.operands).map (.usage (.command c)) := by
    unfold checkNoOperands
    cases c with
    | render => exact absurd rfl hc
    | _ => by_cases h : w.operands = [] <;> simp only [h, if_pos, Subcommand.operandError?] <;> rfl
  unfold Said.stop?
  cases w.help with
  | true => rfl
  | false =>
    cases w.root with
    | none => exact hoperands
    | some place =>
      cases hroot : checkRoot s c place with
      | error stop => simp [hroot, stopOf, bind, Except.bind]
      | ok => simpa [hroot, stopOf, bind, Except.bind] using hoperands

theorem Subcommand.stop?_eq (s : Storage) (words : List String) (c : Subcommand) :
    c.stop? s words = match c.said words with
      | .error p => some (.usage (.command c) (.words p))
      | .ok w => w.stop? s c := by
  cases c with
  | apply =>
    unfold Subcommand.stop? ApplyArguments.read readWords Subcommand.said
    dsimp only
    cases Words.read applySpellings true words with
    | error p => rfl
    | ok w => exact stopOf_steps s (by decide) ⟨w.has .help, w.value? .installRoot, w.operands⟩ _
  | render =>
    unfold Subcommand.stop? RenderArguments.read readWords Subcommand.said
    dsimp only
    cases Words.read renderSpellings true words with
    | error p => rfl
    | ok w =>
      simp only [Except.map, Said.stop?, bind, Except.bind, operandError?]
      cases w.has .help with
      | true => rfl
      | false =>
        by_cases h : w.operands = []
        · simp only [h, if_pos]
          rfl
        · simp only [h, if_neg, not_false_eq_true]
          cases readDefinitions w.operands <;> rfl
  | «show» =>
    unfold Subcommand.stop? ShowArguments.read readWords Subcommand.said
    dsimp only
    cases Words.read showSpellings true words with
    | error p => rfl
    | ok w => exact stopOf_steps s (by decide) ⟨w.has .help, w.value? .installRoot, w.operands⟩ _

/-- What can be wrong with the words behind a command. -/
inductive CommandMisuse (s : Storage) (words : List String) : Subcommand → UsageError → Prop
  | words {c p} (h : c.said words = .error p) : CommandMisuse s words c (.words p)
  | rootIsFile {c w place l content} (h : c.said words = .ok w) (hhelp : w.help = false)
      (hroot : w.root = some place) (hnull : '\x00' ∉ place.toList)
      (hfile : s.locateText place = .ok (l, .file content)) : CommandMisuse s words c (.rootIsFile place)
  | operandsUnwanted {c w} (hc : c ≠ .render) (h : c.said words = .ok w) (hhelp : w.help = false)
      (hroot : ∀ place ∈ w.root, MayBeRoot s place) (hoperands : w.operands ≠ []) :
      CommandMisuse s words c (.operandsUnwanted w.operands)
  | operandMissing {w} (h : Subcommand.render.said words = .ok w) (hhelp : w.help = false)
      (hoperands : w.operands = []) : CommandMisuse s words .render .operandMissing
  | noDefinition {w front operand rest} (h : Subcommand.render.said words = .ok w) (hhelp : w.help = false)
      (hoperands : w.operands = front ++ operand :: rest) (hfront : ∀ o ∈ front, ¬ Malformed o)
      (hoperand : Malformed operand) : CommandMisuse s words .render (.noDefinition operand)

theorem checkRoot_cases (s : Storage) (c : Subcommand) (place : String) :
    (checkRoot s c place = .ok () ∧ MayBeRoot s place) ∨
      (checkRoot s c place = .error (.failure .nullInPath) ∧ '\x00' ∈ place.toList) ∨
      checkRoot s c place = .error (.usage (.command c) (.rootIsFile place)) ∧ '\x00' ∉ place.toList ∧
        ∃ l content, s.locateText place = .ok (l, .file content) := by
  unfold checkRoot
  split
  · next hnull => exact .inr (.inl ⟨rfl, hnull⟩)
  · next hnull =>
    split
    · next l content hfile => exact .inr (.inr ⟨rfl, hnull, l, content, hfile⟩)
    · next hother => exact .inl ⟨rfl, hnull, hother⟩

theorem Said.stop?_of_mayBeRoot {s : Storage} {w : Said} (c : Subcommand) (hhelp : w.help = false)
    (hroot : ∀ place ∈ w.root, MayBeRoot s place) :
    w.stop? s c = (c.operandError? w.operands).map (.usage (.command c)) := by
  unfold stop?
  rw [hhelp]
  cases hw : w.root with
  | none => rfl
  | some place =>
    rw [hw] at hroot
    simp [checkRoot_of_mayBeRoot (hroot place rfl) c, stopOf]

theorem Said.root_render {words : List String} {w : Said} (h : Subcommand.render.said words = .ok w) :
    w.root = none := by
  unfold Subcommand.said at h
  cases hread : Words.read renderSpellings true words with
  | error p => simp [hread, Except.map] at h
  | ok v =>
    rw [hread] at h
    exact (congrArg Said.root (Except.ok.inj h)).symm

theorem CommandMisuse.stop? {s : Storage} {words : List String} {c : Subcommand} {e : UsageError}
    (h : CommandMisuse s words c e) : c.stop? s words = some (.usage (.command c) e) := by
  rw [Subcommand.stop?_eq]
  cases h with
  | words h => rw [h]
  | rootIsFile h hhelp hroot hnull hfile =>
    rw [h]
    simp [Said.stop?, hhelp, hroot, checkRoot, hnull, hfile, stopOf]
  | operandsUnwanted hc h hhelp hroot hoperands =>
    rw [h]
    dsimp only
    rw [Said.stop?_of_mayBeRoot c hhelp hroot]
    cases c with
    | render => exact absurd rfl hc
    | _ => simp [Subcommand.operandError?, hoperands]
  | operandMissing h hhelp hoperands =>
    rw [h]
    dsimp only
    rw [Said.stop?_of_mayBeRoot _ hhelp (by simp [Said.root_render h])]
    simp [Subcommand.operandError?, hoperands]
  | noDefinition h hhelp hoperands hfront hoperand =>
    rw [h]
    dsimp only
    rw [Said.stop?_of_mayBeRoot _ hhelp (by simp [Said.root_render h])]
    have hdefs := readDefinitions_eq_error_iff.2 ⟨_, _, hoperands, hfront, hoperand⟩
    simp only [Subcommand.operandError?, hdefs]
    rw [if_neg (by simp [hoperands])]
    rfl

theorem commandMisuse_of_operandError? {s : Storage} {words : List String} {c : Subcommand} {w : Said}
    {e : UsageError} (hsaid : c.said words = .ok w) (hhelp : w.help = false)
    (hroot : ∀ place ∈ w.root, MayBeRoot s place) (h : c.operandError? w.operands = some e) :
    CommandMisuse s words c e := by
  cases c with
  | render =>
    unfold Subcommand.operandError? at h
    by_cases hoperands : w.operands = []
    · rw [hoperands] at h
      obtain rfl := Option.some.inj h
      exact .operandMissing hsaid hhelp hoperands
    · rw [if_neg hoperands] at h
      cases hdefs : readDefinitions w.operands with
      | ok ds => simp [hdefs] at h
      | error operand =>
        obtain rfl : UsageError.noDefinition operand = e := by simpa [hdefs] using h
        obtain ⟨front, rest, hsplit, hfront, hoperand⟩ := readDefinitions_eq_error_iff.1 hdefs
        exact .noDefinition hsaid hhelp hsplit hfront hoperand
  | _ =>
    unfold Subcommand.operandError? at h
    obtain ⟨hoperands, rfl⟩ : w.operands ≠ [] ∧ UsageError.operandsUnwanted w.operands = e := by simpa using h
    exact .operandsUnwanted (by decide) hsaid hhelp hroot hoperands

theorem commandMisuse_of_stop? {s : Storage} {words : List String} {c : Subcommand} {sc : Scope} {e : UsageError}
    (h : c.stop? s words = some (.usage sc e)) : sc = .command c ∧ CommandMisuse s words c e := by
  rw [Subcommand.stop?_eq] at h
  cases hsaid : c.said words with
  | error p =>
    rw [hsaid] at h
    obtain ⟨rfl, rfl⟩ := Stop.usage.inj (Option.some.inj h)
    exact ⟨rfl, .words hsaid⟩
  | ok w =>
    rw [hsaid] at h
    dsimp only at h
    cases hhelp : w.help with
    | true => simp [Said.stop?, hhelp] at h
    | false =>
      by_cases hroot : ∀ place ∈ w.root, MayBeRoot s place
      · rw [Said.stop?_of_mayBeRoot c hhelp hroot] at h
        obtain ⟨e', he, hstop⟩ := Option.map_eq_some_iff.1 h
        obtain ⟨rfl, rfl⟩ := Stop.usage.inj hstop
        exact ⟨rfl, commandMisuse_of_operandError? hsaid hhelp hroot he⟩
      · obtain ⟨place, hplace, hnot⟩ : ∃ place, w.root = some place ∧ ¬ MayBeRoot s place := by
          simpa using hroot
        rcases checkRoot_cases s c place with ⟨-, hmay⟩ | ⟨hcheck, -⟩ | ⟨hcheck, hnull, l, content, hfile⟩
        · exact absurd hmay hnot
        · simp [Said.stop?, hhelp, hplace, hcheck, stopOf] at h
        · obtain ⟨rfl, rfl⟩ : Scope.command c = sc ∧ UsageError.rootIsFile place = e := by
            simpa [Said.stop?, hhelp, hplace, hcheck, stopOf] using h
          exact ⟨rfl, .rootIsFile hsaid hhelp hplace hnull hfile⟩

/-- A command fails in front of its work, other than by misuse, only for a null character. -/
theorem null_of_commandStop {s : Storage} {words : List String} {c : Subcommand} {f : Failure}
    (h : c.stop? s words = some (.failure f)) :
    f = .nullInPath ∧ ∃ w place, c.said words = .ok w ∧ w.root = some place ∧ '\x00' ∈ place.toList := by
  rw [Subcommand.stop?_eq] at h
  cases hsaid : c.said words with
  | error p => simp [hsaid] at h
  | ok w =>
    rw [hsaid] at h
    dsimp only at h
    cases hhelp : w.help with
    | true => simp [Said.stop?, hhelp] at h
    | false =>
      cases hplace : w.root with
      | none => simp [Said.stop?, hhelp, hplace] at h
      | some place =>
        rcases checkRoot_cases s c place with ⟨hcheck, -⟩ | ⟨hcheck, hnull⟩ | ⟨hcheck, -⟩
        · simp [Said.stop?, hhelp, hplace, hcheck, stopOf] at h
        · obtain rfl : Failure.nullInPath = f := by simpa [Said.stop?, hhelp, hplace, hcheck, stopOf] using h
          exact ⟨rfl, w, place, rfl, hplace, hnull⟩
        · simp [Said.stop?, hhelp, hplace, hcheck, stopOf] at h

end ImageMacros.Command
