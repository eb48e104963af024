import ImageMacros.Proofs.Command.Ending

/-!
# Who may write

* `MayWrite` : the operations that have something to write, a command line only where it gets to `apply`;
* `applied?_of_stop`, `applied?_of_exit_two` : a command line that does not get there;
* `exists_mayWrite` : a session changes its storage only by an operation that may write;
* `storage_kept` : so it keeps it through everything else, whatever is below the install root.
-/

namespace ImageMacros

open Storage
open Command (run reached? stop? applied?)

/-! ## Command lines -/

namespace Command

variable {x : Session} {args : List String}

theorem applied?_of_stop {stop : Stop} (h : stop? x.storage args = some stop) : applied? x args = none := by
  unfold stop? at h
  unfold applied?
  cases hr : reached? x.storage args with
  | none => rfl
  | some r =>
    obtain ⟨options, command, words⟩ := r
    rw [hr] at h
    cases command with
    | apply =>
      dsimp only [Subcommand.stop?] at h ⊢
      cases hread : ApplyArguments.read x.storage words with
      | error stop => rfl
      | ok a => simp [hread, stopOf] at h
    | render => rfl
    | «show» => rfl

theorem applied?_of_other {r : Reached} (h : reached? x.storage args = some r) (hr : r.command ≠ .apply) :
    applied? x args = none := by
  obtain ⟨options, command, words⟩ := r
  unfold applied?
  rw [h]
  cases command with
  | apply => exact absurd rfl hr
  | render => rfl
  | «show» => rfl

/-- What gets to `apply` ends in other ways than by exit code two. -/
theorem applied?_of_exit_two (h : (run x args).ending = .exit 2) : applied? x args = none := by
  cases hf : applied? x args with
  | none => rfl
  | some f =>
    rw [ending_of_applied hf] at h
    cases hresult : (Customization.apply x.storage f.value.1 f.value.2 {}).result with
    | ok places => simp [hresult, Ending.ofResult] at h
    | error failure => cases failure <;> simp [hresult, Ending.ofResult] at h

theorem writes_of_applied?_none (h : applied? x args = none) : writes x args = [] := by
  rw [writes, h]

end Command

/-! ## Operations -/

namespace Session

/-- The operations that have something to write, for `apply` only where a command line gets there. -/
inductive MayWrite (x : Session) : Operation → Prop
  | writeLines {place lines} : MayWrite x (.writeLines place lines)
  | stage {root name definitions comments} (h : definitions.isEmpty = false) :
      MayWrite x (.stage root name definitions comments)
  | customize {root r d} (h : r.Asks) : MayWrite x (.customize root r d)
  | customizeAsConfigured {root} (h : x.configured.Asks) : MayWrite x (.customizeAsConfigured root)
  | command {args f} (h : applied? x args = some f) (hasks : f.value.2.Asks) : MayWrite x (.command args)

theorem writes_of_not_mayWrite {x : Session} {op : Operation} (h : ¬ MayWrite x op) : x.writes op = [] := by
  cases op with
  | writeLines place lines => exact absurd .writeLines h
  | stage root name definitions comments =>
    have hempty : definitions.isEmpty = true := by
      by_contra hne
      exact h (.stage (Bool.eq_false_iff.2 hne))
    exact if_pos hempty
  | customize root r d => exact Customization.writes_of_not_asks (fun hasks => h (.customize hasks)) root d
  | customizeAsConfigured root =>
    rw [writes, value_settings]
    exact Customization.writes_of_not_asks (fun hasks => h (.customizeAsConfigured hasks)) root {}
  | command args =>
    change Command.writes x args = []
    cases hf : applied? x args with
    | none => exact Command.writes_of_applied?_none hf
    | some f =>
      rw [Command.writes, hf]
      exact Customization.writes_of_not_asks (fun hasks => h (.command hf hasks)) _ _
  | _ => rfl

theorem storage_perform_of_not_mayWrite {x : Session} {op : Operation} (hop : op.edits = false)
    (h : ¬ MayWrite x op) : (x.perform op).session.storage = x.storage := by
  rw [storage_perform x hop, writes_of_not_mayWrite h]
  rfl

/-- Where a run changes the storage, one of its operations could write when its turn came. -/
theorem exists_mayWrite {x : Session} {ops : List Operation} (hops : ∀ op ∈ ops, op.edits = false)
    (h : (x.performAll ops).storage ≠ x.storage) :
    ∃ past op, past ++ [op] <+: ops ∧ MayWrite (x.performAll past) op := by
  induction ops generalizing x with
  | nil => exact absurd rfl h
  | cons op ops ih =>
    by_cases hop : MayWrite x op
    · exact ⟨[], op, List.cons_prefix_cons.2 ⟨rfl, List.nil_prefix⟩, hop⟩
    · have hkept := storage_perform_of_not_mayWrite (hops op List.mem_cons_self) hop
      have hlater : ((x.perform op).session.performAll ops).storage ≠ (x.perform op).session.storage := by
        rw [hkept]
        exact h
      obtain ⟨past, op', hpast, hwrite⟩ := ih (fun o ho => hops o (List.mem_cons_of_mem op ho)) hlater
      exact ⟨op :: past, op', List.cons_prefix_cons.2 ⟨rfl, hpast⟩, hwrite⟩

/-- A session changes its storage only by operations that may write: misuse, other commands and requests for nothing
keep it. -/
theorem storage_kept (x : Session) :
    (∀ ops : List Operation, (∀ op ∈ ops, op.edits = false) → (x.performAll ops).storage ≠ x.storage →
      ∃ past op, past ++ [op] <+: ops ∧ MayWrite (x.performAll past) op) ∧
    (∀ args, (run x args).ending = .exit 2 ∨ (∃ stop, stop? x.storage args = some stop) ∨
        (∃ r, reached? x.storage args = some r ∧ r.command ≠ .apply) ∨
        (∃ f, applied? x args = some f ∧ ¬ f.value.2.Asks) →
      (run x args).session.storage = x.storage) ∧
    (∀ root name (definitions : MacroFile.Definitions) comments, definitions.isEmpty = true →
      let staged := MacroFile.stage x.storage root name definitions comments
      staged.result = .ok none ∧ staged.storage = x.storage) ∧
    (∀ root (r : Customization.Request) d, ¬ r.Asks →
      let applied := Customization.apply x.storage root r d
      applied.result = .ok [] ∧ applied.storage = x.storage) ∧
    ∀ root, ¬ x.configured.Asks →
      (x.customizeAsConfigured root).result = .ok [] ∧ (x.customizeAsConfigured root).session.storage = x.storage := by
  refine ⟨fun ops => exists_mayWrite, fun args h => ?_, fun root name definitions comments hempty => ?_,
    fun root r d hnone => ?_, fun root hnone => ?_⟩
  · have hkept : ¬ MayWrite x (.command args) → (run x args).session.storage = x.storage :=
      storage_perform_of_not_mayWrite rfl
    refine hkept fun hwrite => ?_
    cases hwrite with
    | command hf hasks =>
      rcases h with hexit | ⟨stop, hstop⟩ | ⟨r, hr, hother⟩ | ⟨f, hf', hnone⟩
      · simp [Command.applied?_of_exit_two hexit] at hf
      · simp [Command.applied?_of_stop hstop] at hf
      · simp [Command.applied?_of_other hr hother] at hf
      · exact hnone (Option.some.inj (hf.symm.trans hf') ▸ hasks)
  · rw [MacroFile.stage_of_isEmpty _ _ _ _ hempty]
    exact ⟨rfl, rfl⟩
  · rw [Customization.apply_of_not_asks hnone]
    exact ⟨rfl, rfl⟩
  · have hsame := x.outcome_configured root
    dsimp only at hsame
    rw [Customization.apply_of_not_asks hnone] at hsame
    exact ⟨congrArg Outcome.result hsame, congrArg Outcome.storage hsame⟩

theorem storage_kept_show :
    let x : Session := fresh ["w"]
    let ops := [.stage "r" "m" .empty [], .customize "r" ⟨false, ""⟩ {}, .writeLines "m" ["x"]]
    let y : Session := { storage := (fresh []).storage.putFile ("r" ++ ({} : Customization.Destinations).docs) [0xff] }
    let args := ["show", "--install-root", "r"]
    (x.performAll ops).storage ≠ x.storage ∧
      (∃ past op, past ++ [op] <+: ops ∧ MayWrite (x.performAll past) op) ∧
      (∃ f, (run y args).ending = .escaped (.undecodable f)) ∧ (run y args).session.storage = y.storage := by
  intro x ops y args
  have hchanged : (x.performAll ops).storage ≠ x.storage := by decide
  have hending : (run y args).ending = .escaped (.undecodable ⟨0, [0xff], .badStart⟩) := by decide +kernel
  have hreached : reached? y.storage args = some ⟨⟨false, false, none, args⟩, .show, args.tail⟩ := by rfl
  exact ⟨hchanged, (storage_kept x).1 ops (by decide) hchanged, ⟨_, hending⟩,
    (storage_kept y).2.1 args (.inr (.inr (.inl ⟨_, hreached, by decide⟩)))⟩

end Session
end ImageMacros
