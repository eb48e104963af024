import ImageMacros.Proofs.Command.Alike
import ImageMacros.Proofs.Command.Refusal
import ImageMacros.Proofs.MacroFile.Canonical
import ImageMacros.Proofs.Text.Quoted

/-!
# The command line of `render`

* `run_renderWords`, `run_render_eq_staged` : for definitions that are written as operands, what `render` prints is the
  text of the macro file that is staged;
* `RenderGiven`, `mixedWords` : the comments and operands on a command line of `render`, in any order;
* `commentsOf`, `operandsOf`, `read_mixedWords` : what is read of them, comments and operands each in their order;
* `pairOf`, `readDefinitions_of_wellFormed` : the name and the value of an operand, split at the first equals sign;
* `exists_first_malformed` : the operand that a refused command line is refused for;
* `run_render_mixed` : what `render` prints depends on the comments and on the last value of each name, and it prints
  nothing but an error about the first operand that gives no definition, if there is one.
-/

namespace ImageMacros.Command

open Text (unlines plain quoted)

/-! ## Written definitions -/

theorem run_renderWords (x : Session) (comments : List String) {ds : List (String × String)} (hne : ds ≠ [])
    (hnames : ∀ d ∈ ds, d.1 ≠ "" ∧ '=' ∉ d.1.toList) :
    run x (Subcommand.render.word :: renderWords comments ds) = runRender x ⟨comments, .ofList ds⟩ := by
  rw [run_word, runSubcommand]
  dsimp only
  rw [RenderArguments.read_renderWords comments hne hnames]
  rfl

/-- `render` prints the macro file that is staged for the same definitions, without control sequences, and leaves
its session as it is. -/
theorem run_render_eq_staged (x : Session) (comments : List String) (ds : List (String × String)) (hne : ds ≠ [])
    (hnames : ∀ d ∈ ds, d.1 ≠ "" ∧ '=' ∉ d.1.toList) :
    let definitions : MacroFile.Definitions := .ofList ds
    let r := run x ("render" :: renderWords comments ds)
    let ls := MacroFile.render definitions comments
    (∀ name, definitions.get? name = ((ds.filter fun d => d.1 = name).getLast?).map (·.2)) ∧
      r.ending = .exit 0 ∧ r.session = x ∧ r.stdout = unlines (ls.map plain) ∧
      ((∀ d ∈ ds, '\x1b' ∉ d.1.toList ∧ '\x1b' ∉ d.2.toList) → (∀ c ∈ comments, '\x1b' ∉ c.toList) →
        r.stdout = unlines ls) ∧
      ∀ (s : Storage) (root name : String) (place : Option Path),
        (MacroFile.stage s root name definitions comments).result = .ok place →
        ∃ p, place = some p ∧
          (MacroFile.stage s root name definitions comments).storage.readFile p.text =
            .ok (Text.Utf8.encode (unlines ls)) := by
  intro definitions r ls
  have hrun : r = runRender x ⟨comments, definitions⟩ := run_renderWords x comments hne hnames
  have hstdout : r.stdout = unlines (ls.map plain) := by
    rw [hrun]
    exact outText_echo ls
  have hempty : definitions.isEmpty = false := Dictionary.isEmpty_ofList hne
  refine ⟨Dictionary.get?_ofList_eq_getLast? ds, by rw [hrun]; rfl, by rw [hrun]; rfl, hstdout,
    fun hds hcomments => ?_, fun s root name place hplace => ?_⟩
  · have hplain : ∀ l ∈ ls, plain l = l := fun l hl => Text.plain_of_not_mem
      (MacroFile.escape_not_mem_render (fun e he => hds e (Dictionary.mem_of_mem_ofList he)) hcomments l hl)
    rw [hstdout, List.map_congr_left hplain, List.map_id']
  · obtain ⟨hp, hwrite, hstorage⟩ := MacroFile.stage_eq_ok hempty hplace
    rw [hstorage]
    exact ⟨_, hp, (Storage.readFile_writeLines hwrite).2⟩

/-- Line breaks, equals signs in values, and a name that is defined twice. -/
theorem run_render_multiline :
    let ds := [("a", "first"), ("b", ""), ("a", "x=1\n2")]
    let comments := ["two\x0blines", ""]
    let r := run ⟨.bare ["w"], .empty, true, none⟩ ("render" :: renderWords comments ds)
    let staged := MacroFile.stage (.bare ["w"]) "image" "macros" (.ofList ds) comments
    ds ≠ [] ∧ (∀ d ∈ ds, d.1 ≠ "" ∧ '=' ∉ d.1.toList) ∧
      staged.result = .ok (some (Path.under "image" "macros")) ∧
      ∃ p, some (Path.under "image" "macros") = some p ∧ r.ending = .exit 0 ∧
        staged.storage.readFile p.text = .ok (Text.Utf8.encode r.stdout) := by
  intro ds comments r staged
  have hne : ds ≠ [] := by decide
  have hnames : ∀ d ∈ ds, d.1 ≠ "" ∧ '=' ∉ d.1.toList := by decide
  have hresult : staged.result = .ok (some (Path.under "image" "macros")) := by decide
  obtain ⟨-, hending, -, -, hstdout, hfile⟩ :=
    run_render_eq_staged ⟨.bare ["w"], .empty, true, none⟩ comments ds hne hnames
  obtain ⟨p, hp, hread⟩ := hfile (.bare ["w"]) "image" "macros" _ hresult
  refine ⟨hne, hnames, hresult, p, hp, hending, ?_⟩
  rw [hread, ← hstdout (by decide) (by decide)]

/-! ## Comments and operands in any order -/

/-- A comment, in a word of its own or joined to the option, or an operand. -/
inductive RenderGiven
  | comment (text : String) (joined : Bool)
  | operand (word : String)
deriving DecidableEq, Repr

namespace RenderGiven

def words : RenderGiven → List String
  | .comment text joined => valueWords "--comment" text joined
  | .operand word => [word]

def comment? : RenderGiven → Option String
  | .comment text _ => some text
  | .operand _ => none

def operand? : RenderGiven → Option String
  | .comment .. => none
  | .operand word => some word

end RenderGiven

def mixedWords (given : List RenderGiven) : List String := given.flatMap (·.words)

def commentsOf (given : List RenderGiven) : List String := given.filterMap (·.comment?)

def operandsOf (given : List RenderGiven) : List String := given.filterMap (·.operand?)

theorem readWord_operand {κ : Type} (spellings : List (Spelling κ)) {word : String}
    (h : word.toList.head? ≠ some '-') : readWord spellings word = .operand := by
  unfold readWord
  split
  · next hword => exact absurd (by rw [hword]; rfl) h
  · next hword => exact absurd (by rw [hword]; rfl) h
  · rfl

/-- Comments and operands are read in their order, however they are mixed. -/
theorem read_mixedWords {given : List RenderGiven} (h : ∀ o ∈ operandsOf given, o.toList.head? ≠ some '-') :
    Words.read renderSpellings true (mixedWords given) =
      .ok ⟨(commentsOf given).map fun c => (.comment, c), operandsOf given⟩ := by
  induction given with
  | nil => rfl
  | cons g given ih =>
    cases g with
    | comment text joined =>
      have hwords : mixedWords (.comment text joined :: given) =
          valueWords "--comment" text joined ++ mixedWords given := rfl
      rw [hwords, read_valueWords (by decide) (by decide) rfl rfl, ih h]
      rfl
    | operand word =>
      obtain ⟨hword, hrest⟩ := List.forall_mem_cons.1 h
      change Words.read renderSpellings true (word :: mixedWords given) = _
      rw [Words.read, readWord_operand renderSpellings hword]
      dsimp only
      rw [if_pos rfl, ih hrest]
      rfl

/-! ## Definitions of operands -/

/-- The text in front of the first equals sign of an operand, and all the text behind it. -/
def pairOf (operand : String) : String × String :=
  (.ofList (operand.toList.takeWhile (· ≠ '=')), .ofList ((operand.toList.dropWhile (· ≠ '=')).drop 1))

theorem definition?_of_not_malformed {operand : String} (h : ¬ Malformed operand) :
    definition? operand = some (pairOf operand) := by
  rw [← definition?_eq_none_iff] at h
  unfold definition? splitEquals at h ⊢
  unfold pairOf
  cases hfront : operand.toList.takeWhile (· ≠ '=') with
  | nil =>
    rw [hfront] at h
    exact absurd rfl h
  | cons c cs =>
    cases hback : operand.toList.dropWhile (· ≠ '=') with
    | nil =>
      rw [hfront, hback] at h
      exact absurd rfl h
    | cons d ds => rfl

theorem readDefinitions_of_wellFormed {operands : List String} (h : ∀ o ∈ operands, ¬ Malformed o) :
    readDefinitions operands = .ok (operands.map pairOf) := by
  induction operands with
  | nil => rfl
  | cons o operands ih =>
    obtain ⟨ho, hrest⟩ := List.forall_mem_cons.1 h
    rw [readDefinitions, definition?_of_not_malformed ho, ih hrest]
    rfl

theorem exists_first_malformed {operands : List String} (h : ¬ ∀ o ∈ operands, ¬ Malformed o) :
    ∃ front o rest, operands = front ++ o :: rest ∧ (∀ f ∈ front, ¬ Malformed f) ∧ Malformed o := by
  induction operands with
  | nil => exact absurd (fun _ hmem => nomatch hmem) h
  | cons first operands ih =>
    by_cases hfirst : Malformed first
    · exact ⟨[], first, operands, rfl, by simp, hfirst⟩
    · obtain ⟨front, o, rest, hsplit, hfront, ho⟩ := ih fun hrest => h (List.forall_mem_cons.2 ⟨hfirst, hrest⟩)
      exact ⟨first :: front, o, rest, by rw [hsplit, List.cons_append], List.forall_mem_cons.2 ⟨hfirst, hfront⟩, ho⟩

/-! ## Runs -/

/-- The operand is named between quotes. -/
theorem usageReport_noDefinition (operand : String) : usageReport (.command .render) (.noDefinition operand) =
    "Usage: installer-customizations render [OPTIONS] NAME=VALUE...\n" ++
      "Try 'installer-customizations render --help' for help.\n\n" ++
      "Error: Invalid value: expected NAME=VALUE, got " ++ quoted operand ++ "\n" := by
  have husage : (Scope.command .render).usageLine =
      "Usage: installer-customizations render [OPTIONS] NAME=VALUE...\n" := by decide +kernel
  have htry : s!"Try '{(Scope.command .render).words} --help' for help.\n\n" =
      "Try 'installer-customizations render --help' for help.\n\n" := by decide +kernel
  have hmessage : s!"Error: {(UsageError.noDefinition operand).message}\n" =
      "Error: " ++ ("Invalid value: " ++ ("expected NAME=VALUE, got " ++ quoted operand)) ++ "\n" := rfl
  have hlead : "Error: " ++ "Invalid value: " ++ "expected NAME=VALUE, got " =
      "Error: Invalid value: expected NAME=VALUE, got " := by decide +kernel
  simp only [← String.append_assoc, hlead] at hmessage
  -- the operand may hold control sequences, but not between quotes
  have hplain : '\x1b' ∉ ("Error: Invalid value: expected NAME=VALUE, got " ++ quoted operand ++ "\n").toList := by
    simp [Text.escape_not_mem_quoted operand]
  have hshows : (UsageError.noDefinition operand).showsUsage = true := rfl
  rw [usageReport, if_pos hshows, husage, htry, hmessage, Text.plain_of_not_mem hplain]
  simp only [String.append_assoc]

theorem stderr_runRender (x : Session) (a : RenderArguments) (time : String) : (runRender x a).stderr time = "" := by
  unfold runRender Run.stderr
  dsimp only
  induction MacroFile.render a.definitions a.comments with
  | nil => rfl
  | cons l ls ih => simpa [Run.errText, echo] using ih

theorem operands_ne_nil_of_sameMapping {operands others : List String} (hne : operands ≠ [])
    (h : SameMapping (operands.map pairOf) (others.map pairOf)) : others ≠ [] := by
  rintro rfl
  have hpairs : operands.map pairOf ≠ [] := by simpa using hne
  have hempty := Dictionary.isEmpty_ofList hpairs
  rw [ofList_eq_iff.2 h] at hempty
  cases hempty

section

variable {given : List RenderGiven} (x : Session) (hne : operandsOf given ≠ [])
  (hoperands : ∀ o ∈ operandsOf given, o.toList.head? ≠ some '-')

include hne hoperands

theorem runSubcommand_mixedWords : runSubcommand x .render (mixedWords given) =
    match readDefinitions (operandsOf given) with
      | .error operand => Stop.run x (.usage (.command .render) (.noDefinition operand))
      | .ok ds => runRender x ⟨commentsOf given, .ofList ds⟩ := by
  unfold runSubcommand
  dsimp only
  rw [RenderArguments.read_of_words (read_mixedWords hoperands) hne]
  cases readDefinitions (operandsOf given) <;> rfl

theorem run_mixedWords_of_wellFormed (h : ∀ o ∈ operandsOf given, ¬ Malformed o) :
    run x (Subcommand.render.word :: mixedWords given) =
      runRender x ⟨commentsOf given, .ofList ((operandsOf given).map pairOf)⟩ := by
  rw [run_word, runSubcommand_mixedWords x hne hoperands, readDefinitions_of_wellFormed h]
  rfl

/-- Operands that come to the same mapping print the same, whatever the session. -/
theorem run_mixedWords_of_sameMapping (y : Session) {others : List RenderGiven}
    (h : ∀ o ∈ operandsOf given, ¬ Malformed o) (hcomments : commentsOf others = commentsOf given)
    (hothers : ∀ o ∈ operandsOf others, o.toList.head? ≠ some '-') (h' : ∀ o ∈ operandsOf others, ¬ Malformed o)
    (hsame : SameMapping ((operandsOf given).map pairOf) ((operandsOf others).map pairOf)) :
    (run y (Subcommand.render.word :: mixedWords others)).ending = .exit 0 ∧
      (run y (Subcommand.render.word :: mixedWords others)).stdout =
        (run x (Subcommand.render.word :: mixedWords given)).stdout := by
  have hne' := operands_ne_nil_of_sameMapping hne hsame
  rw [run_mixedWords_of_wellFormed y hne' hothers h', run_mixedWords_of_wellFormed x hne hoperands h, hcomments,
    ofList_eq_iff.2 hsame]
  exact ⟨rfl, rfl⟩

theorem run_mixedWords_of_malformed {front rest : List String} {o : String}
    (hsplit : operandsOf given = front ++ o :: rest) (hfront : ∀ f ∈ front, ¬ Malformed f) (ho : Malformed o) :
    run x (Subcommand.render.word :: mixedWords given) =
      Stop.run x (.usage (.command .render) (.noDefinition o)) := by
  rw [run_word, runSubcommand_mixedWords x hne hoperands,
    readDefinitions_eq_error_iff.2 ⟨front, rest, hsplit, hfront, ho⟩]
  rfl

theorem same_run_mixedWords {args : List String} {g : Global}
    (h : reached? x.storage args = some ⟨g, .render, mixedWords given⟩) :
    (run x (Subcommand.render.word :: mixedWords given)).Same (run x args) := by
  refine (same_run_word x .render _).symm.trans (.trans ?_ (same_run_of_reached h))
  dsimp only
  rw [runSubcommand_mixedWords x hne hoperands, runSubcommand_mixedWords _ hne hoperands]
  split
  · exact same_stop (storage_loadConfig g x) _
  · exact ⟨storage_loadConfig g x, rfl, rfl⟩

end

/-- However comments and operands are mixed, `render` prints the macro file of the comments in order and the mapping
that the operands come to, or names the first operand without a definition. -/
theorem run_render_mixed (x : Session) (given : List RenderGiven) (hne : operandsOf given ≠ [])
    (hoperands : ∀ o ∈ operandsOf given, o.toList.head? ≠ some '-') :
    let line (given : List RenderGiven) := "render" :: mixedWords given
    let r := run x (line given)
    let pairs := (operandsOf given).map pairOf
    r.session = x ∧
    ((∀ o ∈ operandsOf given, ¬ Malformed o) →
      r.ending = .exit 0 ∧ (∀ time, r.stderr time = "") ∧
      r.stdout = unlines ((MacroFile.render (.ofList pairs) (commentsOf given)).map plain) ∧
      ∀ (y : Session) (others : List RenderGiven), commentsOf others = commentsOf given →
        ((∀ o ∈ operandsOf others, o.toList.head? ≠ some '-') → (∀ o ∈ operandsOf others, ¬ Malformed o) →
          SameMapping pairs ((operandsOf others).map pairOf) →
          (run y (line others)).ending = .exit 0 ∧ (run y (line others)).stdout = r.stdout) ∧
        ((operandsOf others).Perm (operandsOf given) → (pairs.map (·.1)).Nodup →
          (run y (line others)).ending = .exit 0 ∧ (run y (line others)).stdout = r.stdout)) ∧
    (¬ (∀ o ∈ operandsOf given, ¬ Malformed o) →
      ∃ front o rest, operandsOf given = front ++ o :: rest ∧ (∀ f ∈ front, ¬ Malformed f) ∧ Malformed o ∧
        r.ending = .exit 2 ∧ r.stdout = "" ∧ (∀ other, quoted other = quoted o → other = o) ∧
        ∀ time, r.stderr time = "Usage: installer-customizations render [OPTIONS] NAME=VALUE...\n" ++
          "Try 'installer-customizations render --help' for help.\n\n" ++
          "Error: Invalid value: expected NAME=VALUE, got " ++ quoted o ++ "\n") ∧
    ∀ args g, reached? x.storage args = some ⟨g, .render, mixedWords given⟩ →
      (run x args).ending = r.ending ∧ (run x args).stdout = r.stdout := by
  intro line r pairs
  refine ⟨?_, fun hfine => ?_, fun hmalformed => ?_, fun args g hreached => ?_⟩
  · change (run x (Subcommand.render.word :: mixedWords given)).session = x
    rw [run_word, runSubcommand_mixedWords x hne hoperands]
    split <;> rfl
  · have hrun : r = runRender x ⟨commentsOf given, .ofList pairs⟩ :=
      run_mixedWords_of_wellFormed x hne hoperands hfine
    refine ⟨by rw [hrun]; rfl, fun time => hrun ▸ stderr_runRender x _ time, by rw [hrun]; exact outText_echo _,
      fun y others hcomments => ⟨run_mixedWords_of_sameMapping x hne hoperands y hfine hcomments,
        fun hperm hnodup => ?_⟩⟩
    have hothers : ∀ o ∈ operandsOf others, o.toList.head? ≠ some '-' := fun o ho => hoperands o (hperm.subset ho)
    have hothersFine : ∀ o ∈ operandsOf others, ¬ Malformed o := fun o ho => hfine o (hperm.subset ho)
    exact run_mixedWords_of_sameMapping x hne hoperands y hfine hcomments hothers hothersFine
      (.of_perm hnodup (hperm.map pairOf))
  · obtain ⟨front, o, rest, hsplit, hfront, ho⟩ := exists_first_malformed hmalformed
    have hrun : r = Stop.run x (.usage (.command .render) (.noDefinition o)) :=
      run_mixedWords_of_malformed x hne hoperands hsplit hfront ho
    refine ⟨front, o, rest, hsplit, hfront, ho, by rw [hrun]; rfl, by rw [hrun]; rfl, fun _ => Text.quoted_inj.1,
      fun time => ?_⟩
    rw [hrun, ← usageReport_noDefinition]
    simp [Stop.run, Run.stderr, Run.errText, String.join]
  · have hsame := same_run_mixedWords x hne hoperands hreached
    exact ⟨hsame.ending, hsame.stdout⟩

/-- The second value of a name counts, and the first malformed operand is named. -/
theorem run_render_mixed_twice :
    let x := Session.fresh ["w"]
    let given := [RenderGiven.operand "b=2", .comment "note" false, .operand "a=1", .operand "b=x=y"]
    let others := [RenderGiven.operand "b=x=y", .operand "a=1", .comment "note" true]
    let swapped := [RenderGiven.comment "note" false, .operand "a=1", .operand "b=x=y"]
    let refused := [RenderGiven.operand "a=1", .comment "note" false, .operand "novalue", .operand "=x"]
    operandsOf given ≠ [] ∧ (∀ o ∈ operandsOf given, o.toList.head? ≠ some '-') ∧
      (∀ o ∈ operandsOf given, ¬ Malformed o) ∧ commentsOf others = commentsOf given ∧
      SameMapping ((operandsOf given).map pairOf) ((operandsOf others).map pairOf) ∧
      (run x ("render" :: mixedWords given)).ending = .exit 0 ∧
      (run x ("render" :: mixedWords others)).stdout = (run x ("render" :: mixedWords given)).stdout ∧
      (run x ("-v" :: "render" :: mixedWords given)).stdout = (run x ("render" :: mixedWords given)).stdout ∧
      (operandsOf swapped).Perm (operandsOf others) ∧ (((operandsOf others).map pairOf).map (·.1)).Nodup ∧
      (run x ("render" :: mixedWords swapped)).stdout = (run x ("render" :: mixedWords others)).stdout ∧
      (run x ("render" :: mixedWords refused)).ending = .exit 2 ∧
      (run x ("render" :: mixedWords refused)).stdout = "" ∧
      ∃ usage, (run x ("render" :: mixedWords refused)).stderr "T" =
        usage ++ "Error: Invalid value: expected NAME=VALUE, got " ++ quoted "novalue" ++ "\n" := by
  intro x given others swapped refused
  have hne : operandsOf given ≠ [] := by decide
  have hhyphens : ∀ o ∈ operandsOf given, o.toList.head? ≠ some '-' := by decide
  have hfine : ∀ o ∈ operandsOf given, ¬ Malformed o := by decide
  have hsame : SameMapping ((operandsOf given).map pairOf) ((operandsOf others).map pairOf) :=
    ofList_eq_iff.1 (by decide +kernel)
  have hperm : (operandsOf swapped).Perm (operandsOf others) := by decide
  have hnodup : (((operandsOf others).map pairOf).map (·.1)).Nodup := by decide +kernel
  obtain ⟨-, hgiven, -, hfront⟩ := run_render_mixed x given hne hhyphens
  obtain ⟨hending, -, -, hlike⟩ := hgiven hfine
  obtain ⟨-, hothers, -, -⟩ := run_render_mixed x others (by decide) (by decide)
  obtain ⟨-, -, -, hreordered⟩ := hothers (by decide)
  obtain ⟨-, -, hrefused, -⟩ := run_render_mixed x refused (by decide) (by decide)
  obtain ⟨front, o, rest, hsplit, hfine', ho, hexit, hstdout, -, hstderr⟩ := hrefused (by decide)
  have hread : readDefinitions (operandsOf refused) = .error "novalue" := by decide +kernel
  have hfirst := readDefinitions_eq_error_iff.2 ⟨front, rest, hsplit, hfine', ho⟩
  obtain rfl : "novalue" = o := Except.error.inj (hread.symm.trans hfirst)
  have hreached : reached? x.storage ("-v" :: "render" :: mixedWords given) =
      some ⟨⟨true, false, none, "render" :: mixedWords given⟩, .render, mixedWords given⟩ :=
    reached?_eq_some_iff.2 ⟨by decide +kernel, "render", rfl, by decide⟩
  exact ⟨hne, hhyphens, hfine, rfl, hsame, hending,
    ((hlike x others rfl).1 (by decide) (by decide) hsame).2, (hfront _ _ hreached).2, hperm, hnodup,
    ((hreordered x swapped rfl).2 hperm hnodup).2, hexit, hstdout, _, hstderr "T"⟩

end ImageMacros.Command
