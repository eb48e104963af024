import ImageMacros.Proofs.Command.Reach
import Mathlib.Data.List.Basic

/-!
# Reading written command lines

* `splitEquals_eq_iff`, `definition?_eq_some_iff` : what stands on either side of the first equals sign;
* `readWord_joined` : a word that spells an option and its value;
* `readDefinitions_map` : the definitions that written operands give;
* `renderWords`, `RenderArguments.read_renderWords` : a command line of `render`, and what is read of it;
* `ApplyGiven`, `ApplyArguments.read_applyWords` : the options on a command line of `apply`, and what is
  read of them: the last of each.
-/

namespace ImageMacros.Command

/-! ## One word -/

/-- The first equals sign is the one that has none in front of it. -/
theorem splitEquals_eq_iff {cs before behind : List Char} :
    splitEquals cs = (before, some behind) ↔ '=' ∉ before ∧ cs = before ++ '=' :: behind := by
  unfold splitEquals
  induction cs generalizing before with
  | nil => simp
  | cons c cs ih =>
    by_cases hc : c = '='
    · subst hc
      rw [List.takeWhile_cons_of_neg (by simp), List.dropWhile_cons_of_neg (by simp)]
      cases before with
      | nil => simp
      | cons d before => simp only [Prod.mk.injEq]; grind
    · rw [List.takeWhile_cons_of_pos (by simpa using hc), List.dropWhile_cons_of_pos (by simpa using hc)]
      cases before with
      | nil => simp [hc]
      | cons d before =>
        have hpair := @ih before
        simp only [Prod.mk.injEq, List.cons.injEq, List.cons_append, List.mem_cons, not_or] at hpair ⊢
        grind

theorem readWord_joined {κ : Type} {spellings : List (Spelling κ)} {option : κ} {long : List String}
    {short : List Char} (name value : String) (hyphens : name.toList.take 2 = ['-', '-']) (hequals : '=' ∉ name.toList)
    (hfind : (spellings.find? fun s => name ∈ s.long) = some ⟨option, long, short, true⟩) :
    readWord spellings (name ++ "=" ++ value) = .given [(option, value)] := by
  have hname : name.toList = '-' :: '-' :: name.toList.drop 2 := by
    conv_lhs => rw [← List.take_append_drop 2 name.toList, hyphens]
    rfl
  have hword : (name ++ "=" ++ value).toList = name.toList ++ '=' :: value.toList := by simp
  obtain ⟨d, ds, hlong⟩ : ∃ d ds, (name ++ "=" ++ value).toList = '-' :: '-' :: d :: ds := by
    rw [hword, hname]
    cases name.toList.drop 2 with
    | nil => exact ⟨'=', value.toList, rfl⟩
    | cons d ds => exact ⟨d, ds ++ '=' :: value.toList, rfl⟩
  have hsplit : splitEquals ('-' :: '-' :: d :: ds) = (name.toList, some value.toList) := by
    rw [splitEquals_eq_iff, ← hlong, hword]
    exact ⟨hequals, rfl⟩
  simp only [readWord, hlong, hsplit, String.ofList_toList, hfind, readLong, Option.map_some]

/-- An option with its value, in a word of its own or joined to it. -/
def valueWords (name value : String) (joined : Bool) : List String :=
  if joined then [name ++ "=" ++ value] else [name, value]

/-- Whatever a value looks like, it is read as the value of the option in front of it. -/
theorem read_valueWords {κ : Type} {spellings : List (Spelling κ)} {option : κ} {long : List String}
    {short : List Char} {name : String} (hyphens : name.toList.take 2 = ['-', '-']) (hequals : '=' ∉ name.toList)
    (hfind : (spellings.find? fun s => name ∈ s.long) = some ⟨option, long, short, true⟩)
    (hname : readWord spellings name = .wanting [] option name) (value : String) (joined mixed : Bool)
    (rest : List String) :
    Words.read spellings mixed (valueWords name value joined ++ rest) =
      (Words.read spellings mixed rest).map (.addOptions [(option, value)]) := by
  cases joined with
  | false =>
    change Words.read spellings mixed (name :: value :: rest) = _
    rw [Words.read, hname]
    rfl
  | true =>
    change Words.read spellings mixed ((name ++ "=" ++ value) :: rest) = _
    rw [Words.read, readWord_joined name value hyphens hequals hfind]

/-! ## Definitions -/

def written (d : String × String) : String := d.1 ++ "=" ++ d.2

theorem definition?_eq_some_iff {operand : String} {d : String × String} :
    definition? operand = some d ↔ operand = written d ∧ d.1 ≠ "" ∧ '=' ∉ d.1.toList := by
  obtain ⟨name, value⟩ := d
  have hword : (written (name, value)).toList = name.toList ++ '=' :: value.toList := by simp [written]
  constructor
  · intro h
    unfold definition? at h
    split at h
    · cases h
    · cases h
    · next before behind hne hsplit =>
      obtain ⟨rfl, rfl⟩ := Prod.mk.inj (Option.some.inj h)
      obtain ⟨hequals, hoperand⟩ := splitEquals_eq_iff.1 hsplit
      rw [String.toList_ofList, String.toList_ofList] at hword
      refine ⟨String.toList_inj.1 (hoperand.trans hword.symm), ?_, by rwa [String.toList_ofList]⟩
      exact fun hempty => hne (by simpa using congrArg String.toList hempty)
  · rintro ⟨rfl, hname, hequals⟩
    have hne : name.toList ≠ [] := by rwa [ne_eq, String.toList_eq_nil_iff]
    obtain ⟨c, cs, hcs⟩ := List.exists_cons_of_ne_nil hne
    have hsplit : splitEquals (written (name, value)).toList = (c :: cs, some value.toList) :=
      splitEquals_eq_iff.2 ⟨hcs ▸ hequals, by rw [hword, hcs]⟩
    simp only [definition?, hsplit, ← hcs, String.ofList_toList]

theorem readDefinitions_map {ds : List (String × String)} (h : ∀ d ∈ ds, d.1 ≠ "" ∧ '=' ∉ d.1.toList) :
    readDefinitions (ds.map written) = .ok ds := by
  induction ds with
  | nil => rfl
  | cons d ds ih =>
    rw [List.map_cons, readDefinitions, definition?_eq_some_iff.2 ⟨rfl, h d List.mem_cons_self⟩]
    dsimp only
    rw [ih fun e he => h e (List.mem_cons_of_mem d he)]
    rfl

/-! ## Command lines of `render` -/

def renderWords (comments : List String) (ds : List (String × String)) : List String :=
  (comments.flatMap fun c => ["--comment", c]) ++ "--" :: ds.map written

theorem read_renderWords (comments : List String) (ds : List (String × String)) :
    Words.read renderSpellings true (renderWords comments ds) =
      .ok ⟨comments.map fun c => (.comment, c), ds.map written⟩ := by
  induction comments with
  | nil => rfl
  | cons c comments ih =>
    have hword : renderWords (c :: comments) ds = valueWords "--comment" c false ++ renderWords comments ds := rfl
    rw [hword, read_valueWords (by decide) (by decide) rfl rfl, ih]
    rfl

/-- The first operand that gives no definition is an error. -/
theorem RenderArguments.read_of_words {words comments operands : List String}
    (hread : Words.read renderSpellings true words = .ok ⟨comments.map fun c => (.comment, c), operands⟩)
    (hne : operands ≠ []) :
    RenderArguments.read words = match readDefinitions operands with
      | .error operand => .error (.usage (.command .render) (.noDefinition operand))
      | .ok ds => .ok ⟨comments, .ofList ds⟩ := by
  have hvalues : (Words.mk (comments.map fun c => (RenderOption.comment, c)) operands).values .comment = comments := by
    simp [Words.values, List.filter_map, Function.comp_def]
  have hhelp : (Words.mk (comments.map fun c => (RenderOption.comment, c)) operands).has .help = false := by
    simp [Words.has]
  simp only [RenderArguments.read, readWords, hread, bind, Except.bind, hhelp, hne, hvalues, if_false,
    Bool.false_eq_true]
  cases readDefinitions operands <;> rfl

/-- Comments stay in order, and of two definitions of a name the later one counts. -/
theorem RenderArguments.read_renderWords (comments : List String) {ds : List (String × String)} (hne : ds ≠ [])
    (h : ∀ d ∈ ds, d.1 ≠ "" ∧ '=' ∉ d.1.toList) :
    RenderArguments.read (renderWords comments ds) = .ok ⟨comments, .ofList ds⟩ := by
  have hoperands : ds.map written ≠ [] := by simpa using hne
  rw [RenderArguments.read_of_words (Command.read_renderWords comments ds) hoperands, readDefinitions_map h]

/-! ## Command lines of `apply` -/

/-- An option of `apply`, its value in a word of its own or joined to it. -/
inductive ApplyGiven
  | installRoot (place : String) (joined : Bool)
  | docs (exclude : Bool)
  | locales (text : String) (joined : Bool)
deriving DecidableEq, Repr

namespace ApplyGiven

def words : ApplyGiven → List String
  | .installRoot place joined => valueWords "--install-root" place joined
  | .docs true => ["--disable-rpm-docs"]
  | .docs false => ["--keep-rpm-docs"]
  | .locales text joined => valueWords "--override-rpm-locales" text joined

def option : ApplyGiven → ApplyOption × String
  | .installRoot place _ => (.installRoot, place)
  | .docs true => (.excludeDocs, "")
  | .docs false => (.keepDocs, "")
  | .locales text _ => (.locales, text)

def installRoot? : ApplyGiven → Option String
  | .installRoot place _ => some place
  | _ => none

def docs? : ApplyGiven → Option Bool
  | .docs exclude => some exclude
  | _ => none

def locales? : ApplyGiven → Option String
  | .locales text _ => some text
  | _ => none

theorem read_words (given : ApplyGiven) (rest : List String) :
    Words.read applySpellings true (given.words ++ rest) =
      (Words.read applySpellings true rest).map (.addOptions [given.option]) := by
  cases given with
  | installRoot place joined => exact read_valueWords (by decide) (by decide) rfl rfl place joined true rest
  | docs exclude => cases exclude <;> rfl
  | locales text joined => exact read_valueWords (by decide) (by decide) rfl rfl text joined true rest

end ApplyGiven

def applyWords (given : List ApplyGiven) : List String := given.flatMap (·.words)

theorem read_applyWords (given : List ApplyGiven) :
    Words.read applySpellings true (applyWords given) = .ok ⟨given.map (·.option), []⟩ := by
  induction given with
  | nil => rfl
  | cons g given ih =>
    rw [applyWords, List.flatMap_cons, ApplyGiven.read_words, ← applyWords, ih]
    rfl

def ApplyArguments.ofGiven (given : List ApplyGiven) : ApplyArguments where
  installRoot := (given.filterMap (·.installRoot?)).getLast?
  excludeDocs := (given.filterMap (·.docs?)).getLast?
  locales := (given.filterMap (·.locales?)).getLast?

/-- The install root may be missing, but it must not be a file. -/
def MayBeRoot (s : Storage) (place : String) : Prop :=
  '\x00' ∉ place.toList ∧ ∀ l content, s.locateText place ≠ .ok (l, .file content)

theorem checkRoot_of_mayBeRoot {s : Storage} {place : String} (h : MayBeRoot s place) (c : Subcommand) :
    checkRoot s c place = .ok () := by
  unfold checkRoot
  rw [if_neg h.1]
  split
  · next l content hfile => exact absurd hfile (h.2 l content)
  · rfl

theorem values_map_option {option : ApplyOption} {value? : ApplyGiven → Option String}
    (h : ∀ g : ApplyGiven, value? g = if g.option.1 = option then some g.option.2 else none)
    (given : List ApplyGiven) (operands : List String) :
    (Words.mk (given.map (·.option)) operands).values option = given.filterMap value? := by
  induction given with
  | nil => rfl
  | cons g given ih =>
    unfold Words.values at ih ⊢
    by_cases hg : g.option.1 = option <;> simp [hg, h, ih]

theorem value?_installRoot_map_option (given : List ApplyGiven) :
    (Words.mk (given.map (·.option)) []).value? .installRoot = (ApplyArguments.ofGiven given).installRoot :=
  congrArg List.getLast? (values_map_option (by rintro (_ | (_ | _) | _) <;> rfl) given [])

theorem has_help_map_option (given : List ApplyGiven) :
    (Words.mk (given.map (·.option)) []).has .help = false := by
  unfold Words.has
  rw [List.any_map, List.any_eq_false]
  rintro (_ | (_ | _) | _) - <;> simp [ApplyGiven.option]

theorem ApplyArguments.read_applyWords {s : Storage} {given : List ApplyGiven}
    (h : ∀ place ∈ (ofGiven given).installRoot, MayBeRoot s place) :
    ApplyArguments.read s (applyWords given) = .ok (ofGiven given) := by
  have hroot := value?_installRoot_map_option given
  have hlocales : (Words.mk (given.map (·.option)) []).value? .locales = (ofGiven given).locales :=
    congrArg List.getLast? (values_map_option (by rintro (_ | (_ | _) | _) <;> rfl) given [])
  have hdocs : docsChoice? ⟨given.map (·.option), []⟩ = (ofGiven given).excludeDocs := by
    unfold docsChoice? ofGiven
    rw [List.filterMap_map]
    congr 2
    funext g
    rcases g with _ | (_ | _) | _ <;> rfl
  have hhelp := has_help_map_option given
  have hcheck : ∀ place, (ofGiven given).installRoot = some place → checkRoot s .apply place = .ok () :=
    fun place hplace => checkRoot_of_mayBeRoot (h place hplace) .apply
  unfold ApplyArguments.read readWords
  rw [Command.read_applyWords]
  cases hplace : (ofGiven given).installRoot with
  | none =>
    simp only [bind, Except.bind, hhelp, hroot, hplace, hlocales, hdocs, checkNoOperands]
    rw [← hplace]
    rfl
  | some place =>
    simp only [bind, Except.bind, hhelp, hroot, hplace, hlocales, hdocs, checkNoOperands, hcheck place hplace]
    rw [← hplace]
    rfl

end ImageMacros.Command
