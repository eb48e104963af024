import ImageMacros.Proofs.Dictionary
import ImageMacros.Proofs.MacroFile.RoundTrip
import Mathlib.Data.List.Forall2

/-!
# The order of the definitions in a macro file

* `Text.codePoints` : a text as the numbers of its characters, by which texts are ordered (`Text.lt_iff_codePoints`);
* `lastValue?`, `SameMapping` : what pairs of names and values come to when later ones replace earlier ones, in whatever
  order they are given (`SameMapping.of_perm`; `ofList_eq_iff`: then they make one dictionary, and only then);
* `mem_keys_ofList`, `ascending_keys` : each name is there once, in its place;
* `render_canonical` : pairs that come to the same give the same macro file, a line for each name in their order.
-/

namespace ImageMacros

/-! ## The order of texts -/

def Text.codePoints (s : String) : List Nat := s.toList.map Char.toNat

theorem Text.lt_iff_codePoints {s t : String} : s < t ↔ codePoints s < codePoints t := by
  have hlist : ∀ as bs : List Char, as < bs ↔ as.map Char.toNat < bs.map Char.toNat := by
    intro as
    induction as with
    | nil => intro bs; cases bs <;> simp
    | cons a as ih =>
      rintro (_ | ⟨b, bs⟩)
      · simp
      · have heq : a = b ↔ a.toNat = b.toNat := ⟨congrArg _, fun h => Char.ext (UInt32.toNat_inj.1 h)⟩
        have hlt : a < b ↔ a.toNat < b.toNat := Iff.rfl
        simp only [List.map_cons, List.cons_lt_cons_iff, ih bs, heq, hlt]
  exact hlist s.toList t.toList

/-! ## Pairs of names and values -/

/-- The value of the last pair with the name. -/
def lastValue? (pairs : List (String × String)) (name : String) : Option String :=
  ((pairs.filter fun e => e.1 = name).getLast?).map (·.2)

/-- Pairs that give every name the same value, or both none. -/
def SameMapping (pairs others : List (String × String)) : Prop :=
  ∀ name, lastValue? pairs name = lastValue? others name

theorem get?_ofList_eq_lastValue? (pairs : List (String × String)) (name : String) :
    (Dictionary.ofList pairs).get? name = lastValue? pairs name :=
  Dictionary.get?_ofList_eq_getLast? pairs name

theorem ofList_eq_iff {pairs others : List (String × String)} :
    Dictionary.ofList pairs = Dictionary.ofList others ↔ SameMapping pairs others := by
  constructor
  · intro h name
    rw [← get?_ofList_eq_lastValue?, h, get?_ofList_eq_lastValue?]
  · intro h
    refine Dictionary.ext_get? fun name => ?_
    rw [get?_ofList_eq_lastValue?, get?_ofList_eq_lastValue?, h name]

/-- Pairs with different names may come in any order. -/
theorem SameMapping.of_perm {pairs others : List (String × String)} (h : (pairs.map (·.1)).Nodup)
    (hperm : others.Perm pairs) : SameMapping pairs others :=
  ofList_eq_iff.1 (Dictionary.ofList_perm h hperm).symm

theorem lastValue?_ne_none_iff {pairs : List (String × String)} {name : String} :
    lastValue? pairs name ≠ none ↔ name ∈ pairs.map (·.1) := by
  simp [lastValue?]

namespace Dictionary

variable {ν : Type}

theorem ascending_keys (d : Dictionary String ν) :
    d.keys.Pairwise fun a b => Text.codePoints a < Text.codePoints b :=
  List.pairwise_map.2 (d.ascending.imp Text.lt_iff_codePoints.1)

end Dictionary

theorem mem_keys_ofList {pairs : List (String × String)} {name : String} :
    name ∈ (Dictionary.ofList pairs).keys ↔ name ∈ pairs.map (·.1) := by
  rw [Dictionary.mem_keys_iff, get?_ofList_eq_lastValue?, lastValue?_ne_none_iff]

/-! ## Macro files -/

namespace MacroFile

theorem readFile_stage {s : Storage} {root name : String} {definitions : Definitions} {comments : List String}
    {p : Path} (h : (stage s root name definitions comments).result = .ok (some p)) :
    (stage s root name definitions comments).storage.readFile p.text =
      .ok (Text.Utf8.encode (Text.unlines (render definitions comments))) := by
  have hne : definitions.isEmpty = false := by
    refine Bool.eq_false_iff.2 fun hempty => ?_
    simp [stage, hempty] at h
  obtain ⟨hplace, hwrite, hstorage⟩ := stage_eq_ok hne h
  rw [hstorage, Option.some.inj hplace]
  exact (Storage.readFile_writeLines hwrite).2

theorem forall₂_entries (pairs : List (String × String)) :
    List.Forall₂ (fun name line => ∃ value, lastValue? pairs name = some value ∧ line = definition name value)
      (Dictionary.ofList pairs).keys ((Dictionary.ofList pairs).entries.map fun e => definition e.1 e.2) := by
  rw [Dictionary.keys, List.forall₂_map_left_iff, List.forall₂_map_right_iff, List.forall₂_same]
  intro e he
  exact ⟨e.2, by rw [← get?_ofList_eq_lastValue?, ← Dictionary.mem_entries_iff]; exact he, rfl⟩

/-- Pairs that come to the same mapping give the same bytes: a line for each name with its last value, in ascending
order of the names. -/
theorem render_canonical (pairs : List (String × String)) (comments : List String) :
    (∀ others, SameMapping pairs others →
      render (.ofList pairs) comments = render (.ofList others) comments ∧
      (∀ s root name, stage s root name (.ofList pairs) comments = stage s root name (.ofList others) comments) ∧
      ∀ s root name p t root' name' q, (stage s root name (.ofList pairs) comments).result = .ok (some p) →
        (stage t root' name' (.ofList others) comments).result = .ok (some q) →
        ∃ bytes, (stage s root name (.ofList pairs) comments).storage.readFile p.text = .ok bytes ∧
          (stage t root' name' (.ofList others) comments).storage.readFile q.text = .ok bytes) ∧
    ∃ names lines, render (.ofList pairs) comments =
        (if pairs = [] then [] else header ++ commentLines comments) ++ lines ∧
      List.Forall₂ (fun name line => ∃ value, lastValue? pairs name = some value ∧ line = definition name value)
        names lines ∧
      names.Pairwise (fun a b => Text.codePoints a < Text.codePoints b) ∧
      ∀ name, name ∈ names ↔ name ∈ pairs.map (·.1) := by
  refine ⟨fun others h => ?_, ?_⟩
  · have hsame : Dictionary.ofList pairs = Dictionary.ofList others := ofList_eq_iff.2 h
    refine ⟨by rw [hsame], fun s root name => by rw [hsame], fun s root name p t root' name' q hp hq => ?_⟩
    exact ⟨_, readFile_stage hp, by rw [readFile_stage hq, hsame]⟩
  · refine ⟨(Dictionary.ofList pairs).keys, (Dictionary.ofList pairs).entries.map fun e => definition e.1 e.2, ?_,
      forall₂_entries pairs, Dictionary.ascending_keys _, fun name => mem_keys_ofList⟩
    by_cases hpairs : pairs = []
    · subst hpairs
      rfl
    · rw [render, if_neg (by simp [Dictionary.isEmpty_ofList hpairs]), if_neg hpairs]

/-- A name comes in front of its continuations, even where its line would come behind theirs. -/
theorem render_canonical_tab :
    let pairs := [("a\t", "0"), ("𝄞", "="), ("\uffff", "%"), ("a\t", "2"), ("a", "1")]
    let others := [("a", "1"), ("a\t", "2"), ("\uffff", "%"), ("𝄞", "=")]
    let staged := stage (.bare ["w"]) "image" "/m" (.ofList pairs) []
    let other := stage (.bare []) "/" "x/m" (.ofList others) []
    SameMapping pairs others ∧ staged.result = .ok (some (Path.under "image" "/m")) ∧
      other.result = .ok (some (Path.under "/" "x/m")) ∧
      render (.ofList pairs) [] = header ++ ["%a 1", "%a\t 2", "%\uffff %", "%𝄞 ="] ∧ "%a\t 2" < "%a 1" ∧
      render (.ofList pairs) [] = render (.ofList others) [] ∧
      ∃ bytes, staged.storage.readFile (Path.under "image" "/m").text = .ok bytes ∧
        other.storage.readFile (Path.under "/" "x/m").text = .ok bytes := by
  intro pairs others staged other
  have hsame : SameMapping pairs others := ofList_eq_iff.1 (by decide +kernel)
  have hstaged : staged.result = .ok (some (Path.under "image" "/m")) := by decide +kernel
  have hother : other.result = .ok (some (Path.under "/" "x/m")) := by decide +kernel
  obtain ⟨hlines, -, hbytes⟩ := (render_canonical pairs []).1 others hsame
  exact ⟨hsame, hstaged, hother, by decide +kernel, by decide, hlines, hbytes _ _ _ _ _ _ _ _ hstaged hother⟩

end MacroFile
end ImageMacros
