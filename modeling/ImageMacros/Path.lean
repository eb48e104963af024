/-!
# Paths

* `segments` : the parts of a text between slashes;
* `Anchor` : where a path starts: nowhere, at the root, or at the root written with two slashes;
* `Path` : an anchor and proper names; `Path.ofString` reads one and `Path.text` writes it;
* `Path.parent`, `Path.ancestry` : the directory of a path, and all directories above it;
* `Path.within`, `Path.under` : a path put below a root, whatever its own anchor.
-/

namespace ImageMacros

/-! ## Segments -/

/-- The parts of a text between slashes, the empty ones included. -/
def segmentChars : List Char → List (List Char)
  | [] => [[]]
  | c :: cs =>
    if c = '/' then [] :: segmentChars cs
    else
      match segmentChars cs with
      | [] => [[c]]
      | part :: rest => (c :: part) :: rest

theorem slash_not_mem_segmentChars {cs part : List Char} (h : part ∈ segmentChars cs) :
    '/' ∉ part := by
  induction cs generalizing part with
  | nil => simp_all [segmentChars]
  | cons c cs ih =>
    simp only [segmentChars] at h
    split at h
    · rcases List.mem_cons.1 h with rfl | h
      · simp
      · exact ih h
    · next hc =>
      have hc : '/' ≠ c := fun e => hc e.symm
      split at h
      · simp_all
      · next first rest heq =>
        have hfirst := ih (heq ▸ List.mem_cons_self : first ∈ segmentChars cs)
        rcases List.mem_cons.1 h with rfl | h
        · simp [hc, hfirst]
        · exact ih (heq ▸ List.mem_cons_of_mem _ h)

def segments (s : String) : List String := (segmentChars s.toList).map String.ofList

/-! ## Paths -/

/-- Exactly two leading slashes are an anchor of their own. -/
inductive Anchor
  | relative
  | root
  | doubleRoot
deriving DecidableEq, Repr

def Anchor.ofChars : List Char → Anchor
  | '/' :: '/' :: '/' :: _ => .root
  | '/' :: '/' :: _ => .doubleRoot
  | '/' :: _ => .root
  | _ => .relative

def Anchor.text : Anchor → String
  | .relative => ""
  | .root => "/"
  | .doubleRoot => "//"

/-- The double dot is kept: where it leads depends on the directories that are there. -/
def ProperName (name : String) : Prop := name ≠ "" ∧ name ≠ "." ∧ '/' ∉ name.toList

instance (name : String) : Decidable (ProperName name) := by unfold ProperName; infer_instance

structure Path where
  anchor : Anchor
  names : List String
  proper : ∀ name ∈ names, ProperName name
deriving DecidableEq

namespace Path

theorem ext_iff' {p q : Path} : p = q ↔ p.anchor = q.anchor ∧ p.names = q.names := by
  cases p; cases q; simp

def ofString (s : String) : Path where
  anchor := .ofChars s.toList
  names := (segments s).filter fun name => ProperName name
  proper := fun _ h => of_decide_eq_true (List.mem_filter.1 h).2

/-- The path as a text; the path that goes nowhere is the dot. -/
def text (p : Path) : String :=
  if p.anchor = .relative ∧ p.names = [] then "."
  else p.anchor.text ++ "/".intercalate p.names

def parent (p : Path) : Path :=
  ⟨p.anchor, p.names.dropLast, fun n h => p.proper n (List.dropLast_subset _ h)⟩

def take (p : Path) (n : Nat) : Path :=
  ⟨p.anchor, p.names.take n, fun m h => p.proper m (List.mem_of_mem_take h)⟩

/-- The path itself, its parent, and so on up to its anchor. -/
def ancestry (p : Path) : List Path := (List.range (p.names.length + 1)).reverse.map p.take

/-- The names of `p` followed from the end of `root`; the anchor of `p` is dropped. -/
def within (root p : Path) : Path :=
  ⟨root.anchor, root.names ++ p.names, fun n h =>
    (List.mem_append.1 h).elim (root.proper n) (p.proper n)⟩

def under (root relative : String) : Path := (ofString root).within (ofString relative)

def hasNull (p : Path) : Bool := p.names.any fun name => '\x00' ∈ name.toList

end Path
end ImageMacros
