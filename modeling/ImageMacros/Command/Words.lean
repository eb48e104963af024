import ImageMacros.Text.Likeness

/-!
# The words of a command line

* `Spelling` : how an option is written, and whether a value follows it;
* `Problem` : what makes words unreadable;
* `Spelling.read` : what one word says;
* `Words.read` : the options that words give, in order, and the operands.
-/

namespace ImageMacros.Command

/-- The words with two hyphens and the letters that spell an option, and whether a value follows it. -/
structure Spelling (κ : Type) where
  option : κ
  long : List String
  short : List Char := []
  valued : Bool := false

/-- An unknown word comes with the words that may have been meant. -/
inductive Problem
  | unknown (name : String) (close : List String)
  | valueMissing (name : String)
  | valueUnwanted (name : String)
deriving DecidableEq, Repr

/-- What one word says; in `wanting` the last option needs the next word as its value. -/
inductive Reading (κ : Type)
  | operand
  | endOfOptions
  | given (found : List (κ × String))
  | wanting (found : List (κ × String)) (option : κ) (name : String)
  | problem (p : Problem)

namespace Reading

def after {κ : Type} (option : κ) : Reading κ → Reading κ
  | .given found => .given ((option, "") :: found)
  | .wanting found last name => .wanting ((option, "") :: found) last name
  | other => other

end Reading

/-! ## One word -/

/-- Letters behind one hyphen, each an option until one takes a value. -/
def readLetters {κ : Type} (spellings : List (Spelling κ)) : List Char → Reading κ
  | [] => .given []
  | c :: cs =>
    let name := String.ofList ['-', c]
    match spellings.find? fun s => c ∈ s.short with
    | none => .problem (.unknown name [])
    | some s =>
      if s.valued then
        if cs = [] then .wanting [] s.option name
        else .given [(s.option, String.ofList cs)]
      else (readLetters spellings cs).after s.option

def readLong {κ : Type} (s : Spelling κ) (name : String) (value : Option String) : Reading κ :=
  match s.valued, value with
  | true, some value => .given [(s.option, value)]
  | true, none => .wanting [] s.option name
  | false, some _ => .problem (.valueUnwanted name)
  | false, none => .given [(s.option, "")]

/-- The parts around the first equals sign. -/
def splitEquals (cs : List Char) : List Char × Option (List Char) :=
  (cs.takeWhile (· ≠ '='), (cs.dropWhile (· ≠ '=')).tail?)

def readWord {κ : Type} (spellings : List (Spelling κ)) (word : String) : Reading κ :=
  match word.toList with
  | ['-', '-'] => .endOfOptions
  | '-' :: c :: cs =>
    let (before, behind) := splitEquals word.toList
    let name := String.ofList before
    match spellings.find? fun s => name ∈ s.long with
    | some s => readLong s name (behind.map String.ofList)
    | none =>
      if c = '-' then
        .problem (.unknown name (Text.closest name (spellings.flatMap (·.long))))
      else readLetters spellings (c :: cs)
  | _ => .operand

/-! ## All words -/

/-- The options that words give, in order with their values, and the operands. -/
structure Words (κ : Type) where
  options : List (κ × String)
  operands : List String

namespace Words

variable {κ : Type}

def addOptions (found : List (κ × String)) (w : Words κ) : Words κ :=
  { w with options := found ++ w.options }

def addOperand (word : String) (w : Words κ) : Words κ :=
  { w with operands := word :: w.operands }

/-- The words from the left. Unless options may follow operands, the first operand ends them. -/
def read (spellings : List (Spelling κ)) (mixed : Bool) : List String → Except Problem (Words κ)
  | [] => .ok ⟨[], []⟩
  | word :: rest =>
    match readWord spellings word with
    | .endOfOptions => .ok ⟨[], rest⟩
    | .operand =>
      if mixed then (read spellings mixed rest).map (addOperand word) else .ok ⟨[], word :: rest⟩
    | .given found => (read spellings mixed rest).map (addOptions found)
    | .wanting found option name =>
      match rest with
      | [] => .error (.valueMissing name)
      | value :: rest =>
        (read spellings mixed rest).map (addOptions (found ++ [(option, value)]))
    | .problem p => .error p

def values [DecidableEq κ] (w : Words κ) (option : κ) : List String :=
  (w.options.filter fun o => o.1 = option).map (·.2)

/-- The value given last. -/
def value? [DecidableEq κ] (w : Words κ) (option : κ) : Option String := (w.values option).getLast?

def has [DecidableEq κ] (w : Words κ) (option : κ) : Bool := w.options.any fun o => o.1 = option

end Words
end ImageMacros.Command
