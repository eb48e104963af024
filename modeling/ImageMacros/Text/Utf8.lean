/-!
# UTF-8: writing, strict reading, and reading in blocks

* `encode` : the bytes of a text;
* `State`, `State.step` : the reader between two bytes and what the next byte does to it;
* `decode` : the text of the bytes, or the first `Fault` with its place;
* `decodeBlocks` : what a reader that takes its input in blocks has seen when it meets a fault.
-/

namespace ImageMacros.Text.Utf8

/-! ## Writing -/

def encodeChar (c : Char) : List UInt8 :=
  let n := c.toNat
  if n < 0x80 then [.ofNat n]
  else if n < 0x800 then [.ofNat (0xC0 + n / 0x40), .ofNat (0x80 + n % 0x40)]
  else if n < 0x10000 then
    [.ofNat (0xE0 + n / 0x1000), .ofNat (0x80 + n / 0x40 % 0x40), .ofNat (0x80 + n % 0x40)]
  else
    [.ofNat (0xF0 + n / 0x40000), .ofNat (0x80 + n / 0x1000 % 0x40),
      .ofNat (0x80 + n / 0x40 % 0x40), .ofNat (0x80 + n % 0x40)]

def encodeChars (cs : List Char) : List UInt8 := cs.flatMap encodeChar

def encode (s : String) : List UInt8 := encodeChars s.toList

/-! ## Faults -/

/-- Why bytes are not UTF-8. -/
inductive Reason
  | badStart
  | badContinuation
  | truncated
deriving DecidableEq, Repr

/-- The number of bytes before the fault, and its own bytes. -/
structure Fault where
  position : Nat
  bytes : List UInt8
  reason : Reason
deriving DecidableEq, Repr

/-! ## The reader, byte by byte -/

/-- The bytes owed, the range of the next one, the bits so far and the bytes seen. -/
structure State where
  owed : Nat
  low : UInt8
  high : UInt8
  bits : Nat
  seen : List UInt8
deriving DecidableEq, Repr

def State.between : State := ⟨0, 0x80, 0xBF, 0, []⟩

/-- The second byte's range leaves out surrogates, overlong forms and numbers past the last character. -/
def State.begin? (b : UInt8) : Option State :=
  if 0xC2 ≤ b ∧ b ≤ 0xDF then some ⟨1, 0x80, 0xBF, b.toNat - 0xC0, [b]⟩
  else if b = 0xE0 then some ⟨2, 0xA0, 0xBF, 0, [b]⟩
  else if b = 0xED then some ⟨2, 0x80, 0x9F, 0xD, [b]⟩
  else if 0xE1 ≤ b ∧ b ≤ 0xEF then some ⟨2, 0x80, 0xBF, b.toNat - 0xE0, [b]⟩
  else if b = 0xF0 then some ⟨3, 0x90, 0xBF, 0, [b]⟩
  else if 0xF1 ≤ b ∧ b ≤ 0xF3 then some ⟨3, 0x80, 0xBF, b.toNat - 0xF0, [b]⟩
  else if b = 0xF4 then some ⟨3, 0x80, 0x8F, 4, [b]⟩
  else none

inductive Progress
  | finished (c : Char)
  | unfinished (st : State)
  | fault (bytes : List UInt8) (reason : Reason)
deriving DecidableEq, Repr

def State.step (st : State) (b : UInt8) : Progress :=
  match st.owed with
  | 0 =>
    if b < 0x80 then .finished (.ofNat b.toNat)
    else
      match State.begin? b with
      | some st => .unfinished st
      | none => .fault [b] .badStart
  | owed + 1 =>
    if st.low ≤ b ∧ b ≤ st.high then
      let bits := st.bits * 0x40 + (b.toNat - 0x80)
      if owed = 0 then .finished (.ofNat bits)
      else .unfinished ⟨owed, 0x80, 0xBF, bits, st.seen ++ [b]⟩
    else .fault st.seen .badContinuation

inductive Stop
  | state (st : State)
  | fault (bytes : List UInt8) (reason : Reason)
deriving DecidableEq, Repr

def run : State → List UInt8 → List Char × Stop
  | st, [] => ([], .state st)
  | st, b :: bs =>
    match st.step b with
    | .finished c =>
      let (cs, stop) := run .between bs
      (c :: cs, stop)
    | .unfinished st => run st bs
    | .fault bytes reason => ([], .fault bytes reason)

/-! ## Whole texts -/

def width (cs : List Char) : Nat := (encodeChars cs).length

def decodeChars (bytes : List UInt8) : Except Fault (List Char) :=
  match run .between bytes with
  | (cs, .state st) => if st.seen = [] then .ok cs else .error ⟨width cs, st.seen, .truncated⟩
  | (cs, .fault bad reason) => .error ⟨width cs, bad, reason⟩

def decode (bytes : List UInt8) : Except Fault String := (decodeChars bytes).map String.ofList

/-! ## Blocks -/

/-- The first two of the three bytes that would spell a surrogate. -/
def isHalfSurrogate : List UInt8 → Bool
  | [a, b] => a = 0xED && 0xA0 ≤ b && b ≤ 0xBF
  | _ => false

/-- The characters of the blocks before the first fault, and that fault, placed from the first byte of its block. -/
def runBlocks (size : Nat) (st : State) : List UInt8 → List Char × Option Fault
  | [] => ([], if st.seen = [] then none else some ⟨0, st.seen, .truncated⟩)
  | b :: bs =>
    match run st (b :: bs.take (size - 1)) with
    | (cs, .fault bad reason) =>
      let unread := (st.seen ++ b :: bs.take (size - 1)).drop (width cs)
      if isHalfSurrogate unread then (cs, some ⟨0, bad, reason⟩)
      else ([], some ⟨width cs, bad, reason⟩)
    | (cs, .state st) =>
      let (rest, fault) := runBlocks size st (bs.drop (size - 1))
      (cs ++ rest, fault)
termination_by bytes => bytes.length
decreasing_by simp only [List.length_drop, List.length_cons]; omega

def decodeBlocks (size : Nat) (bytes : List UInt8) : List Char × Option Fault :=
  runBlocks size .between bytes

end ImageMacros.Text.Utf8
