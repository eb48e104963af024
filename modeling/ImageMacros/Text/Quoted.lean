import ImageMacros.Text.CharacterSet

/-!
# Quoted texts

* `hexDigits` : a number in lower-case hexadecimal digits, to a fixed width;
* `quoteMark` : the mark that a text is put between;
* `escapeChar` : a character inside quotes;
* `quoted` : a text between quotes, on one line and with every invisible character spelled out.
-/

namespace ImageMacros.Text

def hexDigit (d : Nat) : Char := if d < 10 then .ofNat (0x30 + d) else .ofNat (0x57 + d)

/-- The last `width` hexadecimal digits, the most significant first. -/
def hexDigits : Nat → Nat → List Char
  | 0, _ => []
  | width + 1, n => hexDigits width (n / 16) ++ [hexDigit (n % 16)]

def quoteMark (cs : List Char) : Char := if '\'' ∈ cs ∧ '"' ∉ cs then '"' else '\''

/-- Controls by letter, and what is not printable by number in the shortest of three widths. -/
def escapeChar (mark c : Char) : List Char :=
  if c = mark ∨ c = '\\' then ['\\', c]
  else if c = '\n' then ['\\', 'n']
  else if c = '\r' then ['\\', 'r']
  else if c = '\t' then ['\\', 't']
  else if isPrintable c then [c]
  else if c.toNat < 0x100 then '\\' :: 'x' :: hexDigits 2 c.toNat
  else if c.toNat < 0x10000 then '\\' :: 'u' :: hexDigits 4 c.toNat
  else '\\' :: 'U' :: hexDigits 8 c.toNat

def quotedChars (cs : List Char) : List Char :=
  let mark := quoteMark cs
  mark :: cs.flatMap (escapeChar mark) ++ [mark]

def quoted (s : String) : String := String.ofList (quotedChars s.toList)

/-! ## Values of settings -/

def shownBool (b : Bool) : String := if b then "True" else "False"

end ImageMacros.Text
