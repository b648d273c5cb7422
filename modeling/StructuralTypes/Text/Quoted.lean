import StructuralTypes.Text.Printable

/-!
Text between quotation marks, as it is shown inside a message. The mark is the apostrophe unless the
text has an apostrophe and no double quotation mark. The mark in use, the backslash and whatever
does not print are escaped, so a quoted text stays on one line.
-/

namespace StructuralTypes.Text

def apostrophe : Char := '\x27'

def quotationMark : Char := '\x22'

def hexDigit (n : Nat) : Char :=
  if n < 10 then Char.ofNat ('0'.toNat + n) else Char.ofNat ('a'.toNat + (n - 10))

/-- The last `width` hexadecimal digits of `n`. -/
def hexDigits : (width n : Nat) → List Char
  | 0, _ => []
  | width + 1, n => hexDigits width (n / 16) ++ [hexDigit (n % 16)]

/-- The numeric escape of a character, in the shortest of the widths two, four and eight. -/
def numericEscape (c : Char) : List Char :=
  let n := c.toNat
  if n < 0x100 then '\\' :: 'x' :: hexDigits 2 n
  else if n < 0x10000 then '\\' :: 'u' :: hexDigits 4 n
  else '\\' :: 'U' :: hexDigits 8 n

def escaped (mark c : Char) : List Char :=
  if c = mark ∨ c = '\\' then ['\\', c]
  else if c = '\n' then ['\\', 'n']
  else if c = '\r' then ['\\', 'r']
  else if c = '\t' then ['\\', 't']
  else if printable c then [c]
  else numericEscape c

/-- The mark that quotes a text with the fewest escapes; the apostrophe if there is a choice. -/
def markFor (cs : List Char) : Char :=
  if apostrophe ∈ cs ∧ quotationMark ∉ cs then quotationMark else apostrophe

def quoted (s : String) : String :=
  let cs := s.toList
  let mark := markFor cs
  String.ofList (mark :: cs.flatMap (escaped mark) ++ [mark])

end StructuralTypes.Text
