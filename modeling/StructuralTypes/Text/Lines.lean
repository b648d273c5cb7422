/-!
Lines of a text. There are two notions: a file is read with its line ends made uniform, and a
source text is cut at every character that ends a line in print.
-/

namespace StructuralTypes.Text

/-- Makes each carriage return, alone or before a line feed, a line feed. -/
def uniformNewlines : List Char → List Char
  | [] => []
  | '\r' :: '\n' :: cs => '\n' :: uniformNewlines cs
  | c :: cs => (if c = '\r' then '\n' else c) :: uniformNewlines cs

def endsLine (c : Char) : Bool :=
  let n := c.toNat
  (0xa ≤ n && n ≤ 0xd) || (0x1c ≤ n && n ≤ 0x1e) || n == 0x85 || n == 0x2028 || n == 0x2029

/-- Cuts a text into lines; `line` holds what the current line has so far, last character first.
A carriage return and line feed end one line together, and nothing follows the last line end. -/
def cutLines (line : List Char) : List Char → List (List Char)
  | [] => if line.isEmpty then [] else [line.reverse]
  | '\r' :: '\n' :: cs => line.reverse :: cutLines [] cs
  | c :: cs => if endsLine c then line.reverse :: cutLines [] cs else cutLines (c :: line) cs

def lines (s : String) : List (List Char) := cutLines [] s.toList

end StructuralTypes.Text
