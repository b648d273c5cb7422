/-!
White space at the end of a line, by the full character set: the separators and the control
characters that move the print position.
-/

namespace StructuralTypes.Text

def blank (c : Char) : Bool :=
  let n := c.toNat
  (0x9 ≤ n && n ≤ 0xd) || (0x1c ≤ n && n ≤ 0x20) || n == 0x85 || n == 0xa0 || n == 0x1680
    || (0x2000 ≤ n && n ≤ 0x200a) || n == 0x2028 || n == 0x2029 || n == 0x202f || n == 0x205f
    || n == 0x3000

def dropTrailingBlanks (cs : List Char) : List Char :=
  (cs.reverse.dropWhile blank).reverse

end StructuralTypes.Text
