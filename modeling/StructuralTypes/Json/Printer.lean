import StructuralTypes.Decimal.Layout
import StructuralTypes.Json.Basic
import StructuralTypes.Text.Quoted

/-!
The text of a JSON value, in ASCII. Characters beyond ASCII are written as escapes of their UTF-16
units.
-/

namespace StructuralTypes.Json

def unitEscape (unit : Nat) : List Char := '\\' :: 'u' :: Text.hexDigits 4 unit

def printChar (c : Char) : List Char :=
  let n := c.toNat
  if c = '\x22' ∨ c = '\\' then ['\\', c]
  else if c = '\n' then ['\\', 'n']
  else if c = '\r' then ['\\', 'r']
  else if c = '\t' then ['\\', 't']
  else if 0x20 ≤ n ∧ n < 0x7f then [c]
  else if n < 0x10000 then unitEscape n
  else
    let offset := n - 0x10000
    unitEscape (0xd800 + offset / 0x400) ++ unitEscape (0xdc00 + offset % 0x400)

def printString (s : String) : String :=
  String.ofList ('\x22' :: s.toList.flatMap printChar ++ ['\x22'])

def doubles : Decimal.Layout := ⟨-4, 15, 2, "Infinity", "NaN"⟩

mutual

def print : Json → String
  | .null => "null"
  | .bool true => "true"
  | .bool false => "false"
  | .int n => toString n
  | .float x => doubles.write x
  | .str s => printString s
  | .arr items => "[" ++ printItems items ++ "]"
  | .obj members => "\x7b" ++ printMembers members ++ "\x7d"

def printItems : List Json → String
  | [] => ""
  | [v] => print v
  | v :: w :: rest => print v ++ ", " ++ printItems (w :: rest)

def printMembers : List (String × Json) → String
  | [] => ""
  | [(name, v)] => printString name ++ ": " ++ print v
  | (name, v) :: m :: rest =>
      printString name ++ ": " ++ print v ++ ", " ++ printMembers (m :: rest)

end

end StructuralTypes.Json
