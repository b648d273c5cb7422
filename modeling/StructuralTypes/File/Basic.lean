import StructuralTypes.File.Path
import StructuralTypes.Text.Lines
import StructuralTypes.Text.Quoted

/-!
Opening files and reading them as text.
-/

namespace StructuralTypes.File

inductive OpenError where
  | missing
  | notDirectory
  | isDirectory
  /-- Any other reason of the operating system, by its number and its words. -/
  | other (number : Nat) (words : String)
  deriving DecidableEq, Repr

def OpenError.number : OpenError → Nat
  | .missing => 2
  | .notDirectory => 20
  | .isDirectory => 21
  | .other number _ => number

def OpenError.words : OpenError → String
  | .missing => "No such file or directory"
  | .notDirectory => "Not a directory"
  | .isDirectory => "Is a directory"
  | .other _ words => words

def OpenError.message (e : OpenError) (path : Path) : String :=
  "[Errno " ++ toString e.number ++ "] " ++ e.words ++ ": " ++ Text.quoted path.toString

abbrev Files := Path → Except OpenError ByteArray

/-- The text of a file in UTF-8, with uniform line ends; nothing if it is no UTF-8. -/
def text? (bytes : ByteArray) : Option (List Char) :=
  (String.fromUTF8? bytes).map fun s => Text.uniformNewlines s.toList

end StructuralTypes.File
