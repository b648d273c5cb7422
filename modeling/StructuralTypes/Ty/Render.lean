import StructuralTypes.Ty.Basic

/-!
The notation of types in messages: `(x: number) => boolean`, `mu X. T`, and fields between braces,
each after a semicolon and a space.
-/

namespace StructuralTypes.Ty

mutual

def render : Ty → String
  | boolean => "boolean"
  | number => "number"
  | func params result => "(" ++ renderRow ", " params ++ ") => " ++ render result
  | object [] => "\x7b\x7d"
  | object (f :: fields) => "\x7b " ++ renderRow "; " (f :: fields) ++ " \x7d"
  | mu x body => "mu " ++ x ++ ". " ++ render body
  | var x => x

def renderRow (separator : String) : Row → String
  | [] => ""
  | [(name, t)] => name ++ ": " ++ render t
  | (name, t) :: m :: row => name ++ ": " ++ render t ++ separator ++ renderRow separator (m :: row)

end

end StructuralTypes.Ty
