import StructuralTypes.Span
import StructuralTypes.Term.Basic

/-!
Types and terms as trees, in the form in which they are read.
-/

namespace StructuralTypes

namespace Ty

mutual

def toTree : Ty → Json
  | boolean => .obj [("tag", .str "Boolean")]
  | number => .obj [("tag", .str "Number")]
  | func params result =>
      .obj [("tag", .str "Func"), ("params", .arr (entries params)), ("retType", toTree result)]
  | object fields => .obj [("tag", .str "Object"), ("props", .arr (entries fields))]
  | mu x body => .obj [("tag", .str "Rec"), ("name", .str x), ("type", toTree body)]
  | var x => .obj [("tag", .str "TypeVar"), ("name", .str x)]

def entries : Row → List Json
  | [] => []
  | (name, t) :: row => .obj [("name", .str name), ("type", toTree t)] :: entries row

end

end Ty

def Position.toTree (p : Position) : Json := .obj [("line", p.line), ("column", p.column)]

def Span.toTree (s : Span) : Json := .obj [("start", s.start.toTree), ("end", s.stop.toTree)]

def Span.member : Option Span → List (String × Json)
  | none => []
  | some s => [("loc", s.toTree)]

def Literal.members : Literal → List (String × Json)
  | .bool true => [("tag", .str "true")]
  | .bool false => [("tag", .str "false")]
  | .int n => [("tag", .str "number"), ("n", .int n)]
  | .float x => [("tag", .str "number"), ("n", .float x)]

namespace Term

mutual

def toTree : Term (Option Span) → Json
  | literal p value => .obj (value.members ++ Span.member p)
  | cond p test yes no =>
      .obj ([("tag", .str "if"), ("cond", toTree test), ("thn", toTree yes), ("els", toTree no)] ++
        Span.member p)
  | add p left right =>
      .obj ([("tag", .str "add"), ("left", toTree left), ("right", toTree right)] ++ Span.member p)
  | ref p name => .obj ([("tag", .str "var"), ("name", .str name)] ++ Span.member p)
  | lambda p params body =>
      .obj ([("tag", .str "func"), ("params", .arr (Ty.entries params)), ("body", toTree body)] ++
        Span.member p)
  | call p callee args =>
      .obj ([("tag", .str "call"), ("func", toTree callee), ("args", .arr (argTrees args))] ++
        Span.member p)
  | seq p first rest =>
      .obj ([("tag", .str "seq"), ("body", toTree first), ("rest", toTree rest)] ++ Span.member p)
  | const p name init rest =>
      .obj ([("tag", .str "const"), ("name", .str name), ("init", toTree init),
        ("rest", toTree rest)] ++ Span.member p)
  | record p fields =>
      .obj ([("tag", .str "objectNew"), ("props", .arr (fieldTrees fields))] ++ Span.member p)
  | field p owner name =>
      .obj ([("tag", .str "objectGet"), ("obj", toTree owner), ("propName", .str name)] ++
        Span.member p)
  | letRec p name params result body rest =>
      .obj ([("tag", .str "recFunc"), ("funcName", .str name), ("params", .arr (Ty.entries params)),
        ("retType", result.toTree), ("body", toTree body), ("rest", toTree rest)] ++ Span.member p)

def argTrees : List (Term (Option Span)) → List Json
  | [] => []
  | t :: args => toTree t :: argTrees args

def fieldTrees : List (String × Term (Option Span)) → List Json
  | [] => []
  | (name, t) :: fields => .obj [("name", .str name), ("term", toTree t)] :: fieldTrees fields

end

end Term

end StructuralTypes
