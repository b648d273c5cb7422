import StructuralTypes.Json.Basic

/-!
Position tags. Lines count from one and columns from zero. The tags come with the tree, so a
coordinate is any JSON value, and only a report that shows a position looks at it.
-/

namespace StructuralTypes

structure Position where
  line : Json
  column : Json

/-- The part of a source text from `start` up to, but not including, `stop`. -/
structure Span where
  start : Position
  stop : Position

end StructuralTypes
