import StructuralTypes.Report.Coordinate
import StructuralTypes.Text.Blank

/-!
Callouts point at a place in a source text: they quote the line and underline the place with
carets. Without the line, they name the place.
-/

namespace StructuralTypes

def rowLabel (row : Int) : List Char :=
  let digits := ' ' :: (toString row).toList
  List.replicate (6 - digits.length) ' ' ++ digits ++ [' ', '|']

/-- The first `n` characters of a line; a negative `n` counts from its end. -/
def cut (n : Int) (line : List Char) : List Char :=
  if 0 ≤ n then line.take n.toNat else line.take (line.length - n.natAbs)

def fitted (width : Numeral) (room : Int) : Numeral :=
  if (Numeral.whole room).lt width then .whole room else width

/-- No text has as many characters as this. -/
def lengthLimit : Nat := Decimal.twoTo 63

/-- How many carets underline a place that is `width` wide with `room` columns left on the line: at
least one, and no more than there is room for. A width that is no whole number cannot be used, and
neither can one that no text has. -/
def caretCount (width : Numeral) (room : Int) : Except Unshowable Nat :=
  if (Numeral.whole 1).lt (fitted width room) then
    match fitted width room with
    | .whole n => if n < lengthLimit then .ok n.toNat else .error .tooLarge
    | .real _ => .error .notNumeric
  else .ok 1

/-- Quotes a line and underlines `width` columns from `column` on. What stands before them is
blanked out, tabs apart, so the carets keep their place. -/
def illustration (row : Int) (line : List Char) (column : Int) (width : Numeral)
    (caption : String) : Except Unshowable String := do
  let label := rowLabel row
  let blanks := (label ++ cut column line).map fun c => if c = '\t' then '\t' else ' '
  let carets ← caretCount width (line.length - column)
  return String.ofList (label ++ Text.dropTrailingBlanks line ++ '\n' :: blanks ++
    List.replicate carets '^') ++ " " ++ caption

def wholeCoordinate (coordinate : Json) : Except Unshowable Int := do
  match ← Numeral.ofJson coordinate with
  | .whole n => return n
  | .real _ => .error .notNumeric

structure Callout where
  span : Option Span
  caption : String
  lines : Option (List (List Char))

namespace Callout

def named (a : Callout) : Except Unshowable String := do
  return "  at " ++ (← Span.describe a.span) ++ " " ++ a.caption

def illustrate (a : Callout) : Except Unshowable String :=
  match a.span, a.lines with
  | some span, some lines => do
      let row ← Numeral.ofJson span.start.line
      if (Numeral.whole 0).lt row && !(Numeral.whole lines.length).lt row then do
        let row ← wholeCoordinate span.start.line
        match lines[row.toNat - 1]? with
        | some line => do
            let width ← span.widthOnFirstLine
            let column ← wholeCoordinate span.start.column
            illustration row line column width a.caption
        | none => a.named
      else a.named
  | _, _ => a.named

end Callout

end StructuralTypes
