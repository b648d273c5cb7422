import StructuralTypes.Decimal.Nearest
import StructuralTypes.Json.Basic

/-!
Reading JSON text. The reader works on the list of characters that are left, and a mistake is placed
by how many were left when it arose. Beyond the standard it takes `NaN`, `Infinity` and `-Infinity`;
white space is the space, the tab, the line feed and the carriage return.

Strings are sequences of characters, and half of a surrogate pair is no character. A text that
escapes one by itself makes no mistake in the grammar, but there is no value for it here, and it is
refused with an error of its own.
-/

namespace StructuralTypes.Json

inductive Problem where
  | value
  | propertyName
  | colon
  | comma
  | extraData
  | unterminatedString
  | controlCharacter
  | escape
  | unicodeEscape
  | byteOrderMark
  deriving DecidableEq, Repr

def Problem.message : Problem → String
  | .value => "Expecting value"
  | .propertyName => "Expecting property name enclosed in double quotes"
  | .colon => "Expecting ':' delimiter"
  | .comma => "Expecting ',' delimiter"
  | .extraData => "Extra data"
  | .unterminatedString => "Unterminated string starting at"
  | .controlCharacter => "Invalid control character at"
  | .escape => "Invalid \\escape"
  | .unicodeEscape => "Invalid \\uXXXX escape"
  | .byteOrderMark => "Unexpected UTF-8 BOM (decode using utf-8-sig)"

/-- A problem and the number of characters left where it arose. -/
structure Mistake where
  problem : Problem
  left : Nat
  deriving DecidableEq, Repr

inductive ParseError where
  | mistake (mistake : Mistake)
  | unpairedSurrogate
  deriving DecidableEq, Repr

abbrev Taken (α : Type) := α × List Char

def fail {α : Type} (problem : Problem) (cs : List Char) : Except ParseError α :=
  .error (.mistake ⟨problem, cs.length⟩)

def isBlank (c : Char) : Bool := c == ' ' || c == '\t' || c == '\n' || c == '\r'

def skipBlanks (cs : List Char) : List Char := cs.dropWhile isBlank

/-! Strings. -/

def hexValue (c : Char) : Option Nat :=
  if '0' ≤ c ∧ c ≤ '9' then some (c.toNat - '0'.toNat)
  else if 'a' ≤ c ∧ c ≤ 'f' then some (c.toNat - 'a'.toNat + 10)
  else if 'A' ≤ c ∧ c ≤ 'F' then some (c.toNat - 'A'.toNat + 10)
  else none

def hexUnit (a b c d : Char) : Option Nat := do
  let a ← hexValue a
  let b ← hexValue b
  let c ← hexValue c
  let d ← hexValue d
  return ((a * 16 + b) * 16 + c) * 16 + d

def simpleEscape : Char → Option Char
  | '\x22' => some '\x22'
  | '\\' => some '\\'
  | '/' => some '/'
  | 'b' => some '\x08'
  | 'f' => some '\x0c'
  | 'n' => some '\n'
  | 'r' => some '\r'
  | 't' => some '\t'
  | _ => none

def isHighSurrogate (unit : Nat) : Bool := 0xd800 ≤ unit && unit < 0xdc00

def isLowSurrogate (unit : Nat) : Bool := 0xdc00 ≤ unit && unit < 0xe000

def joinSurrogates (high low : Nat) : Char :=
  Char.ofNat (0x10000 + (high - 0xd800) * 0x400 + (low - 0xdc00))

/-- Reads a string up to its closing quotation mark. `opening` is the text from the opening mark on;
`done` holds the characters read so far, last first. An escape by code needs a character after its
four digits, and two of them form one character if they are a surrogate pair; half a pair by itself
is refused. -/
def stringBody (opening done : List Char) : List Char → Except ParseError (Taken String)
  | [] => fail .unterminatedString opening
  | '\x22' :: cs => .ok (String.ofList done.reverse, cs)
  | ['\\'] => fail .unterminatedString opening
  | '\\' :: 'u' :: a :: b :: c :: d :: e :: cs =>
      match hexUnit a b c d with
      | none => fail .unicodeEscape ('u' :: a :: b :: c :: d :: e :: cs)
      | some unit =>
          if isHighSurrogate unit && e == '\\' then
            match cs with
            | 'u' :: p :: q :: r :: s :: t :: cs =>
                match hexUnit p q r s with
                | none => fail .unicodeEscape ('u' :: p :: q :: r :: s :: t :: cs)
                | some low =>
                    if isLowSurrogate low then
                      stringBody opening (joinSurrogates unit low :: done) (t :: cs)
                    else .error .unpairedSurrogate
            | _ => .error .unpairedSurrogate
          else if isHighSurrogate unit || isLowSurrogate unit then .error .unpairedSurrogate
          else stringBody opening (Char.ofNat unit :: done) (e :: cs)
  | '\\' :: 'u' :: cs => fail .unicodeEscape ('u' :: cs)
  | '\\' :: c :: cs =>
      match simpleEscape c with
      | some c => stringBody opening (c :: done) cs
      | none => fail .escape ('\\' :: c :: cs)
  | c :: cs =>
      if c.toNat ≤ 0x1f then fail .controlCharacter (c :: cs)
      else stringBody opening (c :: done) cs

/-! Numbers. -/

def digitsValue (ds : List Char) : Nat :=
  ds.foldl (fun n d => 10 * n + (d.toNat - '0'.toNat)) 0

def fraction : List Char → List Char × List Char
  | '.' :: d :: cs =>
      if d.isDigit then ((d :: cs).takeWhile Char.isDigit, (d :: cs).dropWhile Char.isDigit)
      else ([], '.' :: d :: cs)
  | cs => ([], cs)

def exponent? (cs : List Char) : Option (Int × List Char) :=
  let mark (cs : List Char) : Option (List Char) := match cs with
    | 'e' :: cs => some cs
    | 'E' :: cs => some cs
    | _ => none
  let signed (cs : List Char) : Bool × List Char := match cs with
    | '-' :: cs => (true, cs)
    | '+' :: cs => (false, cs)
    | cs => (false, cs)
  (mark cs).bind fun cs =>
    let (negative, cs) := signed cs
    let ds := cs.takeWhile Char.isDigit
    if ds.isEmpty then none
    else
      let n : Int := digitsValue ds
      some (if negative then -n else n, cs.dropWhile Char.isDigit)

/-- What follows the first digits: a fraction or an exponent makes the number a double. -/
def numberTail (negative : Bool) (whole cs : List Char) : Json × List Char :=
  let (places, cs) := fraction cs
  let scaled := fun power : Int =>
    Json.float (Decimal.toFloat negative (digitsValue (whole ++ places)) (power - places.length))
  match exponent? cs with
  | some (power, cs) => (scaled power, cs)
  | none =>
      if places.isEmpty then
        let n : Int := digitsValue whole
        (.int (if negative then -n else n), cs)
      else (scaled 0, cs)

/-- A number; a leading zero stands alone. -/
def number (cs : List Char) : Except ParseError (Taken Json) :=
  let (negative, body) := match cs with
    | '-' :: rest => (true, rest)
    | _ => (false, cs)
  match body with
  | '0' :: rest => .ok (numberTail negative ['0'] rest)
  | d :: rest =>
      if d.isDigit then
        .ok (numberTail negative ((d :: rest).takeWhile Char.isDigit)
          ((d :: rest).dropWhile Char.isDigit))
      else fail .value cs
  | [] => fail .value cs

def infinity : Float := Float.ofBits 0x7ff0000000000000

def negativeInfinity : Float := Float.ofBits 0xfff0000000000000

def notANumber : Float := Float.ofBits 0x7ff8000000000000

def atom : List Char → Except ParseError (Taken Json)
  | 'n' :: 'u' :: 'l' :: 'l' :: cs => .ok (.null, cs)
  | 't' :: 'r' :: 'u' :: 'e' :: cs => .ok (.bool true, cs)
  | 'f' :: 'a' :: 'l' :: 's' :: 'e' :: cs => .ok (.bool false, cs)
  | 'N' :: 'a' :: 'N' :: cs => .ok (.float notANumber, cs)
  | 'I' :: 'n' :: 'f' :: 'i' :: 'n' :: 'i' :: 't' :: 'y' :: cs => .ok (.float infinity, cs)
  | '-' :: 'I' :: 'n' :: 'f' :: 'i' :: 'n' :: 'i' :: 't' :: 'y' :: cs =>
      .ok (.float negativeInfinity, cs)
  | cs => number cs

/-! Values. The first argument bounds the depth of the recursion, which grows by at most two for
every character that is read. -/

mutual

def value : Nat → List Char → Except ParseError (Taken Json)
  | 0, cs => fail .value cs
  | _ + 1, '\x22' :: cs => do
      let (s, cs) ← stringBody ('\x22' :: cs) [] cs
      return (.str s, cs)
  | bound + 1, '\x7b' :: cs =>
      match skipBlanks cs with
      | '\x7d' :: cs => .ok (.obj [], cs)
      | cs => do
          let (members, cs) ← membersFrom bound cs
          return (ofMembers members, cs)
  | bound + 1, '[' :: cs =>
      match skipBlanks cs with
      | ']' :: cs => .ok (.arr [], cs)
      | cs => do
          let (items, cs) ← itemsFrom bound cs
          return (.arr items, cs)
  | _ + 1, cs => atom cs

def membersFrom : Nat → List Char → Except ParseError (Taken (List (String × Json)))
  | 0, cs => fail .propertyName cs
  | bound + 1, cs =>
      match cs with
      | '\x22' :: rest => do
          let (name, cs) ← stringBody cs [] rest
          match skipBlanks cs with
          | ':' :: cs => do
              let (v, cs) ← value bound (skipBlanks cs)
              match skipBlanks cs with
              | '\x7d' :: cs => return ([(name, v)], cs)
              | ',' :: cs => do
                  let (more, cs) ← membersFrom bound (skipBlanks cs)
                  return ((name, v) :: more, cs)
              | cs => fail .comma cs
          | cs => fail .colon cs
      | cs => fail .propertyName cs

def itemsFrom : Nat → List Char → Except ParseError (Taken (List Json))
  | 0, cs => fail .value cs
  | bound + 1, cs => do
      let (v, cs) ← value bound cs
      match skipBlanks cs with
      | ']' :: cs => return ([v], cs)
      | ',' :: cs => do
          let (more, cs) ← itemsFrom bound (skipBlanks cs)
          return (v :: more, cs)
      | cs => fail .comma cs

end

def parse (text : List Char) : Except ParseError Json :=
  match text with
  | '\ufeff' :: _ => fail .byteOrderMark text
  | _ => do
      let (v, cs) ← value (2 * text.length + 2) (skipBlanks text)
      match skipBlanks cs with
      | [] => return v
      | cs => fail .extraData cs

/-- A mistake with its place in the text it was found in: lines and columns count from one,
characters from zero. -/
def Mistake.message (e : Mistake) (text : List Char) : String :=
  let position := text.length - e.left
  let before := text.take position
  let line := before.count '\n' + 1
  let column := (before.reverse.takeWhile (· != '\n')).length + 1
  e.problem.message ++ ": line " ++ toString line ++ " column " ++ toString column ++
    " (char " ++ toString position ++ ")"

end StructuralTypes.Json
