import StructuralTypes.Text.Digit
import StructuralTypes.Text.Quoted

/-!
The arguments of the command. Options may stand before and after the one file they apply to, short
ones may be joined, and long ones may be shortened as long as one option is meant. Two dashes end
the options.
-/

namespace StructuralTypes.CommandLine

inductive Flag where
  | help
  | source
  | verbose
  | exactCalls
  deriving DecidableEq, Repr

def Flag.name : Flag → String
  | .help => "-h/--help"
  | .source => "-s/--source"
  | .verbose => "-v/--verbose"
  | .exactCalls => "--exact-calls"

def spellings : List (String × Flag) := [
    ("-h", .help), ("--help", .help), ("-s", .source), ("--source", .source), ("-v", .verbose),
    ("--verbose", .verbose), ("--exact-calls", .exactCalls)]

structure Options where
  tree : String
  source : Option String
  verbose : Bool
  exactCalls : Bool
  deriving DecidableEq, Repr

inductive UsageError where
  | treeRequired
  | expectedArgument (flag : Flag)
  | ignoredArgument (flag : Flag) (argument : String)
  | ambiguous (word : String) (candidates : List String)
  | unrecognized (words : List String)
  deriving DecidableEq, Repr

def UsageError.message : UsageError → String
  | .treeRequired => "the following arguments are required: tree"
  | .expectedArgument flag => "argument " ++ flag.name ++ ": expected one argument"
  | .ignoredArgument flag argument =>
      "argument " ++ flag.name ++ ": ignored explicit argument " ++ Text.quoted argument
  | .ambiguous word candidates =>
      "ambiguous option: " ++ word ++ " could match " ++ ", ".intercalate candidates
  | .unrecognized words => "unrecognized arguments: " ++ " ".intercalate words

inductive Request where
  | help
  | check (options : Options)
  deriving DecidableEq, Repr

/-! Sorting words. -/

/-- How a text is attached to an option: after an equals sign, or joined to a short option, where
its letters may be further short options. -/
inductive Attached where
  | equals (argument : List Char)
  | joined (argument : List Char)
  deriving DecidableEq, Repr

/-- A text after the equals sign of a short option counts as joined to it, unless it is empty. -/
def Attached.afterShort : List Char → Attached
  | [] => .equals []
  | c :: cs => .joined (c :: cs)

inductive Word where
  | plain (text : String)
  /-- The two dashes that end the options. -/
  | dashes
  | option (flag : Flag) (attached : Option Attached)
  | unknown (text : String)
  deriving DecidableEq, Repr

/-- Negative numbers are no options, even with a line feed at the end. -/
def looksNegative : List Char → Bool
  | '-' :: cs =>
      let number := if cs.getLast? = some '\n' then cs.dropLast else cs
      match number.dropWhile Text.isDigit with
      | [] => !number.isEmpty
      | '.' :: places => !places.isEmpty && places.all Text.isDigit
      | _ => false
  | _ => false

def cutEquals (cs : List Char) : List Char × Option (List Char) :=
  match cs.dropWhile (· != '=') with
  | _ :: argument => (cs.takeWhile (· != '='), some argument)
  | [] => (cs, none)

/-- Sorts a word before the two dashes. Exact spellings come first, then a spelling before an equals
sign, then shortened long options and joined short ones. -/
def classify (word : String) : Except UsageError Word :=
  let cs := word.toList
  let (stem, equals) := cutEquals cs
  let attached := equals.map Attached.equals
  let otherwise : Word :=
    if looksNegative cs || cs.contains ' ' then .plain word else .unknown word
  match cs with
  | '-' :: c :: joined =>
      match spellings.lookup word, spellings.lookup (String.ofList stem) with
      | some flag, _ => .ok (.option flag none)
      | none, some flag =>
          .ok (.option flag (if c = '-' then attached else equals.map Attached.afterShort))
      | none, none =>
          if c = '-' then
            match spellings.filter fun s => stem.isPrefixOf s.1.toList with
            | [] => .ok otherwise
            | [(_, flag)] => .ok (.option flag attached)
            | several => .error (.ambiguous word (several.map Prod.fst))
          else
            match spellings.lookup (String.ofList ['-', c]) with
            | some flag => .ok (.option flag (some (.joined joined)))
            | none => .ok otherwise
  | _ => .ok (.plain word)

/-- Sorts all words; after the two dashes all are plain. -/
def sort : List String → Except UsageError (List Word)
  | [] => .ok []
  | word :: words =>
      if word = "--" then .ok (.dashes :: words.map .plain)
      else do
        let first ← classify word
        let rest ← sort words
        return first :: rest

/-! Collecting what is asked. -/

structure Collected where
  tree : Option String
  source : Option String
  verbose : Bool
  exactCalls : Bool
  /-- Words that belong to nothing. -/
  extras : List String

def Collected.empty : Collected := ⟨none, none, false, false, []⟩

def Collected.leave (c : Collected) (word : String) : Collected :=
  { c with extras := c.extras ++ [word] }

/-- The first plain word is the tree. -/
def Collected.plain (c : Collected) (word : String) : Collected :=
  match c.tree with
  | none => { c with tree := some word }
  | some _ => c.leave word

inductive Ending where
  | nothing
  | source (argument : String)
  | awaitsSource

/-- The end of a word that holds its source. Two dashes never name one, so they stand for an empty
name. -/
def Ending.ofSource (argument : List Char) : Ending :=
  .source (if argument = ['-', '-'] then "" else String.ofList argument)

/-- Takes apart what is joined to the short option `flag`. All that follows the letter of the source
is its argument; any other letter must be followed by that of a short option. -/
def takeApart (flag : Flag) : List Char → Except UsageError (List Flag × Ending)
  | [] => .ok (if flag = .source then ([], .awaitsSource) else ([flag], .nothing))
  | c :: cs =>
      if flag = .source then .ok ([], .ofSource (c :: cs))
      else
        match spellings.lookup (String.ofList ['-', c]) with
        | none => .error (.ignoredArgument flag (String.ofList (c :: cs)))
        | some next => do
            let (flags, ending) ← takeApart next cs
            return (flag :: flags, ending)

def openOption (flag : Flag) : Option Attached → Except UsageError (List Flag × Ending)
  | none => takeApart flag []
  | some (.joined cs) => takeApart flag cs
  | some (.equals cs) =>
      if flag = .source then .ok ([], .ofSource cs)
      else .error (.ignoredArgument flag (String.ofList cs))

def Collected.set (c : Collected) (flags : List Flag) : Collected :=
  { c with
    verbose := c.verbose || flags.contains .verbose
    exactCalls := c.exactCalls || flags.contains .exactCalls }

def Collected.finish (c : Collected) : Except UsageError Request :=
  match c.tree with
  | none => .error .treeRequired
  | some tree =>
      if c.extras.isEmpty then .ok (.check ⟨tree, c.source, c.verbose, c.exactCalls⟩)
      else .error (.unrecognized c.extras)

/-- Goes through the words. Help is given as soon as it is asked for, once the word that asks for it
is in order. The two dashes go with the tree if they stand next to it. -/
def collect (c : Collected) : List Word → Except UsageError Request
  | [] => c.finish
  | .unknown text :: words => collect (c.leave text) words
  | .dashes :: .plain text :: words =>
      collect (if c.tree.isNone then c.plain text else (c.leave "--").leave text) words
  | .dashes :: words => collect (c.leave "--") words
  | .plain text :: .dashes :: words =>
      collect (if c.tree.isNone then c.plain text else (c.leave text).leave "--") words
  | .plain text :: words => collect (c.plain text) words
  | .option flag attached :: words => do
      let (flags, ending) ← openOption flag attached
      let help := flags.contains .help
      let next := c.set flags
      match ending, words with
      | .awaitsSource, .plain argument :: words =>
          if help then return .help else collect { next with source := some argument } words
      | .awaitsSource, _ => .error (.expectedArgument .source)
      | .source argument, words =>
          if help then return .help else collect { next with source := some argument } words
      | .nothing, words => if help then return .help else collect next words

def parse (words : List String) : Except UsageError Request := do
  collect .empty (← sort words)

end StructuralTypes.CommandLine
