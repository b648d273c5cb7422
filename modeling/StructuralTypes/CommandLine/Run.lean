import StructuralTypes.CommandLine.Arguments
import StructuralTypes.File.Basic
import StructuralTypes.Report.Basic
import StructuralTypes.Tree.Load
import StructuralTypes.Typing.Check

/-!
A run of the command. It reads the files it is given, checks the program, and prints its type or a
report of what is wrong.
-/

namespace StructuralTypes.CommandLine

def usage : String := "usage: equirec [-h] [-s SOURCE] [-v] [--exact-calls] tree\n"

def unlines (lines : List String) : String := String.join (lines.map (· ++ "\n"))

def help : String := usage ++ unlines [
    "",
    "Type checker for a small language of functions, records, and recursive types.",
    "",
    "positional arguments:",
    "  tree                  a JSON file holding the syntax tree of the program.",
    "",
    "options:",
    "  -h, --help            show this help message and exit",
    "  -s SOURCE, --source SOURCE",
    "                        the source text the tree came from, for quoting in",
    "                        complaints.",
    "  -v, --verbose         Say what's going on along the way.",
    "  --exact-calls         Require argument types to equal parameter types,",
    "                        rather than merely be subtypes."]

def introduction : String :=
  unlines ["This is a structural type checker for a small expression language.", ""] ++ usage ++
  unlines [
    "",
    "",
    "For example:",
    "",
    "    equirec program.json",
    "",
    "will print the type of the program in program.json if it has one,",
    "or else try to explain why not. The file holds the syntax tree exactly",
    "as the front end serialized it.",
    "",
    "    equirec program.json -s program.ts",
    "",
    "does the same, but quotes the offending line of program.ts in any complaint.",
    "",
    "    equirec -h",
    "",
    "will explain all the arguments."]

inductive Verdict where
  | status (code : Nat)
  /-- A file is no UTF-8. -/
  | undecodable
  /-- A string of the tree has half of a surrogate pair, and the run is not followed further. -/
  | unpairedSurrogate
  /-- An access to the tree goes wrong and is not caught. -/
  | slip (slip : Tree.Slip)
  /-- The program holds types that cannot be compared. -/
  | defect (defect : Defect)
  /-- A position cannot be shown. -/
  | unshowable (reason : Unshowable)

structure Outcome where
  out : String
  err : String
  verdict : Verdict

def complaints (before : String) (report : Report) : Outcome :=
  let printed := report.complain
  let verdict := match printed.failure with
    | none => .status 1
    | some reason => .unshowable reason
  ⟨"", before ++ printed.text, verdict⟩

def checkProgram (exactCalls : Bool) (before : String) (report : Report)
    (program : Term (Option Span)) : Outcome :=
  match program.check (if exactCalls then .exact else .subtyping) .empty with
  | .ok t => ⟨t.render ++ "\n", before ++ report.info ["Looks plausible to me."], .status 0⟩
  | .error (.fault f) => complaints before (report.addFault f)
  | .error (.defect d) => ⟨"", before, .defect d⟩

/-- Ends a run whose tree is not loaded. Only what is wrong with the tree itself is reported. -/
def refusal (before : String) (report : Report) (path : File.Path) : Tree.LoadError → Outcome
  | .notJson text mistake =>
      complaints before (report.addMalformed path ("Not JSON: " ++ mistake.message text))
  | .unread (.malformed why) => complaints before (report.addMalformed path why.message)
  | .unread (.slip slip) => ⟨"", before, .slip slip⟩
  | .unread (.defect defect) => ⟨"", before, .defect defect⟩
  | .notText => ⟨"", before, .undecodable⟩
  | .unpairedSurrogate => ⟨"", before, .unpairedSurrogate⟩

def checkFile (files : File.Files) (exactCalls : Bool) (report : Report) (path : File.Path) :
    Outcome :=
  let reading := report.info ["Reading", path.toString]
  let checking := reading ++ report.info ["Type-Check", path.toString]
  match files path with
  | .error e => complaints reading (report.addMalformed path (e.message path))
  | .ok bytes =>
      match Tree.load bytes with
      | .error e => refusal reading report path e
      | .ok program => checkProgram exactCalls checking report program

/-- The source text that goes with the tree, if one is named; an empty name is none. -/
def sourceText (directory : File.Path) (files : File.Files) (name : Option String) :
    Except Outcome (Option String) :=
  match name with
  | none => .ok none
  | some "" => .ok none
  | some name =>
      let path := directory.within (.ofString name)
      match files path with
      | .error e =>
          .error ⟨"", "Could not read the source text: " ++ e.message path ++ "\n", .status 1⟩
      | .ok bytes =>
          match File.text? bytes with
          | none => .error ⟨"", "", .undecodable⟩
          | some text => .ok (some (String.ofList text))

/-- The name under which a report complains: that of the source text if there is one. -/
def Options.subject (options : Options) : File.Path :=
  match options.source with
  | none => .ofString options.tree
  | some "" => .ofString options.tree
  | some name => .ofString name

def run (directory : File.Path) (files : File.Files) (options : Options) : Outcome :=
  match sourceText directory files options.source with
  | .error outcome => outcome
  | .ok source =>
      checkFile files options.exactCalls (.new options.verbose source (some options.subject))
        (directory.within (.ofString options.tree))

/-- The files that arguments name. A run opens no others. -/
def filesNamed (directory : File.Path) (arguments : List String) : List File.Path :=
  match parse arguments with
  | .ok (.check options) =>
      (options.tree :: options.source.toList).map fun name => directory.within (.ofString name)
  | _ => []

def command (directory : File.Path) (files : File.Files) (arguments : List String) : Outcome :=
  if arguments.isEmpty then ⟨introduction, "", .status 0⟩
  else
    match parse arguments with
    | .error e => ⟨"", usage ++ "equirec: error: " ++ e.message ++ "\n", .status 2⟩
    | .ok .help => ⟨help, "", .status 0⟩
    | .ok (.check options) => run directory files options

end StructuralTypes.CommandLine
