import StructuralTypes.File.Path
import StructuralTypes.Report.Callout
import StructuralTypes.Text.Lines
import StructuralTypes.Typing.Fault

/-!
A report collects issues and shows them when asked. An issue is an introduction, callouts, and
lines at the foot.
-/

namespace StructuralTypes

structure Issue where
  intro : String
  callouts : List Callout
  footer : List String

/-- The lines of an issue; the first callout that cannot be shown spoils it. -/
def Issue.text (i : Issue) : Except Unshowable String := do
  let places ← i.callouts.mapM Callout.illustrate
  return "\n".intercalate (i.intro :: places ++ i.footer)

structure Report where
  verbose : Bool
  /-- The lines of the source text, if there is one. -/
  lines : Option (List (List Char))
  path : Option File.Path
  issues : List Issue

structure Printed where
  text : String
  failure : Option Unshowable

/-- Why a report stops its caller: an issue cannot be shown, or there are issues at all. -/
inductive Halt where
  | unshowable (reason : Unshowable)
  | issues (message : String)

namespace Report

def new (verbose : Bool) (source : Option String) (path : Option File.Path) : Report :=
  ⟨verbose, source.map Text.lines, path, []⟩

def ok (r : Report) : Bool := r.issues.isEmpty

def sick (r : Report) : Bool := !r.issues.isEmpty

def add (r : Report) (i : Issue) : Report := { r with issues := r.issues ++ [i] }

def reset (r : Report) : Report := { r with issues := [] }

def callout (r : Report) (span : Option Span) (caption : String) : Callout :=
  ⟨span, caption, r.lines⟩

def addFaultAt (r : Report) (kind message : String) (span : Option Span) : Report :=
  r.add ⟨kind ++ ": " ++ message, [r.callout span kind], []⟩

def addFault (r : Report) (f : Fault (Option Span)) : Report :=
  r.addFaultAt f.cause.kind f.cause.message f.term.tag

def addMalformed (r : Report) (path : File.Path) (why : String) : Report :=
  r.add ⟨"Could not make sense of the syntax tree in " ++ path.toString, [], [why]⟩

/-- A remark, which is made only by a verbose report. -/
def info (r : Report) (words : List String) : String :=
  if r.verbose then " ".intercalate words ++ "\n" else ""

def printIssues (before : String) : List Issue → Printed
  | [] => ⟨before, none⟩
  | i :: issues =>
      match i.text with
      | .ok text => printIssues (before ++ text ++ "\n") issues
      | .error e => ⟨before, some e⟩

def complain (r : Report) : Printed :=
  let heading := match r.path with
    | some path => if r.sick then path.toString ++ "\n" else ""
    | none => ""
  printIssues heading r.issues

/-- Stops the caller with `message` if there are issues, after showing them. -/
def insistOk (r : Report) (message : String) : String × Option Halt :=
  if r.ok then ("", none)
  else
    let printed := r.complain
    (printed.text, some (match printed.failure with
      | some reason => .unshowable reason
      | none => .issues message))

end Report

end StructuralTypes
