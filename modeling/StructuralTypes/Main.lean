import StructuralTypes.CommandLine.Run

/-!
The command: it reads the files that the arguments name, and prints what the run prints.
-/

open StructuralTypes

/-- The number of an error, which some calls give with its sign reversed. -/
def errorNumber (code : UInt32) : Nat := min code.toNat (0 - code).toNat

def readFile (path : File.Path) : IO (Except File.OpenError ByteArray) := do
  try
    return .ok (← IO.FS.readBinFile path.toString)
  catch
    | .noFileOrDirectory .. => return .error .missing
    | .inappropriateType _ code words =>
        return .error (match errorNumber code with
          | 20 => .notDirectory
          | 21 => .isDirectory
          | number => .other number words)
    | .permissionDenied _ code _ => return .error (.other (errorNumber code) "Permission denied")
    | e => return .error (.other 5 e.toString)

def main (arguments : List String) : IO UInt32 := do
  let directory := File.Path.ofString (← IO.currentDir).toString
  let contents ← (CommandLine.filesNamed directory arguments).mapM fun path => do
    return (path, ← readFile path)
  let files : File.Files := fun path => (contents.lookup path).getD (.error .missing)
  let outcome := CommandLine.command directory files arguments
  IO.print outcome.out
  IO.eprint outcome.err
  match outcome.verdict with
  | .status code => return code.toUInt32
  | .undecodable => IO.eprintln "A file is not UTF-8."
  | .unpairedSurrogate => IO.eprintln "A string of the tree has half of a surrogate pair."
  | .slip _ => IO.eprintln "The tree is not what it seemed to be."
  | .defect d => IO.eprintln d.message
  | .unshowable _ => IO.eprintln "A position cannot be shown."
  return 1
