/-!
Paths of files. A path is kept normalised: repeated slashes, single dots and a slash at the end have
no meaning and are dropped. Two dots stay, since what they lead to depends on the files.
-/

namespace StructuralTypes.File

structure Path where
  /-- The number of slashes at the front, which is two only if exactly two were given. -/
  root : Nat
  parts : List String
  deriving DecidableEq, Repr

def splitSlash : List Char → List (List Char)
  | [] => [[]]
  | c :: cs =>
      if c = '/' then [] :: splitSlash cs
      else
        match splitSlash cs with
        | [] => [[c]]
        | part :: parts => (c :: part) :: parts

namespace Path

def ofString (s : String) : Path :=
  let cs := s.toList
  let slashes := (cs.takeWhile (· == '/')).length
  let parts := (splitSlash cs).filter fun part => part ≠ [] ∧ part ≠ ['.']
  ⟨if slashes ≤ 2 then slashes else 1, parts.map String.ofList⟩

def toString (p : Path) : String :=
  if p.root = 0 ∧ p.parts = [] then "."
  else String.ofList (List.replicate p.root '/') ++ "/".intercalate p.parts

/-- A path as seen from `base`; one that begins at the root is not affected. -/
def within (base p : Path) : Path :=
  if p.root = 0 then ⟨base.root, base.parts ++ p.parts⟩ else p

end Path

end StructuralTypes.File
