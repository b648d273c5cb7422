import StructuralTypes.File.Basic

/-!
A directory held in memory. Paths lead through it component by component, and two dots lead back to
the directory that holds the present one. Nothing but directories is known to lie outside.
-/

namespace StructuralTypes.File

inductive Entry where
  | file (bytes : ByteArray)
  | folder (entries : List (String × Entry))

abbrev Folder := List (String × Entry)

/-- Puts an entry under a path, making the directories on the way. A directory that is there already
stays as it is when an empty one is put in its place. -/
def Folder.insert (entry : Entry) : (path : List String) → Folder → Folder
  | [], here => here
  | [name], here =>
      match entry, here.lookup name with
      | .folder [], some (.folder _) => here
      | _, _ => (name, entry) :: here
  | name :: next :: path, here =>
      match here.lookup name with
      | some (.folder inner) => (name, .folder (insert entry (next :: path) inner)) :: here
      | _ => (name, .folder (insert entry (next :: path) [])) :: here

/-- The entry that a path leads to from `here`; `above` holds the directories around it, innermost
first. Nothing is returned for a directory outside. -/
def Entry.walk (here : Entry) (above : List Folder) :
    List String → Except OpenError (Option Entry)
  | [] => .ok (some here)
  | name :: path =>
      match here with
      | .file _ => .error .notDirectory
      | .folder entries =>
          if name = ".." then
            match above with
            | outer :: above => walk (.folder outer) above path
            | [] => if path.all (· == "..") then .ok none else .error .missing
          else
            match entries.lookup name with
            | some entry => entry.walk (entries :: above) path
            | none => .error .missing

/-- The files of a folder whose own path is `base`. Other paths lead outside. -/
def Folder.files (folder : Folder) (base : Path) : Files := fun path =>
  let found :=
    if path.root = base.root ∧ base.parts.isPrefixOf path.parts then
      (Entry.folder folder).walk [] (path.parts.drop base.parts.length)
    else if path.parts.all (· == "..") then .ok none
    else .error .missing
  match found with
  | .ok (some (.file bytes)) => .ok bytes
  | .ok _ => .error .isDirectory
  | .error e => .error e

end StructuralTypes.File
