import Diskette.FileName
import Diskette.SaveStore
import Diskette.Text.Quoted

/-!
# Save folders

Saves kept as files of one folder, each under the last part of its name, so that no name leads out
of the folder. The folder is made when the first save is stored. Other programs may have put
folders of their own into it.
-/

set_option autoImplicit false

namespace Diskette

inductive FolderEntry where
  | file (content : Bytes)
  | folder
  deriving DecidableEq, Repr

inductive FolderSite where
  | vacant
  | folder (entries : Std.ExtTreeMap String FolderEntry)
  | file
  | underFile

structure SaveFolder where
  path : String
  site : FolderSite := .vacant

namespace SaveFolder

def maxNameSize : Nat := 255

/-- The file that a save is kept in: the last part of its name, leaving out empty parts and single
dots. There is none if that part is missing or leads up. -/
def fileName? (name : String) : Option String :=
  match (FileName.steps name).getLast? with
  | none => none
  | some part => if part = ['.', '.'] then none else some (String.ofList part)

def pathFor? (s : SaveFolder) (name : String) : Option String :=
  (fileName? name).map (FileName.join s.path)

def entries (s : SaveFolder) : Std.ExtTreeMap String FolderEntry :=
  match s.site with
  | .folder entries => entries
  | _ => ∅

def load (s : SaveFolder) (name : String) : Option Bytes :=
  match (fileName? name).bind (fun file => s.entries[file]?) with
  | some (.file content) => some content
  | _ => none

def make (s : SaveFolder) : Except Fault SaveFolder :=
  match s.site with
  | .vacant => .ok { s with site := .folder ∅ }
  | .folder _ => .ok s
  | .file => .error (.persist (.folder .folderIsFile))
  | .underFile => .error (.persist (.folder .underFile))

def refusal? (s : SaveFolder) (file : String) : Option FolderFault :=
  let path := FileName.join s.path file
  if file.toList.contains (Char.ofNat 0) then some (.nulInName path)
  else if maxNameSize < file.utf8ByteSize then some (.nameTooLong path)
  else if s.entries[file]? = some .folder then some (.isFolder path)
  else none

def store (s : SaveFolder) (name : String) (data : Bytes) : SaveFolder × Except Fault Unit :=
  match fileName? name with
  | none => (s, .error (.persist (.invalidName (Text.quoted name))))
  | some file =>
    match s.make with
    | .error fault => (s, .error fault)
    | .ok s =>
      match s.refusal? file with
      | some cause => (s, .error (.persist (.folder cause)))
      | none => ({ s with site := .folder (s.entries.insert file (.file data)) }, .ok ())

instance : SaveStore SaveFolder where
  load := load
  store := store

end SaveFolder

end Diskette
