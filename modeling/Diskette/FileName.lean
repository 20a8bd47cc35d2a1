import Diskette.Format

/-!
# File names

A host path ends in a base name, whichever of `/` and `\` its host separates folders with. The
extension of the base name, if it has one, tells the image format.
-/

set_option autoImplicit false

namespace Diskette.FileName

def isSeparator (c : Char) : Bool := c == '/' || c == '\\'

def base (path : String) : String :=
  String.ofList (path.toList.reverse.takeWhile (fun c => !isSeparator c)).reverse

/-- What follows the last dot of the base name, in lower case. A name that starts or ends at that
dot has no extension. -/
def extension? (path : String) : Option String :=
  let name := (base path).toList.reverse
  let ext := name.takeWhile (fun c => c != '.')
  match name.dropWhile (fun c => c != '.') with
  | [] => none
  | _ :: stem =>
    if stem.isEmpty || ext.isEmpty then none
    else some (String.ofList (ext.reverse.map Char.toLower))

def splitAtSlashes : List Char → List (List Char)
  | [] => [[]]
  | c :: rest =>
    if c = '/' then [] :: splitAtSlashes rest
    else
      match splitAtSlashes rest with
      | [] => [[c]]
      | part :: parts => (c :: part) :: parts

/-- The names that a path goes through one after the other. Empty parts and single dots do not
count. -/
def steps (path : String) : List (List Char) :=
  (splitAtSlashes path.toList).filter (fun p => p != [] && p != ['.'])

def isAbsolute (path : String) : Bool := path.toList.head? == some '/'

def join (folder file : String) : String :=
  if isAbsolute file then file
  else if (folder.toList.getLast?).all (· == '/') then folder ++ file
  else folder ++ "/" ++ file

end Diskette.FileName

namespace Diskette.Format

def ofExtension? (ext : String) : Option Format :=
  let lower := String.ofList (ext.toList.map Char.toLower)
  all.find? (fun f => f.extensions.contains lower)

def ofName? (path : String) : Option Format :=
  (FileName.extension? path).bind ofExtension?

end Diskette.Format

