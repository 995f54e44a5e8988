import Frontend.CommandLine.Options

/-!
# Folders

A folder of files held in memory, and what reading a path from it gives.  It lets the command
line run without a disk.

Paths are walked part by part from the folder, which is the current directory.  Nothing but
directories is known outside of it, and no names there.
-/

namespace Frontend

/-- Why a file cannot be read. -/
inductive ReadError where
  | notFound
  | notADirectory
  | isADirectory
  | invalidUtf8
  | other (details : String)
  deriving DecidableEq

/-- The reason as messages give it. -/
def ReadError.message : ReadError → String
  | .notFound => "No such file or directory (os error 2)"
  | .notADirectory => "Not a directory (os error 20)"
  | .isADirectory => "Is a directory (os error 21)"
  | .invalidUtf8 => "stream did not contain valid UTF-8"
  | .other details => details

/-- What a name in a folder stands for. -/
inductive Folder.Entry where
  | file (content : ByteArray)
  | directory

/-- The entries of a folder by their paths, from the folder on.  The directories on the way to
an entry are there as well. -/
structure Folder where
  entries : List (List String × Folder.Entry)

namespace Folder

/-- The entry with the given path. -/
def entry? (folder : Folder) (path : List String) : Option Entry :=
  match folder.entries.lookup path with
  | some entry => some entry
  | none => if folder.entries.any fun (other, _) => path.isPrefixOf other then some .directory
    else none

/-- Where a walk stands. -/
inductive Place where
  | within (path : List String)
  | outside
  | atFile (content : ByteArray)

/-- One step of a walk. -/
def step (folder : Folder) (place : Place) (part : String) : Except ReadError Place :=
  match place with
  | .atFile _ => .error .notADirectory
  | .outside => if Path.leadsNowhere part || part == ".." then .ok .outside else .error .notFound
  | .within path =>
    if Path.leadsNowhere part then .ok (.within path)
    else if part == ".." then
      if path.isEmpty then .ok .outside else .ok (.within path.dropLast)
    else
      match folder.entry? (path ++ [part]) with
      | some (.file content) => .ok (.atFile content)
      | some .directory => .ok (.within (path ++ [part]))
      | none => .error .notFound

/-- The content of the file that a path leads to. -/
def read (folder : Folder) (path : String) : Except ReadError ByteArray := do
  if path.isEmpty then throw .notFound
  let start : Place := if path.toList.head? == some '/' then .outside else .within []
  match ← (Path.parts path).foldlM folder.step start with
  | .atFile content => return content
  | _ => throw .isADirectory

end Folder

end Frontend
