import SheetGloss.File.Path
import SheetGloss.Text.Utf8

/-!
# Folders

Where files are read from, and why a file cannot be read.
-/

namespace SheetGloss

/-- Why a file cannot be read. -/
inductive FileFault where
  /-- Nothing has this path. -/
  | notFound
  /-- A part of the path that should be a folder is a file. -/
  | notFolder
  | isFolder
  /-- The path, or a part of it that is looked up, has more bytes than a name may have. -/
  | nameTooLong
  /-- The path has a zero character, which no name can have. -/
  | zeroInPath
  /-- Another reason, in the words of the system. -/
  | other (reason : String)
  deriving DecidableEq, Repr

/-- The wording of a file fault. -/
def FileFault.message : FileFault → String
  | notFound => "No such file or directory (os error 2)"
  | notFolder => "Not a directory (os error 20)"
  | isFolder => "Is a directory (os error 21)"
  | nameTooLong => "File name too long (os error 36)"
  | zeroInPath => "file name contained an unexpected NUL byte"
  | other reason => reason

/-- What reading the file at a path gives. -/
abbrev FileReader := Text → Except FileFault Bytes

/-- The files of a folder, each with its name. -/
abbrev Folder := List (Text × Bytes)

namespace Folder

/-- The most bytes that the name of a file or folder has. -/
def maxName : Nat := 255

/-- The most bytes that a path has. -/
def maxPath : Nat := 4095

/-- What a path has led to so far. -/
inductive Place where
  | file (bytes : Bytes)
  /-- A folder inside, with the parts of its path. -/
  | inside (parts : List Text)
  /-- A folder outside, about whose files nothing is known. -/
  | outside
  deriving DecidableEq, Repr

/-- What the parts of a path lead to; the file that was written last under a name counts. -/
def lookup (folder : Folder) (parts : List Text) : Except FileFault Place :=
  match folder.reverse.find? fun entry => Path.parts entry.1 == parts with
  | some (_, bytes) => .ok (.file bytes)
  | none =>
    if folder.any fun entry => parts.isPrefixOf (Path.parts entry.1) then .ok (.inside parts)
    else .error .notFound

/-- Goes on to the next part of a path. Nothing follows a file, not even an empty part. -/
def walk (folder : Folder) (place : Place) (part : Text) : Except FileFault Place :=
  match place with
  | .file _ => .error .notFolder
  | .inside parts =>
    if part = [] || part = ['.'] then .ok place
    else if part = ['.', '.'] then .ok (if parts = [] then .outside else .inside parts.dropLast)
    else if maxName < (Utf8.encode part).length then .error .nameTooLong
    else folder.lookup (parts ++ [part])
  | .outside =>
    if part = [] || part = ['.'] || part = ['.', '.'] then .ok place
    else if maxName < (Utf8.encode part).length then .error .nameTooLong
    else .error .notFound

/-- Reads the file at a path that starts from the folder, or with a slash from outside. -/
def read (folder : Folder) (path : Text) : Except FileFault Bytes :=
  if path.contains '\x00' then .error .zeroInPath
  else if path = [] then .error .notFound
  else if maxPath < (Utf8.encode path).length then .error .nameTooLong
  else do
    let start := if path.head? = some '/' then .outside else .inside []
    match ← (Text.splitAll '/' path).foldlM folder.walk start with
    | .file bytes => .ok bytes
    | _ => .error .isFolder

end Folder

end SheetGloss
