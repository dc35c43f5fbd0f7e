import Takings.Text.Split
import Takings.Text.Utf8

/-!
# Files

What opening a path leads to, and what there is to read then. The files in the working directory
are known by their names; nothing is known to be in the directories above it.
-/
namespace Takings.Connection

/-- Why a path cannot be opened. -/
inductive FileError where
  | nulInName
  | nameTooLong
  | notFound
  /-- The path goes on after a file. -/
  | notDirectory
  /-- Whatever else the system has against it, in its words. -/
  | refused (message : String)
  deriving DecidableEq, Repr

def FileError.message : FileError → String
  | nulInName => "file name contained an unexpected NUL byte"
  | nameTooLong => "File name too long (os error 36)"
  | notFound => "No such file or directory (os error 2)"
  | notDirectory => "Not a directory (os error 20)"
  | refused message => message

/-- What an opened path has to read. -/
inductive Content where
  | bytes (bs : List UInt8)
  /-- Nothing, and reading ends in an error with this message. -/
  | unreadable (message : String)
  deriving DecidableEq, Repr

/-- A directory can be opened, but not read. -/
def Content.directory : Content :=
  .unreadable "Is a directory (os error 21)"

/-- What opening each path leads to. -/
structure Files where
  lookup : String → Except FileError Content

/-- The texts of the files in the working directory by their names. -/
abbrev Folder := String → Option String

namespace Folder

/-- A place on the way along a path. -/
inductive Place where
  | working
  | above
  | file (text : String)
  deriving DecidableEq, Repr

def Place.content : Place → Content
  | working | above => .directory
  | file text => .bytes (Text.Utf8.encode text.toList)

/-- The place that one part of a path leads to. A name has 255 bytes at most. -/
def follow (folder : Folder) (p : Place) (part : List Char) : Except FileError Place :=
  let name := String.ofList part
  match p with
  | .file _ => .error .notDirectory
  | p =>
    if name = "" ∨ name = "." then .ok p
    else if name = ".." then .ok .above
    else if 255 < name.utf8ByteSize then .error .nameTooLong
    else
      match p, folder name with
      | .working, some text => .ok (.file text)
      | _, _ => .error .notFound

/-- What a path leads to. A path has 4095 bytes at most, and the null device is an empty file. -/
def lookup (folder : Folder) (path : String) : Except FileError Content :=
  let cs := path.toList
  if cs.contains '\x00' then .error .nulInName
  else if path = "" then .error .notFound
  else if 4095 < path.utf8ByteSize then .error .nameTooLong
  else if path = "/dev/null" then .ok (.bytes [])
  else
    let start : Place := if cs.head? = some '/' then .above else .working
    ((Text.split '/' cs).foldlM folder.follow start).map Place.content

instance : Coe Folder Files :=
  ⟨fun folder => ⟨folder.lookup⟩⟩

end Folder

end Takings.Connection
