import StackMachine.Image.Reader

/-! What surrounds a command: its standard input and the files it can open. -/

namespace StackMachine

/-- The result of opening a file. -/
inductive Opening where
  | opened (source : Source)
  /-- The reason why the file cannot be opened. -/
  | refused (reason : Bytes)
  deriving DecidableEq

/-- Standard input and the files by name. -/
structure Host where
  stdin : Source
  openFile : String → Opening

/-- What a path can fail with. -/
inductive PathFault where
  | missing
  | notDirectory
  | isDirectory
  | nameTooLong
  deriving DecidableEq, Repr

namespace PathFault

/-- The message of a fault. -/
def message : PathFault → String
  | missing => "no such file or directory"
  | notDirectory => "not a directory"
  | isDirectory => "is a directory"
  | nameTooLong => "file name too long"

/-- The message of a fault in an operation on a path. -/
def during (operation path : String) (fault : PathFault) : Bytes :=
  utf8 s!"{operation} {path}: {fault.message}"

end PathFault

/-- Named files, all in the working directory. -/
abbrev Directory := List (String × Bytes)

namespace Directory

/-- Where a path leads. -/
inductive Place where
  /-- The working directory, or one outside it. -/
  | directory (working : Bool)
  | file (contents : Bytes)

/-- Follows the parts of a path; nothing is known of directories other than the working one. -/
def follow (files : Directory) : Place → List String → Except PathFault Place
  | place, [] => .ok place
  | .file _, _ :: _ => .error .notDirectory
  | .directory working, name :: rest =>
    if name = "" ∨ name = "." then files.follow (.directory working) rest
    else if name = ".." then files.follow (.directory false) rest
    else if 255 < name.utf8ByteSize then .error .nameTooLong
    else
      match if working then files.lookup name else none with
      | some contents => files.follow (.file contents) rest
      | none => .error .missing

/-- Opens a path; a directory can be opened, but fails when it is read. -/
def openFile (files : Directory) (path : String) : Opening :=
  let found : Except PathFault Place :=
    if path = "" then .error .missing
    else if 4095 < path.utf8ByteSize then .error .nameTooLong
    else files.follow (.directory (path.toList.head? ≠ some '/')) (path.splitOn "/")
  match found with
  | .error fault => .refused (fault.during "open" path)
  | .ok (.file contents) => .opened ⟨contents, none⟩
  | .ok (.directory _) => .opened ⟨[], some (PathFault.isDirectory.during "read" path)⟩

end Directory

/-- A host with a standard input and the files of a directory. -/
def Host.ofFiles (stdin : Bytes) (files : Directory) : Host :=
  ⟨⟨stdin, none⟩, files.openFile⟩

end StackMachine
