import ScriptHost.Table

/-!
# Files

The files of the working directory, and the few places outside of it that always exist.
-/

namespace ScriptHost.Machine

/-- Why a file cannot be read. -/
inductive FileError
  | notFound
  | notDirectory
  | isDirectory
  | nameTooLong
  | badName
deriving DecidableEq, Repr

/-- The text of a file error. -/
def FileError.message : FileError → String
  | .notFound => "No such file or directory (os error 2)"
  | .notDirectory => "Not a directory (os error 20)"
  | .isDirectory => "Is a directory (os error 21)"
  | .nameTooLong => "File name too long (os error 36)"
  | .badName => "file name contained an unexpected NUL byte"

/-- What a path leads to. -/
inductive Node
  | file (text : String)
  | directory
deriving DecidableEq, Repr

/-- Files by their paths from the working directory. -/
abbrev Files := Table String String

/-- Directories that exist everywhere. -/
def commonDirectories : List String :=
  ["/bin", "/dev", "/etc", "/home", "/proc", "/root", "/tmp", "/usr", "/usr/bin", "/var"]

/-- Whether a path is the beginning of the path of a file. -/
def isDirectory (files : Files) (path : List String) : Bool :=
  files.keys.any fun name =>
    let parts := name.splitOn "/"
    path.length < parts.length && parts.take path.length == path

/-- Follow the parts of a path from a directory below the working directory, or from one outside
of it. -/
def follow (files : Files) : Option (List String) → List String → Except FileError Node
  | _, [] => .ok .directory
  | none, part :: rest =>
    if part = "" ∨ part = "." ∨ part = ".." then follow files none rest
    else .error .notFound
  | some directory, part :: rest =>
    if part = "" ∨ part = "." then follow files (some directory) rest
    else if part = ".." then
      follow files (if directory.isEmpty then none else some directory.dropLast) rest
    else if 255 < part.utf8ByteSize then .error .nameTooLong
    else
      let path := directory ++ [part]
      match files.get? ("/".intercalate path) with
      | some text => if rest.isEmpty then .ok (.file text) else .error .notDirectory
      | none => if isDirectory files path then follow files (some path) rest else .error .notFound

/-- A path with an absolute beginning, without the parts that lead nowhere. -/
def absolute (parts : List String) : String :=
  "/" ++ "/".intercalate (parts.filter fun part => part ≠ "" ∧ part ≠ ".")

/-- What a path leads to. -/
def lookup (files : Files) (path : String) : Except FileError Node :=
  if path.toList.contains '\x00' then .error .badName
  else if path.isEmpty then .error .notFound
  else
    match path.splitOn "/" with
    | "" :: parts =>
      let path := absolute parts
      if path = "/dev/null" then .ok (.file "")
      else if path = "/" ∨ commonDirectories.contains path then .ok .directory
      else .error .notFound
    | parts => follow files (some []) parts

/-- Whether a path leads anywhere. -/
def fileExists (files : Files) (path : String) : Bool :=
  match lookup files path with
  | .ok _ => true
  | .error _ => false

/-- The text of a file. -/
def readFile (files : Files) (path : String) : Except FileError String :=
  match lookup files path with
  | .ok (.file text) => .ok text
  | .ok .directory => .error .isDirectory
  | .error e => .error e

end ScriptHost.Machine
