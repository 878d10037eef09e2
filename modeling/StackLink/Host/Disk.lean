import StackLink.Host.Path
import StackLink.Host.Symbols

/-!
# The host's disk

A disk holds files under absolute paths, and directories. A file holds bytes,
a symbol database, or a log. Paths given to an operation are read under a
working directory, and a failure names the path as it was given.

Opening a path walks it from the root: the first element that is a file where a
directory is needed makes it fail with `not a directory`, the first one missing
with `no such file or directory`. Reading a directory fails with `is a
directory`, and so does writing over one. Making a directory makes its missing
parents first, and fails on the first of them that is a file.
-/

namespace StackLink

/-- Why a file operation failed. -/
inductive FileFault where
  | notFound
  | notDirectory
  | isDirectory
  deriving DecidableEq, Repr

/-- The fault's text. -/
def FileFault.message : FileFault → String
  | .notFound => "no such file or directory"
  | .notDirectory => "not a directory"
  | .isDirectory => "is a directory"

/-- A failed file operation: what was done (`open`, `read`, `mkdir`), on which path as
given, and why it failed. -/
structure FileError where
  op : String
  path : String
  fault : FileFault
  deriving DecidableEq, Repr

/-- The error's text. -/
def FileError.message (e : FileError) : String := s!"{e.op} {e.path}: {e.fault.message}"

/-- What a file holds. -/
inductive Content where
  | bytes (b : List UInt8)
  /-- A database of the symbols of devices. -/
  | symbols (t : SymbolTable)
  /-- A log, whose lines are not kept. -/
  | log
  deriving Repr

/-- Files and directories by absolute path; every parent of an entry is a directory. -/
structure Disk where
  files : List (String × Content) := []
  dirs : List String := ["/"]
  deriving Repr

namespace Disk

/-- The content of the file at an absolute path. -/
def file? (d : Disk) (p : String) : Option Content := d.files.lookup p

/-- Whether an absolute path is a directory. -/
def isDir (d : Disk) (p : String) : Bool := d.dirs.contains p

/-- Whether anything is at an absolute path. -/
def exists? (d : Disk) (p : String) : Bool := (d.file? p).isSome || d.isDir p

/-- Why the path could not be opened, walking from the root: a file in the way, or the
first missing element. -/
def walkFault (d : Disk) (p : String) : FileFault :=
  let ups := (Path.ancestors p).dropLast
  match ups.find? (fun a => (d.file? a).isSome || !d.isDir a) with
  | some a => if (d.file? a).isSome then .notDirectory else .notFound
  | none => .notFound

/-- Adds a directory and all its parents. -/
def addDir (d : Disk) (p : String) : Disk :=
  { d with dirs := (Path.ancestors p).foldl (fun ds a => if ds.contains a then ds else ds ++ [a]) d.dirs }

/-- Sets the content of the file at an absolute path. -/
def put (d : Disk) (p : String) (c : Content) : Disk :=
  if (d.file? p).isSome then { d with files := d.files.map fun (q, old) => (q, if q = p then c else old) }
  else { d with files := d.files ++ [(p, c)] }

/-- Reads the bytes of a file; a database or a log reads as nothing. -/
def read (d : Disk) (cwd path : String) : Except FileError (List UInt8) :=
  let p := Path.abs cwd path
  match d.file? p with
  | some (.bytes b) => .ok b
  | some _ => .ok []
  | none => if d.isDir p then .error ⟨"read", path, .isDirectory⟩ else .error ⟨"open", path, d.walkFault p⟩

/-- Writes bytes to a file, which must be in a directory that exists. -/
def write (d : Disk) (cwd path : String) (b : List UInt8) : Except FileError Disk :=
  let p := Path.abs cwd path
  if d.isDir p then .error ⟨"open", path, .isDirectory⟩
  else if d.isDir (Path.dir p) then .ok (d.put p (.bytes b))
  else .error ⟨"open", path, d.walkFault p⟩

/-- The given path without its last element and the slashes before it; none when that
leaves at most the root. -/
def parentOf (path : String) : Option String :=
  let cs := (path.toList.reverse.dropWhile (· = '/'))
  let rest := cs.dropWhile (· ≠ '/')
  if rest.length > 1 then some (String.ofList (rest.drop 1).reverse) else none

/-- Makes a directory and its missing parents. -/
def mkdirAll (d : Disk) (cwd path : String) : Except FileError Disk :=
  go path.length path d
where
  /-- Makes `path` after its parents, with fuel for each of its elements. -/
  go : Nat → String → Disk → Except FileError Disk
    | 0, _, d => .ok d
    | k + 1, path, d =>
      let p := Path.abs cwd path
      if d.isDir p then .ok d
      else if (d.file? p).isSome then .error ⟨"mkdir", path, .notDirectory⟩
      else do
        let d ← match parentOf path with
          | some up => go k up d
          | none => .ok d
        if d.isDir (Path.dir p) then .ok (d.addDir p) else .error ⟨"mkdir", path, d.walkFault p⟩

/-- The symbol database at an absolute path, made empty when the path holds no database. -/
def symbols (d : Disk) (p : String) : SymbolTable :=
  match d.file? p with
  | some (.symbols t) => t
  | _ => {}

/-- Starts a log file at a path, in a directory that exists; a file already there is kept. -/
def startLog (d : Disk) (cwd path : String) : Disk :=
  let p := Path.abs cwd path
  if (d.file? p).isSome || d.isDir p || !d.isDir (Path.dir p) then d else d.put p .log

end Disk

end StackLink
