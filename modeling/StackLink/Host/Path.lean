/-!
# Paths

Slash-separated file paths, handled as text, with no look at a disk. A clean
path has no empty or `.` element and no `..` after a name; the empty path
cleans to `.`. Joining cleans the result, and a path is made absolute by joining
it under a working directory unless it already starts at the root.
-/

namespace StackLink.Path

/-- Whether a path starts at the root. -/
def isAbs (p : String) : Bool := p.startsWith "/"

/-- The elements of a path with `..` resolved against the names before it; a rooted path
drops a `..` at its root. -/
def resolve (rooted : Bool) : List String → List String → List String
  | acc, [] => acc.reverse
  | acc, e :: es =>
    if e.isEmpty || e = "." then resolve rooted acc es
    else if e = ".." then
      match acc with
      | top :: rest => if top = ".." then resolve rooted (e :: acc) es else resolve rooted rest es
      | [] => if rooted then resolve rooted [] es else resolve rooted [e] es
    else resolve rooted (e :: acc) es

/-- The shortest path naming the same file by purely lexical rules. -/
def clean (p : String) : String :=
  let rooted := isAbs p
  let parts := resolve rooted [] ((p.toList.splitOn '/').map String.ofList)
  let body := "/".intercalate parts
  if rooted then "/" ++ body else if body.isEmpty then "." else body

/-- Paths joined by slashes and cleaned; empty parts are skipped, and nothing at all is
the empty path. -/
def join (parts : List String) : String :=
  match parts.filter (!·.isEmpty) with
  | [] => ""
  | ps => clean ("/".intercalate ps)

/-- A path made absolute under a working directory. -/
def abs (cwd p : String) : String :=
  if isAbs p then clean p else join [cwd, p]

/-- Everything up to the last slash, cleaned: the directory holding the path's last
element. -/
def dir (p : String) : String :=
  let cs := p.toList
  clean (String.ofList (cs.take (cs.length - (cs.reverse.takeWhile (· ≠ '/')).length)))

/-- The last element of a path, trailing slashes ignored: `.` for the empty path and
`/` for the root. -/
def base (p : String) : String :=
  if p.isEmpty then "."
  else
    let trimmed := (p.toList.reverse.dropWhile (· = '/'))
    if trimmed.isEmpty then "/"
    else String.ofList (trimmed.takeWhile (· ≠ '/')).reverse

/-- The suffix of the last element from its last dot, or nothing when it has no dot. -/
def ext (p : String) : String :=
  let last := (p.toList.reverse.takeWhile (· ≠ '/'))
  if last.contains '.' then String.ofList ('.' :: (last.takeWhile (· ≠ '.')).reverse) else ""

/-- A path with its extension replaced. -/
def replaceExt (p e : String) : String :=
  String.ofList (p.toList.take (p.length - (ext p).length)) ++ e

/-- The directories from the root down to a clean absolute path, itself included. -/
def ancestors (p : String) : List String :=
  let parts := (p.splitOn "/").filter (!·.isEmpty)
  "/" :: (List.range parts.length).map fun i => "/" ++ "/".intercalate (parts.take (i + 1))

end StackLink.Path
