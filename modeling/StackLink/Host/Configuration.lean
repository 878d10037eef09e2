import StackLink.Host.World
import StackLink.Config.Manifest

/-!
# Finding the configuration

A program reads its configuration from `v4link.toml` in a directory it is told,
or else in the nearest directory, from the working directory up to the root, that
has one. A relative symbol database named in the file lies in the file's
directory; one under the home directory (`~`) is left for later.
-/

namespace StackLink

/-- Why the configuration could not be loaded. -/
inductive LoadError where
  | read (path : String) (e : FileError)
  | parse (path : String) (e : ConfigError)

/-- The error's text. -/
def LoadError.message : LoadError → String
  | .read p e => "cannot read " ++ p ++ ": " ++ e.message
  | .parse p e => "parse error in " ++ p ++ ": " ++ e.message

namespace World

/-- Reads the configuration file in a directory. -/
def loadManifest (w : World) (dir : String) : Except LoadError Manifest := do
  let path := Path.join [dir, "v4link.toml"]
  let data ← (w.disk.read w.cwd path).mapError (.read path)
  let m ← (Manifest.parse (Utf8.lossy data)).mapError (.parse path)
  let home := Path.abs w.cwd dir
  let db := m.symbolsDb
  let db := if db.isEmpty || Path.isAbs db || db.startsWith "~" then db else Path.join [home, db]
  pure { m with dir := home, symbolsDb := db }

/-- Reads the configuration file of the nearest directory, from the working directory up,
that has one. -/
def findManifest (w : World) : Except LoadError (Option Manifest) :=
  match (Path.ancestors (Path.abs w.cwd ".")).reverse.find? (fun d =>
      w.disk.exists? (Path.join [d, "v4link.toml"])) with
  | some d => (w.loadManifest d).map some
  | none => .ok none

/-- The configuration in a directory, or, for none, the nearest one found. -/
def manifest (w : World) (dir : String) : Except LoadError (Option Manifest) :=
  if dir.isEmpty then w.findManifest else (w.loadManifest dir).map some

end World

end StackLink
