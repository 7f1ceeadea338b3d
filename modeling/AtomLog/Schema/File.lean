import AtomLog.Files.Disk
import AtomLog.Schema.Document
/-!
Schema files on a disk.
-/
namespace AtomLog

inductive SchemaError
  | file (path : String) (cause : FileError)
  | document (format : Format) (misfit : Misfit)
  deriving DecidableEq, Repr, Inhabited

/-- The message of a file that could not be read. -/
def readMessage (what path : String) (e : FileError) : String :=
  s!"failed to read {what} {Text.quoted path}: {e.message}"

/-- Read a schema file: JSON if it is called so, and TOML otherwise. -/
def Schema.load (d : Disk) (path : String) : Except SchemaError Schema := do
  let text ← (d.readText path).mapError (.file path)
  if Path.hasExtension "json" path then (ofJson text).mapError (.document .json)
  else (ofToml text).mapError (.document .toml)

end AtomLog
