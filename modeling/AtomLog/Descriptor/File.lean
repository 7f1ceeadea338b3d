import AtomLog.Descriptor.Schema
import AtomLog.Files.Disk
/-!
Descriptor sets on a disk.
-/
namespace AtomLog.Descriptor

inductive LoadError
  | file (path : String) (cause : FileError)
  /-- The bytes are no descriptor set. -/
  | invalid
  deriving DecidableEq, Repr, Inhabited

def Pool.load (d : Disk) (path : String) : Except LoadError Pool := do
  let content ← (d.read path).mapError (.file path)
  match read? content with
  | some p => .ok p
  | none => .error .invalid

end AtomLog.Descriptor
