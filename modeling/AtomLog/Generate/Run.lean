import AtomLog.Config.Document
import AtomLog.Descriptor.File
import AtomLog.Generate.Render
import AtomLog.Schema.File
/-!
Running the generator on a disk.

Nothing is written unless every output has been rendered. The outputs are written in order, and the
system can be at fault at any of them.
-/
namespace AtomLog

/-- Why a run failed. -/
inductive RunError
  | readConfig (path : String) (cause : FileError)
  | parseConfig (misfit : Misfit)
  | invalidConfig (cause : ConfigError)
  | loadSchema (path : String) (cause : SchemaError)
  | loadDescriptors (path : String) (cause : Descriptor.LoadError)
  | readAtoms (container : String) (cause : Descriptor.ContainerError)
  | render (cause : RenderError)
  | makeDirectory (path : String) (cause : FileError)
  | writeOutput (path : String) (cause : FileError)
  deriving DecidableEq, Repr, Inhabited

def Config.parse (text : String) : Except RunError Config := (ofToml text).mapError .parseConfig

/-- The config at a path, or the default one without a path. -/
def Config.load (d : Disk) : Option String → Except RunError Config
  | none => .ok {}
  | some path => do parse (← (d.readText path).mapError (.readConfig path))

def Source.load (d : Disk) : Source → Except RunError Schema
  | .schema path => (Schema.load d path).mapError (.loadSchema path)
  | .descriptorSet path container => do
    let pool ← (Descriptor.Pool.load d path).mapError (.loadDescriptors path)
    (pool.schema container).mapError (.readAtoms container)

namespace Disk

/-- Write an output, in a directory that is made where it is missing. -/
def writeOutput (d : Disk) (fault : Option Fault) (path text : String) :
    Disk × Except RunError Unit :=
  let directory := (Path.parent? path).getD ""
  match d.makeDirectories fault (Path.ancestors (directory.length + 1) directory) with
  | (d, .error e) => (d, .error (.makeDirectory directory e))
  | (d, .ok ()) =>
    match d.write fault path (Text.bytes text) with
    | (d, .ok ()) => (d, .ok ())
    | (d, .error e) => (d, .error (.writeOutput path e))

/-- Write outputs in order, up to the first that fails. -/
def writeOutputs (d : Disk) (faults : Faults) :
    List (String × String) → Disk × Except RunError Unit
  | [] => (d, .ok ())
  | (path, text) :: rest =>
    match d.writeOutput (faults 0) path text with
    | (d, .ok ()) => d.writeOutputs faults.next rest
    | r => r

end Disk

namespace Plan

/-- The paths that a plan reads and writes. -/
def paths (p : Plan) : List String :=
  (match p.source with
    | .schema path => path
    | .descriptorSet path _ => path) :: OutputKind.all.filterMap p.outputs.path?

/-- The outputs of a plan, rendered from the schema that it names. -/
def outputTexts (p : Plan) (d : Disk) : Except RunError (List (String × String)) := do
  let s ← p.source.load d
  (p.render s).mapError .render

/-- Load the schema, render all outputs and write them. -/
def run (p : Plan) (d : Disk) (faults : Faults := .none) : Disk × Except RunError Unit :=
  match p.outputTexts d with
  | .ok files => d.writeOutputs faults files
  | .error e => (d, .error e)

end Plan

namespace Config

/-- Run with a configuration. -/
def run (c : Config) (d : Disk) (faults : Faults := .none) : Disk × Except RunError Unit :=
  match c.plan with
  | .ok p => p.run d faults
  | .error e => (d, .error (.invalidConfig e))

/-- Run with the config at a path under a layer of overrides. -/
def runFile (path : Option String) (overrides : Config) (d : Disk) (faults : Faults := .none) :
    Disk × Except RunError Unit :=
  match load d path with
  | .ok c => (c.merge overrides).run d faults
  | .error e => (d, .error e)

end Config

end AtomLog
