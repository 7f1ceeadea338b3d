import AtomLog.Collation.Basic
import AtomLog.Config.Plan
import AtomLog.Emit.Java
import AtomLog.Emit.Jni
import AtomLog.Emit.Native
import AtomLog.Emit.Rust
/-!
Rendering a plan: the texts of all outputs that are asked for, before any is written.
-/
namespace AtomLog

/-- Why a schema cannot be rendered. -/
inductive RenderError
  | collation (errors : List CollationError)
  | selection (cause : EmptyModule)
  deriving DecidableEq, Repr, Inhabited

def RenderError.message : RenderError → String
  | .collation errors =>
    s!"Schema has {errors.length} error(s):\n" ++
      "\n".intercalate (errors.map (fun e => "  " ++ e.message))
  | .selection e => s!"Failed to select atoms for module {e.name}"

/-- The kinds of output, in the order in which they are written. -/
inductive OutputKind
  | header
  | cpp
  | java
  | jni
  | rust
  deriving DecidableEq, Repr, Inhabited

namespace OutputKind

def all : List OutputKind := [.header, .cpp, .java, .jni, .rust]

end OutputKind

/-- The path of an output, if it is asked for. -/
def Outputs.path? (o : Outputs) : OutputKind → Option String
  | .header => o.header
  | .cpp => o.cpp
  | .java => o.java
  | .jni => o.jni
  | .rust => o.rust

namespace Plan

def native (p : Plan) : Emit.Native.Options := ⟨p.cppNamespace, p.importHeader⟩

def java (p : Plan) : Emit.Java.Options := ⟨p.javaPackage, p.javaClass⟩

def text (p : Plan) (ctx : Emit.Context) : OutputKind → String
  | .header => Emit.Native.header ctx p.native
  | .cpp => Emit.Native.source ctx p.native
  | .java => Emit.Java.classFile ctx p.java
  | .jni => Emit.Jni.source p.java
  | .rust => Emit.Rust.moduleFile ctx

/-- What the emitters read: the selected atoms of a schema without errors. -/
def context (p : Plan) (s : Schema) : Except RenderError Emit.Context := do
  let c := Collation.collate .standard s
  if !c.errors.isEmpty then throw (.collation c.errors)
  let catalog ← (c.catalog.select p.selection).mapError .selection
  return ⟨catalog, c.attribution, p.selection⟩

/-- The outputs that are asked for, with their paths. -/
def render (p : Plan) (s : Schema) : Except RenderError (List (String × String)) := do
  let ctx ← p.context s
  return OutputKind.all.filterMap (fun k => (p.outputs.path? k).map (fun path => (path, p.text ctx k)))

end Plan

end AtomLog
