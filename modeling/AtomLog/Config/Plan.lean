import AtomLog.Atom.Selection
import AtomLog.Config.Basic
import AtomLog.Text.Split
/-!
Plans: configurations that name one source and some output, with every default filled in.
-/
namespace AtomLog

/-- Where the schema comes from. -/
inductive Source
  | schema (path : String)
  | descriptorSet (path container : String)
  deriving DecidableEq, Repr, Inhabited

/-- The paths of the outputs that are asked for. -/
structure Outputs where
  cpp : Option String := none
  header : Option String := none
  java : Option String := none
  jni : Option String := none
  rust : Option String := none
  deriving DecidableEq, Repr, Inhabited

namespace Outputs

def isEmpty (o : Outputs) : Bool :=
  o.cpp.isNone && o.header.isNone && o.java.isNone && o.jni.isNone && o.rust.isNone

end Outputs

structure Plan where
  source : Source
  selection : Selection
  outputs : Outputs
  cppNamespace : String
  importHeader : String
  javaPackage : String
  javaClass : String
  deriving DecidableEq, Repr, Inhabited

/-- Why a configuration is no plan. -/
inductive ConfigError
  | containerWithoutDescriptors
  | twoSources
  | noSource
  | noOutput
  | moduleNeedsNamespace
  | moduleNeedsImportHeader
  | moduleNeedsJavaPackage
  | emptyNamespaceComponent (cppNamespace : String)
  deriving DecidableEq, Repr, Inhabited

def ConfigError.message : ConfigError → String
  | .containerWithoutDescriptors => "--container only applies to --descriptor-set"
  | .twoSources => "Supply only one of --schema and --descriptor-set"
  | .noSource => "Must supply --schema or --descriptor-set"
  | .noOutput =>
    "No output requested; supply at least one of --cpp, --header, --java, --jni, --rust"
  | .moduleNeedsNamespace => "Must supply --namespace if supplying a specific module"
  | .moduleNeedsImportHeader => "Must supply --import-header if supplying a specific module"
  | .moduleNeedsJavaPackage => "Must supply --java-package if supplying a specific module"
  | .emptyNamespaceComponent ns => s!"Invalid namespace '{ns}': empty component"

namespace Plan

def defaultContainer : String := "android.os.statsd.Atom"
def defaultNamespace : String := "android,util"
def defaultImportHeader : String := "statslog.h"
def defaultJavaPackage : String := "android.util"
def defaultJavaClass : String := "StatsLogInternal"

end Plan

namespace Config

def source (c : Config) : Except ConfigError Source :=
  match c.input.schema, c.input.descriptorSet with
  | some schema, none =>
    if c.input.container.isSome then .error .containerWithoutDescriptors else .ok (.schema schema)
  | none, some set => .ok (.descriptorSet set (c.input.container.getD Plan.defaultContainer))
  | some _, some _ => .error .twoSources
  | none, none => .error .noSource

def outputs (c : Config) : Outputs where
  cpp := c.output.cpp
  header := c.output.header
  java := c.output.java
  jni := c.output.jni
  rust := c.output.rust

def selection (c : Config) : Selection := Selection.parse (c.output.module.getD "")

/-- What a configuration for one module must set, so that its outputs do not replace those for all
atoms. -/
def checkModule (c : Config) : Except ConfigError Unit :=
  let o := c.outputs
  if c.selection.isDefault then .ok ()
  else if (o.cpp.isSome || o.header.isSome) && c.native.cppNamespace.isNone then
    .error .moduleNeedsNamespace
  else if o.cpp.isSome && c.native.importHeader.isNone then .error .moduleNeedsImportHeader
  else if o.java.isSome && c.java.package.isNone then .error .moduleNeedsJavaPackage
  else .ok ()

/-- Whether all components of a namespace have a name. -/
def isNamespace (ns : String) : Bool :=
  (Text.split ',' ns).all (fun part => !(Text.trim part).isEmpty)

def checkNamespace (c : Config) : Except ConfigError Unit :=
  match c.native.cppNamespace with
  | some ns => if isNamespace ns then .ok () else .error (.emptyNamespaceComponent ns)
  | none => .ok ()

/-- The plan of a configuration, or the first reason why it has none. -/
def plan (c : Config) : Except ConfigError Plan := do
  let source ← c.source
  if c.outputs.isEmpty then throw .noOutput
  c.checkModule
  c.checkNamespace
  return {
    source := source
    selection := c.selection
    outputs := c.outputs
    cppNamespace := c.native.cppNamespace.getD Plan.defaultNamespace
    importHeader := c.native.importHeader.getD Plan.defaultImportHeader
    javaPackage := c.java.package.getD Plan.defaultJavaPackage
    javaClass := c.java.className.getD Plan.defaultJavaClass }

end Config

end AtomLog
