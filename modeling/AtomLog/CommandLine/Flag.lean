import AtomLog.Config.Basic
/-!
The flags of the command line that take a value.
-/
namespace AtomLog.CommandLine

inductive Flag
  | config
  | schema
  | descriptorSet
  | container
  | cpp
  | header
  | java
  | jni
  | rust
  | module
  | cppNamespace
  | importHeader
  | javaPackage
  | javaClass
  deriving DecidableEq, Repr, Inhabited

namespace Flag

def all : List Flag :=
  [.config, .schema, .descriptorSet, .container, .cpp, .header, .java, .jni, .rust, .module,
    .cppNamespace, .importHeader, .javaPackage, .javaClass]

/-- The name after two hyphens. -/
def long : Flag → String
  | .config => "config"
  | .schema => "schema"
  | .descriptorSet => "descriptor-set"
  | .container => "container"
  | .cpp => "cpp"
  | .header => "header"
  | .java => "java"
  | .jni => "jni"
  | .rust => "rust"
  | .module => "module"
  | .cppNamespace => "namespace"
  | .importHeader => "import-header"
  | .javaPackage => "java-package"
  | .javaClass => "java-class"

/-- The letter after one hyphen. -/
def short? : Flag → Option Char
  | .config => some 'c'
  | .schema => some 's'
  | .module => some 'm'
  | _ => none

/-- Whether the value is a path, which is never empty. -/
def isPath : Flag → Bool
  | .config | .schema | .descriptorSet | .cpp | .header | .java | .jni | .rust => true
  | _ => false

def help : Flag → String
  | .config => "Generator config file; flags override its values"
  | .schema => "Atom schema file (.toml or .json)"
  | .descriptorSet => "Compiled descriptor set"
  | .container => "Full name of the container message in the descriptor set"
  | .cpp => "Output path for the native source file"
  | .header => "Output path for the native header file"
  | .java => "Output path for the Java class"
  | .jni => "Output path for the JNI registration source"
  | .rust => "Output path for the Rust module"
  | .module => "Only generate for atoms tagged with this module"
  | .cppNamespace => "Namespaces with commas between"
  | .importHeader => "Header the native source includes"
  | .javaPackage => "Package of the generated Java class"
  | .javaClass => "Name of the generated Java class"

/-- How the value is called in messages. -/
def placeholder (f : Flag) : String :=
  String.ofList (f.long.toList.map (fun c => if c == '-' then '_' else c.toUpper))

def usage (f : Flag) : String := s!"--{f.long} <{f.placeholder}>"

end Flag

/-- The layer of a configuration that flags set. -/
def overrides (value? : Flag → Option String) : Config where
  input :=
    { schema := value? .schema
      descriptorSet := value? .descriptorSet
      container := value? .container }
  output :=
    { cpp := value? .cpp
      header := value? .header
      java := value? .java
      jni := value? .jni
      rust := value? .rust
      module := value? .module }
  native :=
    { cppNamespace := value? .cppNamespace
      importHeader := value? .importHeader }
  java :=
    { package := value? .javaPackage
      className := value? .javaClass }

end AtomLog.CommandLine
