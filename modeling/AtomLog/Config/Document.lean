import AtomLog.Config.Basic
import AtomLog.Document.Text
/-!
Config files: the shapes in which the sections are written. A section has no other members.
-/
namespace AtomLog.Config

def path : Fit (Option String) := .optional .path

def string : Fit (Option String) := .optional .string

def Input.shape : Shape Input where
  title := "struct InputSection"
  start := {}
  closed := true
  slots :=
    [.of "schema" false path (fun i s => { i with schema := s }),
      .of "descriptor_set" false path (fun i s => { i with descriptorSet := s }),
      .of "container" false string (fun i s => { i with container := s })]

def Output.shape : Shape Output where
  title := "struct OutputSection"
  start := {}
  closed := true
  slots :=
    [.of "cpp" false path (fun o s => { o with cpp := s }),
      .of "header" false path (fun o s => { o with header := s }),
      .of "java" false path (fun o s => { o with java := s }),
      .of "jni" false path (fun o s => { o with jni := s }),
      .of "rust" false path (fun o s => { o with rust := s }),
      .of "module" false string (fun o s => { o with module := s })]

def Native.shape : Shape Native where
  title := "struct NativeSection"
  start := {}
  closed := true
  slots :=
    [.of "namespace" false string (fun n s => { n with cppNamespace := s }),
      .of "import_header" false string (fun n s => { n with importHeader := s })]

def Java.shape : Shape Java where
  title := "struct JavaSection"
  start := {}
  closed := true
  slots :=
    [.of "package" false string (fun j s => { j with package := s }),
      .of "class" false string (fun j s => { j with className := s })]

def Logging.shape : Shape Logging where
  title := "struct LoggingSection"
  start := {}
  closed := true
  slots := [.of "level" false string (fun l s => { l with level := s })]

def shape : Shape Config where
  title := "struct GeneratorConfig"
  start := {}
  closed := true
  slots :=
    [.of "input" false Input.shape.fit (fun c i => { c with input := i }),
      .of "output" false Output.shape.fit (fun c o => { c with output := o }),
      .of "native" false Native.shape.fit (fun c n => { c with native := n }),
      .of "java" false Java.shape.fit (fun c j => { c with java := j }),
      .of "logging" false Logging.shape.fit (fun c l => { c with logging := l })]

def ofToml (text : String) : Except Misfit Config := shape.fit.ofToml text

end AtomLog.Config
