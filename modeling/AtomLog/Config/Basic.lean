/-!
Configurations of the generator: what a config file or the command line sets.

Every setting may be left open, and a layer on top of another wins where it sets something.
-/
namespace AtomLog

namespace Config

structure Input where
  schema : Option String := none
  descriptorSet : Option String := none
  container : Option String := none
  deriving DecidableEq, Repr, Inhabited

structure Output where
  cpp : Option String := none
  header : Option String := none
  java : Option String := none
  jni : Option String := none
  rust : Option String := none
  module : Option String := none
  deriving DecidableEq, Repr, Inhabited

structure Native where
  cppNamespace : Option String := none
  importHeader : Option String := none
  deriving DecidableEq, Repr, Inhabited

structure Java where
  package : Option String := none
  className : Option String := none
  deriving DecidableEq, Repr, Inhabited

structure Logging where
  level : Option String := none
  deriving DecidableEq, Repr, Inhabited

end Config

structure Config where
  input : Config.Input := {}
  output : Config.Output := {}
  native : Config.Native := {}
  java : Config.Java := {}
  logging : Config.Logging := {}
  deriving DecidableEq, Repr, Inhabited

namespace Config

/-- Layer `top` on a configuration. -/
def merge (base top : Config) : Config where
  input :=
    { schema := top.input.schema.or base.input.schema
      descriptorSet := top.input.descriptorSet.or base.input.descriptorSet
      container := top.input.container.or base.input.container }
  output :=
    { cpp := top.output.cpp.or base.output.cpp
      header := top.output.header.or base.output.header
      java := top.output.java.or base.output.java
      jni := top.output.jni.or base.output.jni
      rust := top.output.rust.or base.output.rust
      module := top.output.module.or base.output.module }
  native :=
    { cppNamespace := top.native.cppNamespace.or base.native.cppNamespace
      importHeader := top.native.importHeader.or base.native.importHeader }
  java :=
    { package := top.java.package.or base.java.package
      className := top.java.className.or base.java.className }
  logging := { level := top.logging.level.or base.logging.level }

end Config

end AtomLog
