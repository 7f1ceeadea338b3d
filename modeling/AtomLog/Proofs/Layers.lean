import AtomLog.CommandLine.Flag
import AtomLog.Proofs.Lookups
/-!
Layers of configurations, key by key.

A configuration is what it sets under each of its keys (`Config.ext_get`), and a layer on top of
another wins key by key (`Config.get_merge`). Main statement: layers that are merged from left to right
set a key as the last layer that sets it, so a flag wins over a config file (`Config.merge_by_keys`).
-/
namespace AtomLog

namespace Config

/-- The keys of a config file, whichever section they stand in. -/
inductive Key
  | schema
  | descriptorSet
  | container
  | cpp
  | header
  | java
  | jni
  | rust
  | module
  | cppNamespace
  | importHeader
  | javaPackage
  | javaClass
  | level
  deriving DecidableEq

/-- What a configuration sets under a key. -/
def get (c : Config) : Key → Option String
  | .schema => c.input.schema
  | .descriptorSet => c.input.descriptorSet
  | .container => c.input.container
  | .cpp => c.output.cpp
  | .header => c.output.header
  | .java => c.output.java
  | .jni => c.output.jni
  | .rust => c.output.rust
  | .module => c.output.module
  | .cppNamespace => c.native.cppNamespace
  | .importHeader => c.native.importHeader
  | .javaPackage => c.java.package
  | .javaClass => c.java.className
  | .level => c.logging.level

/-- Whether the last of some layers that set a key sets it to a value. -/
def LastSets (layers : List Config) (k : Key) (v : String) : Prop :=
  ∃ before layer after, layers = before ++ layer :: after ∧ layer.get k = some v ∧
    ∀ l ∈ after, l.get k = none

end Config

/-- The key that a flag is for. A config file has no key for its own path. -/
def CommandLine.Flag.key? : Flag → Option Config.Key
  | .config => none
  | .schema => some .schema
  | .descriptorSet => some .descriptorSet
  | .container => some .container
  | .cpp => some .cpp
  | .header => some .header
  | .java => some .java
  | .jni => some .jni
  | .rust => some .rust
  | .module => some .module
  | .cppNamespace => some .cppNamespace
  | .importHeader => some .importHeader
  | .javaPackage => some .javaPackage
  | .javaClass => some .javaClass

namespace Config

variable {a b c : Config} {k : Key}

theorem ext_get (h : ∀ k, a.get k = b.get k) : a = b := by
  obtain ⟨⟨_, _, _⟩, ⟨_, _, _, _, _, _⟩, ⟨_, _⟩, ⟨_, _⟩, ⟨_⟩⟩ := a
  obtain ⟨⟨_, _, _⟩, ⟨_, _, _, _, _, _⟩, ⟨_, _⟩, ⟨_, _⟩, ⟨_⟩⟩ := b
  simp only [mk.injEq, Input.mk.injEq, Output.mk.injEq, Native.mk.injEq, Java.mk.injEq,
    Logging.mk.injEq]
  exact ⟨⟨h .schema, h .descriptorSet, h .container⟩,
    ⟨h .cpp, h .header, h .java, h .jni, h .rust, h .module⟩,
    ⟨h .cppNamespace, h .importHeader⟩, ⟨h .javaPackage, h .javaClass⟩, h .level⟩

@[simp] theorem get_empty (k : Key) : ({} : Config).get k = none := by
  cases k <;> rfl

@[simp] theorem get_merge (base top : Config) (k : Key) :
    (base.merge top).get k = (top.get k).or (base.get k) := by
  cases k <;> rfl

theorem merge_assoc (a b c : Config) : (a.merge b).merge c = a.merge (b.merge c) := by
  apply ext_get
  intro k
  simp [Option.or_assoc]

theorem empty_merge (a : Config) : merge {} a = a := by
  apply ext_get
  intro k
  simp

theorem merge_empty (a : Config) : a.merge {} = a := by
  apply ext_get
  intro k
  simp

theorem merge_self (a : Config) : a.merge a = a := by
  apply ext_get
  intro k
  simp

/-! ### Layers -/

theorem get_layers (layers : List Config) (k : Key) :
    (layers.foldl merge {}).get k = (layers.filterMap (·.get k)).getLast? := by
  rw [foldl_last (·.get k) (·.get k) (fun base top => get_merge base top k), get_empty,
    Option.or_none]

theorem get_layers_eq_some {layers : List Config} {v : String} :
    (layers.foldl merge {}).get k = some v ↔ LastSets layers k v := by
  rw [get_layers, getLast?_filterMap_eq_some, LastSets]

theorem get_layers_eq_none {layers : List Config} :
    (layers.foldl merge {}).get k = none ↔ ∀ l ∈ layers, l.get k = none := by
  rw [get_layers, List.getLast?_eq_none_iff, List.filterMap_eq_nil_iff]

end Config

/-! ### Flags -/

namespace CommandLine

open Config (Key)

theorem get_overrides {f : Flag} {k : Key} (h : f.key? = some k) (value? : Flag → Option String) :
    (overrides value?).get k = value? f := by
  cases f <;> cases h <;> rfl

/-- No flag is for the level of the log. -/
theorem get_overrides_level (value? : Flag → Option String) :
    (overrides value?).get .level = none :=
  rfl

end CommandLine

open CommandLine (Flag overrides)

/-- Merging layers is associative, a configuration that sets nothing changes nothing on either side,
and neither does a layer on top of itself. Layers set a key as the last of them that sets it, and
leave it open where none does. So a flag that is given wins over a config file, and the file keeps
what no flag sets. -/
theorem Config.merge_by_keys :
    (∀ a b c : Config, (a.merge b).merge c = a.merge (b.merge c)) ∧
    (∀ a : Config, merge {} a = a ∧ a.merge {} = a ∧ a.merge a = a) ∧
    (∀ (layers : List Config) (k : Key),
      (∀ v, (layers.foldl merge {}).get k = some v ↔ LastSets layers k v) ∧
      ((layers.foldl merge {}).get k = none ↔ ∀ l ∈ layers, l.get k = none)) ∧
    ∀ (file : Config) (value? : Flag → Option String),
      (∀ f k, f.key? = some k →
        (∀ v, value? f = some v → (file.merge (overrides value?)).get k = some v) ∧
        (value? f = none → (file.merge (overrides value?)).get k = file.get k)) ∧
      (file.merge (overrides value?)).get .level = file.get .level := by
  refine ⟨merge_assoc, fun a => ⟨empty_merge a, merge_empty a, merge_self a⟩,
    fun layers k => ⟨fun v => get_layers_eq_some, get_layers_eq_none⟩, ?_⟩
  intro file value?
  refine ⟨?_, ?_⟩
  · intro f k hkey
    rw [get_merge, CommandLine.get_overrides hkey]
    refine ⟨?_, ?_⟩
    · intro v hv
      rw [hv, Option.some_or]
    · intro hnone
      rw [hnone, Option.none_or]
  · rw [get_merge, CommandLine.get_overrides_level, Option.none_or]

end AtomLog
