import AtomLog.Config.Plan
import AtomLog.Proofs.Draft
import AtomLog.Proofs.TypeNames
import Mathlib.Tactic.MkIffOfInductiveProp
/-!
Which configurations are plans, and what their plans say.

Each check of a configuration has one lemma that says when it passes. Main statement: a configuration
has a plan just when it is sound, and the plan has what the configuration gives and the defaults for
what it leaves open (`Config.plan_by_settings`).
-/
namespace AtomLog

/-- Whether every component of a namespace has more than blanks. -/
def NamesComponents (ns : String) : Prop :=
  ∀ part ∈ ns.toList.splitOn ',', ∃ c ∈ part, Text.isBlank c = false

namespace Config

/-- Whether a configuration is for the atoms of one module. -/
def NamesModule (c : Config) : Prop :=
  ∃ m, c.output.module = some m ∧ Text.trim m ≠ "" ∧ Text.trim m ≠ "DEFAULT"

/-- Whether the outputs of a configuration are told apart from those for all atoms. -/
@[mk_iff]
structure TellsApart (c : Config) : Prop where
  cppNamespace : c.output.cpp.isSome ∨ c.output.header.isSome → c.native.cppNamespace.isSome
  importHeader : c.output.cpp.isSome → c.native.importHeader.isSome
  javaPackage : c.output.java.isSome → c.java.package.isSome

/-- What a configuration needs to have a plan. -/
structure Sound (c : Config) : Prop where
  /-- One of both sources is given, and only one. -/
  source : c.input.schema.isSome ↔ ¬ c.input.descriptorSet.isSome
  container : c.input.schema.isSome → c.input.container = none
  output : c.output.cpp.isSome ∨ c.output.header.isSome ∨ c.output.java.isSome ∨
    c.output.jni.isSome ∨ c.output.rust.isSome
  module : c.NamesModule → c.TellsApart
  cppNamespace : ∀ ns, c.native.cppNamespace = some ns → NamesComponents ns

/-- The source that a configuration gives. Only a descriptor set has a container. -/
@[mk_iff]
inductive HasSource (c : Config) : Source → Prop
  | schema {path : String} (h : c.input.schema = some path) : HasSource c (.schema path)
  | descriptorSet {path : String} (h : c.input.descriptorSet = some path) :
    HasSource c (.descriptorSet path (c.input.container.getD Plan.defaultContainer))

/-- Whether a plan says what a configuration gives, and the defaults elsewhere. -/
structure Gives (c : Config) (p : Plan) : Prop where
  source : c.HasSource p.source
  outputs : p.outputs =
    ⟨c.output.cpp, c.output.header, c.output.java, c.output.jni, c.output.rust⟩
  selection : p.selection = Selection.parse (c.output.module.getD "")
  cppNamespace : p.cppNamespace = c.native.cppNamespace.getD Plan.defaultNamespace
  importHeader : p.importHeader = c.native.importHeader.getD Plan.defaultImportHeader
  javaPackage : p.javaPackage = c.java.package.getD Plan.defaultJavaPackage
  javaClass : p.javaClass = c.java.className.getD Plan.defaultJavaClass

end Config

/-! ### Names -/

theorem Text.trim_eq_empty_iff {s : String} :
    trim s = "" ↔ ∀ c ∈ s.toList, isBlank c = true := by
  rw [trim, String.ofList_eq_empty_iff, trimEnd, List.reverse_eq_nil_iff,
    List.dropWhile_eq_nil_iff]
  simp only [List.mem_reverse, trimStart]
  rw [← List.dropWhile_eq_nil_iff, List.dropWhile_idempotent, List.dropWhile_eq_nil_iff]

theorem Selection.isDefault_parse {name : String} : (parse name).isDefault = false ↔
    Text.trim name ≠ "" ∧ Text.trim name ≠ "DEFAULT" := by
  simp only [parse, defaultName, Bool.or_eq_true, beq_iff_eq, ne_eq, ← not_or]
  split
  · next h => simp [isDefault, h]
  · next h => simp [isDefault, h]

namespace Config

variable {c : Config} {p : Plan} {s : Source}

theorem isNamespace_iff {ns : String} : isNamespace ns = true ↔ NamesComponents ns := by
  simp only [isNamespace, Text.split, Text.splitChars_eq_splitOn, List.all_map, List.all_eq_true,
    NamesComponents]
  refine forall₂_congr (fun part _ => ?_)
  rw [Function.comp_apply, Bool.not_eq_true', String.isEmpty_eq_false_iff, ne_eq,
    Text.trim_eq_empty_iff]
  simp

theorem isDefault_selection : c.selection.isDefault = false ↔ c.NamesModule := by
  rw [selection, Selection.isDefault_parse, NamesModule]
  cases c.output.module with
  -- A module that is left open is read as the empty name.
  | none => simp [Text.trim_eq_empty_iff]
  | some m => simp

/-! ### Checks -/

theorem source_eq_ok : c.source = .ok s ↔
    (c.input.schema.isSome ↔ ¬ c.input.descriptorSet.isSome) ∧
      (c.input.schema.isSome → c.input.container = none) ∧ c.HasSource s := by
  rw [source, hasSource_iff]
  cases hschema : c.input.schema with
  | none =>
    cases hset : c.input.descriptorSet with
    | none => simp
    | some set => simp [eq_comm]
  | some schema =>
    cases hset : c.input.descriptorSet with
    | none =>
      cases hcontainer : c.input.container with
      | none => simp [eq_comm]
      | some container => simp
    | some set => simp

theorem isEmpty_outputs : c.outputs.isEmpty = false ↔
    c.output.cpp.isSome ∨ c.output.header.isSome ∨ c.output.java.isSome ∨
      c.output.jni.isSome ∨ c.output.rust.isSome := by
  simp only [Outputs.isEmpty, outputs, Bool.and_eq_false_iff, or_assoc, Option.isNone_eq_false_iff]

theorem checkModule_eq_ok : c.checkModule = .ok () ↔ (c.NamesModule → c.TellsApart) := by
  rw [← isDefault_selection, checkModule, tellsApart_iff]
  cases hdefault : c.selection.isDefault with
  | true => simp
  | false =>
    simp only [Bool.false_eq_true, if_false, ite_error_eq_ok]
    simp [outputs, Option.isSome_iff_ne_none]

theorem checkNamespace_eq_ok : c.checkNamespace = .ok () ↔
    ∀ ns, c.native.cppNamespace = some ns → NamesComponents ns := by
  unfold checkNamespace
  cases hns : c.native.cppNamespace with
  | none => simp
  | some ns => simp [← isNamespace_iff]

/-! ### Plans -/

/-- A configuration has a plan where all its checks pass. -/
theorem plan_eq_ok : c.plan = .ok p ↔ ∃ s, c.source = .ok s ∧ c.outputs.isEmpty = false ∧
    c.checkModule = .ok () ∧ c.checkNamespace = .ok () ∧
    p = ⟨s, c.selection, c.outputs, c.native.cppNamespace.getD Plan.defaultNamespace,
      c.native.importHeader.getD Plan.defaultImportHeader,
      c.java.package.getD Plan.defaultJavaPackage,
      c.java.className.getD Plan.defaultJavaClass⟩ := by
  simp only [plan, bind_eq_ok]
  refine exists_congr (fun s => and_congr_right (fun _ => ?_))
  cases c.outputs.isEmpty with
  | true => simp [throw, throwThe, MonadExceptOf.throw, bind, Except.bind]
  | false => simp [bind_eq_ok, pure_eq_ok, Unique.exists_iff, -bind_pure_comp]

theorem plan_eq_ok_iff : c.plan = .ok p ↔ c.Sound ∧ c.Gives p := by
  simp only [plan_eq_ok, source_eq_ok, isEmpty_outputs, checkModule_eq_ok, checkNamespace_eq_ok]
  constructor
  · intro h
    obtain ⟨s, ⟨source, container, given⟩, output, module, components, rfl⟩ := h
    exact ⟨⟨source, container, output, module, components⟩,
      ⟨given, rfl, rfl, rfl, rfl, rfl, rfl⟩⟩
  · intro h
    obtain ⟨sound, gives⟩ := h
    refine ⟨p.source, ⟨sound.source, sound.container, gives.source⟩, sound.output, sound.module,
      sound.cppNamespace, ?_⟩
    cases p
    cases gives
    simp_all [outputs, selection]

/-- A sound configuration gives a source. -/
theorem Sound.exists_source (h : c.Sound) : ∃ s, c.HasSource s := by
  by_cases hschema : c.input.schema.isSome
  · obtain ⟨path, hpath⟩ := Option.isSome_iff_exists.1 hschema
    exact ⟨_, .schema hpath⟩
  · have hset : c.input.descriptorSet.isSome := by
      by_contra hset
      exact hschema (h.source.2 hset)
    obtain ⟨path, hpath⟩ := Option.isSome_iff_exists.1 hset
    exact ⟨_, .descriptorSet hpath⟩

theorem Sound.exists_plan (h : c.Sound) : ∃ p, c.plan = .ok p := by
  obtain ⟨s, hs⟩ := h.exists_source
  exact ⟨⟨s, _, _, _, _, _, _⟩, plan_eq_ok_iff.2 ⟨h, hs, rfl, rfl, rfl, rfl, rfl, rfl⟩⟩

/-- The namespace of a plan is sound, given or not. -/
theorem namesComponents_of_plan (h : c.plan = .ok p) : NamesComponents p.cppNamespace := by
  obtain ⟨sound, gives⟩ := plan_eq_ok_iff.1 h
  rw [gives.cppNamespace]
  cases hns : c.native.cppNamespace with
  | none => exact isNamespace_iff.1 (by decide)
  | some ns => exact sound.cppNamespace ns hns

/-- A configuration has a plan where it gives one source, asks for an output, tells outputs for one
module apart and has no component of a namespace that is blank. The plan says what the configuration
gives and the defaults for the rest, so its namespace has no such component either. -/
theorem plan_by_settings (c : Config) :
    ((∃ p, c.plan = .ok p) ↔ c.Sound) ∧
    (∀ p, c.plan = .ok p ↔ c.Sound ∧ c.Gives p) ∧
    ∀ p, c.plan = .ok p → NamesComponents p.cppNamespace := by
  refine ⟨⟨?_, Sound.exists_plan⟩, fun p => plan_eq_ok_iff, fun p => namesComponents_of_plan⟩
  intro h
  obtain ⟨p, h⟩ := h
  exact (plan_eq_ok_iff.1 h).1

example : plan
    { input := { schema := some "atoms.toml" }, output := { cpp := some "log.cpp" },
      native := { cppNamespace := some "android, ,util" } } =
    .error (.emptyNamespaceComponent "android, ,util") := by
  decide

end Config

end AtomLog
