import AtomLog.Proofs.AttributionNodes
import AtomLog.Proofs.Events
/-!
What the functions for an atom say, line by line.

The lines for the steps of an event are given here apart from the emitters, with the parameters that
each call of a writer takes its arguments from: in the words of C++ and of Java for the functions
that atoms share (`Spells`), and for the function of one atom in Rust (`Rust.Spells`). Of a shared
function the lines outside any block are run for each atom, and those of a block for the atom in its
guard (`Runs`). Main statement: the functions of all three languages say the event of the atom, and
nothing else (`events_agree`).
-/
namespace AtomLog.Emit

/-! ### Lines and steps -/

section Spells

/-- Lines that say steps one after the other. -/
inductive Takes (spells : Step → List String → Prop) : List String → List Step → Prop
  | done : Takes spells [] []
  | step {ls rest : List String} {step : Step} {steps : List Step} (spelled : spells step ls)
      (tail : Takes spells rest steps) : Takes spells (ls ++ rest) (step :: steps)

/-- Lines that are run for the atom of a constant alone. -/
def guarded (constant : String) (ls : List String) : List String :=
  s!"if ({constant} == code) \x7b" :: ls.map ("    " ++ ·) ++ ["\x7d"]

/-- What the lines of a shared function say for the atom of a constant: the blocks of other atoms
are passed over. -/
inductive Runs (spells : Step → List String → Prop) (constant : String) :
    List String → List Step → Prop
  | done : Runs spells constant [] []
  | always {ls rest : List String} {step : Step} {steps : List Step} (spelled : spells step ls)
      (tail : Runs spells constant rest steps) : Runs spells constant (ls ++ rest) (step :: steps)
  | own {ls rest : List String} {own steps : List Step} (taken : Takes spells ls own)
      (tail : Runs spells constant rest steps) :
      Runs spells constant (guarded constant ls ++ rest) (own ++ steps)
  | other {c : String} {ls rest : List String} {others steps : List Step} (other : c ≠ constant)
      (taken : Takes spells ls others) (tail : Runs spells constant rest steps) :
      Runs spells constant (guarded c ls ++ rest) steps

variable {spells : Step → List String → Prop}

theorem takes_flatMap {lines : Step → List String} {steps : List Step}
    (h : ∀ step ∈ steps, spells step (lines step)) : Takes spells (steps.flatMap lines) steps := by
  induction steps with
  | nil => exact .done
  | cons step steps ih =>
    obtain ⟨hstep, hsteps⟩ := List.forall_mem_cons.1 h
    exact .step hstep (ih hsteps)

theorem stepsFor_whenAtom (constant c : String) (steps : List Step) (body : List Stmt) :
    stepsFor constant (.whenAtom c steps :: body) =
      (if c = constant then steps else []) ++ stepsFor constant body := rfl

/-- A reset is printed as the annotation that it stands for, behind a test. -/
theorem Spelling.stepLines_resetWhen (p : Spelling) (i : Nat) (r : StateReset) :
    p.stepLines (.resetWhen i r) = s!"if (arg{i} == {r.resetValue}) \x7b" ::
      (p.stepLines (.annotate ⟨.triggerStateReset, .int r.defaultValue⟩)).map ("    " ++ ·) ++
        ["\x7d"] := by
  simp only [stepLines, List.map_cons, List.map_nil, String.append_assoc, List.cons_append,
    List.nil_append]

/-- If all steps of a body are printed as they are spelled, its lines run for each constant the
steps that are taken for it. -/
theorem runs_stmtLines {p : Spelling} {body : List Stmt}
    (h : ∀ c, ∀ step ∈ stepsFor c body, spells step (p.stepLines step)) (constant : String) :
    Runs spells constant (body.flatMap p.stmtLines) (stepsFor constant body) := by
  induction body with
  | nil => exact .done
  | cons stmt body ih =>
    rw [List.flatMap_cons]
    cases stmt with
    | always step =>
      simp only [stepsFor_always, List.forall_mem_cons] at h ⊢
      exact .always (h constant).1 (ih fun c => (h c).2)
    | whenAtom c steps =>
      simp only [stepsFor_whenAtom, List.forall_mem_append] at h ⊢
      have hsteps := (h c).1
      rw [if_pos rfl] at hsteps
      have taken : Takes spells (steps.flatMap p.stepLines) steps := takes_flatMap hsteps
      have tail := ih fun c => (h c).2
      by_cases hc : c = constant
      · subst hc
        rw [if_pos rfl]
        exact .own taken tail
      · rw [if_neg hc]
        exact .other hc taken tail

end Spells

/-- What a shared function writes, whatever the atom, are its arguments. -/
theorem mem_types_of_write {ctx : Context} {s : Signature} {b : Bucket} {c : String} {i : Nat}
    {t : FieldType} (h : Step.write i t ∈ stepsFor c (sharedBody ctx s b)) : t ∈ s.types := by
  have hannotations : ∀ position set, Step.write i t ∉ annotationSteps position set := by
    intro position set hmem
    unfold annotationSteps at hmem
    rcases List.mem_append.1 hmem with hmem | hmem
    · simp at hmem
    · split at hmem <;> simp at hmem
  have hblocks : ∀ position, Step.write i t ∉ stepsFor c (bucketAnnotations ctx b position) := by
    intro position hmem
    simp only [bucketAnnotations, stepsFor, List.flatMap_map, List.mem_flatMap] at hmem
    obtain ⟨e, -, he⟩ := hmem
    split at he
    · exact hannotations position e.2 he
    · simp at he
  simp only [sharedBody, List.cons_append, stepsFor_always, stepsFor_append, stepsFor_flatMap,
    List.mem_cons, List.mem_append, List.mem_flatMap, reduceCtorEq, false_or, hblocks, or_false,
    Step.write.injEq] at h
  obtain ⟨⟨t', i'⟩, hmem, rfl, rfl⟩ := h
  exact List.fst_mem_of_mem_zipIdx hmem

/-! ### Shared functions -/

/-- A call of a function. -/
def call (function : String) (args : List String) : String :=
  function ++ "(" ++ String.intercalate ", " args ++ ")"

/-- What a language has for the steps of a function that atoms share. -/
structure Words where
  /-- The arguments that every call takes before its own. -/
  first : List String
  setAtomId : String
  addBool : String
  addInt : String
  /-- The function that adds a value of a type to an event. -/
  writer? : FieldType → Option String
  /-- The arguments for the value at a position. -/
  Hands : Nat → FieldType → List String → Prop

/-- The lines for a step, in the words of a language. -/
inductive Spells (w : Words) : Step → List String → Prop
  | setAtomId : Spells w .setAtomId [call w.setAtomId (w.first ++ ["code"]) ++ ";"]
  | write {i : Nat} {t : FieldType} {function : String} {args : List String}
      (writer : w.writer? t = some function) (hands : w.Hands i t args) :
      Spells w (.write i t) [call function (w.first ++ args) ++ ";"]
  | annotateBool {id : AnnotationId} {b : Bool} : Spells w (.annotate ⟨id, .bool b⟩)
      [call w.addBool (w.first ++ [id.constant, toString b]) ++ ";"]
  | annotateInt {id : AnnotationId} {n : Int} : Spells w (.annotate ⟨id, .int n⟩)
      [call w.addInt (w.first ++ [id.constant, toString n]) ++ ";"]
  | resetWhen {i : Nat} {r : StateReset} {ls : List String}
      (annotates : Spells w (.annotate ⟨.triggerStateReset, .int r.defaultValue⟩) ls) :
      Spells w (.resetWhen i r)
        (s!"if (arg{i} == {r.resetValue}) \x7b" :: ls.map ("    " ++ ·) ++ ["\x7d"])

/-- The calls of a spelling are in the words of a language. -/
structure Spelling.Speaks (p : Spelling) (w : Words) : Prop where
  setAtomId : p.setAtomId = call w.setAtomId (w.first ++ ["code"])
  annotateBool : ∀ constant b,
    p.annotate constant (.bool b) = call w.addBool (w.first ++ [constant, toString b])
  annotateInt : ∀ constant n,
    p.annotate constant (.int n) = call w.addInt (w.first ++ [constant, toString n])
  write : ∀ i t function, w.writer? t = some function →
    ∃ args, w.Hands i t args ∧ p.write i t = call function (w.first ++ args)

namespace Spelling.Speaks

variable {p : Spelling} {w : Words} (speaks : p.Speaks w)
include speaks

theorem spells_annotate (n : Annotation) : Spells w (.annotate n) (p.stepLines (.annotate n)) := by
  obtain ⟨id, value⟩ := n
  cases value with
  | bool b =>
    rw [stepLines, speaks.annotateBool]
    exact .annotateBool
  | int n =>
    rw [stepLines, speaks.annotateInt]
    exact .annotateInt

theorem spells_stepLines {step : Step}
    (known : ∀ i t, step = .write i t → (w.writer? t).isSome = true) :
    Spells w step (p.stepLines step) := by
  cases step with
  | setAtomId =>
    rw [stepLines, speaks.setAtomId]
    exact .setAtomId
  | write i t =>
    obtain ⟨function, writer⟩ := Option.isSome_iff_exists.1 (known i t rfl)
    obtain ⟨args, hands, hcall⟩ := speaks.write i t function writer
    rw [stepLines, hcall]
    exact .write writer hands
  | annotate n => exact speaks.spells_annotate n
  | resetWhen i r =>
    rw [stepLines_resetWhen]
    exact .resetWhen (speaks.spells_annotate _)

/-- If there are words for all that a target supports, a function that an atom of it shares runs the
steps that are taken for each constant. -/
theorem runs_sharedBody {t : Target}
    (known : ∀ type, t.supports type = true → (w.writer? type.wire).isSome = true) {ctx : Context}
    {v : Atom} {b : Bucket} (h : t.supportsAtom v = true) (constant : String) :
    Runs (Spells w) constant ((sharedBody ctx v.signature b).flatMap p.stmtLines)
      (stepsFor constant (sharedBody ctx v.signature b)) := by
  apply runs_stmtLines
  intro c step hstep
  refine speaks.spells_stepLines ?_
  rintro i type rfl
  have hmem := mem_types_of_write hstep
  simp only [Atom.signature, Signature.ofTypes, List.map_map, List.mem_map, Function.comp_apply]
    at hmem
  obtain ⟨f, hf, rfl⟩ := hmem
  exact known f.type (List.all_eq_true.1 h f hf)

end Spelling.Speaks

/-- The function of the C interface that adds a value of a type to an event. -/
def writer? : FieldType → Option String
  | .bool => some "AStatsEvent_writeBool"
  | .int32 => some "AStatsEvent_writeInt32"
  | .int64 => some "AStatsEvent_writeInt64"
  | .float => some "AStatsEvent_writeFloat"
  | .string => some "AStatsEvent_writeString"
  | .bytes => some "AStatsEvent_writeByteArray"
  | .attributionChain => some "AStatsEvent_writeAttributionChain"
  | .boolArray => some "AStatsEvent_writeBoolArray"
  | .int32Array => some "AStatsEvent_writeInt32Array"
  | .int64Array => some "AStatsEvent_writeInt64Array"
  | .floatArray => some "AStatsEvent_writeFloatArray"
  | .stringArray => some "AStatsEvent_writeStringArray"
  | .double | .keyValuePairs | .enum | .enumArray => none

/-! ### The shared functions in C++ -/

namespace Native

/-- The arguments that a call takes from the parameters of a value. Of a chain these are the uids,
which come first, and the tags, which come last. -/
inductive Hands : List Param → List String → Prop
  | value {type name : String}
      (plain : type ∈ ["bool", "int32_t", "int64_t", "float", "char const*"]) :
      Hands [⟨type, name⟩] [name]
  | bytes {name : String} :
      Hands [⟨"const BytesField&", name⟩]
        [s!"reinterpret_cast<const uint8_t*>({name}.arg)", name ++ ".arg_length"]
  | counted {values number : String} :
      Hands [⟨"const bool*", values⟩, ⟨"size_t", number⟩] [values, number]
  | vector (element name : String) :
      Hands [⟨s!"const std::vector<{element}>&", name⟩] [name ++ ".data()", name ++ ".size()"]
  | chain {uids number tags : String} {between : List Param} :
      Hands (⟨"const int32_t*", uids⟩ :: ⟨"size_t", number⟩ ::
          (between ++ [⟨"const std::vector<char const*>&", tags⟩]))
        [s!"reinterpret_cast<const uint32_t*>({uids})", tags ++ ".data()",
          s!"static_cast<uint8_t>({number})"]

/-- The words of C++. Every call takes the event first. -/
def words (ctx : Context) : Words where
  first := ["event"]
  setAtomId := "AStatsEvent_setAtomId"
  addBool := "AStatsEvent_addBoolAnnotation"
  addInt := "AStatsEvent_addInt32Annotation"
  writer? := writer?
  Hands i t := Hands (argParams ctx i t)

theorem value_call (w : String) (i : Nat) :
    w ++ "(event, arg" ++ toString i ++ ")" = call w ["event", s!"arg{i}"] := by
  show w ++ ("(" ++ "event" ++ ", " ++ "arg") ++ toString i ++ ")" = _
  simp only [call, String.intercalate_cons_cons, String.intercalate_singleton, String.append_assoc]
  rfl

theorem vector_call (w : String) (i : Nat) :
    w ++ "(event, arg" ++ toString i ++ ".data(), arg" ++ toString i ++ ".size())" =
      call w ["event", s!"arg{i}" ++ ".data()", s!"arg{i}" ++ ".size()"] := by
  show w ++ ("(" ++ "event" ++ ", " ++ "arg") ++ toString i ++ (".data()" ++ ", " ++ "arg") ++
    toString i ++ (".size()" ++ ")") = _
  simp only [call, String.intercalate_cons_cons, String.intercalate_singleton, String.append_assoc]
  rfl

theorem counted_call (w : String) (i : Nat) :
    w ++ "(event, arg" ++ toString i ++ ", arg" ++ toString i ++ "_length)" =
      call w ["event", s!"arg{i}", s!"arg{i}_length"] := by
  show w ++ ("(" ++ "event" ++ ", " ++ "arg") ++ toString i ++ (", " ++ "arg") ++ toString i ++
    ("_length" ++ ")") = _
  simp only [call, String.intercalate_cons_cons, String.intercalate_singleton, String.append_assoc]
  rfl

section Write

variable {ctx : Context} (i : Nat)

/-- Bytes are written from the two members of their parameter. -/
theorem writeCall_bytes : ∃ args, Hands (argParams ctx i .bytes) args ∧
    writeCall ctx i .bytes = call "AStatsEvent_writeByteArray" ("event" :: args) := by
  refine ⟨_, .bytes, ?_⟩
  show "AStatsEvent_writeByteArray" ++ ("(" ++ "event" ++ ", " ++
    ("reinterpret_cast<const uint8_t*>(" ++ "arg")) ++ toString i ++ (".arg)" ++ ", ") ++
    (("arg" ++ toString i) ++ (".arg_length" ++ ")")) = _
  simp only [call, String.intercalate_cons_cons, String.intercalate_singleton, String.append_assoc]
  rfl

/-- A value is written by the writer of its type, from the parameters of its argument. -/
theorem writeCall_eq {t : FieldType} {w : String} (writer : writer? t = some w)
    (chain : t ≠ .attributionChain) :
    ∃ args, Hands (argParams ctx i t) args ∧ writeCall ctx i t = call w ("event" :: args) := by
  cases t with
  | double | keyValuePairs | enum | enumArray => cases writer
  | attributionChain => exact absurd rfl chain
  | bool | int32 | int64 | float | string =>
    have hcall := value_call w i
    cases writer
    exact ⟨_, .value (by decide), hcall⟩
  | boolArray =>
    cases writer
    exact ⟨_, .counted, counted_call "AStatsEvent_writeBoolArray" i⟩
  | int32Array =>
    cases writer
    exact ⟨_, .vector "int32_t" _, vector_call "AStatsEvent_writeInt32Array" i⟩
  | int64Array =>
    cases writer
    exact ⟨_, .vector "int64_t" _, vector_call "AStatsEvent_writeInt64Array" i⟩
  | floatArray =>
    cases writer
    exact ⟨_, .vector "float" _, vector_call "AStatsEvent_writeFloatArray" i⟩
  | stringArray =>
    cases writer
    exact ⟨_, .vector "char const*" _, vector_call "AStatsEvent_writeStringArray" i⟩
  | bytes =>
    cases writer
    exact writeCall_bytes i

/-- Of a chain the uids, their number and the tags are written, whatever is between them. -/
theorem writeCall_chain (node : Collation.isAttribution ctx.attribution = true) :
    ∃ args, Hands (argParams ctx i .attributionChain) args ∧
      writeCall ctx i .attributionChain =
        call "AStatsEvent_writeAttributionChain" ("event" :: args) := by
  obtain ⟨uid, mid, tag, hfields, huid, htag⟩ := Collation.fields_of_isAttribution node
  obtain ⟨uidName, tagName⟩ := ctx.names_of_fields hfields
  have hparams : ∃ between, argParams ctx i .attributionChain =
      ⟨"const int32_t*", uid.name⟩ :: ⟨"size_t", uid.name ++ "_length"⟩ ::
        (between ++ [⟨"const std::vector<char const*>&", tag.name⟩]) := by
    rw [show argParams ctx i .attributionChain = chainParams ctx from rfl, chainParams, hfields,
      List.flatMap_cons, List.flatMap_append, List.flatMap_singleton, huid, htag]
    exact ⟨_, rfl⟩
  obtain ⟨between, hparams⟩ := hparams
  rw [hparams, ← uidName, ← tagName]
  refine ⟨_, .chain, ?_⟩
  show "AStatsEvent_writeAttributionChain" ++ ("(" ++ "event" ++ ", " ++
    "reinterpret_cast<const uint32_t*>(") ++ ctx.uidName ++ (")" ++ ", ") ++
    (ctx.tagName ++ (".data()" ++ ", " ++ "static_cast<uint8_t>(") ++ ctx.uidName ++
      ("_length" ++ ")" ++ ")")) = _
  simp only [call, String.intercalate_cons_cons, String.intercalate_singleton,
    String.append_assoc, toString]

end Write

theorem annotateCall_bool (constant : String) (b : Bool) : annotateCall constant (.bool b) =
    call "AStatsEvent_addBoolAnnotation" ["event", constant, toString b] := by
  show "AStatsEvent_addBoolAnnotation" ++ ("(" ++ "event" ++ ", ") ++ constant ++ ", " ++
    valueText (.bool b) ++ ")" = _
  simp only [call, String.intercalate_cons_cons, String.intercalate_singleton, String.append_assoc]
  cases b <;> rfl

theorem annotateCall_int (constant : String) (n : Int) : annotateCall constant (.int n) =
    call "AStatsEvent_addInt32Annotation" ["event", constant, toString n] := by
  show "AStatsEvent_addInt32Annotation" ++ ("(" ++ "event" ++ ", ") ++ constant ++ ", " ++
    valueText (.int n) ++ ")" = _
  simp only [call, String.intercalate_cons_cons, String.intercalate_singleton, String.append_assoc]
  rfl

theorem writer?_isSome :
    ∀ type, target.supports type = true → (writer? type.wire).isSome = true := by
  decide

theorem speaks {ctx : Context} (node : Collation.isAttribution ctx.attribution = true) :
    (spelling ctx).Speaks (words ctx) where
  setAtomId := rfl
  annotateBool := annotateCall_bool
  annotateInt := annotateCall_int
  write i t function writer := by
    by_cases chain : t = .attributionChain
    · subst chain
      cases writer
      exact writeCall_chain i node
    · exact writeCall_eq i writer chain

end Native

/-! ### The shared methods in Java -/

namespace Java

/-- The method of a builder that adds a value of a type to an event. -/
def writer? : FieldType → Option String
  | .bool => some "builder.writeBoolean"
  | .int32 => some "builder.writeInt"
  | .int64 => some "builder.writeLong"
  | .float => some "builder.writeFloat"
  | .string => some "builder.writeString"
  | .bytes => some "builder.writeByteArray"
  | .attributionChain => some "builder.writeAttributionChain"
  | .keyValuePairs => some "builder.writeKeyValuePairs"
  | .boolArray => some "builder.writeBooleanArray"
  | .int32Array => some "builder.writeIntArray"
  | .int64Array => some "builder.writeLongArray"
  | .floatArray => some "builder.writeFloatArray"
  | .stringArray => some "builder.writeStringArray"
  | .double | .enum | .enumArray => none

/-- An array under a name, or an empty one where it is missing. -/
def orEmpty (element name : String) : String := s!"null == {name} ? new {element}[0] : {name}"

/-- The argument that a call takes from a parameter of a value. The arrays of bytes and of chains
may be missing. -/
inductive Hands (t : FieldType) : Param → String → Prop
  | value {p : Param} (plain : t ≠ .bytes ∧ t ≠ .attributionChain) : Hands t p p.name
  | array {element name : String} (array : t = .bytes ∨ t = .attributionChain) :
      Hands t ⟨element ++ "[]", name⟩ (orEmpty element name)

/-- The words of Java. Every call is one of the builder. -/
def words (ctx : Context) : Words where
  first := []
  setAtomId := "builder.setAtomId"
  addBool := "builder.addBooleanAnnotation"
  addInt := "builder.addIntAnnotation"
  writer? := writer?
  Hands i t := List.Forall₂ (Hands t) (argParams ctx i t)

theorem value_call (w : String) (i : Nat) :
    w ++ "(arg" ++ toString i ++ ")" = call w [s!"arg{i}"] := by
  show w ++ ("(" ++ "arg") ++ toString i ++ ")" = _
  simp only [call, String.intercalate_singleton, String.append_assoc]
  rfl

section Write

variable {ctx : Context} (i : Nat)

theorem hands_value {t : FieldType} (plain : t ≠ .bytes ∧ t ≠ .attributionChain) (ps : List Param) :
    List.Forall₂ (Hands t) ps (ps.map Param.name) := by
  rw [List.forall₂_map_right_iff, List.forall₂_same]
  intro p _
  exact .value plain

/-- A value of one parameter is written by the writer of its type. -/
theorem writeCall_value {t : FieldType} {w : String} (writer : writer? t = some w)
    (plain : t ∉ [.bytes, .attributionChain, .keyValuePairs]) :
    writeCall ctx i t = call w ((argParams ctx i t).map Param.name) := by
  cases t with
  | double | enum | enumArray => cases writer
  | bytes | attributionChain | keyValuePairs => exact absurd (by decide) plain
  | bool | int32 | int64 | float | string | boolArray | int32Array | int64Array | floatArray
  | stringArray =>
    have hcall := value_call w i
    cases writer
    exact hcall

theorem writeCall_pairs : writeCall ctx i .keyValuePairs =
    call "builder.writeKeyValuePairs" ((argParams ctx i .keyValuePairs).map Param.name) := by
  show "builder.writeKeyValuePairs" ++ ("(" ++ "arg") ++ toString i ++
    ("_" ++ "int" ++ ", " ++ "arg") ++ toString i ++ ("_" ++ "long" ++ ", " ++ "arg") ++
    toString i ++ ("_" ++ "float" ++ ", " ++ "arg") ++ toString i ++ ("_" ++ "string" ++ ")") =
      call _ [_, _, _, _]
  simp only [call, String.intercalate_cons_cons, String.intercalate_singleton,
    String.append_assoc, toString]

theorem writeCall_bytes : writeCall ctx i .bytes =
    call "builder.writeByteArray" [orEmpty "byte" s!"arg{i}"] := by
  show "builder.writeByteArray" ++ ("(" ++ "null == " ++ "arg") ++ toString i ++
    (" ? new " ++ "byte" ++ "[0] : " ++ "arg") ++ toString i ++ ")" = _
  simp only [call, orEmpty, String.intercalate_singleton, String.append_assoc, toString]

theorem writeCall_chain : writeCall ctx i .attributionChain =
    call "builder.writeAttributionChain"
      [orEmpty "int" ctx.uidName, orEmpty "java.lang.String" ctx.tagName] := by
  show "builder.writeAttributionChain" ++ ("(" ++ "null == ") ++ ctx.uidName ++
    (" ? new " ++ "int" ++ "[0] : ") ++ ctx.uidName ++ ", " ++ ("null == " ++ ctx.tagName ++
    (" ? new " ++ "java.lang.String" ++ "[0] : ") ++ ctx.tagName ++ ")") = _
  simp only [call, orEmpty, String.intercalate_cons_cons, String.intercalate_singleton,
    String.append_assoc, toString]

/-- A value is written by the method of its type, with the parameters of its argument. -/
theorem writeCall_eq {t : FieldType} {w : String} (writer : writer? t = some w) :
    ∃ args, List.Forall₂ (Hands t) (argParams ctx i t) args ∧ writeCall ctx i t = call w args := by
  by_cases array : t = .bytes ∨ t = .attributionChain
  · rcases array with rfl | rfl
    · cases writer
      exact ⟨_, .cons (@Hands.array .bytes "byte" _ (.inl rfl)) .nil, writeCall_bytes i⟩
    · cases writer
      exact ⟨_, .cons (@Hands.array .attributionChain "int" _ (.inr rfl))
        (.cons (@Hands.array .attributionChain "java.lang.String" _ (.inr rfl)) .nil),
        writeCall_chain i⟩
  · have plain := not_or.1 array
    refine ⟨_, hands_value plain _, ?_⟩
    by_cases pairs : t = .keyValuePairs
    · subst pairs
      cases writer
      exact writeCall_pairs i
    · exact writeCall_value i writer (by simp [plain, pairs])

end Write

theorem annotateCall_bool (constant : String) (b : Bool) : annotateCall constant (.bool b) =
    call "builder.addBooleanAnnotation" [constant, toString b] := by
  show "builder.addBooleanAnnotation" ++ "(" ++ constant ++ ", " ++ valueText (.bool b) ++ ")" = _
  simp only [call, String.intercalate_cons_cons, String.intercalate_singleton, String.append_assoc]
  cases b <;> rfl

theorem annotateCall_int (constant : String) (n : Int) : annotateCall constant (.int n) =
    call "builder.addIntAnnotation" [constant, toString n] := by
  show "builder.addIntAnnotation" ++ "(" ++ constant ++ ", " ++ valueText (.int n) ++ ")" = _
  simp only [call, String.intercalate_cons_cons, String.intercalate_singleton, String.append_assoc]
  rfl

theorem writer?_isSome :
    ∀ type, target.supports type = true → (writer? type.wire).isSome = true := by
  decide

theorem speaks (ctx : Context) : (spelling ctx).Speaks (words ctx) where
  setAtomId := rfl
  annotateBool := annotateCall_bool
  annotateInt := annotateCall_int
  write i _ _ writer := writeCall_eq i writer

end Java

/-! ### The function of an atom in Rust -/

namespace Rust

def letLine (name value : String) : String := s!"let {name} = {value};"

/-- The lines that write a value of a type from its parameters. A text is copied first, and so are
the uids and the tags of a chain. -/
inductive Writes : FieldType → List Param → List String → Prop
  | value {t : FieldType} {type name function : String}
      (plain : type ∈ ["bool", "i32", "i64", "f32"]) (writer : writer? t = some function) :
      Writes t [⟨type, name⟩] [call function ["event", name] ++ ";"]
  | bytes {name : String} : Writes .bytes [⟨"&[u8]", name⟩]
      [call "AStatsEvent_writeByteArray" ["event", name ++ ".as_ptr()", name ++ ".len()"] ++ ";"]
  | string {name : String} : Writes .string [⟨"&str", name⟩]
      [letLine (name ++ "_cstr") (call "CString::new" [name] ++ "?"),
        call "AStatsEvent_writeString" ["event", name ++ "_cstr.as_ptr()"] ++ ";"]
  | chain {uids tags : String} {between : List Param} :
      Writes .attributionChain (⟨"&[i32]", uids⟩ :: (between ++ [⟨"&[&str]", tags⟩]))
        [letLine "uids"
            (uids ++ ".iter().map(|n| (*n).try_into()).collect::<Result<Vec<_>, _>>()?"),
          letLine "str_arr"
            (tags ++ ".iter().map(|s| CString::new(*s)).collect::<Result<Vec<_>, _>>()?"),
          letLine "ptr_arr" "str_arr.iter().map(|s| s.as_ptr()).collect::<Vec<_>>()",
          call "AStatsEvent_writeAttributionChain"
            ["event", "uids.as_ptr()", "ptr_arr.as_ptr()", uids ++ ".len().try_into()?"] ++ ";"]

/-- The lines of Rust for a step of an atom, which go by the names of its fields. -/
inductive Spells (ctx : Context) (a : Atom) : Step → List String → Prop
  | setAtomId : Spells ctx a .setAtomId
      [call "AStatsEvent_setAtomId" ["event", s!"Atoms::{atomVariant a} as u32"] ++ ";"]
  | write {i : Nat} {f : AtomField} {ls : List String} (field : a.field? i = some f)
      (writes : Writes f.type.wire (fieldParams ctx f) ls) :
      Spells ctx a (.write i f.type.wire) ls
  | annotateBool {id : AnnotationId} {b : Bool} : Spells ctx a (.annotate ⟨id, .bool b⟩)
      [call "AStatsEvent_addBoolAnnotation"
        ["event", s!"AnnotationId::{annotationVariant id} as u8", toString b] ++ ";"]
  | annotateInt {id : AnnotationId} {n : Int} : Spells ctx a (.annotate ⟨id, .int n⟩)
      [call "AStatsEvent_addInt32Annotation"
        ["event", s!"AnnotationId::{annotationVariant id} as u8", toString n] ++ ";"]
  | resetWhen {i : Nat} {f : AtomField} {r : StateReset} {ls : List String}
      (field : a.field? i = some f)
      (annotates : Spells ctx a (.annotate ⟨.triggerStateReset, .int r.defaultValue⟩) ls) :
      Spells ctx a (.resetWhen i r)
        (s!"if {argName f} == {r.resetValue} \x7b" :: ls.map ("    " ++ ·) ++ ["\x7d"])

/-- The texts of the lines that are printed for a step. -/
def stepTexts (ctx : Context) (a : Atom) (step : Step) : List String :=
  (stepLines ctx a step).map Line.text

variable {ctx : Context} {a : Atom}

theorem spells_setAtomId : Spells ctx a .setAtomId (stepTexts ctx a .setAtomId) := by
  have hlines : stepTexts ctx a .setAtomId =
      [call "AStatsEvent_setAtomId" ["event", s!"Atoms::{atomVariant a} as u32"] ++ ";"] := by
    show ["AStatsEvent_setAtomId" ++ ("(" ++ "event" ++ ", " ++ "Atoms::") ++ atomVariant a ++
      (" as u32" ++ ")" ++ ";")] = _
    simp only [call, String.intercalate_cons_cons, String.intercalate_singleton,
      String.append_assoc, toString]
  rw [hlines]
  exact .setAtomId

theorem spells_annotate (n : Annotation) :
    Spells ctx a (.annotate n) (stepTexts ctx a (.annotate n)) := by
  obtain ⟨id, value⟩ := n
  cases value with
  | bool b =>
    have hlines : stepTexts ctx a (.annotate ⟨id, .bool b⟩) = [call "AStatsEvent_addBoolAnnotation"
        ["event", s!"AnnotationId::{annotationVariant id} as u8", toString b] ++ ";"] := by
      show ["AStatsEvent_addBoolAnnotation" ++ ("(" ++ "event" ++ ", " ++ "AnnotationId::") ++
        annotationVariant id ++ (" as u8" ++ ", ") ++ valueText (.bool b) ++ (")" ++ ";")] = _
      simp only [call, String.intercalate_cons_cons, String.intercalate_singleton,
        String.append_assoc]
      cases b <;> rfl
    rw [hlines]
    exact .annotateBool
  | int n =>
    have hlines : stepTexts ctx a (.annotate ⟨id, .int n⟩) = [call "AStatsEvent_addInt32Annotation"
        ["event", s!"AnnotationId::{annotationVariant id} as u8", toString n] ++ ";"] := by
      show ["AStatsEvent_addInt32Annotation" ++ ("(" ++ "event" ++ ", " ++ "AnnotationId::") ++
        annotationVariant id ++ (" as u8" ++ ", ") ++ valueText (.int n) ++ (")" ++ ";")] = _
      simp only [call, String.intercalate_cons_cons, String.intercalate_singleton,
        String.append_assoc]
      rfl
    rw [hlines]
    exact .annotateInt

theorem writes_value {t : FieldType} {type w : String}
    (plain : type ∈ ["bool", "i32", "i64", "f32"]) (writer : writer? t = some w) (x : String) :
    Writes t [⟨type, x⟩] [w ++ "(event, " ++ x ++ ");"] := by
  have hcall : w ++ "(event, " ++ x ++ ");" = call w ["event", x] ++ ";" := by
    show w ++ ("(" ++ "event" ++ ", ") ++ x ++ (")" ++ ";") = _
    simp only [call, String.intercalate_cons_cons, String.intercalate_singleton,
      String.append_assoc]
  rw [hcall]
  exact .value plain writer

theorem writes_bytes (x : String) : Writes .bytes [⟨"&[u8]", x⟩]
    ["AStatsEvent_writeByteArray(event, " ++ x ++ ".as_ptr(), " ++ x ++ ".len());"] := by
  have hcall : "AStatsEvent_writeByteArray(event, " ++ x ++ ".as_ptr(), " ++ x ++ ".len());" =
      call "AStatsEvent_writeByteArray" ["event", x ++ ".as_ptr()", x ++ ".len()"] ++ ";" := by
    show "AStatsEvent_writeByteArray" ++ ("(" ++ "event" ++ ", ") ++ x ++ (".as_ptr()" ++ ", ") ++
      x ++ (".len()" ++ ")" ++ ";") = _
    simp only [call, String.intercalate_cons_cons, String.intercalate_singleton,
      String.append_assoc]
  rw [hcall]
  exact .bytes

theorem writes_string (x : String) : Writes .string [⟨"&str", x⟩]
    [letLine (x ++ "_cstr") ("CString::new(" ++ x ++ ")?"),
      "AStatsEvent_writeString(event, " ++ x ++ "_cstr.as_ptr());"] := by
  have hcopy : "CString::new(" ++ x ++ ")?" = call "CString::new" [x] ++ "?" := by
    show ("CString::new" ++ "(") ++ x ++ (")" ++ "?") = _
    simp only [call, String.intercalate_singleton, String.append_assoc]
  have hcall : "AStatsEvent_writeString(event, " ++ x ++ "_cstr.as_ptr());" =
      call "AStatsEvent_writeString" ["event", x ++ "_cstr.as_ptr()"] ++ ";" := by
    show "AStatsEvent_writeString" ++ ("(" ++ "event" ++ ", ") ++ x ++
      ("_cstr.as_ptr()" ++ ")" ++ ";") = _
    simp only [call, String.intercalate_cons_cons, String.intercalate_singleton,
      String.append_assoc]
  rw [hcopy, hcall]
  exact .string

theorem chainCall_eq (uids : String) :
    "AStatsEvent_writeAttributionChain(event, uids.as_ptr(), ptr_arr.as_ptr(), " ++
        (uids ++ ".len().try_into()?);") =
      call "AStatsEvent_writeAttributionChain"
        ["event", "uids.as_ptr()", "ptr_arr.as_ptr()", uids ++ ".len().try_into()?"] ++ ";" := by
  show ("AStatsEvent_writeAttributionChain" ++ "(" ++ "event" ++ ", " ++ "uids.as_ptr()" ++
    ", " ++ "ptr_arr.as_ptr()" ++ ", ") ++ (uids ++ (".len().try_into()?" ++ ")" ++ ";")) = _
  simp only [call, String.intercalate_cons_cons, String.intercalate_singleton, String.append_assoc]

theorem chainLines_eq : (chainLines ctx).map Line.text =
    [letLine "uids" (chainName ctx.uidName ++
        ".iter().map(|n| (*n).try_into()).collect::<Result<Vec<_>, _>>()?"),
      letLine "str_arr" (chainName ctx.tagName ++
        ".iter().map(|s| CString::new(*s)).collect::<Result<Vec<_>, _>>()?"),
      letLine "ptr_arr" "str_arr.iter().map(|s| s.as_ptr()).collect::<Vec<_>>()",
      call "AStatsEvent_writeAttributionChain" ["event", "uids.as_ptr()", "ptr_arr.as_ptr()",
        chainName ctx.uidName ++ ".len().try_into()?"] ++ ";"] := by
  have hcollect : ∀ x f : String, x ++ f ++ "collect::<Result<Vec<_>, _>>()?" =
      x ++ (f ++ "collect::<Result<Vec<_>, _>>()?") := fun _ _ => String.append_assoc
  rw [← chainCall_eq]
  show [letLine "uids" (chainName ctx.uidName ++ ".iter().map(|n| (*n).try_into())." ++
      "collect::<Result<Vec<_>, _>>()?"),
    letLine "str_arr" (chainName ctx.tagName ++ ".iter().map(|s| CString::new(*s))." ++
      "collect::<Result<Vec<_>, _>>()?"), _, _] = _
  rw [hcollect, hcollect]
  rfl

/-- The uids and the tags of a chain are written, whatever is between them. -/
theorem writes_chain (node : Collation.isAttribution ctx.attribution = true) :
    Writes .attributionChain (chainParams ctx) ((chainLines ctx).map Line.text) := by
  obtain ⟨uid, mid, tag, hfields, huid, htag⟩ := Collation.fields_of_isAttribution node
  obtain ⟨uidName, tagName⟩ := ctx.names_of_fields hfields
  have hparams : ∃ between, chainParams ctx =
      ⟨"&[i32]", chainName ctx.uidName⟩ :: (between ++ [⟨"&[&str]", chainName ctx.tagName⟩]) := by
    rw [uidName, tagName, chainParams, hfields, List.map_cons, List.map_append,
      List.map_singleton, huid, htag]
    exact ⟨_, rfl⟩
  obtain ⟨between, hparams⟩ := hparams
  rw [hparams, chainLines_eq]
  exact .chain

/-- What is declared for a field is what its lines write. -/
theorem writes_field (node : Collation.isAttribution ctx.attribution = true) {f : AtomField}
    (supported : target.supports f.type = true) :
    Writes f.type.wire (fieldParams ctx f)
      ((writeLines ctx (argName f) f.type.wire).map Line.text) := by
  unfold fieldParams argType
  generalize argName f = x
  generalize f.type = t at supported ⊢
  cases t with
  | double | keyValuePairs | boolArray | int32Array | int64Array | floatArray | stringArray
  | enumArray => exact absurd supported (by decide)
  | attributionChain => exact writes_chain node
  | bool => exact @writes_value .bool "bool" "AStatsEvent_writeBool" (by decide) rfl x
  | int32 | enum => exact @writes_value .int32 "i32" "AStatsEvent_writeInt32" (by decide) rfl x
  | int64 => exact @writes_value .int64 "i64" "AStatsEvent_writeInt64" (by decide) rfl x
  | float => exact @writes_value .float "f32" "AStatsEvent_writeFloat" (by decide) rfl x
  | string => exact writes_string x
  | bytes => exact writes_bytes x

theorem spells_stepLines (node : Collation.isAttribution ctx.attribution = true)
    (supported : target.supportsAtom a = true) {step : Step} (h : step ∈ event a) :
    Spells ctx a step (stepTexts ctx a step) := by
  rcases mem_event_iff.1 h with rfl | ⟨n, -, rfl⟩ | ⟨f, i, field, hstep⟩
  · exact spells_setAtomId
  · exact spells_annotate n
  · simp only [fieldSteps, List.mem_cons, List.mem_append, List.mem_map, Option.mem_toList,
      Option.map_eq_some_iff] at hstep
    rcases hstep with rfl | ⟨n, -, rfl⟩ | ⟨r, -, rfl⟩
    · have hmem : f ∈ a.fields :=
        List.fst_mem_of_mem_zipIdx (mem_zipIdx_fields_iff.2 field)
      rw [stepTexts, stepLines, argAt_eq field]
      exact .write field (writes_field node (List.all_eq_true.1 supported f hmem))
    · exact spells_annotate n
    · have annotates : Spells ctx a (.annotate ⟨.triggerStateReset, .int r.defaultValue⟩) _ :=
        spells_annotate _
      have hlines : stepTexts ctx a (.resetWhen i r) = s!"if {argName f} == {r.resetValue} \x7b" ::
          (stepTexts ctx a (.annotate ⟨.triggerStateReset, .int r.defaultValue⟩)).map
            ("    " ++ ·) ++ ["\x7d"] := by
        rw [stepTexts, stepLines, argAt_eq field]
        rfl
      rw [hlines]
      exact .resetWhen field annotates

end Rust

/-! ### All languages -/

/-- C++ logs an atom by these steps: one overload has the signature of the atom, and what the body
of that one runs for the atom spells the steps. -/
structure Native.Logs (ctx : Context) (v : Atom) (b : Bucket) (steps : List Step) : Prop where
  only : ∀ b', (v.signature, b') ∈ overloads ctx (.ofKind v.kind) ↔ b' = b
  defined : ⟨functionComment (.ofKind v.kind) v.signature,
    methodSignature ctx (.ofKind v.kind) v.signature,
    functionBody ctx (.ofKind v.kind) v.signature b⟩ ∈ defined ctx (.ofKind v.kind)
  runs : ∃ ls, functionBody ctx (.ofKind v.kind) v.signature b =
      openLine v.kind :: ls.map ("    " ++ ·) ++ closeLines v.kind ∧
    Runs (Spells (words ctx)) (Naming.constant v.name) ls steps

/-- Java logs an atom in the same way. The text of the lines is cut again to be indented. -/
structure Java.Logs (ctx : Context) (v : Atom) (b : Bucket) (steps : List Step) : Prop where
  only : ∀ b', (v.signature, b') ∈ overloads ctx v.kind ↔ b' = b
  defined : eventMethod ctx v.kind v.signature b ∈ methods ctx v.kind
  runs : ∃ ls, eventMethod ctx v.kind v.signature b =
      ["", s!"    // Signature: {v.signature.mangledName}",
        s!"    public static {opening v.kind}{paramList ctx v.signature}) \x7b"] ++
        (Text.lines (Text.ofLines (openLine :: ls.map ("    " ++ ·)))).map ("    " ++ ·) ++
        closeLines v.kind ++ ["    \x7d"] ∧
    Runs (Spells (words ctx)) (Naming.constant v.name) ls steps

/-- The function of an atom alone has no blocks for other ones. -/
structure Rust.Logs (ctx : Context) (v : Atom) (steps : List Step) : Prop where
  coded : (atomVariant v, v.code) ∈ atomVariants ctx
  defined : atomFunction ctx v ∈ functions ctx
  runs : ∃ ls, (atomFunction ctx v).body.lines =
      "    unsafe \x7b" :: ((openLines v.kind).map Line.text ++ ls ++
        (closeLines v.kind).map Line.text).map ("        " ++ ·) ++ ["    \x7d"] ∧
    Takes (Spells ctx v) ls steps

section Languages

variable {ctx : Context} {a : Atom} {b : Bucket}

theorem Native.logs_event (node : Collation.isAttribution ctx.attribution = true)
    (hb : (ctx.catalog.ofKind a.kind).get? a.chained.signature = some b)
    (taken : stepsFor (Naming.constant a.name) (sharedBody ctx a.chained.signature b) =
      event a.chained)
    (h : target.supportsAtom a.chained = true) : Logs ctx a.chained b (event a.chained) := by
  have only : ∀ b',
      (a.chained.signature, b') ∈ overloads ctx (.ofKind a.chained.kind) ↔ b' = b := by
    rw [Atom.chained_kind, overloads_ofKind]
    exact Target.mem_supported_iff_of_atom supports_wire h hb
  refine { only, defined := ?_, runs := ?_ }
  · exact List.mem_map.2 ⟨_, (only b).2 rfl, rfl⟩
  · refine ⟨(sharedBody ctx a.chained.signature b).flatMap (spelling ctx).stmtLines, ?_, ?_⟩
    · rw [functionBody_ofKind]
      rfl
    · rw [Atom.chained_name, ← taken]
      exact (speaks node).runs_sharedBody writer?_isSome h _

theorem Java.logs_event
    (hb : (ctx.catalog.ofKind a.kind).get? a.chained.signature = some b)
    (taken : stepsFor (Naming.constant a.name) (sharedBody ctx a.chained.signature b) =
      event a.chained)
    (h : target.supportsAtom a.chained = true) : Logs ctx a.chained b (event a.chained) := by
  have only : ∀ b', (a.chained.signature, b') ∈ overloads ctx a.chained.kind ↔ b' = b := by
    rw [Atom.chained_kind, overloads_eq]
    exact Target.mem_supported_iff_of_atom supports_wire h hb
  refine { only, defined := ?_, runs := ?_ }
  · exact List.mem_map.2 ⟨_, (only b).2 rfl, rfl⟩
  · refine ⟨(sharedBody ctx a.chained.signature b).flatMap (spelling ctx).stmtLines, rfl, ?_⟩
    rw [Atom.chained_name, ← taken]
    exact (speaks ctx).runs_sharedBody writer?_isSome h _

theorem Rust.logs_event (node : Collation.isAttribution ctx.attribution = true) {code : Int}
    (found : ctx.catalog.get? code = some a)
    (leading : a.nonChained = true → ∃ uid tag rest,
      a.fields = uid :: tag :: rest ∧ uid.type = .int32 ∧ tag.type = .string)
    (h : target.supportsAtom a.chained = true) : Logs ctx a.chained (event a.chained) := by
  have hatom : a ∈ ctx.catalog.toList := SortedMap.mem_values.2 ⟨code, found⟩
  refine { coded := ?_, defined := ?_, runs := ?_ }
  · refine List.mem_map.2 ⟨a, hatom, ?_⟩
    rw [atomVariant, atomVariant, Atom.chained_name, Atom.chained_code]
  · have hsupported : a ∈ supported ctx :=
      List.mem_filter.2 ⟨hatom, supportsAtom_of_chained leading h⟩
    exact List.mem_append_left _ (List.mem_map.2 ⟨a, hsupported, rfl⟩)
  · refine ⟨(event a.chained).flatMap (stepTexts ctx a.chained), ?_,
      takes_flatMap fun _ => spells_stepLines node h⟩
    simp only [atomFunction, atomBody_eq_event, Body.lines, List.map_append, List.map_flatMap,
      List.map_map, stepTexts]
    rfl

end Languages

/-- Two atoms of one signature, each with annotations of its own. -/
def screenSchema : Schema :=
  let state : SchemaField :=
    { name := "state", number := 1, kind := .int32,
      options := [⟨.number 50011, .bool true⟩, ⟨.number 50013, .int 0⟩, ⟨.number 50014, .int 7⟩] }
  let level : SchemaField :=
    { name := "level", number := 1, kind := .int32, options := [⟨.number 50031, .bool true⟩] }
  { container := "Atom"
    entries := [{ name := "screen_state", code := 29, message := "ScreenState" },
      { name := "battery_level", code := 30, message := "BatteryLevel" }]
    messages := .ofList [("ScreenState", { name := "ScreenState", fields := [state] }),
      ("BatteryLevel", { name := "BatteryLevel", fields := [level] })] }

def screenContext : Context :=
  let c := Collation.collate .standard screenSchema
  ⟨c.catalog, c.attribution, .all⟩

end Emit

end AtomLog
