import AtomLog.Proofs.OptionKeys
import AtomLog.Proofs.Overloads
import AtomLog.Proofs.StateMarks
/-!
The arguments that functions test before they reset a state.

A reset is printed for every field with both of its values, whatever the field holds. Main
statement: the test is of an int32 that the function declares just when the field is an int32 or an
enum (`Emit.resets_int32_iff`).
-/
namespace AtomLog

/-- Whether an atom resets its state at a position where some field stands. -/
def Atom.ResetsAt (a : Atom) (i : Nat) (f : AtomField) : Prop :=
  a.field? i = some f ∧ ∃ reset, a.resetAt i = some reset

/-- Whether all fields at which an atom resets its state hold an int32 or an enum. -/
def Atom.ResetsInt32 (a : Atom) : Prop := ∀ i f, a.ResetsAt i f → f.type.wire = .int32

theorem Atom.signature_types_of_field? {a : Atom} {i : Nat} {f : AtomField}
    (h : a.field? i = some f) : 1 ≤ i ∧ a.signature.types[i - 1]? = some f.type.wire := by
  obtain ⟨j, hj, hget⟩ := field?_eq_some.1 h
  obtain rfl : i = j + 1 := by omega
  refine ⟨by omega, ?_⟩
  simp [signature, Signature.ofTypes, hget]

theorem Atom.exists_field?_of_le {a : Atom} {i : Nat} (pos : 1 ≤ i)
    (le : i ≤ a.signature.types.length) : ∃ f, a.field? i = some f := by
  obtain ⟨j, rfl⟩ := Nat.exists_eq_add_one.2 pos
  have hlt : j + 1 ≤ a.fields.length := by simpa [signature, Signature.ofTypes] using le
  exact ⟨a.fields[j], field?_eq_some.2 ⟨j, by omega, List.getElem?_eq_getElem hlt⟩⟩

namespace Emit

/-! ### What is tested -/

/-- Whether a body tests the argument at a position before it resets a state: in print, the argument
that is named after the position. -/
def Tests (body : List Stmt) (i : Nat) : Prop :=
  ∃ constant steps reset, .whenAtom constant steps ∈ body ∧ .resetWhen i reset ∈ steps

theorem resetWhen_mem_annotationSteps {position i : Nat} {set : AnnotationSet}
    {reset : StateReset} : .resetWhen i reset ∈ annotationSteps position set ↔
      i = position ∧ 1 ≤ i ∧ StateReset.of? set = some reset := by
  cases position with
  | zero =>
    simp only [annotationSteps, List.append_nil, List.mem_map, reduceCtorEq, and_false,
      exists_false, false_iff, not_and]
    omega
  | succ position =>
    cases hreset : StateReset.of? set with
    | none => simp [annotationSteps, hreset]
    | some r =>
      simp only [annotationSteps, hreset, List.mem_append, List.mem_map, reduceCtorEq, and_false,
        exists_false, false_or, List.mem_singleton, Step.resetWhen.injEq, Option.some.injEq]
      constructor
      · intro h
        obtain ⟨rfl, rfl⟩ := h
        exact ⟨rfl, by omega, rfl⟩
      · intro h
        exact ⟨h.1, h.2.2.symm⟩

theorem whenAtom_mem_bucketAnnotations {ctx : Context} {b : Bucket} {position : Nat}
    {constant : String} {steps : List Step} :
    .whenAtom constant steps ∈ bucketAnnotations ctx b position ↔
      ∃ code set, b.annotations? position code = some set ∧
        ctx.atomConstant code = constant ∧ annotationSteps position set = steps := by
  have hlookup : ∀ code set, ((b.annotations.get? position).getD ∅).get? code = some set ↔
      b.annotations? position code = some set := by
    intro code set
    rw [Bucket.annotations?]
    cases b.annotations.get? position <;> simp
  simp only [bucketAnnotations, List.mem_map, Prod.exists, Stmt.whenAtom.injEq,
    SortedMap.mem_entries_iff, hlookup]

theorem whenAtom_mem_sharedBody {ctx : Context} {s : Signature} {b : Bucket} {constant : String}
    {steps : List Step} : .whenAtom constant steps ∈ sharedBody ctx s b ↔
      ∃ position ≤ s.types.length, .whenAtom constant steps ∈ bucketAnnotations ctx b position := by
  simp only [sharedBody, List.mem_append, List.mem_cons, reduceCtorEq, false_or, List.mem_flatMap,
    Prod.exists]
  constructor
  · intro h
    rcases h with h | ⟨t, i, hmem, h⟩
    · exact ⟨0, by omega, h⟩
    · obtain ⟨-, hget⟩ := List.mem_zipIdx_iff_le_and_getElem?_sub.1 hmem
      obtain ⟨hlt, -⟩ := List.getElem?_eq_some_iff.1 hget
      exact ⟨i, by omega, h⟩
  · intro h
    obtain ⟨position, hle, h⟩ := h
    cases position with
    | zero => exact .inl h
    | succ i =>
      have hget : s.types[i]? = some s.types[i] := List.getElem?_eq_getElem (by omega)
      exact .inr ⟨_, i + 1, List.mem_zipIdx_iff_le_and_getElem?_sub.2 ⟨by omega, hget⟩, h⟩

/-- A shared function tests what its atoms reset, as seen with a chain. -/
theorem tests_sharedBody_iff {ctx : Context} (describes : ctx.catalog.Describes ctx.catalog.get?)
    {kind : AtomKind} {s : Signature} {b : Bucket}
    (hb : (ctx.catalog.ofKind kind).get? s = some b) {i : Nat} :
    Tests (sharedBody ctx s b) i ↔ ∃ code a f, ctx.catalog.get? code = some a ∧ a.kind = kind ∧
      a.chained.signature = s ∧ a.chained.ResetsAt i f := by
  have hbucket : ∀ position code set, b.annotations? position code = some set ↔
      (ctx.catalog.ofKind kind).annotations? s position code = some set := by
    intro position code set
    rw [Buckets.annotations?, hb, Option.bind_some]
  constructor
  · intro h
    obtain ⟨constant, steps, reset, hmem, hreset⟩ := h
    obtain ⟨position, hle, hmem⟩ := whenAtom_mem_sharedBody.1 hmem
    obtain ⟨code, set, hset, -, rfl⟩ := whenAtom_mem_bucketAnnotations.1 hmem
    obtain ⟨rfl, hpos, hreset⟩ := resetWhen_mem_annotationSteps.1 hreset
    obtain ⟨a, ha, hkind, hsig, hat⟩ :=
      (describes.annotations_ofKind_iff kind s i code set).1 ((hbucket _ _ _).1 hset)
    obtain ⟨f, hf⟩ := Atom.exists_field?_of_le hpos (hsig ▸ hle)
    exact ⟨code, a, f, ha, hkind, hsig, hf, reset, by rw [Atom.resetAt, hat]; exact hreset⟩
  · intro h
    obtain ⟨code, a, f, ha, hkind, rfl, hf, reset, hreset⟩ := h
    obtain ⟨hpos, hget⟩ := Atom.signature_types_of_field? hf
    obtain ⟨hlt, -⟩ := List.getElem?_eq_some_iff.1 hget
    obtain ⟨set, hset, hreset⟩ := Option.bind_eq_some_iff.1 hreset
    have hheld := (describes.annotations_ofKind_iff kind a.chained.signature i code set).2
      ⟨a, ha, hkind, rfl, hset⟩
    refine ⟨ctx.atomConstant code, annotationSteps i set, reset, ?_, ?_⟩
    · refine whenAtom_mem_sharedBody.2 ⟨i, by omega, ?_⟩
      exact whenAtom_mem_bucketAnnotations.2 ⟨code, set, (hbucket _ _ _).2 hheld, rfl, rfl⟩
    · exact resetWhen_mem_annotationSteps.2 ⟨rfl, hpos, hreset⟩

/-- The function of an atom alone tests what the atom resets. -/
theorem resetWhen_mem_atomBody {a : Atom} {i : Nat} :
    (∃ reset, .resetWhen i reset ∈ atomBody a) ↔ ∃ f, a.ResetsAt i f := by
  simp only [atomBody_eq_event, mem_event_iff, fieldSteps, List.mem_cons, reduceCtorEq, false_or,
    List.mem_append, List.mem_map, and_false, exists_false, Option.mem_toList,
    Option.map_eq_some_iff, Step.resetWhen.injEq, Atom.ResetsAt]
  constructor
  · intro h
    obtain ⟨reset, f, _, hf, r, hr, rfl, rfl⟩ := h
    exact ⟨f, hf, r, hr⟩
  · intro h
    obtain ⟨f, hf, reset, hreset⟩ := h
    exact ⟨reset, f, i, hf, reset, hreset, rfl, rfl⟩

/-! ### What is declared -/

/-- Arguments at different positions have different names. -/
theorem arg_eq_iff {i j : Nat} : s!"arg{i}" = s!"arg{j}" ↔ i = j := by
  constructor
  · intro h
    have h : "arg" ++ toString i = "arg" ++ toString j := h
    have hdigits := congrArg String.toList ((String.append_right_inj "arg").1 h)
    rw [OptionKey.toList_toString, OptionKey.toList_toString] at hdigits
    have hvalue := congrArg (fun ds => Nat.ofDigitChars 10 ds 0) hdigits
    simpa only [Nat.ofDigitChars_ten_toDigits] using hvalue
  · intro h
    rw [h]

theorem arg_ne_code (i : Nat) : s!"arg{i}" ≠ "code" := by
  intro h
  have h : "arg" ++ toString i = "code" := h
  have hlist := congrArg String.toList h
  simp [String.toList_append] at hlist

/-- Where a parameter is declared for the int32s at one position, it is declared just when there is
an int32 at that position. -/
theorem mem_flatMap_int32_iff {params : Nat → FieldType → List Param} {p : Param} {i : Nat}
    (own : ∀ j t, p ∈ params j t ↔ i = j ∧ t.wire = .int32) (ts : List FieldType) :
    p ∈ (ts.zipIdx 1).flatMap (fun (t, j) => params j t) ↔
      1 ≤ i ∧ ∃ t, ts[i - 1]? = some t ∧ t.wire = .int32 := by
  simp only [List.mem_flatMap, Prod.exists, own]
  constructor
  · intro h
    obtain ⟨t, j, hmem, rfl, ht⟩ := h
    obtain ⟨hpos, hget⟩ := List.mem_zipIdx_iff_le_and_getElem?_sub.1 hmem
    exact ⟨hpos, t, hget, ht⟩
  · intro h
    obtain ⟨hpos, t, hget, ht⟩ := h
    exact ⟨t, i, List.mem_zipIdx_iff_le_and_getElem?_sub.2 ⟨hpos, hget⟩, rfl, ht⟩

/-- Whether a body tests nothing but arguments that the parameters declare with a type. -/
def TestsDeclared (type : String) (params : List Param) (body : List Stmt) : Prop :=
  ∀ i, Tests body i → ⟨type, s!"arg{i}"⟩ ∈ params

/-- A function that declares int32s as they are tests them alone just when its atoms reset their
states at int32s alone. -/
theorem testsDeclared_iff {ctx : Context} (describes : ctx.catalog.Describes ctx.catalog.get?)
    {kind : AtomKind} {s : Signature} {b : Bucket}
    (hb : (ctx.catalog.ofKind kind).get? s = some b) {type : String} {params : List Param}
    (declared : ∀ i : Nat, ⟨type, s!"arg{i}"⟩ ∈ params ↔
      1 ≤ i ∧ ∃ t, s.types[i - 1]? = some t ∧ t.wire = .int32) :
    TestsDeclared type params (sharedBody ctx s b) ↔
      ∀ code a, ctx.catalog.get? code = some a → a.kind = kind → a.chained.signature = s →
        a.chained.ResetsInt32 := by
  have field : ∀ {a : Atom} {i : Nat} {f : AtomField}, a.field? i = some f →
      ((1 ≤ i ∧ ∃ t, a.signature.types[i - 1]? = some t ∧ t.wire = .int32) ↔
        f.type.wire = .int32) := by
    intro a i f h
    obtain ⟨hpos, hget⟩ := Atom.signature_types_of_field? h
    simp only [hget, hpos, Option.some.injEq, exists_eq_left', FieldType.wire_wire, true_and]
  simp only [TestsDeclared, tests_sharedBody_iff describes hb, declared]
  constructor
  · intro h code a found hkind hsig i f hresets
    subst hsig
    exact (field hresets.1).1 (h i ⟨code, a, f, found, hkind, rfl, hresets⟩)
  · intro h i htests
    obtain ⟨code, a, f, found, hkind, rfl, hresets⟩ := htests
    exact (field hresets.1).2 (h code a found hkind rfl i f hresets)

namespace Native

theorem chainParams_type_ne {ctx : Context} {p : Param} (hp : p ∈ chainParams ctx) :
    p.type ≠ "int32_t" := by
  obtain ⟨f, -, hp⟩ := List.mem_flatMap.1 hp
  split at hp
  · obtain rfl := List.mem_singleton.1 hp
    simp
  · simp only [List.mem_cons, List.not_mem_nil, or_false] at hp
    rcases hp with rfl | rfl
    · intro h
      have hlist := congrArg String.toList h
      simp [String.toList_append] at hlist
    · simp

theorem int32_mem_params_iff (ctx : Context) (s : Signature) (i : Nat) :
    ⟨"int32_t", s!"arg{i}"⟩ ∈ params ctx s ↔
      1 ≤ i ∧ ∃ t, s.types[i - 1]? = some t ∧ t.wire = .int32 := by
  have own : ∀ j t, (⟨"int32_t", s!"arg{i}"⟩ : Param) ∈ argParams ctx j t ↔
      i = j ∧ t.wire = .int32 := by
    intro j t
    cases t with
    | attributionChain =>
      simp only [FieldType.wire, reduceCtorEq, and_false, iff_false]
      intro hp
      exact chainParams_type_ne hp rfl
    | int32 | enum =>
      change _ ∈ [(⟨"int32_t", s!"arg{j}"⟩ : Param)] ↔ i = j ∧ FieldType.int32 = .int32
      rw [List.mem_singleton, Param.mk.injEq, arg_eq_iff]
      simp
    | _ => simp [argParams, type?, FieldType.wire]
  rw [params, List.mem_cons, mem_flatMap_int32_iff own]
  simp only [Param.mk.injEq, arg_ne_code, and_false, false_or]

/-- Whether the function of a signature tests nothing but the int32s among its parameters. -/
def TestsInt32 (ctx : Context) (s : Signature) (b : Bucket) : Prop :=
  TestsDeclared "int32_t" (params ctx s) (sharedBody ctx s b)

end Native

namespace Java

theorem int32_mem_params_iff (ctx : Context) (s : Signature) (i : Nat) :
    ⟨"int", s!"arg{i}"⟩ ∈ params ctx s ↔
      1 ≤ i ∧ ∃ t, s.types[i - 1]? = some t ∧ t.wire = .int32 := by
  have own : ∀ j t, (⟨"int", s!"arg{i}"⟩ : Param) ∈ argParams ctx j t ↔
      i = j ∧ t.wire = .int32 := by
    intro j t
    cases t with
    | int32 | enum =>
      change _ ∈ [(⟨"int", s!"arg{j}"⟩ : Param)] ↔ i = j ∧ FieldType.int32 = .int32
      rw [List.mem_singleton, Param.mk.injEq, arg_eq_iff]
      simp
    | keyValuePairs => simp [argParams, pairMaps, FieldType.wire]
    | _ => simp [argParams, type?, FieldType.wire]
  rw [params, List.mem_cons, mem_flatMap_int32_iff own]
  simp only [Param.mk.injEq, arg_ne_code, and_false, false_or]

/-- Whether the method of a signature tests nothing but the ints among its parameters. -/
def TestsInt32 (ctx : Context) (s : Signature) (b : Bucket) : Prop :=
  TestsDeclared "int" (params ctx s) (sharedBody ctx s b)

end Java

namespace Rust

theorem chainParams_type_ne {ctx : Context} {p : Param} (hp : p ∈ chainParams ctx) :
    p.type ≠ "i32" := by
  obtain ⟨f, -, rfl⟩ := List.mem_map.1 hp
  intro h
  have hlist := congrArg String.toList h
  simp [String.toList_append] at hlist

/-- An int32 under the name of a field is declared for the int32s of that name. -/
theorem int32_mem_params_iff (ctx : Context) (a : Atom) (name : String) :
    ⟨"i32", "_" ++ name⟩ ∈ (atomFunction ctx a).params ↔
      ∃ f ∈ a.fields, name = f.name ∧ f.type.wire = .int32 := by
  have own : ∀ f, (⟨"i32", "_" ++ name⟩ : Param) ∈ fieldParams ctx f ↔
      name = f.name ∧ f.type.wire = .int32 := by
    intro f
    obtain ⟨fieldName, type, values⟩ := f
    cases type with
    | attributionChain =>
      simp only [FieldType.wire, reduceCtorEq, and_false, iff_false]
      intro hp
      exact chainParams_type_ne hp rfl
    | _ => simp [fieldParams, argType, argName, type?, FieldType.wire]
  have hlist : (⟨"i32", "_" ++ name⟩ : Param) ∉ listParams a.kind := by
    cases a.kind <;> simp [listParams]
  simp only [atomFunction, List.mem_append, hlist, false_or, List.mem_flatMap, own]

/-- Whether the function of an atom tests nothing but the int32s among its parameters. -/
def TestsInt32 (ctx : Context) (a : Atom) : Prop :=
  ∀ i reset, .resetWhen i reset ∈ atomBody a → ⟨"i32", argAt a i⟩ ∈ (atomFunction ctx a).params

theorem testsInt32_iff (ctx : Context) (a : Atom) : TestsInt32 ctx a ↔
    ∀ i f, a.ResetsAt i f → ∃ g ∈ a.fields, f.name = g.name ∧ g.type.wire = .int32 := by
  constructor
  · intro h i f hresets
    obtain ⟨reset, hmem⟩ := resetWhen_mem_atomBody.2 ⟨f, hresets⟩
    have hparam := h i reset hmem
    rw [argAt_eq hresets.1] at hparam
    exact (int32_mem_params_iff ctx a f.name).1 hparam
  · intro h i reset hmem
    obtain ⟨f, hresets⟩ := resetWhen_mem_atomBody.1 ⟨reset, hmem⟩
    rw [argAt_eq hresets.1]
    exact (int32_mem_params_iff ctx a f.name).2 (h i f hresets)

end Rust

/-- The functions that atoms share test int32 arguments of their own alone just when all of their
atoms reset states at int32s and enums alone; in Rust a field of the same name will do. -/
theorem resets_int32_iff {r : Registry} {s : Schema} {sels : List Selection} {ctx : Context}
    (selected : sels.foldlM Catalog.select (Collation.collate r s).catalog = .ok ctx.catalog) :
    (∀ kind sig b, (sig, b) ∈ Native.overloads ctx (.ofKind kind) →
      (Native.TestsInt32 ctx sig b ↔ ∀ code a, ctx.catalog.get? code = some a → a.kind = kind →
        a.chained.signature = sig → a.chained.ResetsInt32)) ∧
    (∀ kind sig b, (sig, b) ∈ Java.overloads ctx kind →
      (Java.TestsInt32 ctx sig b ↔ ∀ code a, ctx.catalog.get? code = some a → a.kind = kind →
        a.chained.signature = sig → a.chained.ResetsInt32)) ∧
    ∀ a ∈ Rust.supported ctx, (Rust.TestsInt32 ctx a.chained ↔
      ∀ i f, a.chained.ResetsAt i f →
        ∃ g ∈ a.chained.fields, f.name = g.name ∧ g.type.wire = .int32) := by
  have describes := Collation.describes_of_selectAll selected
  refine ⟨?_, ?_, ?_⟩
  · intro kind sig b h
    rw [Native.overloads_ofKind] at h
    exact testsDeclared_iff describes (Target.mem_supported.1 h).1
      (Native.int32_mem_params_iff ctx sig)
  · intro kind sig b h
    rw [Java.overloads_eq] at h
    exact testsDeclared_iff describes (Target.mem_supported.1 h).1
      (Java.int32_mem_params_iff ctx sig)
  · intro a _
    exact Rust.testsInt32_iff ctx a.chained

/-- A handover whose state is reset, or else the chain before it. -/
def handoverMessage (chain : Bool) : Message where
  name := "Handover"
  fields :=
    let resets : List RawOption := [⟨.number 50013, .int 0⟩, ⟨.number 50014, .int 7⟩]
    [{ name := "owner", number := 1, kind := .message, repeated := true,
        messageType := some "AttributionNode", options := if chain then resets else [] },
      { name := "state", number := 2, kind := .int32,
        options := ⟨.number 50011, .bool true⟩ :: if chain then [] else resets }]

def handoverEntry : Entry where
  name := "handover"
  code := 80
  message := "Handover"

def handoverSchema (chain : Bool) : Schema where
  container := "Atom"
  entries := [handoverEntry]
  messages := .ofList [("Handover", handoverMessage chain)]

def handoverContext (chain : Bool) : Context :=
  let c := Collation.collate .standard (handoverSchema chain)
  ⟨c.catalog, c.attribution, .all⟩

/-- A handover as it is collated: its owner is a chain, its state an int32. -/
structure Handover (chain : Bool) (a : Atom) (owner state : AtomField) : Prop where
  get?_iff : ∀ code a', (handoverContext chain).catalog.get? code = some a' ↔ code = 80 ∧ a' = a
  pushed : a.kind = .pushed
  chained : a.chained = a
  fields : a.fields = [owner, state]
  owner_type : owner.type = .attributionChain
  state_type : state.type = .int32
  names_ne : owner.name ≠ state.name
  reset_owner : a.resetAt 1 = if chain then some ⟨7, 0⟩ else none
  reset_state : a.resetAt 2 = if chain then none else some ⟨7, 0⟩

theorem handover_collated (chain : Bool) :
    (Collation.collate .standard (handoverSchema chain)).errors = [] ∧
      ∃ a owner state, Handover chain a owner state := by
  have hm : (handoverSchema chain).message? handoverEntry.message =
      some (handoverMessage chain) := by
    cases chain <;> decide +kernel
  have hnode : Collation.collateAttribution .standard (handoverSchema chain) =
      .ok Collation.builtinAttribution := by
    cases chain <;> rfl
  obtain ⟨clean, a, hcolumns, get?_iff⟩ := Collation.collate_of_fields .standard
    (handoverSchema chain) rfl hm (by cases chain <;> decide) hnode
    (p := fun a => a.kind = .pushed ∧ a.nonChained = false ∧
      a.fields.map (fun f => (f.name, f.type)) =
        [("owner", .attributionChain), ("state", .int32)] ∧
      a.resetAt 1 = (if chain then some ⟨7, 0⟩ else none) ∧
      a.resetAt 2 = (if chain then none else some ⟨7, 0⟩))
    (by cases chain <;> decide +kernel)
  obtain ⟨pushed, chained, htypes, reset_owner, reset_state⟩ := hcolumns
  obtain ⟨owner, rest, hfields, howner, hrest⟩ := List.map_eq_cons_iff.1 htypes
  obtain ⟨state, rest, rfl, hstate, hnil⟩ := List.map_eq_cons_iff.1 hrest
  obtain rfl := List.map_eq_nil_iff.1 hnil
  obtain ⟨owner_name, owner_type⟩ := Prod.mk.inj howner
  obtain ⟨state_name, state_type⟩ := Prod.mk.inj hstate
  exact ⟨clean, a, owner, state, get?_iff, pushed, Atom.chained_eq_self chained, hfields,
    owner_type, state_type, by simp [owner_name, state_name], reset_owner, reset_state⟩

namespace Handover

variable {chain : Bool} {a : Atom} {owner state : AtomField} (h : Handover chain a owner state)
include h

theorem found : (handoverContext chain).catalog.get? 80 = some a := (h.get?_iff 80 a).2 ⟨rfl, rfl⟩

/-- Every language has a function for a handover. -/
theorem functions : ∃ b, ((handoverContext chain).catalog.ofKind .pushed).get? a.signature = some b ∧
    (a.signature, b) ∈ Native.overloads (handoverContext chain) (.ofKind .pushed) ∧
    (a.signature, b) ∈ Java.overloads (handoverContext chain) .pushed ∧
    a ∈ Rust.supported (handoverContext chain) := by
  have types : a.signature = ⟨[.attributionChain, .int32]⟩ := by
    simp [Atom.signature, Signature.ofTypes, h.fields, h.owner_type, h.state_type, FieldType.wire]
  have describes : (handoverContext chain).catalog.Describes _ := Catalog.describes_self _
  obtain ⟨b, hb, -⟩ := (describes.holds_ofKind_iff .pushed a.signature 80).2
    ⟨a, h.found, h.pushed, by rw [h.chained]⟩
  refine ⟨b, hb, ?_, ?_, ?_⟩
  · rw [Native.overloads_ofKind]
    exact Target.mem_supported.2 ⟨hb, by rw [types]; rfl⟩
  · rw [Java.overloads_eq]
    exact Target.mem_supported.2 ⟨hb, by rw [types]; rfl⟩
  · refine List.mem_filter.2 ⟨SortedMap.mem_values.2 ⟨80, h.found⟩, ?_⟩
    simp only [Target.supportsAtom, h.fields, List.all_cons, h.owner_type, h.state_type]
    rfl

theorem field?_iff {i : Nat} {f : AtomField} :
    a.field? i = some f ↔ (i = 1 ∧ f = owner) ∨ (i = 2 ∧ f = state) := by
  rw [Atom.field?_eq_some, h.fields]
  constructor
  · intro hf
    obtain ⟨j, hj, hget⟩ := hf
    rcases j with _ | _ | j
    · exact .inl ⟨by omega, by simpa using hget.symm⟩
    · exact .inr ⟨by omega, by simpa using hget.symm⟩
    · simp at hget
  · intro hf
    rcases hf with ⟨rfl, rfl⟩ | ⟨rfl, rfl⟩
    · exact ⟨0, rfl, rfl⟩
    · exact ⟨1, rfl, rfl⟩

theorem resetsAt_iff {i : Nat} {f : AtomField} : a.ResetsAt i f ↔
    (i = 1 ∧ f = owner ∧ chain = true) ∨ (i = 2 ∧ f = state ∧ chain = false) := by
  have howner := h.reset_owner
  have hstate := h.reset_state
  rw [Atom.ResetsAt, h.field?_iff]
  constructor
  · intro hresets
    obtain ⟨⟨rfl, rfl⟩ | ⟨rfl, rfl⟩, reset, hreset⟩ := hresets
    · cases chain with
      | false => simp [howner] at hreset
      | true => exact .inl ⟨rfl, rfl, rfl⟩
    · cases chain with
      | false => exact .inr ⟨rfl, rfl, rfl⟩
      | true => simp [hstate] at hreset
  · intro hresets
    rcases hresets with ⟨rfl, rfl, rfl⟩ | ⟨rfl, rfl, rfl⟩
    · exact ⟨.inl ⟨rfl, rfl⟩, _, howner⟩
    · exact ⟨.inr ⟨rfl, rfl⟩, _, hstate⟩

end Handover

theorem resets_int32_handover : ∃ a b,
    let ctx := handoverContext false
    Tests (sharedBody ctx a.signature b) 2 ∧
    (a.signature, b) ∈ Native.overloads ctx (.ofKind .pushed) ∧
      Native.TestsInt32 ctx a.signature b ∧
    (a.signature, b) ∈ Java.overloads ctx .pushed ∧ Java.TestsInt32 ctx a.signature b ∧
    a ∈ Rust.supported ctx ∧ (∃ reset, .resetWhen 2 reset ∈ atomBody a.chained) ∧
      Rust.TestsInt32 ctx a.chained := by
  obtain ⟨-, a, owner, state, h⟩ := handover_collated false
  obtain ⟨b, hb, hnative, hjava, hrust⟩ := h.functions
  have selected : [].foldlM Catalog.select
      (Collation.collate .standard (handoverSchema false)).catalog =
        .ok (handoverContext false).catalog := Collation.foldlM_select_nil .standard _
  have resets : a.ResetsAt 2 state := h.resetsAt_iff.2 (.inr ⟨rfl, rfl, rfl⟩)
  have int32 : a.ResetsInt32 := by
    intro i f hresets
    rcases h.resetsAt_iff.1 hresets with ⟨-, -, hchain⟩ | ⟨-, rfl, -⟩
    · cases hchain
    · rw [h.state_type]
      rfl
  have int32s : ∀ code a', (handoverContext false).catalog.get? code = some a' → a'.kind = .pushed →
      a'.chained.signature = a.signature → a'.chained.ResetsInt32 := by
    intro code a' found _ _
    obtain ⟨-, rfl⟩ := (h.get?_iff code a').1 found
    rw [h.chained]
    exact int32
  obtain ⟨native, java, rust⟩ := resets_int32_iff selected
  refine ⟨a, b, ?_, hnative, (native _ _ _ hnative).2 int32s, hjava, (java _ _ _ hjava).2 int32s,
    hrust, ?_, (rust a hrust).2 ?_⟩
  · exact (tests_sharedBody_iff (Catalog.describes_self _) hb).2
      ⟨80, a, state, h.found, h.pushed, by rw [h.chained], by rw [h.chained]; exact resets⟩
  · rw [h.chained]
    exact resetWhen_mem_atomBody.2 ⟨state, resets⟩
  · rw [h.chained]
    intro i f hresets
    exact ⟨f, List.mem_of_getElem? (Atom.field?_eq_some.1 hresets.1).choose_spec.2, rfl,
      int32 i f hresets⟩

/-- A chain at which a state is reset is accepted, and then no function has what it tests. -/
theorem not_resets_int32 : (Collation.collate .standard (handoverSchema true)).errors = [] ∧
    let ctx := handoverContext true
    (¬∀ kind sig b, (sig, b) ∈ Native.overloads ctx (.ofKind kind) →
      Native.TestsInt32 ctx sig b) ∧
    (¬∀ kind sig b, (sig, b) ∈ Java.overloads ctx kind → Java.TestsInt32 ctx sig b) ∧
    ¬∀ a ∈ Rust.supported ctx, Rust.TestsInt32 ctx a.chained := by
  obtain ⟨clean, a, owner, state, h⟩ := handover_collated true
  obtain ⟨b, hb, hnative, hjava, hrust⟩ := h.functions
  have describes : (handoverContext true).catalog.Describes _ := Catalog.describes_self _
  have resets : a.ResetsAt 1 owner := h.resetsAt_iff.2 (.inl ⟨rfl, rfl, rfl⟩)
  have tests : Tests (sharedBody (handoverContext true) a.signature b) 1 :=
    (tests_sharedBody_iff describes hb).2
      ⟨80, a, owner, h.found, h.pushed, by rw [h.chained], by rw [h.chained]; exact resets⟩
  have nothing : ¬(1 ≤ 1 ∧ ∃ t, a.signature.types[1 - 1]? = some t ∧ t.wire = .int32) := by
    simp [Atom.signature, Signature.ofTypes, h.fields, h.owner_type, FieldType.wire]
  refine ⟨clean, ?_, ?_, ?_⟩
  · intro native
    exact nothing ((Native.int32_mem_params_iff _ _ 1).1 (native _ _ _ hnative 1 tests))
  · intro java
    exact nothing ((Java.int32_mem_params_iff _ _ 1).1 (java _ _ _ hjava 1 tests))
  · intro rust
    have hrust := rust a hrust
    rw [h.chained, Rust.testsInt32_iff] at hrust
    obtain ⟨g, hg, hname, htype⟩ := hrust 1 owner resets
    rw [h.fields] at hg
    simp only [List.mem_cons, List.not_mem_nil, or_false] at hg
    rcases hg with rfl | rfl
    · rw [h.owner_type] at htype
      cases htype
    · exact h.names_ne hname

end Emit

end AtomLog
