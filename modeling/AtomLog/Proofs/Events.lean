import AtomLog.Emit.Java
import AtomLog.Emit.Native
import AtomLog.Emit.Rust
import AtomLog.Proofs.Collated
import Mathlib.Data.List.Nodup
/-!
The event of an atom, and the functions that log it.

A function that atoms share is read for one of them by dropping the blocks of the others
(`stepsFor`). Main statement: what then remains is the event of the atom as seen with a chain
(`stepsFor_sharedBody`), which is also what the function of the atom alone does
(`atomBody_eq_event`).
-/
namespace AtomLog

/-- The annotations at a number that are logged for themselves, which the two halves of a state
reset are not. -/
def Atom.loggedAt (a : Atom) (number : Int) : List Annotation :=
  ((a.annotationsAt number).getD ∅).toList.filter
    (fun n => n.id ≠ .defaultState ∧ n.id ≠ .triggerStateReset)

/-- The state reset of an atom at a number. -/
def Atom.resetAt (a : Atom) (number : Int) : Option StateReset :=
  (a.annotationsAt number).bind StateReset.of?

namespace Emit

/-- What is logged for the field at a position: its value, then what annotates it, then the
condition under which the state is reset. -/
def fieldSteps (a : Atom) (position : Nat) (f : AtomField) : List Step :=
  .write position f.type.wire ::
    ((a.loggedAt position).map .annotate ++ ((a.resetAt position).map (.resetWhen position)).toList)

/-- The event of an atom: its id, what annotates the atom itself, and its fields in order. -/
def event (a : Atom) : List Step :=
  .setAtomId :: ((a.loggedAt atomNumber).map .annotate ++
    (a.fields.zipIdx 1).flatMap (fun (f, i) => fieldSteps a i f))

/-! ### The function of one atom -/

theorem filter_isResetPart (a : Atom) (number : Int) :
    ((a.annotationsAt number).getD ∅).toList.filter (fun n => !isResetPart n) =
      a.loggedAt number := by
  unfold Atom.loggedAt isResetPart
  apply List.filter_congr
  intro n _
  rw [Bool.eq_iff_iff]
  simp

theorem annotationSteps_atom (a : Atom) :
    annotationSteps 0 ((a.annotationsAt atomNumber).getD ∅) =
      (a.loggedAt atomNumber).map .annotate := by
  unfold annotationSteps
  rw [filter_isResetPart]
  exact List.append_nil _

theorem annotationSteps_field (a : Atom) {position : Nat} (h : 0 < position) :
    annotationSteps position ((a.annotationsAt position).getD ∅) =
      (a.loggedAt position).map .annotate ++
        ((a.resetAt position).map (.resetWhen position)).toList := by
  obtain ⟨i, rfl⟩ := Nat.exists_eq_add_one.2 h
  unfold annotationSteps Atom.resetAt
  rw [filter_isResetPart]
  congr 1
  cases a.annotationsAt ((i + 1 : Nat) : Int) with
  | none => rfl
  | some set =>
    simp only [Option.getD_some, Option.bind_some]
    cases StateReset.of? set <;> rfl

theorem atomBody_eq_event (a : Atom) : atomBody a = event a := by
  have hfields : (a.fields.zipIdx 1).flatMap (fun p => .write p.2 p.1.type.wire ::
      annotationSteps p.2 ((a.annotationsAt p.2).getD ∅)) =
        (a.fields.zipIdx 1).flatMap (fun p => fieldSteps a p.2 p.1) := by
    apply List.flatMap_congr
    intro p hp
    have hpos : 0 < p.2 := List.le_snd_of_mem_zipIdx hp
    rw [annotationSteps_field a hpos]
    rfl
  exact congrArg (List.cons _) (congrArg₂ (· ++ ·) (annotationSteps_atom a) hfields)

/-! ### The functions that atoms share -/

theorem stepsFor_append (constant : String) (xs ys : List Stmt) :
    stepsFor constant (xs ++ ys) = stepsFor constant xs ++ stepsFor constant ys :=
  List.flatMap_append

theorem stepsFor_always (constant : String) (step : Step) (body : List Stmt) :
    stepsFor constant (.always step :: body) = step :: stepsFor constant body := rfl

theorem stepsFor_flatMap {α : Type} (constant : String) (xs : List α) (f : α → List Stmt) :
    stepsFor constant (xs.flatMap f) = xs.flatMap (fun x => stepsFor constant (f x)) :=
  List.flatMap_assoc

section Shared

variable {ctx : Context} (describes : ctx.catalog.Describes ctx.catalog.get?)
  (distinct : (ctx.catalog.toList.map (fun a => Naming.constant a.name)).Nodup)
  {code : Int} {a : Atom} (found : ctx.catalog.get? code = some a)
include distinct found

/-- The guard for an atom's constant lets through the code of that atom alone. -/
theorem atomConstant_eq_iff {code' : Int} {a' : Atom}
    (found' : ctx.catalog.get? code' = some a') :
    ctx.atomConstant code' = Naming.constant a.name ↔ code' = code := by
  have hconstant : ctx.atomConstant code' = Naming.constant a'.name := by
    simp only [Context.atomConstant, found']
  rw [hconstant]
  constructor
  · intro h
    have hentries : (ctx.catalog.atoms.entries.map (fun e => Naming.constant e.2.name)).Nodup := by
      rw [Catalog.toList, SortedMap.values, List.map_map] at distinct
      exact distinct
    have hmem := (ctx.catalog.atoms.mem_entries_iff code a).2 found
    have hmem' := (ctx.catalog.atoms.mem_entries_iff code' a').2 found'
    exact congrArg Prod.fst (List.inj_on_of_nodup_map hentries hmem' hmem h)
  · intro h
    subst h
    rw [found] at found'
    cases found'
    rfl

include describes

/-- Of the blocks for the annotations at a position, an atom takes its own. -/
theorem stepsFor_bucketAnnotations {b : Bucket}
    (hb : (ctx.catalog.ofKind a.kind).get? a.chained.signature = some b) (position : Nat) :
    stepsFor (Naming.constant a.name) (bucketAnnotations ctx b position) =
      annotationSteps position ((a.chained.annotationsAt position).getD ∅) := by
  have hgroups := (describes.byKind a.kind).annotations_iff a.chained.signature position
  simp only [Buckets.annotations?, hb, Option.bind_some] at hgroups
  have hown : b.annotations? position code = a.chained.annotationsAt position := by
    ext set
    rw [hgroups]
    simp [found]
  have hlookup : ((b.annotations.get? position).getD ∅).get? code =
      a.chained.annotationsAt position := by
    rw [← hown, Bucket.annotations?]
    cases b.annotations.get? position <;> simp
  -- a code with annotations is the code of an atom, so its guard is the constant of that atom
  have hguard : ∀ e ∈ ((b.annotations.get? position).getD ∅).entries,
      ctx.atomConstant e.1 = Naming.constant a.name ↔ e.1 = code := by
    intro e he
    have hheld : b.annotations? position e.1 = some e.2 := by
      have hget := (SortedMap.mem_entries_iff _ e.1 e.2).1 he
      rw [Bucket.annotations?]
      cases hn : b.annotations.get? position <;> simp_all
    obtain ⟨v, hv, -⟩ := (hgroups e.1 e.2).1 hheld
    obtain ⟨a', ha', -⟩ := Option.map_eq_some_iff.1 hv
    exact atomConstant_eq_iff distinct found (Option.filter_eq_some_iff.1 ha').1
  have hblocks : stepsFor (Naming.constant a.name) (bucketAnnotations ctx b position) =
      ((b.annotations.get? position).getD ∅).entries.flatMap
        (fun e => if e.1 = code then annotationSteps position e.2 else []) := by
    unfold bucketAnnotations stepsFor
    rw [List.flatMap_map]
    apply List.flatMap_congr
    intro e he
    simp only [hguard e he]
  rw [hblocks, SortedMap.flatMap_entries, hlookup]
  cases a.chained.annotationsAt position with
  | none => cases position <;> rfl
  | some set => rfl

/-- What a shared function does for an atom is the event of the atom as seen with a chain. -/
theorem stepsFor_sharedBody {b : Bucket}
    (hb : (ctx.catalog.ofKind a.kind).get? a.chained.signature = some b) :
    stepsFor (Naming.constant a.name) (sharedBody ctx a.chained.signature b) = event a.chained := by
  have hown := stepsFor_bucketAnnotations describes distinct found hb
  rw [← atomBody_eq_event, sharedBody, List.cons_append, stepsFor_always, stepsFor_append, hown,
    stepsFor_flatMap, atomBody]
  simp only [stepsFor_always, hown, Atom.signature, Signature.ofTypes, List.map_map,
    List.zipIdx_map, List.flatMap_map]
  rfl

end Shared

/-! ### What a language expresses -/

theorem Target.mem_supported {t : Target} {m : Buckets} {s : Signature} {b : Bucket} :
    (s, b) ∈ t.supported m ↔ m.get? s = some b ∧ t.supportsSignature s = true := by
  simp only [Target.supported, List.mem_filter, SortedMap.mem_entries_iff]

/-- A language that takes enums for their numbers expresses a signature as it does its atoms. -/
theorem Target.supportsSignature_eq {t : Target}
    (wire : ∀ type, t.supports (FieldType.wire type) = t.supports type) (a : Atom) :
    t.supportsSignature a.signature = t.supportsAtom a := by
  simp only [supportsSignature, supportsAtom, Atom.signature, Signature.ofTypes, List.map_map,
    List.all_map, Function.comp_def, wire]

/-- Among the overloads of a language, an atom that it expresses has one, with its own bucket. -/
theorem Target.mem_supported_iff_of_atom {t : Target}
    (wire : ∀ type, t.supports (FieldType.wire type) = t.supports type) {a : Atom}
    (h : t.supportsAtom a = true) {m : Buckets} {b : Bucket} (hb : m.get? a.signature = some b)
    (b' : Bucket) : (a.signature, b') ∈ t.supported m ↔ b' = b := by
  rw [mem_supported, hb, Option.some.injEq]
  constructor
  · intro h'
    exact h'.1.symm
  · intro h'
    exact ⟨h'.symm, (supportsSignature_eq wire a).trans h⟩

theorem Native.supports_wire (type : FieldType) :
    target.supports type.wire = target.supports type := by
  cases type <;> rfl

theorem Java.supports_wire (type : FieldType) :
    target.supports type.wire = target.supports type := by
  cases type <;> rfl

theorem Rust.supports_wire (type : FieldType) :
    target.supports type.wire = target.supports type := by
  cases type <;> rfl

theorem Native.overloads_ofKind (ctx : Context) (kind : AtomKind) :
    overloads ctx (.ofKind kind) = target.supported (ctx.catalog.ofKind kind) := by
  cases kind <;> rfl

theorem Java.overloads_eq (ctx : Context) (kind : AtomKind) :
    overloads ctx kind = target.supported (ctx.catalog.ofKind kind) := by
  cases kind <;> rfl

theorem Native.functionBody_ofKind (ctx : Context) (kind : AtomKind) :
    functionBody ctx (.ofKind kind) = eventBody ctx kind := by
  cases kind <;> rfl

/-- The types of the uid and the tag of an atom that is not chained are no obstacle to its
function. -/
theorem Rust.supportsAtom_of_chained {a : Atom}
    (leading : a.nonChained = true → ∃ uid tag rest,
      a.fields = uid :: tag :: rest ∧ uid.type = .int32 ∧ tag.type = .string)
    (h : target.supportsAtom a.chained = true) : target.supportsAtom a = true := by
  cases flat : a.nonChained with
  | false => simpa [Atom.chained, flat] using h
  | true =>
    obtain ⟨uid, tag, rest, hfields, huid, htag⟩ := leading flat
    simp only [Target.supportsAtom, Atom.chained, flat, hfields, if_true, List.drop_succ_cons,
      List.drop_zero, List.all_cons, Bool.and_eq_true] at h
    simp only [Target.supportsAtom, hfields, List.all_cons, huid, htag, Bool.and_eq_true]
    exact ⟨by decide, by decide, h.2⟩

/-! ### All languages -/

/-- The fields of an atom are numbered in order. -/
theorem mem_zipIdx_fields_iff {a : Atom} {i : Nat} {f : AtomField} :
    (f, i) ∈ a.fields.zipIdx 1 ↔ a.field? i = some f := by
  rw [List.mem_zipIdx_iff_le_and_getElem?_sub]
  have hindex : ((i : Int) - 1).toNat = i - 1 := by omega
  by_cases hpos : 1 ≤ i
  · simp only [hpos, true_and, Atom.field?, hindex]
    rw [if_neg (by omega)]
  · simp only [hpos, false_and, Atom.field?, false_iff]
    rw [if_pos (by omega)]
    simp

/-- An event sets the id, annotates the atom, and takes the steps of each field. -/
theorem mem_event_iff {a : Atom} {step : Step} : step ∈ event a ↔
    step = .setAtomId ∨ (∃ n ∈ a.loggedAt atomNumber, .annotate n = step) ∨
      ∃ (f : AtomField) (i : Nat), a.field? i = some f ∧ step ∈ fieldSteps a i f := by
  simp only [event, List.mem_cons, List.mem_append, List.mem_map, List.mem_flatMap, Prod.exists,
    mem_zipIdx_fields_iff]

/-- What an event writes at a position is the field with that number. -/
theorem field?_of_write {a : Atom} {i : Nat} {type : FieldType}
    (h : Step.write i type ∈ event a) :
    ∃ f ∈ a.fields, a.field? i = some f ∧ f.type.wire = type := by
  simp only [mem_event_iff, fieldSteps, List.mem_cons, List.mem_append, List.mem_map,
    Option.mem_toList, reduceCtorEq, false_or, and_false, exists_false, Option.map_eq_some_iff,
    or_false, Step.write.injEq] at h
  obtain ⟨f, _, hf, rfl, rfl⟩ := h
  exact ⟨f, List.fst_mem_of_mem_zipIdx (mem_zipIdx_fields_iff.2 hf), hf, rfl⟩

/-- No option of an atom gives it one half of a state reset. -/
theorem id_ne_of_atom {o : RawOption} {n : Annotation}
    (h : Registry.standard.meaning? .atom o = some (.annotate n)) :
    n.id ≠ .defaultState ∧ n.id ≠ .triggerStateReset := by
  rcases Registry.id_of_atom_meaning? h with hid | hid <;> simp [hid]

/-- A field is written and tested under the name of its parameter. -/
theorem Rust.argAt_eq {a : Atom} {i : Nat} {f : AtomField} (h : a.field? i = some f) :
    argAt a i = argName f := by
  rw [argAt, h]
  rfl

end Emit

end AtomLog
