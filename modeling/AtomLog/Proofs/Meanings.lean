import AtomLog.Annotation.Registry
import AtomLog.Proofs.Lookups
/-!
Which annotations the options of a field or an entry give.

Main statements: a list of options gives the annotations that its options mean one by one
(`FieldOptions.mem_read`, `AtomOptions.mem_read`), and under the standard options an annotation has
the kind of value that its id takes (`Registry.regular_of_meaning?`).
-/
namespace AtomLog

/-- Whether the annotations of an id have a number. The others are marks. -/
def AnnotationId.isNumeric : AnnotationId → Bool
  | .defaultState | .triggerStateReset | .restrictionCategory => true
  | _ => false

/-- An annotation with the kind of value that its id takes; marks are true. -/
def Annotation.Regular (n : Annotation) : Prop :=
  if n.id.isNumeric then ∃ v, n.value = .int v else n.value = .bool true

/-- Marks of one id are the same mark. -/
theorem Annotation.Regular.eq_of_id {n n' : Annotation} (h : n.Regular) (h' : n'.Regular)
    (hid : n.id = n'.id) (hmark : n.id.isNumeric = false) : n = n' := by
  unfold Annotation.Regular at h h'
  rw [hmark] at h
  rw [← hid, hmark] at h'
  have hvalue : n.value = n'.value := h.trans h'.symm
  cases n
  cases n'
  simp_all

/-- Whether an option that annotates takes the kind of value that its annotation has. -/
def KnownOption.fits (o : KnownOption) : Bool :=
  match o.target with
  | .annotate id => o.kind == if id.isNumeric then .int else .bool
  | _ => true

/-- What a value means for a target is an annotation only with the target's id and that value. -/
theorem OptionTarget.meaning?_eq_annotate {t : OptionTarget} {value : OptionValue} {n : Annotation}
    (h : t.meaning? value = some (.annotate n)) :
    t = .annotate n.id ∧ ((value = .bool true ∧ n.value = .bool true) ∨
      ∃ v, value = .int v ∧ n.value = .int v) := by
  cases value with
  | bool b =>
    cases b with
    | false => cases h
    | true =>
      cases t with
      | annotate id =>
        obtain rfl : ⟨id, .bool true⟩ = n := by simpa [meaning?] using h
        exact ⟨rfl, .inl ⟨rfl, rfl⟩⟩
      | _ => cases h
  | int v =>
    cases t with
    | annotate id =>
      simp only [meaning?] at h
      split at h
      · obtain rfl : ⟨id, .int v⟩ = n := by simpa using h
        exact ⟨rfl, .inr ⟨v, rfl, rfl⟩⟩
      · cases h
    | _ => cases h
  | str s => cases t <;> cases h

theorem OptionTarget.meaning?_eq_logMode {t : OptionTarget} {value : OptionValue} {mode : Int} :
    t.meaning? value = some (.logMode mode) ↔ t = .logMode ∧ value = .int mode := by
  cases value with
  | bool b => cases b <;> cases t <;> simp [meaning?]
  | int n => cases t <;> simp [meaning?]
  | str s => cases t <;> simp [meaning?]

namespace Registry

theorem standard_fits : ∀ o ∈ standard.options, o.fits = true := by decide

/-- What an option means is what its value means for the known option that its key addresses. -/
theorem meaning?_eq_some {r : Registry} {scope : OptionScope} {o : RawOption} {m : Meaning} :
    r.meaning? scope o = some m ↔ ∃ known, r.find? o.key = some known ∧ known.scope = scope ∧
      known.kind = o.value.kind ∧ known.target.meaning? o.value = some m := by
  unfold meaning?
  cases r.find? o.key with
  | none => simp
  | some known =>
    by_cases hplace : known.scope = scope ∧ known.kind = o.value.kind
    · simp [hplace]
    · simp only [hplace, if_false, Option.some.injEq, exists_eq_left', false_iff, reduceCtorEq]
      intro h
      exact hplace ⟨h.1, h.2.1⟩

/-- An annotation comes from a known option of its place that stands for its id, and has the value
that the option was given. -/
theorem meaning?_eq_annotate {r : Registry} {scope : OptionScope} {o : RawOption} {n : Annotation}
    (h : r.meaning? scope o = some (.annotate n)) :
    ∃ known ∈ r.options, known.scope = scope ∧ known.target = .annotate n.id ∧
      ((known.kind = .bool ∧ n.value = .bool true) ∨
        (known.kind = .int ∧ ∃ v, n.value = .int v)) := by
  obtain ⟨known, hfind, hscope, hkind, hmeaning⟩ := meaning?_eq_some.1 h
  obtain ⟨htarget, hvalue⟩ := OptionTarget.meaning?_eq_annotate hmeaning
  refine ⟨known, List.mem_of_find?_eq_some hfind, hscope, htarget, ?_⟩
  rcases hvalue with ⟨hv, hn⟩ | ⟨v, hv, hn⟩
  · exact .inl ⟨by rw [hkind, hv]; rfl, hn⟩
  · exact .inr ⟨by rw [hkind, hv]; rfl, v, hn⟩

theorem regular_of_meaning? {r : Registry} (hr : ∀ o ∈ r.options, o.fits = true)
    {scope : OptionScope} {o : RawOption} {n : Annotation}
    (h : r.meaning? scope o = some (.annotate n)) : n.Regular := by
  obtain ⟨known, hmem, -, htarget, hvalue⟩ := meaning?_eq_annotate h
  have hfits := hr known hmem
  simp only [KnownOption.fits, htarget, beq_iff_eq] at hfits
  unfold Annotation.Regular
  cases hnum : n.id.isNumeric with
  | true =>
    rcases hvalue with ⟨hkind, -⟩ | ⟨-, hn⟩
    · simp [hkind, hnum] at hfits
    · simpa using hn
  | false =>
    rcases hvalue with ⟨-, hn⟩ | ⟨hkind, -⟩
    · simpa using hn
    · simp [hkind, hnum] at hfits

/-- Under the standard options few annotations can stand on an atom itself. -/
theorem id_of_atom_meaning? {o : RawOption} {n : Annotation}
    (h : standard.meaning? .atom o = some (.annotate n)) :
    n.id = .truncateTimestamp ∨ n.id = .restrictionCategory := by
  have hstandard : ∀ known ∈ standard.options, known.scope = .atom →
      known.target = .module ∨ known.target = .allowFromAnyUid ∨
        known.target = .annotate .truncateTimestamp ∨
        known.target = .annotate .restrictionCategory := by
    decide
  obtain ⟨known, hmem, hscope, htarget, -⟩ := meaning?_eq_annotate h
  have htargets := hstandard known hmem hscope
  rw [htarget] at htargets
  simpa using htargets

end Registry

theorem FieldOptions.mem_add (o : FieldOptions) (m : Meaning) (n : Annotation) :
    n ∈ (o.add m).annotations ↔ n ∈ o.annotations ∨ Meaning.annotate n = m := by
  cases m <;> simp [add, SortedSet.mem_insert, or_comm]

theorem AtomOptions.mem_add (o : AtomOptions) (m : Meaning) (n : Annotation) :
    n ∈ (o.add m).annotations ↔ n ∈ o.annotations ∨ Meaning.annotate n = m := by
  cases m <;> simp [add, SortedSet.mem_insert, or_comm]

theorem FieldOptions.mem_read {r : Registry} {os : List RawOption} {n : Annotation} :
    n ∈ (read r os).annotations ↔ ∃ o ∈ os, r.meaning? .field o = some (.annotate n) := by
  rw [read, foldl_gathers (fun o => n ∈ o.annotations) (fun o m => mem_add o m n)]
  simp [List.mem_filterMap]

theorem AtomOptions.mem_read {r : Registry} {os : List RawOption} {n : Annotation} :
    n ∈ (read r os).annotations ↔ ∃ o ∈ os, r.meaning? .atom o = some (.annotate n) := by
  rw [read, foldl_gathers (fun o => n ∈ o.annotations) (fun o m => mem_add o m n)]
  simp [List.mem_filterMap]

end AtomLog
