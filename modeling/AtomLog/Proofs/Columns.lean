import AtomLog.Proofs.Acceptance
import AtomLog.Proofs.Collated
/-!
The columns of a collated atom, which say again what its annotations and its types say.

Main statement: whatever is selected from a collation, the fields of every atom are those of its
message, and its columns agree with its annotations and its fields (`Collation.selected_reflects`).
-/
namespace AtomLog

/-- Whether an atom has an annotation of an id at a number. -/
def Atom.Has (a : Atom) (number : Int) (id : AnnotationId) : Prop :=
  ∃ set, a.annotations.get? number = some set ∧ ∃ n ∈ set, n.id = id

/-- An atom with the fields of a message, whose columns say what its annotations and types say. -/
structure Atom.Reflects (w : WellKnown) (m : Message) (a : Atom) : Prop where
  length_fields : a.fields.length = m.fields.length
  numbers_distinct : m.fields.Pairwise (fun f g => f.number ≠ g.number)
  field_eq : ∀ i (h : i < a.fields.length), ∃ f ∈ m.fields, f.number = i + 1 ∧
    a.fields[i].name = f.name ∧
    f.fieldType w (FieldOptions.read .standard f.options).logAsBytes = .ok a.fields[i].type
  annotations_at : ∀ k set, a.annotations.get? k = some set →
    0 ≤ k ∧ k ≤ a.fields.length ∧ set.isEmpty = false
  atom_ids : ∀ id, a.Has atomNumber id → id = .truncateTimestamp ∨ id = .restrictionCategory
  uid_iff : ∀ k, a.uidField = some k ↔ a.Has k .isUid
  exclusive_iff : ∀ k, a.exclusiveField = some k ↔ a.Has k .exclusiveState
  primary_ascending : a.primaryFields.Pairwise (· < ·)
  primary_iff : ∀ k, k ∈ a.primaryFields ↔
    (k = firstUid ∧ a.Has 1 .primaryFieldFirstUid) ∨ (1 ≤ k ∧ a.Has k .primaryField)
  exclusive_of_primary : a.primaryFields ≠ [] → a.exclusiveField ≠ none
  binary_ascending : a.binaryFields.Pairwise (· < ·)
  binary_iff : ∀ k, k ∈ a.binaryFields ↔ ∃ f, a.field? k = some f ∧ f.type = .bytes
  nested_iff : a.nested = true ↔ ∃ k, a.Has k .stateNested
  truncate_iff : a.truncateTimestamp = true ↔
    ∃ set, a.annotations.get? atomNumber = some set ∧ ⟨.truncateTimestamp, .bool true⟩ ∈ set
  default_from : ∀ v, a.defaultState = some v →
    ∃ k set, a.annotations.get? k = some set ∧ ⟨.defaultState, .int v⟩ ∈ set
  reset_from : ∀ v, a.triggerStateReset = some v →
    ∃ k set, a.annotations.get? k = some set ∧ ⟨.triggerStateReset, .int v⟩ ∈ set
  chain_first : ∀ k f, a.field? k = some f → f.type = .attributionChain → k = 1
  pairs_last : ∀ k f, a.field? k = some f → f.type = .keyValuePairs → k = a.fields.length
  values_enum : ∀ f ∈ a.fields, f.enumValues.isEmpty = false → f.type.isEnum = true
  flat : a.nonChained = true → a.kind = .pushed ∧ a.uidField = some 1 ∧
    ∃ uid tag rest, a.fields = uid :: tag :: rest ∧ uid.type = .int32 ∧ tag.type = .string

namespace Collation

/-! ### What fields add to the columns -/

theorem note_binaryFields (number : Int) (a : Atom) (n : Annotation) :
    (note number a n).binaryFields = a.binaryFields := by
  unfold note
  split <;> rfl

theorem takeFields_binaryFields (gs : List ReadField) (d : Draft) :
    (gs.foldl takeField d).atom.binaryFields = d.atom.binaryFields ++
      (gs.filter (fun g => g.type = .bytes)).map (fun g => g.field.number) := by
  induction gs generalizing d with
  | nil => simp
  | cons g gs ih =>
    rw [List.foldl_cons, ih, takeField, appendField,
      notes_frame Atom.binaryFields note_binaryFields]
    by_cases ht : g.type = .bytes <;> simp [ht]

/-- The primary field that an annotation of field `number` stands for. -/
def primaryMark (number : Int) (n : Annotation) : List Int :=
  match n.id with
  | .primaryField => [number]
  | .primaryFieldFirstUid => [Atom.firstUid]
  | _ => []

/-- The primary fields that the annotations of a field stand for. -/
def primaryMarks (g : ReadField) : List Int :=
  g.options.annotations.toList.flatMap (primaryMark g.field.number)

theorem note_primaryFields (number : Int) (a : Atom) (n : Annotation) :
    (note number a n).primaryFields = a.primaryFields ++ primaryMark number n := by
  obtain ⟨id, value⟩ := n
  cases id <;> cases value <;> simp [note, primaryMark]

theorem notes_primaryFields (number : Int) (ns : List Annotation) (a : Atom) :
    (ns.foldl (note number) a).primaryFields =
      a.primaryFields ++ ns.flatMap (primaryMark number) := by
  induction ns generalizing a with
  | nil => simp
  | cons n ns ih => simp [ih, note_primaryFields]

theorem takeFields_primaryFields (gs : List ReadField) (d : Draft) :
    (gs.foldl takeField d).atom.primaryFields =
      d.atom.primaryFields ++ gs.flatMap primaryMarks := by
  induction gs generalizing d with
  | nil => simp
  | cons g gs ih =>
    rw [List.foldl_cons, ih, takeField, appendField, notes_primaryFields]
    simp [primaryMarks]

theorem mem_primaryMark {number k : Int} {n : Annotation} :
    k ∈ primaryMark number n ↔ (k = number ∧ n.id = .primaryField) ∨
      (k = Atom.firstUid ∧ n.id = .primaryFieldFirstUid) := by
  unfold primaryMark
  split <;> simp_all

theorem mem_primaryMarks {g : ReadField} {k : Int} :
    k ∈ primaryMarks g ↔ (k = g.field.number ∧ g.Has .primaryField) ∨
      (k = Atom.firstUid ∧ g.Has .primaryFieldFirstUid) := by
  simp only [primaryMarks, List.mem_flatMap, mem_primaryMark, SortedSet.mem_toList, ReadField.Has,
    and_or_left, exists_or, and_left_comm, exists_and_left]

/-- The annotations at the number of a field are those of the field, if it has any. -/
theorem takeFields_get?_annotations {gs : List ReadField}
    (distinct : gs.Pairwise (fun f g => f.field.number ≠ g.field.number)) {d : Draft}
    (fresh : ∀ g ∈ gs, d.atom.annotations.get? g.field.number = none) {k : Int}
    {set : AnnotationSet} :
    (gs.foldl takeField d).atom.annotations.get? k = some set ↔
      d.atom.annotations.get? k = some set ∨
        ∃ g ∈ gs, g.field.number = k ∧ g.options.annotations = set ∧ set.isEmpty = false := by
  induction gs generalizing d with
  | nil => simp
  | cons g gs ih =>
    obtain ⟨hg, hgs⟩ := List.pairwise_cons.1 distinct
    have hget : ∀ k, (takeField d g).atom.annotations.get? k =
        if g.options.annotations.isEmpty = false ∧ k = g.field.number then
          some g.options.annotations
        else d.atom.annotations.get? k := by
      intro k
      simp only [takeField, appendField, notes_frame Atom.annotations note_annotations]
      cases g.options.annotations.isEmpty <;> simp [SortedMap.get?_insert]
    have hfresh : ∀ f ∈ gs, (takeField d g).atom.annotations.get? f.field.number = none := by
      intro f hf
      rw [hget, if_neg (fun h => hg f hf h.2.symm)]
      exact fresh f (by simp [hf])
    rw [List.foldl_cons, ih hgs hfresh, hget]
    split
    · rename_i hnow
      obtain ⟨hsome, rfl⟩ := hnow
      have hnone := fresh g (by simp)
      constructor
      · intro h
        rcases h with heq | ⟨f, hf, hrest⟩
        · cases heq
          exact .inr ⟨g, by simp, rfl, rfl, hsome⟩
        · exact .inr ⟨f, by simp [hf], hrest⟩
      · intro h
        rcases h with heq | ⟨f, hf, hnumber, hset⟩
        · simp [hnone] at heq
        · rcases List.mem_cons.1 hf with rfl | hf
          · exact .inl (by rw [hset.1])
          · exact absurd hnumber.symm (hg f hf)
    · rename_i hnot
      have hskip : ¬(g.field.number = k ∧ g.options.annotations = set ∧ set.isEmpty = false) := by
        intro h
        obtain ⟨hnumber, rfl, hsome⟩ := h
        exact hnot ⟨hsome, hnumber.symm⟩
      simp only [List.mem_cons, exists_eq_or_imp, hskip, false_or]

section Origin

variable {β : Type} {column : Atom → Option β} {gives : Int → Annotation → β → Prop}
  (hnote : ∀ number a n v, column (note number a n) = some v →
    column a = some v ∨ gives number n v)
include hnote

theorem notes_origin (number : Int) (ns : List Annotation) (a : Atom) (v : β)
    (h : column (ns.foldl (note number) a) = some v) :
    column a = some v ∨ ∃ n ∈ ns, gives number n v := by
  induction ns generalizing a with
  | nil => exact .inl h
  | cons n ns ih =>
    rcases ih _ h with h | ⟨m, hm, hgives⟩
    · rcases hnote number a n v h with h | hgives
      · exact .inl h
      · exact .inr ⟨n, by simp, hgives⟩
    · exact .inr ⟨m, by simp [hm], hgives⟩

/-- A column that holds one value holds one that it began with or that an annotation gave it. -/
theorem takeFields_origin (happend : ∀ f a, column (appendField f a) = column a)
    (gs : List ReadField) (d : Draft) (v : β) (h : column (gs.foldl takeField d).atom = some v) :
    column d.atom = some v ∨ ∃ g ∈ gs, ∃ n ∈ g.options.annotations, gives g.field.number n v := by
  induction gs generalizing d with
  | nil => exact .inl h
  | cons g gs ih =>
    rcases ih (takeField d g) h with h | ⟨f, hf, hgives⟩
    · rw [takeField, happend] at h
      rcases notes_origin hnote _ _ _ _ h with h | hgives
      · exact .inl h
      · exact .inr ⟨g, by simp, hgives⟩
    · exact .inr ⟨f, by simp [hf], hgives⟩

end Origin

/-- Where one field at most has the annotations that a column is set by, the column holds the number
of that field. -/
theorem takeFields_column {column : Atom → Option Int} {id : AnnotationId}
    (gathers : Gathers (fun a => column a ≠ none) (fun n => n.id = id))
    (hnote : ∀ number a n v, column (note number a n) = some v →
      column a = some v ∨ (n.id = id ∧ v = number))
    (happend : ∀ f a, column (appendField f a) = column a) {gs : List ReadField}
    (one : ∀ i j (hi : i < gs.length) (hj : j < gs.length),
      gs[i].Has id → gs[j].Has id → i = j)
    {d : Draft} (start : column d.atom = none) (k : Int) :
    column (gs.foldl takeField d).atom = some k ↔ ∃ g ∈ gs, g.field.number = k ∧ g.Has id := by
  have origin : ∀ v, column (gs.foldl takeField d).atom = some v →
      ∃ g ∈ gs, g.field.number = v ∧ g.Has id := by
    intro v h
    rcases takeFields_origin hnote happend gs d v h with h | ⟨g, hg, n, hn, hid, rfl⟩
    · rw [start] at h
      cases h
    · exact ⟨g, hg, rfl, n, hn, hid⟩
  constructor
  · exact origin k
  · intro h
    obtain ⟨g, hg, rfl, hhas⟩ := h
    obtain ⟨v, hv⟩ := Option.ne_none_iff_exists'.1 ((gathers.fields gs d).2 (.inr ⟨g, hg, hhas⟩))
    obtain ⟨f, hf, rfl, hfhas⟩ := origin v hv
    obtain ⟨i, hi, rfl⟩ := List.getElem_of_mem hf
    obtain ⟨j, hj, rfl⟩ := List.getElem_of_mem hg
    obtain rfl := one i j hi hj hfhas hhas
    exact hv

end Collation

/-! ### The fields of an accepted entry -/

namespace WellFormed

open Collation

variable {gs : List ReadField} (wf : WellFormed gs)
include wf

theorem numbers_ascending : gs.Pairwise (fun f g => f.field.number < g.field.number) := by
  rw [List.pairwise_iff_getElem]
  intro i j hi hj hlt
  rw [wf.numbered i hi, wf.numbered j hj]
  omega

theorem numbers_distinct : gs.Pairwise (fun f g => f.field.number ≠ g.field.number) :=
  wf.numbers_ascending.imp (fun h => by omega)

theorem number_pos {g : ReadField} (hg : g ∈ gs) : 1 ≤ g.field.number := by
  obtain ⟨i, hi, rfl⟩ := List.getElem_of_mem hg
  rw [wf.numbered i hi]
  omega

theorem number_le {g : ReadField} (hg : g ∈ gs) : g.field.number ≤ gs.length := by
  obtain ⟨i, hi, rfl⟩ := List.getElem_of_mem hg
  rw [wf.numbered i hi]
  omega

theorem number_of_chain {g : ReadField} (hg : g ∈ gs) (ht : g.type = .attributionChain) :
    g.field.number = 1 := by
  obtain ⟨i, hi, rfl⟩ := List.getElem_of_mem hg
  rw [wf.numbered i hi, wf.chain_first i hi ht]
  rfl

theorem number_of_pairs {g : ReadField} (hg : g ∈ gs) (ht : g.type = .keyValuePairs) :
    g.field.number = gs.length := by
  obtain ⟨i, hi, rfl⟩ := List.getElem_of_mem hg
  rw [wf.numbered i hi, ← wf.pairs_last i hi ht]
  rfl

/-- A field is not both a primary field and one whose first uid is. -/
theorem not_primary_of_firstUid {g : ReadField} (hg : g ∈ gs)
    (hfirst : g.Has .primaryFieldFirstUid) : ¬g.Has .primaryField := by
  intro hprimary
  have hscalar := wf.state_scalar g hg (.inl hprimary)
  exact hscalar.2.1 (wf.first_uid_chain g hg hfirst)

/-- The first uid comes before all fields, and each field comes once. -/
theorem primaryMarks_ascending (regular : ∀ g ∈ gs, ∀ n ∈ g.options.annotations, n.Regular) :
    (gs.flatMap primaryMarks).Pairwise (· < ·) := by
  rw [List.pairwise_flatMap]
  constructor
  · intro g hg
    rw [primaryMarks, List.pairwise_flatMap]
    constructor
    · intro n hn
      unfold primaryMark
      split <;> simp
    · refine g.options.annotations.ascending.imp_of_mem ?_
      intro n n' hn hn' hlt x hx y hy
      -- no two annotations of one field stand for a primary field
      have same : n.id.isNumeric = false → n.id = n'.id → n = n' :=
        fun hmark hid => (regular g hg n hn).eq_of_id (regular g hg n' hn') hid hmark
      have differ : n ≠ n' := by
        intro heq
        simp [heq] at hlt
      rcases mem_primaryMark.1 hx with ⟨-, hid⟩ | ⟨-, hid⟩ <;>
        rcases mem_primaryMark.1 hy with ⟨-, hid'⟩ | ⟨-, hid'⟩
      · exact absurd (same (by rw [hid]; rfl) (hid.trans hid'.symm)) differ
      · exact absurd ⟨n, hn, hid⟩ (wf.not_primary_of_firstUid hg ⟨n', hn', hid'⟩)
      · exact absurd ⟨n', hn', hid'⟩ (wf.not_primary_of_firstUid hg ⟨n, hn, hid⟩)
      · exact absurd (same (by rw [hid]; rfl) (hid.trans hid'.symm)) differ
  · refine wf.numbers_ascending.imp_of_mem ?_
    intro f g hf hg hlt x hx y hy
    have hfpos := wf.number_pos hf
    rcases mem_primaryMarks.1 hy with ⟨rfl, -⟩ | ⟨rfl, hfirst⟩
    · rcases mem_primaryMarks.1 hx with ⟨rfl, -⟩ | ⟨rfl, -⟩
      · exact hlt
      · rw [Atom.firstUid]
        omega
    · have := wf.number_of_chain hg (wf.first_uid_chain g hg hfirst)
      omega

end WellFormed

/-! ### The columns of an accepted entry -/

/-- A field of an atom stands one place before its number. -/
theorem Atom.field?_eq_some {a : Atom} {k : Int} {f : AtomField} :
    a.field? k = some f ↔ ∃ i : Nat, k = i + 1 ∧ a.fields[i]? = some f := by
  unfold field?
  constructor
  · intro h
    split at h
    · cases h
    · exact ⟨(k - 1).toNat, by omega, h⟩
  · intro h
    obtain ⟨i, rfl, hi⟩ := h
    rw [if_neg (by omega)]
    simpa using hi

namespace Collation

section Entries

variable {s : Schema} {e : Entry} {m : Message} {gs : List ReadField}

theorem draftOf_fields (r : Registry) (e : Entry) (m : Message) (gs : List ReadField) :
    (draftOf r e m gs).atom.fields =
      gs.map (fun g => ⟨g.field.name, g.type, enumNames g.type g.field.enumValues⟩) :=
  takeFields_fields gs _

theorem draftOf_field? (wf : WellFormed gs) {k : Int} {f : AtomField} :
    (draftOf .standard e m gs).atom.field? k = some f ↔ ∃ g ∈ gs, g.field.number = k ∧
      ⟨g.field.name, g.type, enumNames g.type g.field.enumValues⟩ = f := by
  rw [Atom.field?_eq_some, draftOf_fields]
  simp only [List.getElem?_map, Option.map_eq_some_iff]
  constructor
  · intro h
    obtain ⟨i, rfl, g, hg, hf⟩ := h
    obtain ⟨hi, rfl⟩ := List.getElem?_eq_some_iff.1 hg
    exact ⟨_, List.getElem_mem hi, wf.numbered i hi, hf⟩
  · intro h
    obtain ⟨g, hg, rfl, hf⟩ := h
    obtain ⟨i, hi, rfl⟩ := List.getElem_of_mem hg
    exact ⟨i, wf.numbered i hi, _, List.getElem?_eq_getElem hi, hf⟩

theorem draftOf_get?_annotations (wf : WellFormed gs) {k : Int} {set : AnnotationSet} :
    (draftOf .standard e m gs).atom.annotations.get? k = some set ↔
      (k = atomNumber ∧ (AtomOptions.read .standard e.options).annotations = set ∧
        set.isEmpty = false) ∨
      ∃ g ∈ gs, g.field.number = k ∧ g.options.annotations = set ∧ set.isEmpty = false := by
  have hstart : ∀ k, (startAtom .standard e m).annotations.get? k =
      if (AtomOptions.read .standard e.options).annotations.isEmpty = false ∧ k = atomNumber then
        some (AtomOptions.read .standard e.options).annotations
      else none := by
    intro k
    simp only [startAtom]
    cases (AtomOptions.read .standard e.options).annotations.isEmpty <;>
      simp [SortedMap.get?_insert]
  have hfresh : ∀ g ∈ gs, (startAtom .standard e m).annotations.get? g.field.number = none := by
    intro g hg
    have := wf.number_pos hg
    rw [hstart, if_neg (by unfold atomNumber; omega)]
  rw [draftOf, takeFields_get?_annotations wf.numbers_distinct hfresh, hstart]
  refine or_congr ?_ Iff.rfl
  constructor
  · intro h
    split at h
    · rename_i hatom
      cases h
      exact ⟨hatom.2, rfl, hatom.1⟩
    · cases h
  · intro h
    obtain ⟨hk, rfl, hsome⟩ := h
    rw [if_pos ⟨hsome, hk⟩]

theorem draftOf_atom_ids (wf : WellFormed gs) (id : AnnotationId)
    (h : (draftOf .standard e m gs).atom.Has atomNumber id) :
    id = .truncateTimestamp ∨ id = .restrictionCategory := by
  obtain ⟨set, hset, n, hn, rfl⟩ := h
  rcases (draftOf_get?_annotations wf).1 hset with ⟨-, rfl, -⟩ | ⟨g, hg, hk, -⟩
  · obtain ⟨o, -, ho⟩ := AtomOptions.mem_read.1 hn
    exact Registry.id_of_atom_meaning? ho
  · have := wf.number_pos hg
    rw [hk] at this
    exact absurd this (by decide)

/-- The annotations that columns are set by stand on fields, never on the atom itself. -/
theorem draftOf_has (wf : WellFormed gs) {k : Int} {id : AnnotationId}
    (hid : id ≠ .truncateTimestamp ∧ id ≠ .restrictionCategory) :
    (draftOf .standard e m gs).atom.Has k id ↔ ∃ g ∈ gs, g.field.number = k ∧ g.Has id := by
  constructor
  · intro h
    obtain ⟨set, hset, n, hn, rfl⟩ := h
    rcases (draftOf_get?_annotations wf).1 hset with ⟨rfl, -⟩ | ⟨g, hg, hk, rfl, -⟩
    · rcases draftOf_atom_ids wf n.id ⟨set, hset, n, hn, rfl⟩ with h | h
      · exact absurd h hid.1
      · exact absurd h hid.2
    · exact ⟨g, hg, hk, n, hn, rfl⟩
  · intro h
    obtain ⟨g, hg, hk, n, hn, rfl⟩ := h
    have hsome := SortedSet.isEmpty_eq_false_iff.2 ⟨n, hn⟩
    exact ⟨_, (draftOf_get?_annotations wf).2 (.inr ⟨g, hg, hk, rfl, hsome⟩), n, hn, rfl⟩

theorem draftOf_uidField (wf : WellFormed gs) (k : Int) :
    (draftOf .standard e m gs).atom.uidField = some k ↔
      (draftOf .standard e m gs).atom.Has k .isUid := by
  rw [draftOf_has wf (by decide)]
  refine takeFields_column uid_gathers ?_ (fun _ _ => rfl) wf.one_uid rfl k
  intro number a n v h
  obtain ⟨id, value⟩ := n
  cases id <;> cases value <;> simp_all [note]

theorem draftOf_exclusiveField (wf : WellFormed gs) (k : Int) :
    (draftOf .standard e m gs).atom.exclusiveField = some k ↔
      (draftOf .standard e m gs).atom.Has k .exclusiveState := by
  rw [draftOf_has wf (by decide)]
  refine takeFields_column exclusive_gathers ?_ (fun _ _ => rfl) wf.one_exclusive rfl k
  intro number a n v h
  obtain ⟨id, value⟩ := n
  cases id <;> cases value <;> simp_all [note]

theorem draftOf_primaryFields (r : Registry) (e : Entry) (m : Message) (gs : List ReadField) :
    (draftOf r e m gs).atom.primaryFields = gs.flatMap primaryMarks :=
  takeFields_primaryFields gs _

theorem draftOf_binaryFields (r : Registry) (e : Entry) (m : Message) (gs : List ReadField) :
    (draftOf r e m gs).atom.binaryFields =
      (gs.filter (fun g => g.type = .bytes)).map (fun g => g.field.number) :=
  takeFields_binaryFields gs _

theorem draftOf_mem_primaryFields (wf : WellFormed gs) (k : Int) :
    k ∈ (draftOf .standard e m gs).atom.primaryFields ↔
      (k = Atom.firstUid ∧ (draftOf .standard e m gs).atom.Has 1 .primaryFieldFirstUid) ∨
        (1 ≤ k ∧ (draftOf .standard e m gs).atom.Has k .primaryField) := by
  rw [draftOf_has wf (by decide), draftOf_has wf (by decide), draftOf_primaryFields]
  simp only [List.mem_flatMap, mem_primaryMarks]
  constructor
  · intro h
    obtain ⟨g, hg, ⟨rfl, hhas⟩ | ⟨rfl, hhas⟩⟩ := h
    · exact .inr ⟨wf.number_pos hg, g, hg, rfl, hhas⟩
    · exact .inl ⟨rfl, g, hg, wf.number_of_chain hg (wf.first_uid_chain g hg hhas), hhas⟩
  · intro h
    obtain ⟨rfl, g, hg, -, hhas⟩ | ⟨-, g, hg, rfl, hhas⟩ := h
    · exact ⟨g, hg, .inr ⟨rfl, hhas⟩⟩
    · exact ⟨g, hg, .inl ⟨rfl, hhas⟩⟩

theorem draftOf_mem_binaryFields (wf : WellFormed gs) (k : Int) :
    k ∈ (draftOf .standard e m gs).atom.binaryFields ↔
      ∃ f, (draftOf .standard e m gs).atom.field? k = some f ∧ f.type = .bytes := by
  simp only [draftOf_binaryFields, List.mem_map, List.mem_filter, decide_eq_true_eq,
    draftOf_field? wf]
  constructor
  · intro h
    obtain ⟨g, ⟨hg, ht⟩, hk⟩ := h
    exact ⟨_, ⟨g, hg, hk, rfl⟩, ht⟩
  · intro h
    obtain ⟨_, ⟨g, hg, hk, rfl⟩, ht⟩ := h
    exact ⟨g, ⟨hg, ht⟩, hk⟩

theorem draftOf_nested (wf : WellFormed gs) :
    (draftOf .standard e m gs).atom.nested = true ↔
      ∃ k, (draftOf .standard e m gs).atom.Has k .stateNested := by
  rw [exists_congr fun k => draftOf_has wf (by decide)]
  have hgathers := nested_gathers.fields gs { atom := startAtom .standard e m }
  simp only [startAtom, Bool.false_eq_true, false_or] at hgathers
  rw [draftOf, startAtom, hgathers]
  constructor
  · intro h
    obtain ⟨g, hg, hhas⟩ := h
    exact ⟨_, g, hg, rfl, hhas⟩
  · intro h
    obtain ⟨-, g, hg, -, hhas⟩ := h
    exact ⟨g, hg, hhas⟩

theorem draftOf_truncateTimestamp (wf : WellFormed gs) :
    (draftOf .standard e m gs).atom.truncateTimestamp = true ↔
      ∃ set, (draftOf .standard e m gs).atom.annotations.get? atomNumber = some set ∧
        ⟨.truncateTimestamp, .bool true⟩ ∈ set := by
  have hview : (draftOf .standard e m gs).atom.truncateTimestamp =
      (startAtom .standard e m).truncateTimestamp := by
    refine takeFields_frame Atom.truncateTimestamp ?_ gs (fun _ _ _ => rfl) _
    intro number a n
    unfold note
    split <;> rfl
  have hnot : ∀ g ∈ gs, g.field.number ≠ atomNumber := by
    intro g hg
    have := wf.number_pos hg
    unfold atomNumber
    omega
  rw [hview]
  simp only [startAtom, AnnotationSet.flag, List.contains_iff_mem, draftOf_get?_annotations wf]
  constructor
  · intro h
    exact ⟨_, .inl ⟨trivial, rfl, SortedSet.isEmpty_eq_false_iff.2 ⟨_, h⟩⟩, h⟩
  · intro h
    obtain ⟨_, ⟨-, rfl, -⟩ | ⟨g, hg, hk, -⟩, hmem⟩ := h
    · exact hmem
    · exact absurd hk (hnot g hg)

/-- A value of a state is one that some annotation has. -/
theorem draftOf_value (wf : WellFormed gs) (column : Atom → Option Int) {id : AnnotationId}
    (hnote : ∀ number a n v, column (note number a n) = some v →
      column a = some v ∨ n = ⟨id, .int v⟩)
    (happend : ∀ f a, column (appendField f a) = column a)
    (start : column (startAtom .standard e m) = none) (v : Int)
    (h : column (draftOf .standard e m gs).atom = some v) :
    ∃ k set, (draftOf .standard e m gs).atom.annotations.get? k = some set ∧
      ⟨id, .int v⟩ ∈ set := by
  rcases takeFields_origin hnote happend gs _ v h with h | ⟨g, hg, n, hn, rfl⟩
  · rw [start] at h
    cases h
  · have hsome := SortedSet.isEmpty_eq_false_iff.2 ⟨_, hn⟩
    exact ⟨_, _, (draftOf_get?_annotations wf).2 (.inr ⟨g, hg, rfl, rfl, hsome⟩), hn⟩

/-- Well-formed fields of a message make an atom that reflects it. -/
theorem draftOf_reflects (hmap : gs.map ReadField.field = sortFields m.fields)
    (hgs : ∀ g ∈ gs, g.IsReading .standard s.wellKnown) (wf : WellFormed gs) :
    Atom.Reflects s.wellKnown m
      { (draftOf .standard e m gs).atom with
        nonChained := isNonChained (draftOf .standard e m gs) } where
  length_fields := by
    have h := congrArg List.length hmap
    simpa [draftOf_fields, sortFields] using h
  numbers_distinct := by
    refine (sortFields_perm m.fields).pairwise ?_ (fun h => h.symm)
    rw [← hmap, List.pairwise_map]
    exact wf.numbers_distinct
  field_eq := by
    intro i hi
    have hlen : i < gs.length := by simpa [draftOf_fields] using hi
    have hmem := List.getElem_mem hlen
    have hfield : gs[i].field ∈ sortFields m.fields := by
      rw [← hmap]
      exact List.mem_map_of_mem hmem
    refine ⟨gs[i].field, (sortFields_perm _).mem_iff.1 hfield, wf.numbered i hlen, ?_, ?_⟩
    · simp [draftOf_fields]
    · have hreading := hgs _ hmem
      rw [← hreading.options_eq]
      simpa [draftOf_fields] using hreading.type_eq
  annotations_at := by
    intro k set h
    simp only [draftOf_fields, List.length_map]
    rcases (draftOf_get?_annotations wf).1 h with ⟨rfl, -, hsome⟩ | ⟨g, hg, rfl, -, hsome⟩
    · exact ⟨by simp [atomNumber], by simp [atomNumber], hsome⟩
    · have := wf.number_pos hg
      exact ⟨by omega, wf.number_le hg, hsome⟩
  atom_ids := draftOf_atom_ids wf
  uid_iff := draftOf_uidField wf
  exclusive_iff := draftOf_exclusiveField wf
  primary_ascending := by
    rw [draftOf_primaryFields]
    exact wf.primaryMarks_ascending (fun g hg => regular_of_isReading (hgs g hg))
  primary_iff := draftOf_mem_primaryFields wf
  exclusive_of_primary := by
    have blank := blank_startAtom .standard e m
    intro h
    exact (blank.exclusive_iff gs).2 (wf.primary_exclusive ((blank.primary_iff gs).1 h))
  binary_ascending := by
    rw [draftOf_binaryFields, List.pairwise_map]
    exact wf.numbers_ascending.filter _
  binary_iff := draftOf_mem_binaryFields wf
  nested_iff := draftOf_nested wf
  truncate_iff := draftOf_truncateTimestamp wf
  default_from := by
    refine draftOf_value wf Atom.defaultState ?_ (fun _ _ => rfl) rfl
    intro number a n v h
    obtain ⟨id, value⟩ := n
    cases id <;> cases value <;> simp_all [note]
  reset_from := by
    refine draftOf_value wf Atom.triggerStateReset ?_ (fun _ _ => rfl) rfl
    intro number a n v h
    obtain ⟨id, value⟩ := n
    cases id <;> cases value <;> simp_all [note]
  chain_first := by
    intro k f h ht
    obtain ⟨g, hg, rfl, rfl⟩ := (draftOf_field? wf).1 h
    exact wf.number_of_chain hg ht
  pairs_last := by
    intro k f h ht
    obtain ⟨g, hg, rfl, rfl⟩ := (draftOf_field? wf).1 h
    rw [wf.number_of_pairs hg ht]
    simp [draftOf_fields]
  values_enum := by
    intro f hf hsome
    simp only [draftOf_fields, List.mem_map] at hf
    obtain ⟨g, -, rfl⟩ := hf
    dsimp only at hsome ⊢
    cases ht : g.type.isEnum with
    | true => rfl
    | false =>
      rw [enumNames, ht] at hsome
      cases hsome
  flat := leading_of_isNonChained

/-- An accepted entry gives an atom that reflects the message of the entry. -/
theorem collateEntry_reflects {a : Atom} (h : collateEntry .standard s e = .ok a) :
    ∃ m, s.message? e.message = some m ∧ a.Reflects s.wellKnown m := by
  obtain ⟨m, gs, hm, hmap, hgs, wf, rfl⟩ := wellFormed_of_collateEntry h
  exact ⟨m, hm, draftOf_reflects hmap hgs wf⟩

end Entries

/-- What is selected under a code is what the first entry with that code gives. -/
theorem firstWithCode?_of_selected {r : Registry} {s : Schema} {sels : List Selection} {c : Catalog}
    {code : Int} {a : Atom} (selected : sels.foldlM Catalog.select (collate r s).catalog = .ok c)
    (found : c.get? code = some a) :
    ∃ e, firstWithCode? s.entries code = some e ∧ collateEntry r s e = .ok a := by
  have keyed := Catalog.keyed_ofAtoms (accepted (outcomes r s ∅ s.entries))
  have hcollated : (collate r s).catalog.get? code = some a :=
    (((keyed.selectAll selected).2 code a).1 found).1
  rw [get?_collate] at hcollated
  obtain ⟨e, he, ha⟩ := Option.bind_eq_some_iff.1 hcollated
  exact ⟨e, he, toOption_eq_some.1 ha⟩

/-- However atoms are selected from a collation, each of them reflects the message of its entry. -/
theorem selected_reflects {s : Schema} {sels : List Selection} {c : Catalog} {code : Int} {a : Atom}
    (selected : sels.foldlM Catalog.select (collate .standard s).catalog = .ok c)
    (found : c.get? code = some a) :
    ∃ e m, firstWithCode? s.entries code = some e ∧ s.message? e.message = some m ∧
      a.Reflects s.wellKnown m := by
  obtain ⟨e, he, ha⟩ := firstWithCode?_of_selected selected found
  obtain ⟨m, hm, hreflects⟩ := collateEntry_reflects ha
  exact ⟨e, m, he, hm, hreflects⟩

/-- A state that is tracked by the first uid of a chain and by a uid of its own. -/
def processMessage : Message where
  name := "ProcessState"
  fields :=
    [{ name := "owner", number := 1, kind := .message, repeated := true,
        messageType := some "AttributionNode", options := [⟨.number 50012, .bool true⟩] },
      { name := "state", number := 2, kind := .enum, enumValues := [⟨0, "IDLE"⟩, ⟨1, "BUSY"⟩],
        options := [⟨.number 50011, .bool true⟩, ⟨.number 50013, .int 0⟩] },
      { name := "uid", number := 3, kind := .int32,
        options := [⟨.number 50001, .bool true⟩, ⟨.number 50010, .bool true⟩] },
      { name := "trace", number := 4, kind := .bytes }]

def processEntry : Entry where
  name := "process_state"
  code := 27
  message := "ProcessState"
  options := [⟨.name "module", .str "system"⟩, ⟨.name "truncate_timestamp", .bool true⟩]

def processSchema : Schema where
  container := "Atom"
  entries := [processEntry, { name := "idle", code := 28, message := "Idle" }]
  messages := ⟨[("Idle", { name := "Idle" }), ("ProcessState", processMessage)], by decide⟩

theorem processEntry_collated : ∃ a, collateEntry .standard processSchema processEntry = .ok a ∧
    "system" ∈ a.modules ∧ a.uidField = some 3 ∧ a.primaryFields = [Atom.firstUid, 3] ∧
    a.exclusiveField = some 2 ∧ a.binaryFields = [4] ∧ a.truncateTimestamp = true := by
  have hm : processSchema.message? processEntry.message = some processMessage := by decide +kernel
  have hcolumns : ∃ a ∈ (collateEntry .standard processSchema processEntry).toOption,
      "system" ∈ a.modules ∧ a.uidField = some 3 ∧ a.primaryFields = [Atom.firstUid, 3] ∧
      a.exclusiveField = some 2 ∧ a.binaryFields = [4] ∧ a.truncateTimestamp = true := by
    rw [collateEntry_of_sorted hm (by decide)]
    decide +kernel
  obtain ⟨a, ha, hcolumns⟩ := hcolumns
  exact ⟨a, toOption_eq_some.1 ha, hcolumns⟩

theorem selected_reflects_process :
    ∃ c a m, [.all, .module "system"].foldlM Catalog.select
        (collate .standard processSchema).catalog = .ok c ∧
      c.get? 27 = some a ∧ a.uidField = some 3 ∧ a.primaryFields = [Atom.firstUid, 3] ∧
      a.exclusiveField = some 2 ∧ a.binaryFields = [4] ∧ a.truncateTimestamp = true ∧
      a.Reflects processSchema.wellKnown m := by
  obtain ⟨a, ha, hmodule, hcolumns⟩ := processEntry_collated
  have keyed : Catalog.Keyed (collate .standard processSchema).catalog.atoms :=
    Catalog.keyed_ofAtoms _
  have hget : (collate .standard processSchema).catalog.get? 27 = some a :=
    (get?_collate_eq_some _ _ (by decide)).2 ⟨processEntry, by decide, rfl, ha⟩
  obtain ⟨c, hc⟩ := keyed.select_ok hget (show (Selection.module "system").Takes a from hmodule)
  have selected : [.all, .module "system"].foldlM Catalog.select
      (collate .standard processSchema).catalog = .ok c := by
    simp only [List.foldlM_cons, List.foldlM_nil, bind_eq_ok, pure_eq_ok]
    exact ⟨_, rfl, c, hc, rfl⟩
  have found := ((keyed.select hc).2 27 a).2 ⟨hget, hmodule⟩
  obtain ⟨_, m, -, -, hreflects⟩ := selected_reflects selected found
  obtain ⟨huid, hprimary, hexclusive, hbinary, htruncate⟩ := hcolumns
  exact ⟨c, a, m, selected, found, huid, hprimary, hexclusive, hbinary, htruncate, hreflects⟩

end Collation

end AtomLog
