import AtomLog.Proofs.InfoTables
/-!
The state of an atom, once its leading fields have become a chain.

An atom with primary fields has a field for its state. That is checked of the fields as they are
declared, while functions log the annotations that are left when two leading fields are one. Main
statement: the mark of the state field is lost just when that field is one of the two
(`Emit.exclusive_kept_iff`).
-/
namespace AtomLog

/-- Whether some bucket of a catalog has an annotation of an id for a code, at any field number. -/
def Catalog.Registers (c : Catalog) (code : Int) (id : AnnotationId) : Prop :=
  ∃ kind sig number set, (c.ofKind kind).annotations? sig number code = some set ∧
    ∃ n ∈ set, n.id = id

/-- What is registered for an atom are its annotations as seen with a chain. -/
theorem Catalog.Describes.registers_iff {c : Catalog} (describes : c.Describes c.get?) {code : Int}
    {a : Atom} (found : c.get? code = some a) (id : AnnotationId) :
    c.Registers code id ↔ ∃ number, a.chained.Has number id := by
  constructor
  · intro h
    obtain ⟨kind, sig, number, set, hset, hid⟩ := h
    obtain ⟨a', ha', -, -, hat⟩ := (describes.annotations_ofKind_iff kind sig number code set).1 hset
    rw [found] at ha'
    cases ha'
    exact ⟨number, set, (Option.filter_eq_some_iff.1 hat).1, hid⟩
  · intro h
    obtain ⟨number, set, hset, n, hn, hid⟩ := h
    have hat : a.chained.annotationsAt number = some set := by
      have hsome := SortedSet.isEmpty_eq_false_iff.2 ⟨n, hn⟩
      simp [Atom.annotationsAt, hset, hsome]
    have hset' := (describes.annotations_ofKind_iff a.kind a.chained.signature number code set).2
      ⟨a, found, rfl, rfl, hat⟩
    exact ⟨a.kind, a.chained.signature, number, set, hset', n, hn, hid⟩

namespace Atom

/-- The annotations of the atom itself stay, those of the leading fields go, and the others move to
the number before. -/
theorem chained_has_iff {a : Atom} (flat : a.nonChained = true) {number : Int}
    {id : AnnotationId} : a.chained.Has number id ↔
      (number = atomNumber ∧ a.Has atomNumber id) ∨ (2 ≤ number ∧ a.Has (number + 1) id) := by
  simp only [Has, chained, flat, if_true, get?_shiftAnnotations]
  by_cases hatom : number = atomNumber
  · subst hatom
    have hnot : ¬(2 : Int) ≤ atomNumber := by decide
    simp only [if_true, hnot, false_and, or_false, true_and]
  · by_cases htwo : 2 ≤ number
    · simp [hatom, htwo]
    · simp [hatom, htwo]

/-- An annotation of a field is kept just when the field does not become part of a chain. -/
theorem exists_chained_has_iff {a : Atom} {id : AnnotationId} {k : Int}
    (only : ∀ number, a.Has number id ↔ number = k) (field : 1 ≤ k) :
    (∃ number, a.chained.Has number id) ↔ ¬(a.nonChained = true ∧ k ≤ 2) := by
  cases flat : a.nonChained with
  | false => simp [chained_eq_self flat, only]
  | true =>
    simp only [chained_has_iff flat, only, atomNumber, true_and]
    constructor
    · intro h
      obtain ⟨number, h | h⟩ := h <;> omega
    · intro h
      exact ⟨k - 1, .inr ⟨by omega, by omega⟩⟩

/-- What is seen with a chain was there before. -/
theorem has_of_chained {a : Atom} {number : Int} {id : AnnotationId}
    (h : a.chained.Has number id) : ∃ number', a.Has number' id := by
  cases flat : a.nonChained with
  | false =>
    rw [chained_eq_self flat] at h
    exact ⟨number, h⟩
  | true =>
    rcases (chained_has_iff flat).1 h with ⟨-, h⟩ | ⟨-, h⟩
    · exact ⟨_, h⟩
    · exact ⟨_, h⟩

section Reflects

variable {w : WellKnown} {m : Message} {a : Atom} (reflects : a.Reflects w m)
include reflects

/-- The annotations of fields stand on fields, also as seen with a chain. -/
theorem Reflects.chained_range {number : Int} {id : AnnotationId} (h : a.chained.Has number id) :
    0 ≤ number ∧ number ≤ a.chained.fields.length := by
  cases flat : a.nonChained with
  | false =>
    rw [chained_eq_self flat] at h ⊢
    obtain ⟨set, hset, -⟩ := h
    obtain ⟨hnonneg, hle, -⟩ := reflects.annotations_at number set hset
    exact ⟨hnonneg, hle⟩
  | true =>
    rcases (chained_has_iff flat).1 h with ⟨rfl, -⟩ | ⟨htwo, set, hset, -⟩
    · simp [atomNumber]
    · obtain ⟨-, hle, -⟩ := reflects.annotations_at (number + 1) set hset
      simp only [chained, flat, if_true, List.length_cons, List.length_drop]
      omega

/-- The mark of the state stands on one field and nowhere else. -/
theorem Reflects.exclusive_only {k : Int} (exclusive : a.exclusiveField = some k) :
    1 ≤ k ∧ ∀ number, a.Has number .exclusiveState ↔ number = k := by
  have only : ∀ number, a.Has number .exclusiveState ↔ number = k := by
    intro number
    rw [← reflects.exclusive_iff, exclusive, Option.some.injEq, eq_comm]
  obtain ⟨f, hf⟩ := reflects.exists_field ((only k).2 rfl) (by decide)
  obtain ⟨i, rfl, -⟩ := Atom.field?_eq_some.1 hf
  exact ⟨by omega, only⟩

end Reflects

end Atom

theorem Catalog.Describes.exists_has {c : Catalog} (describes : c.Describes c.get?) {code : Int}
    {a : Atom} {id : AnnotationId} (found : c.get? code = some a) (h : c.Registers code id) :
    ∃ number, a.Has number id := by
  obtain ⟨number, has⟩ := (describes.registers_iff found id).1 h
  exact Atom.has_of_chained has

namespace Collation

/-- Where a mark of a primary field stands, whichever of the two, there is a field for the state. -/
theorem collateEntry_exclusive_of_primary {s : Schema} {e : Entry} {a : Atom}
    (h : collateEntry .standard s e = .ok a) {number : Int}
    (primary : a.Has number .primaryField ∨ a.Has number .primaryFieldFirstUid) :
    ∃ k, a.exclusiveField = some k := by
  obtain ⟨m, gs, -, -, -, wf, rfl⟩ := wellFormed_of_collateEntry h
  have blank := blank_startAtom .standard e m
  have hmark : ∃ g ∈ gs, g.Has .primaryField ∨ g.Has .primaryFieldFirstUid := by
    rcases primary with hprimary | hfirst
    · obtain ⟨g, hg, -, hhas⟩ := (draftOf_has wf (by decide)).1 hprimary
      exact ⟨g, hg, .inl hhas⟩
    · obtain ⟨g, hg, -, hhas⟩ := (draftOf_has wf (by decide)).1 hfirst
      exact ⟨g, hg, .inr hhas⟩
  exact Option.ne_none_iff_exists'.1 ((blank.exclusive_iff gs).2 (wf.primary_exclusive hmark))

theorem reflects_of_selectAll {s : Schema} {sels : List Selection} {c : Catalog} {code : Int}
    {a : Atom} (selected : sels.foldlM Catalog.select (collate .standard s).catalog = .ok c)
    (found : c.get? code = some a) : ∃ m, a.Reflects s.wellKnown m := by
  obtain ⟨e, -, he⟩ := exists_entry_of_selectAll selected found
  obtain ⟨m, -, reflects⟩ := collateEntry_reflects he
  exact ⟨m, reflects⟩

end Collation

namespace Emit

/-- Whether an event marks a value with an annotation of an id. -/
def Marks (steps : List Step) (id : AnnotationId) : Prop := ∃ n, .annotate n ∈ steps ∧ n.id = id

theorem mem_loggedAt {a : Atom} {number : Int} {n : Annotation} :
    n ∈ a.loggedAt number ↔ (n.id ≠ .defaultState ∧ n.id ≠ .triggerStateReset) ∧
      ∃ set, a.annotations.get? number = some set ∧ n ∈ set := by
  have hmem : n ∈ (a.annotationsAt number).getD ∅ ↔
      ∃ set, a.annotations.get? number = some set ∧ n ∈ set := by
    unfold Atom.annotationsAt
    cases hget : a.annotations.get? number with
    | none => simp
    | some set =>
      cases hempty : set.isEmpty with
      | true =>
        obtain rfl := SortedSet.eq_empty_of_isEmpty hempty
        simp [Option.filter, hempty]
      | false => simp [Option.filter, hempty]
  rw [Atom.loggedAt, List.mem_filter, SortedSet.mem_toList, hmem, decide_eq_true_eq, and_comm]

theorem annotate_mem_event {a : Atom} {n : Annotation} :
    .annotate n ∈ event a ↔ n ∈ a.loggedAt atomNumber ∨
      ∃ (i : Nat) (f : AtomField), a.field? i = some f ∧ n ∈ a.loggedAt i := by
  simp only [mem_event_iff, fieldSteps, List.mem_cons, List.mem_append, List.mem_map,
    Option.mem_toList, reduceCtorEq, false_or, and_false, exists_false, Option.map_eq_some_iff,
    or_false, Step.annotate.injEq, exists_eq_right]
  exact or_congr Iff.rfl exists_comm

/-- An event marks what its atom has, apart from the values of a state reset. -/
theorem marks_event_iff {a : Atom} {id : AnnotationId}
    (range : ∀ number, a.Has number id → 0 ≤ number ∧ number ≤ a.fields.length)
    (logged : id ≠ .defaultState ∧ id ≠ .triggerStateReset) :
    Marks (event a) id ↔ ∃ number, a.Has number id := by
  constructor
  · intro h
    obtain ⟨n, hn, rfl⟩ := h
    rcases annotate_mem_event.1 hn with hn | ⟨i, -, -, hn⟩
    · obtain ⟨-, set, hset, hmem⟩ := mem_loggedAt.1 hn
      exact ⟨atomNumber, set, hset, n, hmem, rfl⟩
    · obtain ⟨-, set, hset, hmem⟩ := mem_loggedAt.1 hn
      exact ⟨i, set, hset, n, hmem, rfl⟩
  · intro h
    obtain ⟨number, has⟩ := h
    obtain ⟨hnonneg, hle⟩ := range number has
    obtain ⟨set, hset, n, hmem, rfl⟩ := has
    have hn : n ∈ a.loggedAt number := mem_loggedAt.2 ⟨logged, set, hset, hmem⟩
    refine ⟨n, annotate_mem_event.2 ?_, rfl⟩
    obtain ⟨i, rfl⟩ := Int.eq_ofNat_of_zero_le hnonneg
    cases i with
    | zero => exact .inl hn
    | succ i =>
      have hlt : i < a.fields.length := by omega
      have hf : a.field? (i + 1 : Nat) = some a.fields[i] :=
        Atom.field?_eq_some.2 ⟨i, rfl, List.getElem?_eq_getElem hlt⟩
      exact .inr ⟨i + 1, _, hf, hn⟩

/-- Where a primary field is registered for an atom, the atom has a field for the state, and that
one is registered too unless it is a leading field that has become part of a chain. Events mark
what is registered. -/
theorem exclusive_kept_iff {s : Schema} {sels : List Selection} {c : Catalog} {code : Int} {a : Atom}
    (selected : sels.foldlM Catalog.select (Collation.collate .standard s).catalog = .ok c)
    (found : c.get? code = some a) :
    (∀ id ∈ [AnnotationId.primaryField, .primaryFieldFirstUid, .exclusiveState],
      Marks (event a.chained) id ↔ c.Registers code id) ∧
    (c.Registers code .primaryField ∨ c.Registers code .primaryFieldFirstUid →
      ∃ k, a.exclusiveField = some k ∧
        (c.Registers code .exclusiveState ↔ ¬(a.nonChained = true ∧ k ≤ 2))) := by
  have describes := Collation.describes_of_selectAll selected
  obtain ⟨m, reflects⟩ := Collation.reflects_of_selectAll selected found
  refine ⟨?_, ?_⟩
  · intro id hid
    have logged : id ≠ .defaultState ∧ id ≠ .triggerStateReset := by
      simp only [List.mem_cons, List.not_mem_nil, or_false] at hid
      rcases hid with rfl | rfl | rfl <;> decide
    rw [describes.registers_iff found]
    exact marks_event_iff (fun _ has => reflects.chained_range has) logged
  · intro primary
    have before : ∃ number, a.Has number .primaryField ∨ a.Has number .primaryFieldFirstUid := by
      rcases primary with primary | primary
      · exact (describes.exists_has found primary).imp fun _ => .inl
      · exact (describes.exists_has found primary).imp fun _ => .inr
    obtain ⟨number, before⟩ := before
    obtain ⟨e, -, he⟩ := Collation.exists_entry_of_selectAll selected found
    obtain ⟨k, hk⟩ := Collation.collateEntry_exclusive_of_primary he before
    obtain ⟨field, only⟩ := reflects.exclusive_only hk
    rw [describes.registers_iff found]
    exact ⟨k, hk, Atom.exists_chained_has_iff only field⟩

/-- A display whose state is a field of its own, or else the leading uid. -/
def displayMessage (leading : Bool) : Message where
  name := "Display"
  fields :=
    let exclusive : List RawOption := [⟨.number 50011, .bool true⟩]
    [{ name := "uid", number := 1, kind := .int32,
        options := ⟨.number 50001, .bool true⟩ :: if leading then exclusive else [] },
      { name := "tag", number := 2, kind := .string, options := [⟨.number 50016, .bool true⟩] },
      { name := "state", number := 3, kind := .int32,
        options := if leading then [] else exclusive },
      { name := "display", number := 4, kind := .int32,
        options := [⟨.number 50010, .bool true⟩] }]

def displayEntry : Entry where
  name := "display"
  code := 70
  message := "Display"

def displaySchema (leading : Bool) : Schema where
  container := "Atom"
  entries := [displayEntry]
  messages := .ofList [("Display", displayMessage leading)]

theorem display_collated (leading : Bool) :
    (Collation.collate .standard (displaySchema leading)).errors = [] ∧
      ∃ a, (Collation.collate .standard (displaySchema leading)).catalog.get? 70 = some a ∧
        a.nonChained = true ∧ a.primaryFields = [4] ∧
        a.exclusiveField = some (if leading then 1 else 3) := by
  have hm : (displaySchema leading).message? displayEntry.message =
      some (displayMessage leading) := by
    cases leading <;> decide +kernel
  have hnode : Collation.collateAttribution .standard (displaySchema leading) =
      .ok Collation.builtinAttribution := by
    cases leading <;> rfl
  obtain ⟨clean, a, hcolumns, get?_iff⟩ := Collation.collate_of_fields .standard
    (displaySchema leading) rfl hm (by cases leading <;> decide) hnode
    (p := fun a => a.nonChained = true ∧ a.primaryFields = [4] ∧
      a.exclusiveField = some (if leading then 1 else 3))
    (by cases leading <;> decide +kernel)
  exact ⟨clean, a, (get?_iff _ _).2 ⟨rfl, rfl⟩, hcolumns⟩

/-- The display itself is registered as a primary field, one place before its number. -/
theorem display_primary (leading : Bool) :
    (Collation.collate .standard (displaySchema leading)).catalog.Registers 70 .primaryField := by
  obtain ⟨-, a, found, flat, hprimary, -⟩ := display_collated leading
  have selected := Collation.foldlM_select_nil .standard (displaySchema leading)
  obtain ⟨m, reflects⟩ := Collation.reflects_of_selectAll selected found
  have hmark : a.Has 4 .primaryField := by
    rcases (reflects.primary_iff 4).1 (by simp [hprimary]) with ⟨hfirst, -⟩ | ⟨-, has⟩
    · exact absurd hfirst (by decide)
    · exact has
  exact ((Collation.describes_of_selectAll selected).registers_iff found _).2
    ⟨3, (Atom.chained_has_iff flat).2 (.inr ⟨by omega, hmark⟩)⟩

theorem exclusive_kept_display :
    (Collation.collate .standard (displaySchema false)).catalog.Registers 70 .exclusiveState ∧
    ∃ a, (Collation.collate .standard (displaySchema false)).catalog.get? 70 = some a ∧
      a.nonChained = true ∧ Marks (event a.chained) .primaryField ∧
      Marks (event a.chained) .exclusiveState := by
  obtain ⟨-, a, found, flat, -, hexclusive⟩ := display_collated false
  have selected := Collation.foldlM_select_nil .standard (displaySchema false)
  have primary := display_primary false
  obtain ⟨marks, kept⟩ := exclusive_kept_iff selected found
  obtain ⟨k, hk, hkept⟩ := kept (.inl primary)
  rw [hexclusive] at hk
  cases hk
  have exclusive := hkept.2 (by simp)
  exact ⟨exclusive, a, found, flat, (marks _ (by decide)).2 primary,
    (marks _ (by decide)).2 exclusive⟩

/-- A state that is the leading uid is lost, while the primary field is kept. -/
theorem not_exclusive_kept : (Collation.collate .standard (displaySchema true)).errors = [] ∧
    ¬∀ code,
      let c := (Collation.collate .standard (displaySchema true)).catalog
      c.Registers code .primaryField ∨ c.Registers code .primaryFieldFirstUid →
        c.Registers code .exclusiveState := by
  obtain ⟨clean, a, found, flat, -, hexclusive⟩ := display_collated true
  refine ⟨clean, ?_⟩
  intro h
  have selected := Collation.foldlM_select_nil .standard (displaySchema true)
  obtain ⟨m, reflects⟩ := Collation.reflects_of_selectAll selected found
  obtain ⟨field, only⟩ := reflects.exclusive_only hexclusive
  have registered := h 70 (.inl (display_primary true))
  rw [(Collation.describes_of_selectAll selected).registers_iff found,
    Atom.exists_chained_has_iff only field] at registered
  exact registered ⟨flat, by decide⟩

end Emit

end AtomLog
