import AtomLog.Proofs.Columns
import AtomLog.Proofs.Outcomes
/-!
The values of a state that an atom has as a whole, and those that reset one of its fields.

A field may be given several values of one kind, and so may several fields. Main statement: a reset
takes the first values of its field, an atom the last values of all its fields, so that the two
agree just when these are the same (`Collation.collateEntry_reset_agrees_iff`).
-/
namespace AtomLog

/-- Whether a number is the first of those that an atom has for an annotation at a place. -/
def Atom.FirstValueAt (a : Atom) (k : Int) (id : AnnotationId) (v : Int) : Prop :=
  ∃ set, a.annotations.get? k = some set ∧ ⟨id, .int v⟩ ∈ set ∧
    ∀ w, ⟨id, .int w⟩ ∈ set → v ≤ w

/-- Whether a number is the last of those that an atom has for an annotation: the greatest at its
place, with none at the places behind. -/
def Atom.LastValue (a : Atom) (id : AnnotationId) (v : Int) : Prop :=
  ∃ k set, a.annotations.get? k = some set ∧ ⟨id, .int v⟩ ∈ set ∧
    (∀ w, ⟨id, .int w⟩ ∈ set → w ≤ v) ∧
    ∀ k' set' w, k < k' → a.annotations.get? k' = some set' → ⟨id, .int w⟩ ∉ set'

/-! ### The values of one field -/

/-- The number that an annotation gives for an id. -/
def AnnotationId.int? (id : AnnotationId) (n : Annotation) : Option Int :=
  match n.value with
  | .int v => if n.id = id then some v else none
  | .bool _ => none

theorem AnnotationId.int?_eq_some {id : AnnotationId} {n : Annotation} {v : Int} :
    id.int? n = some v ↔ n = ⟨id, .int v⟩ := by
  obtain ⟨nid, value⟩ := n
  cases value <;> simp [int?]

/-- Numbers for one id come in their own order. -/
theorem AnnotationId.compare_int (id : AnnotationId) (v w : Int) :
    compare (⟨id, .int v⟩ : Annotation) ⟨id, .int w⟩ = compare v w := by
  have hkey : ∀ m n : Annotation, compare m n = compare m.key n.key := fun _ _ => rfl
  rw [hkey]
  unfold Annotation.key
  simp

namespace AnnotationSet

/-- The numbers that a set holds for an annotation. -/
def ints (s : AnnotationSet) (id : AnnotationId) : List Int :=
  s.toList.filterMap id.int?

variable {set : AnnotationSet} {id : AnnotationId}

theorem mem_ints {v : Int} : v ∈ set.ints id ↔ ⟨id, .int v⟩ ∈ set := by
  simp [ints, List.mem_filterMap, AnnotationId.int?_eq_some, SortedSet.mem_toList]

theorem ints_ascending (set : AnnotationSet) (id : AnnotationId) :
    (set.ints id).Pairwise (· < ·) := by
  refine List.pairwise_filterMap.2 (set.ascending.imp ?_)
  intro m n hlt v hv w hw
  rw [AnnotationId.int?_eq_some.1 hv, AnnotationId.int?_eq_some.1 hw,
    AnnotationId.compare_int] at hlt
  exact Int.compare_eq_lt.1 hlt

/-- The first number of a set is the least. -/
theorem int?_least {v : Int} (h : set.int? id = some v) :
    ⟨id, .int v⟩ ∈ set ∧ ∀ w, ⟨id, .int w⟩ ∈ set → v ≤ w := by
  have ascending := ints_ascending set id
  have hhead : (set.ints id).head? = some v := by
    rw [ints, List.head?_filterMap]
    exact h
  simp only [← mem_ints]
  cases hints : set.ints id with
  | nil => simp [hints] at hhead
  | cons x xs =>
    rw [hints] at ascending hhead
    obtain rfl : x = v := by simpa using hhead
    refine ⟨by simp, ?_⟩
    intro w hw
    rcases List.mem_cons.1 hw with rfl | hw
    · exact Int.le_refl _
    · exact Int.le_of_lt ((List.pairwise_cons.1 ascending).1 w hw)

/-- The last number of a set is the greatest. -/
theorem getLast?_ints_eq_some {v : Int} : (set.ints id).getLast? = some v ↔
    ⟨id, .int v⟩ ∈ set ∧ ∀ w, ⟨id, .int w⟩ ∈ set → w ≤ v := by
  have ascending := ints_ascending set id
  simp only [← mem_ints]
  constructor
  · intro h
    obtain ⟨ys, hints⟩ := List.getLast?_eq_some_iff.1 h
    rw [hints] at ascending ⊢
    refine ⟨by simp, ?_⟩
    intro w hw
    rcases List.mem_append.1 hw with hw | hw
    · exact Int.le_of_lt ((List.pairwise_append.1 ascending).2.2 w hw v (by simp))
    · exact Int.le_of_eq (List.mem_singleton.1 hw)
  · intro h
    obtain ⟨hv, hle⟩ := h
    obtain ⟨ys, zs, hints⟩ := List.append_of_mem hv
    cases zs with
    | nil => exact List.getLast?_eq_some_iff.2 ⟨ys, hints⟩
    | cons z zs =>
      rw [hints] at ascending hle
      have hlt := (List.pairwise_cons.1 (List.pairwise_append.1 ascending).2.1).1 z (by simp)
      have := hle z (by simp)
      omega

theorem getLast?_ints_eq_none : (set.ints id).getLast? = none ↔ ∀ w, ⟨id, .int w⟩ ∉ set := by
  simp only [List.getLast?_eq_none_iff, List.eq_nil_iff_forall_not_mem, mem_ints]

end AnnotationSet

/-! ### The values of an atom -/

theorem StateReset.of?_eq_some {set : AnnotationSet} {reset : StateReset} :
    StateReset.of? set = some reset ↔
      set.int? .triggerStateReset = some reset.resetValue ∧
        set.int? .defaultState = some reset.defaultValue := by
  obtain ⟨v, w⟩ := reset
  unfold of?
  cases AnnotationSet.int? set .triggerStateReset <;> cases AnnotationSet.int? set .defaultState <;>
    simp

namespace Collation

/-- A column that the numbers of an annotation are written to holds the last of them. -/
theorem takeFields_last {column : Atom → Option Int} {id : AnnotationId}
    (hnote : ∀ number a n, column (note number a n) = (id.int? n).or (column a))
    (happend : ∀ f a, column (appendField f a) = column a) (gs : List ReadField) (d : Draft) :
    column (gs.foldl takeField d).atom =
      (gs.filterMap (fun g => (g.options.annotations.ints id).getLast?)).getLast?.or
        (column d.atom) := by
  refine foldl_last (fun d : Draft => column d.atom) _ ?_ gs d
  intro d g
  dsimp only [takeField]
  rw [happend, foldl_last column id.int? (hnote g.field.number)]
  rfl

section Entries

variable {s : Schema} {e : Entry} {m : Message} {gs : List ReadField}

/-- Fields are taken by ascending numbers, so the last of the numbers written is the last by place. -/
theorem draftOf_last (wf : WellFormed gs) {column : Atom → Option Int} {id : AnnotationId}
    (hid : id ≠ .truncateTimestamp ∧ id ≠ .restrictionCategory)
    (hnote : ∀ number a n, column (note number a n) = (id.int? n).or (column a))
    (happend : ∀ f a, column (appendField f a) = column a)
    (start : column (startAtom .standard e m) = none) (v : Int) :
    column (draftOf .standard e m gs).atom = some v ↔
      (draftOf .standard e m gs).atom.LastValue id v := by
  rw [draftOf, takeFields_last hnote happend, start, Option.or_none, ← draftOf,
    getLast?_filterMap_eq_some]
  have ascending := wf.numbers_ascending
  constructor
  · intro h
    obtain ⟨ys, g, zs, rfl, hg, hzs⟩ := h
    obtain ⟨hv, hle⟩ := AnnotationSet.getLast?_ints_eq_some.1 hg
    have hsome := SortedSet.isEmpty_eq_false_iff.2 ⟨_, hv⟩
    refine ⟨g.field.number, g.options.annotations,
      (draftOf_get?_annotations wf).2 (.inr ⟨g, by simp, rfl, rfl, hsome⟩), hv, hle, ?_⟩
    intro k set w hlt hset hw
    have hpos := wf.number_pos (show g ∈ ys ++ g :: zs by simp)
    rcases (draftOf_get?_annotations wf).1 hset with ⟨rfl, -⟩ | ⟨f, hf, rfl, rfl, -⟩
    · rw [atomNumber] at hlt
      omega
    · rcases List.mem_append.1 hf with hf | hf
      · have := (List.pairwise_append.1 ascending).2.2 f hf g (by simp)
        omega
      · rcases List.mem_cons.1 hf with rfl | hf
        · omega
        · exact AnnotationSet.getLast?_ints_eq_none.1 (hzs f hf) w hw
  · intro h
    obtain ⟨k, set, hset, hv, hle, hlater⟩ := h
    rcases (draftOf_get?_annotations wf).1 hset with ⟨rfl, -⟩ | ⟨g, hg, rfl, rfl, -⟩
    · rcases draftOf_atom_ids wf id ⟨set, hset, _, hv, rfl⟩ with h | h
      · exact absurd h hid.1
      · exact absurd h hid.2
    · obtain ⟨ys, zs, rfl⟩ := List.append_of_mem hg
      refine ⟨ys, g, zs, rfl, AnnotationSet.getLast?_ints_eq_some.2 ⟨hv, hle⟩, ?_⟩
      intro f hf
      refine AnnotationSet.getLast?_ints_eq_none.2 (fun w hw => ?_)
      have hlt := (List.pairwise_cons.1 (List.pairwise_append.1 ascending).2.1).1 f hf
      have hsome := SortedSet.isEmpty_eq_false_iff.2 ⟨_, hw⟩
      exact hlater f.field.number f.options.annotations w hlt
        ((draftOf_get?_annotations wf).2 (.inr ⟨f, by simp [hf], rfl, rfl, hsome⟩)) hw

theorem note_defaultState (number : Int) (a : Atom) (n : Annotation) :
    (note number a n).defaultState = (AnnotationId.int? .defaultState n).or a.defaultState := by
  obtain ⟨id, value⟩ := n
  cases id <;> cases value <;> rfl

theorem note_triggerStateReset (number : Int) (a : Atom) (n : Annotation) :
    (note number a n).triggerStateReset =
      (AnnotationId.int? .triggerStateReset n).or a.triggerStateReset := by
  obtain ⟨id, value⟩ := n
  cases id <;> cases value <;> rfl

/-- The values of a state are the last ones that the fields of an accepted entry give. -/
theorem collateEntry_last {a : Atom} (h : collateEntry .standard s e = .ok a) (v : Int) :
    (a.triggerStateReset = some v ↔ a.LastValue .triggerStateReset v) ∧
      (a.defaultState = some v ↔ a.LastValue .defaultState v) := by
  obtain ⟨m, gs, -, -, -, wf, rfl⟩ := wellFormed_of_collateEntry h
  exact ⟨draftOf_last wf (by decide) note_triggerStateReset (fun _ _ => rfl) rfl v,
    draftOf_last wf (by decide) note_defaultState (fun _ _ => rfl) rfl v⟩

/-- A reset at a place takes the first values there. An atom has the values of the reset as its own
just when they are also the last of all. -/
theorem collateEntry_reset_agrees_iff {a : Atom} (h : collateEntry .standard s e = .ok a) {k : Int}
    {set : AnnotationSet} {reset : StateReset} (found : a.annotations.get? k = some set)
    (resets : StateReset.of? set = some reset) :
    a.FirstValueAt k .triggerStateReset reset.resetValue ∧
    a.FirstValueAt k .defaultState reset.defaultValue ∧
    (a.triggerStateReset = some reset.resetValue ∧ a.defaultState = some reset.defaultValue ↔
      a.LastValue .triggerStateReset reset.resetValue ∧
        a.LastValue .defaultState reset.defaultValue) := by
  obtain ⟨hreset, hdefault⟩ := StateReset.of?_eq_some.1 resets
  have hlast := collateEntry_last h
  exact ⟨⟨set, found, AnnotationSet.int?_least hreset⟩,
    ⟨set, found, AnnotationSet.int?_least hdefault⟩,
    and_congr (hlast reset.resetValue).1 (hlast reset.defaultValue).2⟩

end Entries

/-- A lamp whose default may be given twice: by itself, and as a field of the state options. -/
def lampMessage (twice : Bool) : Message where
  name := "Lamp"
  fields :=
    [{ name := "state", number := 1, kind := .int32,
        options :=
          [⟨.name "state_field_exclusive", .bool true⟩, ⟨.name "state_field_default", .int 0⟩,
            ⟨.name "state_field_reset", .int 7⟩] ++
          if twice then [⟨.name "state_field_option.default_state_value", .int 5⟩] else [] }]

def lampEntry : Entry where
  name := "lamp"
  code := 91
  message := "Lamp"

def lampSchema (twice : Bool) : Schema where
  container := "Atom"
  entries := [lampEntry]
  messages := .ofList [("Lamp", lampMessage twice)]

theorem lamp_collated (twice : Bool) : (collate .standard (lampSchema twice)).errors = [] ∧
    ∃ a set, collateEntry .standard (lampSchema twice) lampEntry = .ok a ∧
      a.annotations.get? 1 = some set ∧ StateReset.of? set = some ⟨7, 0⟩ ∧
      a.triggerStateReset = some 7 ∧ a.defaultState = some (if twice then 5 else 0) := by
  have hm : (lampSchema twice).message? lampEntry.message = some (lampMessage twice) := by
    cases twice <;> decide +kernel
  have hcolumns : ∃ a ∈ (collateEntry .standard (lampSchema twice) lampEntry).toOption,
      ∃ set ∈ a.annotations.get? 1, StateReset.of? set = some ⟨7, 0⟩ ∧
        a.triggerStateReset = some 7 ∧ a.defaultState = some (if twice then 5 else 0) := by
    rw [collateEntry_of_sorted hm (by cases twice <;> decide)]
    cases twice <;> decide +kernel
  obtain ⟨a, ha, set, found, hcolumns⟩ := hcolumns
  have ha := toOption_eq_some.1 ha
  have hnode : collateAttribution .standard (lampSchema twice) = .ok builtinAttribution := by
    cases twice <;> rfl
  exact ⟨(collate_of_entry _ _ rfl ha hnode).1, a, set, ha, found, hcolumns⟩

theorem collateEntry_reset_agrees_lamp :
    ∃ a set, collateEntry .standard (lampSchema false) lampEntry = .ok a ∧
      a.annotations.get? 1 = some set ∧ StateReset.of? set = some ⟨7, 0⟩ ∧
      a.FirstValueAt 1 .triggerStateReset 7 ∧ a.FirstValueAt 1 .defaultState 0 ∧
      a.LastValue .triggerStateReset 7 ∧ a.LastValue .defaultState 0 := by
  obtain ⟨-, a, set, ha, found, resets, hreset, hdefault⟩ := lamp_collated false
  obtain ⟨first_reset, first_default, agrees⟩ := collateEntry_reset_agrees_iff ha found resets
  exact ⟨a, set, ha, found, resets, first_reset, first_default, agrees.1 ⟨hreset, hdefault⟩⟩

/-- A lamp whose default is given twice has the one as its own and is reset to the other. -/
theorem not_reset_agrees : (collate .standard (lampSchema true)).errors = [] ∧
    ¬∀ e a k set reset, collateEntry .standard (lampSchema true) e = .ok a → 1 ≤ k →
      a.annotations.get? k = some set → StateReset.of? set = some reset →
      a.triggerStateReset = some reset.resetValue ∧
        a.defaultState = some reset.defaultValue := by
  obtain ⟨clean, a, set, ha, found, resets, -, hdefault⟩ := lamp_collated true
  refine ⟨clean, ?_⟩
  intro h
  have agrees := (h _ a 1 set _ ha (by decide) found resets).2
  rw [hdefault] at agrees
  cases agrees

end Collation

end AtomLog
