import AtomLog.Proofs.Draft
import AtomLog.Proofs.Meanings
/-!
Which entries are collated into an atom.

Main statement: under the standard options an entry is accepted just when its fields, taken by
number, are well formed (`collateEntry_accepts_iff`), in terms that know no order of checks.
-/
namespace AtomLog

/-- The rules for the fields of an atom by number, with what their options say and their types. -/
structure WellFormed (gs : List ReadField) : Prop where
  numbered : ∀ i (h : i < gs.length), gs[i].field.number = i + 1
  chain_first : ∀ i (h : i < gs.length), gs[i].type = .attributionChain → i = 0
  pairs_last : ∀ i (h : i < gs.length), gs[i].type = .keyValuePairs → i + 1 = gs.length
  one_uid : ∀ i j (hi : i < gs.length) (hj : j < gs.length),
    gs[i].Has .isUid → gs[j].Has .isUid → i = j
  uid_int : ∀ g ∈ gs, g.Has .isUid → g.type = .int32 ∨ g.type = .int32Array
  state_scalar : ∀ g ∈ gs, g.Has .primaryField ∨ g.Has .exclusiveState → g.type.IsScalar
  one_exclusive : ∀ i j (hi : i < gs.length) (hj : j < gs.length),
    gs[i].Has .exclusiveState → gs[j].Has .exclusiveState → i = j
  first_uid_chain : ∀ g ∈ gs, g.Has .primaryFieldFirstUid → g.type = .attributionChain
  primary_exclusive : (∃ g ∈ gs, g.Has .primaryField ∨ g.Has .primaryFieldFirstUid) →
    ∃ g ∈ gs, g.Has .exclusiveState
  hint_state : (∃ g ∈ gs, g.Has .defaultState ∨ g.Has .triggerStateReset ∨ g.Has .stateNested) →
    ∃ g ∈ gs, g.Has .primaryField ∨ g.Has .primaryFieldFirstUid ∨ g.Has .exclusiveState

/-- Whether a field is logged with a type. -/
def SchemaField.Logs (f : SchemaField) (w : WellKnown) (t : FieldType) : Prop :=
  f.fieldType w (FieldOptions.read .standard f.options).logAsBytes = .ok t

/-- Whether a field carries an annotation with an id. -/
def SchemaField.Carries (f : SchemaField) (id : AnnotationId) : Prop :=
  ∃ n ∈ (FieldOptions.read .standard f.options).annotations, n.id = id

namespace ReadField.IsReading

variable {w : WellKnown} {g : ReadField}

theorem logs_iff (h : g.IsReading .standard w) (t : FieldType) : g.field.Logs w t ↔ g.type = t := by
  rw [SchemaField.Logs, ← h.options_eq, h.type_eq, Except.ok.injEq]

theorem carries_iff (h : g.IsReading .standard w) (id : AnnotationId) :
    g.field.Carries id ↔ g.Has id := by
  rw [SchemaField.Carries, ← h.options_eq, ReadField.Has]

end ReadField.IsReading

/-- No place comes after another one of its kind just when there is one such place at most. -/
theorem first_only_iff {α : Type} (p : α → Prop) (xs : List α) :
    (∀ i (h : i < xs.length), p xs[i] → ∀ x ∈ xs.take i, ¬p x) ↔
      ∀ i j (hi : i < xs.length) (hj : j < xs.length), p xs[i] → p xs[j] → i = j := by
  constructor
  · intro h i j hi hj hpi hpj
    have not_lt : ∀ i j (hi : i < xs.length) (hj : j < xs.length), p xs[i] → p xs[j] → ¬i < j := by
      intro i j hi hj hpi hpj hlt
      exact h j hj hpj xs[i] (List.mem_take_iff_getElem.2 ⟨i, by omega, rfl⟩) hpi
    have h1 := not_lt i j hi hj hpi hpj
    have h2 := not_lt j i hj hi hpj hpi
    omega
  · intro h i hi hpi x hx hpx
    obtain ⟨j, hj, rfl⟩ := List.mem_take_iff_getElem.1 hx
    have := h i j hi (by omega) hpi hpx
    omega

namespace Collation

/-! ### The checks of one field -/

/-- What an annotation asks for depends on two columns of the atom only. -/
theorem Allows.congr {t : FieldType} {a b : Atom} {n : Annotation}
    (uid : n.id = .isUid → (a.uidField ≠ none ↔ b.uidField ≠ none))
    (exclusive : n.id = .exclusiveState → (a.exclusiveField ≠ none ↔ b.exclusiveField ≠ none)) :
    Allows t a n ↔ Allows t b n := by
  unfold Allows
  split
  · rename_i h
    rw [Decidable.not_iff_not.1 (uid h)]
  · rfl
  · rename_i h
    rw [Decidable.not_iff_not.1 (exclusive h)]
  · rfl
  · rfl

/-- Among regular annotations no mark comes twice, so what one asks for does not depend on those
of the same field. -/
theorem allowed_iff {set : AnnotationSet} (regular : ∀ n ∈ set, n.Regular) (t : FieldType)
    (number : Int) (a : Atom) :
    (∀ i (h : i < set.toList.length),
      Allows t ((set.toList.take i).foldl (note number) a) set.toList[i]) ↔
      ∀ n ∈ set, Allows t a n := by
  have no_mark_before : ∀ i (h : i < set.toList.length),
      set.toList[i].id.isNumeric = false → ∀ n ∈ set.toList.take i, n.id ≠ set.toList[i].id := by
    intro i hi hmark n hn hid
    have hmem : n ∈ set := List.mem_of_mem_take hn
    have heq := (regular _ (List.getElem_mem hi)).eq_of_id (regular n hmem) hid.symm hmark
    exact SortedSet.getElem_not_mem_take set i hi (heq ▸ hn)
  have same : ∀ i (h : i < set.toList.length),
      (Allows t ((set.toList.take i).foldl (note number) a) set.toList[i] ↔
        Allows t a set.toList[i]) := by
    intro i hi
    apply Allows.congr
    · intro hid
      apply uid_gathers.notes_of_unhit
      rw [← hid]
      exact no_mark_before i hi (by rw [hid]; rfl)
    · intro hid
      apply exclusive_gathers.notes_of_unhit
      rw [← hid]
      exact no_mark_before i hi (by rw [hid]; rfl)
  constructor
  · intro h n hn
    obtain ⟨i, hi, rfl⟩ := List.getElem_of_mem (SortedSet.mem_toList.2 hn)
    exact (same i hi).1 (h i hi)
  · intro h i hi
    exact (same i hi).2 (h _ (List.getElem_mem hi))

/-- What a draft and the count of the fields before ask of the next field, id by id. -/
structure Fits (count index : Nat) (d : Draft) (g : ReadField) : Prop where
  numbered : g.field.number = index + 1
  placed : Placed count index g.type d.atom
  uid : g.Has .isUid → (g.type = .int32 ∨ g.type = .int32Array) ∧ d.atom.uidField = none
  primary : g.Has .primaryField → g.type.IsScalar
  exclusive : g.Has .exclusiveState → g.type.IsScalar ∧ d.atom.exclusiveField = none
  first_uid : g.Has .primaryFieldFirstUid → g.type = .attributionChain

theorem admits_iff_fits {g : ReadField} (regular : ∀ n ∈ g.options.annotations, n.Regular)
    (count index : Nat) (d : Draft) : Admits count index d g ↔ Fits count index d g := by
  have hallowed := allowed_iff regular g.type g.field.number d.atom
  constructor
  · intro h
    have hall := hallowed.1 h.allowed
    refine { numbered := h.numbered, placed := h.placed, uid := ?_, primary := ?_,
             exclusive := ?_, first_uid := ?_ }
    all_goals
      intro hhas
      obtain ⟨n, hn, hid⟩ := hhas
      simpa [Allows, hid] using hall n hn
  · intro h
    refine ⟨h.numbered, h.placed, hallowed.2 ?_⟩
    intro n hn
    unfold Allows
    split
    · rename_i hid
      exact h.uid ⟨n, hn, hid⟩
    · rename_i hid
      exact h.primary ⟨n, hn, hid⟩
    · rename_i hid
      exact h.exclusive ⟨n, hn, hid⟩
    · rename_i hid
      exact h.first_uid ⟨n, hn, hid⟩
    · trivial

/-! ### All fields -/

theorem checkState_eq_ok {a : Atom} {u : Unit} :
    checkState a = .ok u ↔
      (a.primaryFields ≠ [] → a.exclusiveField ≠ none) ∧
      (a.defaultState ≠ none ∨ a.triggerStateReset ≠ none ∨ a.nested = true →
        a.primaryFields ≠ [] ∨ a.exclusiveField ≠ none) := by
  unfold checkState Atom.isState
  cases a.primaryFields <;> cases a.exclusiveField <;> cases a.defaultState <;>
    cases a.triggerStateReset <;> cases a.nested <;> simp

/-- An atom without fields, on which nothing has been noted. -/
structure Blank (a : Atom) : Prop where
  fields : a.fields = []
  uidField : a.uidField = none
  primaryFields : a.primaryFields = []
  exclusiveField : a.exclusiveField = none
  defaultState : a.defaultState = none
  triggerStateReset : a.triggerStateReset = none
  nested : a.nested = false

theorem blank_startAtom (r : Registry) (e : Entry) (m : Message) : Blank (startAtom r e m) :=
  ⟨rfl, rfl, rfl, rfl, rfl, rfl, rfl⟩

section Columns

variable {a : Atom} (blank : Blank a) (gs : List ReadField)
include blank

theorem Blank.uid_iff :
    (gs.foldl takeField { atom := a }).atom.uidField ≠ none ↔ ∃ g ∈ gs, g.Has .isUid := by
  rw [uid_gathers.fields]
  simp [blank.uidField, ReadField.Has]

theorem Blank.exclusive_iff :
    (gs.foldl takeField { atom := a }).atom.exclusiveField ≠ none ↔
      ∃ g ∈ gs, g.Has .exclusiveState := by
  rw [exclusive_gathers.fields]
  simp [blank.exclusiveField, ReadField.Has]

theorem Blank.primary_iff :
    (gs.foldl takeField { atom := a }).atom.primaryFields ≠ [] ↔
      ∃ g ∈ gs, g.Has .primaryField ∨ g.Has .primaryFieldFirstUid := by
  rw [primary_gathers.fields]
  simp [blank.primaryFields, ReadField.Has, and_or_left, exists_or]

/-- A hint at a state leaves its trace in an atom, where annotations have the values they take. -/
theorem Blank.hint_iff (regular : ∀ g ∈ gs, ∀ n ∈ g.options.annotations, n.Regular) :
    ((gs.foldl takeField { atom := a }).atom.defaultState ≠ none ∨
      (gs.foldl takeField { atom := a }).atom.triggerStateReset ≠ none ∨
      (gs.foldl takeField { atom := a }).atom.nested = true) ↔
      ∃ g ∈ gs, g.Has .defaultState ∨ g.Has .triggerStateReset ∨ g.Has .stateNested := by
  have numbered : ∀ id, id.isNumeric = true → ∀ g ∈ gs,
      ((∃ n ∈ g.options.annotations, n.id = id ∧ ∃ v, n.value = .int v) ↔ g.Has id) := by
    intro id hid g hg
    constructor
    · intro h
      obtain ⟨n, hn, hnid, -⟩ := h
      exact ⟨n, hn, hnid⟩
    · intro h
      obtain ⟨n, hn, hnid⟩ := h
      have hvalue := regular g hg n hn
      unfold Annotation.Regular at hvalue
      rw [hnid, hid] at hvalue
      exact ⟨n, hn, hnid, hvalue⟩
  have hdefault : (∃ g ∈ gs, ∃ n ∈ g.options.annotations,
      n.id = .defaultState ∧ ∃ v, n.value = .int v) ↔ ∃ g ∈ gs, g.Has .defaultState :=
    exists_congr fun g => and_congr_right (numbered .defaultState rfl g)
  have hreset : (∃ g ∈ gs, ∃ n ∈ g.options.annotations,
      n.id = .triggerStateReset ∧ ∃ v, n.value = .int v) ↔ ∃ g ∈ gs, g.Has .triggerStateReset :=
    exists_congr fun g => and_congr_right (numbered .triggerStateReset rfl g)
  rw [default_gathers.fields, reset_gathers.fields, nested_gathers.fields, hdefault, hreset]
  simp only [blank.defaultState, blank.triggerStateReset, blank.nested, ne_eq, not_true_eq_false,
    false_or, Bool.false_eq_true, and_or_left, exists_or, ReadField.Has]

theorem Blank.hasType_iff (t : FieldType) :
    (gs.foldl takeField { atom := a }).atom.hasType t = false ↔ ∀ g ∈ gs, g.type ≠ t := by
  rw [takeFields_hasType]
  simp [Atom.hasType, blank.fields]

/-- Fields that each fit where they come, and leave a sound state, are well formed. -/
theorem Blank.wellFormed_of_fits (regular : ∀ g ∈ gs, ∀ n ∈ g.options.annotations, n.Regular)
    (fits : ∀ i (h : i < gs.length),
      Fits gs.length i ((gs.take i).foldl takeField { atom := a }) gs[i])
    (state : checkState (gs.foldl takeField { atom := a }).atom = .ok ()) : WellFormed gs := by
  rw [checkState_eq_ok, blank.primary_iff, blank.exclusive_iff, blank.hint_iff gs regular] at state
  obtain ⟨hprimary, hhint⟩ := state
  refine {
    numbered := fun i h => (fits i h).numbered
    chain_first := fun i h ht => ((fits i h).placed.1 ht).2
    pairs_last := fun i h ht => ((fits i h).placed.2 ht).2
    one_uid := ?_, uid_int := ?_, state_scalar := ?_, one_exclusive := ?_, first_uid_chain := ?_
    primary_exclusive := hprimary, hint_state := ?_ }
  · apply (first_only_iff (fun g : ReadField => g.Has .isUid) gs).1
    intro i hi hu g hg hgu
    exact (blank.uid_iff (gs.take i)).2 ⟨g, hg, hgu⟩ ((fits i hi).uid hu).2
  · intro g hg hu
    obtain ⟨i, hi, rfl⟩ := List.getElem_of_mem hg
    exact ((fits i hi).uid hu).1
  · intro g hg hs
    obtain ⟨i, hi, rfl⟩ := List.getElem_of_mem hg
    rcases hs with hs | hs
    · exact (fits i hi).primary hs
    · exact ((fits i hi).exclusive hs).1
  · apply (first_only_iff (fun g : ReadField => g.Has .exclusiveState) gs).1
    intro i hi hx g hg hgx
    exact (blank.exclusive_iff (gs.take i)).2 ⟨g, hg, hgx⟩ ((fits i hi).exclusive hx).2
  · intro g hg hf
    obtain ⟨i, hi, rfl⟩ := List.getElem_of_mem hg
    exact (fits i hi).first_uid hf
  · intro hh
    rcases hhint hh with ⟨g, hg, hs | hs⟩ | ⟨g, hg, hs⟩
    · exact ⟨g, hg, .inl hs⟩
    · exact ⟨g, hg, .inr (.inl hs)⟩
    · exact ⟨g, hg, .inr (.inr hs)⟩

/-- Each of well-formed fields fits after those before it. -/
theorem Blank.fits_of_wellFormed (wf : WellFormed gs) (i : Nat) (hi : i < gs.length) :
    Fits gs.length i ((gs.take i).foldl takeField { atom := a }) gs[i] := by
  have hmem := List.getElem_mem hi
  refine { numbered := wf.numbered i hi, placed := ⟨?_, ?_⟩, uid := ?_, exclusive := ?_
           primary := fun hp => wf.state_scalar _ hmem (.inl hp)
           first_uid := wf.first_uid_chain _ hmem }
  · intro ht
    obtain rfl := wf.chain_first i hi ht
    exact ⟨(blank.hasType_iff _ _).2 (by simp), rfl⟩
  · intro ht
    refine ⟨(blank.hasType_iff _ _).2 ?_, wf.pairs_last i hi ht⟩
    -- key-value pairs before these would not be last either
    intro g hg hgt
    obtain ⟨j, hj, rfl⟩ := List.mem_take_iff_getElem.1 hg
    have hi' := wf.pairs_last i hi ht
    have hj' := wf.pairs_last j (by omega) (hgt.trans ht)
    omega
  · intro hu
    refine ⟨wf.uid_int _ hmem hu, Decidable.not_not.1 ?_⟩
    intro hsome
    obtain ⟨g, hg, hgu⟩ := (blank.uid_iff (gs.take i)).1 hsome
    exact (first_only_iff (fun g : ReadField => g.Has .isUid) gs).2 wf.one_uid i hi hu g hg hgu
  · intro hx
    refine ⟨wf.state_scalar _ hmem (.inr hx), Decidable.not_not.1 ?_⟩
    intro hsome
    obtain ⟨g, hg, hgx⟩ := (blank.exclusive_iff (gs.take i)).1 hsome
    exact (first_only_iff (fun g : ReadField => g.Has .exclusiveState) gs).2
      wf.one_exclusive i hi hx g hg hgx

/-- Well-formed fields leave a sound state. -/
theorem Blank.checkState_of_wellFormed (regular : ∀ g ∈ gs, ∀ n ∈ g.options.annotations, n.Regular)
    (wf : WellFormed gs) : checkState (gs.foldl takeField { atom := a }).atom = .ok () := by
  rw [checkState_eq_ok, blank.primary_iff, blank.exclusive_iff, blank.hint_iff gs regular]
  refine ⟨wf.primary_exclusive, ?_⟩
  intro hh
  obtain ⟨g, hg, hs⟩ := wf.hint_state hh
  rcases hs with hs | hs | hs
  · exact .inl ⟨g, hg, .inl hs⟩
  · exact .inl ⟨g, hg, .inr hs⟩
  · exact .inr ⟨g, hg, hs⟩

/-- The checks of a run over the fields, one after the other, come to the rules for all of them. -/
theorem Blank.admits_iff (regular : ∀ g ∈ gs, ∀ n ∈ g.options.annotations, n.Regular) :
    ((∀ i (h : i < gs.length),
      Admits gs.length i ((gs.take i).foldl takeField { atom := a }) gs[i]) ∧
      checkState (gs.foldl takeField { atom := a }).atom = .ok ()) ↔ WellFormed gs := by
  have fits : ∀ i (h : i < gs.length) (d : Draft),
      Admits gs.length i d gs[i] ↔ Fits gs.length i d gs[i] := by
    intro i hi d
    exact admits_iff_fits (regular gs[i] (List.getElem_mem hi)) gs.length i d
  constructor
  · intro h
    obtain ⟨hadmits, hstate⟩ := h
    exact blank.wellFormed_of_fits gs regular (fun i h => (fits i h _).1 (hadmits i h)) hstate
  · intro wf
    refine ⟨?_, blank.checkState_of_wellFormed gs regular wf⟩
    intro i hi
    exact (fits i hi _).2 (blank.fits_of_wellFormed gs wf i hi)

end Columns

theorem regular_of_isReading {w : WellKnown} {g : ReadField} (hg : g.IsReading .standard w) :
    ∀ n ∈ g.options.annotations, n.Regular := by
  intro n hn
  rw [hg.options_eq] at hn
  obtain ⟨o, -, ho⟩ := FieldOptions.mem_read.1 hn
  exact Registry.regular_of_meaning? Registry.standard_fits ho

/-- The atom of an entry is the draft of well-formed fields. -/
theorem wellFormed_of_collateEntry {s : Schema} {e : Entry} {a : Atom}
    (h : collateEntry .standard s e = .ok a) :
    ∃ m gs, s.message? e.message = some m ∧ gs.map ReadField.field = sortFields m.fields ∧
      (∀ g ∈ gs, g.IsReading .standard s.wellKnown) ∧ WellFormed gs ∧
      a = { (draftOf .standard e m gs).atom with
        nonChained := isNonChained (draftOf .standard e m gs) } := by
  obtain ⟨m, gs, hm, hmap, hgs, hadmits, hstate, rfl⟩ := collateEntry_eq_ok.1 h
  have regular : ∀ g ∈ gs, ∀ n ∈ g.options.annotations, n.Regular :=
    fun g hg => regular_of_isReading (hgs g hg)
  have wf := ((blank_startAtom .standard e m).admits_iff gs regular).1 ⟨hadmits, hstate⟩
  exact ⟨m, gs, hm, hmap, hgs, wf, rfl⟩

/-- An entry is accepted just when its message is there and the fields of it, in the order of their
numbers, have types and are well formed. -/
theorem collateEntry_accepts_iff (s : Schema) (e : Entry) :
    (∃ a, collateEntry .standard s e = .ok a) ↔
      ∃ m gs, s.message? e.message = some m ∧
        gs.map ReadField.field = sortFields m.fields ∧
        (∀ g ∈ gs, g.IsReading .standard s.wellKnown) ∧ WellFormed gs := by
  have regular : ∀ {gs : List ReadField}, (∀ g ∈ gs, g.IsReading .standard s.wellKnown) →
      ∀ g ∈ gs, ∀ n ∈ g.options.annotations, n.Regular := by
    intro gs hgs g hg n hn
    rw [(hgs g hg).options_eq] at hn
    obtain ⟨o, -, ho⟩ := FieldOptions.mem_read.1 hn
    exact Registry.regular_of_meaning? Registry.standard_fits ho
  simp only [collateEntry_eq_ok]
  constructor
  · intro h
    obtain ⟨_, m, gs, hm, hmap, hgs, hadmits, hstate, -⟩ := h
    have blank := blank_startAtom .standard e m
    exact ⟨m, gs, hm, hmap, hgs, (blank.admits_iff gs (regular hgs)).1 ⟨hadmits, hstate⟩⟩
  · intro h
    obtain ⟨m, gs, hm, hmap, hgs, wf⟩ := h
    have blank := blank_startAtom .standard e m
    obtain ⟨hadmits, hstate⟩ := (blank.admits_iff gs (regular hgs)).2 wf
    exact ⟨_, m, gs, hm, hmap, hgs, hadmits, hstate, rfl⟩

end Collation

end AtomLog
