import AtomLog.Proofs.Acceptance
import AtomLog.Proofs.FieldDefects
import Mathlib.Tactic.MkIffOfInductiveProp
/-!
What is wrong with an entry that is not collated.

A flaw is described by the fields of the message alone, without the run that finds it. Main statement:
under the standard options an entry is refused with the defect of a flaw that it has, and no flaw is
found before that one (`Collation.collateEntry_fails_iff`).
-/
namespace AtomLog

/-- What is checked of a field. -/
inductive FieldCheck
  | number
  | type
  | place
  | mark (id : AnnotationId)

/-- When a check has its turn. -/
def FieldCheck.turn : FieldCheck → Nat
  | .number => 0
  | .type => 1
  | .place => 2
  | .mark id => id.number + 2

/-- A field of a type that has its place elsewhere, with the fields before and after it. -/
@[mk_iff]
inductive PlaceFlaw (w : WellKnown) (before : List SchemaField) (f : SchemaField)
    (after : List SchemaField) : FieldType → Defect → Prop
  | second_chain (first : ∃ g, before.head? = some g ∧ g.Logs w .attributionChain) :
    PlaceFlaw w before f after .attributionChain (.duplicateSpecialField .attributionChain)
  | late_chain (late : before ≠ []) (only : ∀ g ∈ before, ¬g.Logs w .attributionChain) :
    PlaceFlaw w before f after .attributionChain
      (.attributionChainNotFirst f.name (before.length + 1))
  | early_pairs (early : after ≠ []) :
    PlaceFlaw w before f after .keyValuePairs (.keyValuePairsNotLast f.name (before.length + 1))

/-- An annotation on a field that is of another type or comes after one that has the annotation
already. -/
@[mk_iff]
inductive MarkFlaw (before : List SchemaField) (f : SchemaField) (t : FieldType) :
    AnnotationId → Defect → Prop
  | uid_type (wrong : t ≠ .int32 ∧ t ≠ .int32Array) :
    MarkFlaw before f t .isUid (.uidFieldNotInt f.name t)
  | second_uid (int : t = .int32 ∨ t = .int32Array) (again : ∃ g ∈ before, g.Carries .isUid) :
    MarkFlaw before f t .isUid .multipleUidFields
  | primary_type (wrong : ¬t.IsScalar) :
    MarkFlaw before f t .primaryField (.stateFieldNotScalar f.name t)
  | exclusive_type (wrong : ¬t.IsScalar) :
    MarkFlaw before f t .exclusiveState (.stateFieldNotScalar f.name t)
  | second_exclusive (scalar : t.IsScalar) (again : ∃ g ∈ before, g.Carries .exclusiveState) :
    MarkFlaw before f t .exclusiveState .multipleExclusiveFields
  | first_uid_type (wrong : t ≠ .attributionChain) :
    MarkFlaw before f t .primaryFieldFirstUid (.firstUidNotOnAttributionChain f.name)

/-- What is wrong with a field, by the check that finds it. -/
@[mk_iff]
inductive FieldFlaw (w : WellKnown) (before : List SchemaField) (f : SchemaField)
    (after : List SchemaField) : FieldCheck → Defect → Prop
  | number (wrong : f.number ≠ before.length + 1)
    (numbered : ∀ (i : Nat) g, before[i]? = some g → g.number = i + 1) :
    FieldFlaw w before f after .number
      (.nonConsecutiveFieldNumber f.name (before.length + 1) f.number)
  | type {detail} (untyped : f.fieldType w (FieldOptions.read .standard f.options).logAsBytes =
      .error (.unsupportedType f.name detail)) :
    FieldFlaw w before f after .type (.unsupportedType f.name detail)
  | place {t d} (typed : f.Logs w t) (flaw : PlaceFlaw w before f after t d) :
    FieldFlaw w before f after .place d
  | mark {t id d} (typed : f.Logs w t) (marked : f.Carries id) (flaw : MarkFlaw before f t id d) :
    FieldFlaw w before f after (.mark id) d

/-- A defect that a flaw of a field has, where none is found in an earlier turn. -/
def FirstFieldFlaw (w : WellKnown) (before : List SchemaField) (f : SchemaField)
    (after : List SchemaField) (d : Defect) : Prop :=
  ∃ check, FieldFlaw w before f after check d ∧
    ∀ check' d', FieldFlaw w before f after check' d' → check.turn ≤ check'.turn

/-- What is wrong with all fields together. -/
@[mk_iff]
inductive StateFlaw (fs : List SchemaField) : Defect → Prop
  | primary_alone (primary : ∃ f ∈ fs, f.Carries .primaryField ∨ f.Carries .primaryFieldFirstUid)
    (alone : ∀ f ∈ fs, ¬f.Carries .exclusiveState) : StateFlaw fs .primaryFieldWithoutExclusive
  | hint_alone (hint : ∃ f ∈ fs, f.Carries .defaultState ∨ f.Carries .triggerStateReset ∨
      f.Carries .stateNested)
    (alone : ∀ f ∈ fs, ¬(f.Carries .primaryField ∨ f.Carries .primaryFieldFirstUid ∨
      f.Carries .exclusiveState)) : StateFlaw fs .stateWithoutPrimaryOrExclusive

/-- What is wrong with fields: a field with so many before it has a flaw that is found in some turn,
or all fields together have one, which is found after the last field. -/
inductive Flaw (w : WellKnown) (fs : List SchemaField) : Nat → Nat → Defect → Prop
  | field {before f after} {check : FieldCheck} {d} (split : fs = before ++ f :: after)
    (flaw : FieldFlaw w before f after check d) : Flaw w fs before.length check.turn d
  | state {d} (flaw : StateFlaw fs d) : Flaw w fs fs.length 0 d

/-- A defect that a flaw of some fields has, where none is found before it. -/
def FirstFlaw (w : WellKnown) (fs : List SchemaField) (d : Defect) : Prop :=
  ∃ i turn, Flaw w fs i turn d ∧
    ∀ i' turn' d', Flaw w fs i' turn' d' → i < i' ∨ i = i' ∧ turn ≤ turn'

/-! ### First flaws -/

/-- A defect that a flaw has, where none is found before it among those from a field on. -/
def FirstFlawFrom (w : WellKnown) (fs : List SchemaField) (start : Nat) (d : Defect) : Prop :=
  ∃ i turn, start ≤ i ∧ Flaw w fs i turn d ∧
    ∀ i' turn' d', start ≤ i' → Flaw w fs i' turn' d' → i < i' ∨ i = i' ∧ turn ≤ turn'

theorem firstFlawFrom_zero {w : WellKnown} {fs : List SchemaField} {d : Defect} :
    FirstFlawFrom w fs 0 d ↔ FirstFlaw w fs d := by
  simp only [FirstFlawFrom, FirstFlaw, Nat.zero_le, true_and, forall_const]

section Positions

variable {w : WellKnown} {before after : List SchemaField} {f : SchemaField} {d : Defect}

theorem flaw_at_field_iff {turn : Nat} :
    Flaw w (before ++ f :: after) before.length turn d ↔
      ∃ check : FieldCheck, FieldFlaw w before f after check d ∧ check.turn = turn := by
  constructor
  · intro h
    generalize hfs : before ++ f :: after = fs at h
    generalize hi : before.length = i at h
    cases h with
    | field split flaw =>
      rename_i check
      obtain ⟨rfl, hrest⟩ := List.append_inj (hfs.trans split) hi
      obtain ⟨rfl, rfl⟩ := List.cons.inj hrest
      exact ⟨check, flaw, rfl⟩
    | state =>
      have hlength := congrArg List.length hfs
      simp at hlength
      omega
  · intro h
    obtain ⟨check, hflaw, rfl⟩ := h
    exact .field rfl hflaw

theorem flaw_at_end_iff {fs : List SchemaField} {i turn : Nat} (beyond : fs.length ≤ i) :
    Flaw w fs i turn d ↔ i = fs.length ∧ turn = 0 ∧ StateFlaw fs d := by
  constructor
  · intro h
    cases h with
    | field split =>
      have hlength := congrArg List.length split
      simp at hlength
      omega
    | state flaw => exact ⟨rfl, rfl, flaw⟩
  · intro h
    obtain ⟨rfl, rfl, hflaw⟩ := h
    exact .state hflaw

/-- Where a field has a flaw, one of its flaws is found first. -/
theorem exists_firstFieldFlaw {check : FieldCheck} (h : FieldFlaw w before f after check d) :
    ∃ e, FirstFieldFlaw w before f after e := by
  induction hturn : check.turn using Nat.strongRecOn generalizing check d with
  | ind turn ih =>
    by_cases hfirst : ∀ check' d', FieldFlaw w before f after check' d' → check.turn ≤ check'.turn
    · exact ⟨d, check, h, hfirst⟩
    · simp only [Classical.not_forall, Nat.not_le] at hfirst
      obtain ⟨check', d', h', hlt⟩ := hfirst
      exact ih check'.turn (by omega) h' rfl

/-- From a field with a flaw on, the first flaw is the first of that field. -/
theorem firstFlawFrom_of_flaw {check : FieldCheck} {e : Defect}
    (h : FieldFlaw w before f after check e) :
    FirstFlawFrom w (before ++ f :: after) before.length d ↔
      FirstFieldFlaw w before f after d := by
  constructor
  · intro hd
    obtain ⟨i, turn, hi, hflaw, hfirst⟩ := hd
    have hle := hfirst before.length check.turn e (Nat.le_refl _)
      (flaw_at_field_iff.2 ⟨check, h, rfl⟩)
    obtain rfl : before.length = i := by omega
    obtain ⟨check', hflaw', rfl⟩ := flaw_at_field_iff.1 hflaw
    refine ⟨check', hflaw', ?_⟩
    intro c d' hc
    have := hfirst before.length c.turn d' (Nat.le_refl _) (flaw_at_field_iff.2 ⟨c, hc, rfl⟩)
    omega
  · intro hd
    obtain ⟨check', hflaw', hfirst⟩ := hd
    refine ⟨before.length, check'.turn, Nat.le_refl _,
      flaw_at_field_iff.2 ⟨check', hflaw', rfl⟩, ?_⟩
    intro i turn d' hi hflaw
    rcases Nat.lt_or_eq_of_le hi with hlt | rfl
    · exact .inl hlt
    · obtain ⟨c, hc, rfl⟩ := flaw_at_field_iff.1 hflaw
      exact .inr ⟨rfl, hfirst c d' hc⟩

/-- A field without a flaw may be passed by. -/
theorem firstFlawFrom_succ {fs : List SchemaField} {start : Nat}
    (sound : ∀ turn e, ¬Flaw w fs start turn e) :
    FirstFlawFrom w fs start d ↔ FirstFlawFrom w fs (start + 1) d := by
  have hlater : ∀ {i turn e}, Flaw w fs i turn e → (start ≤ i ↔ start + 1 ≤ i) := by
    intro i turn e h
    constructor
    · intro hle
      rcases Nat.lt_or_eq_of_le hle with hlt | rfl
      · exact hlt
      · exact absurd h (sound turn e)
    · exact Nat.le_of_succ_le
  constructor
  · intro h
    obtain ⟨i, turn, hi, hflaw, hfirst⟩ := h
    exact ⟨i, turn, (hlater hflaw).1 hi, hflaw,
      fun i' turn' e hi' h' => hfirst i' turn' e ((hlater h').2 hi') h'⟩
  · intro h
    obtain ⟨i, turn, hi, hflaw, hfirst⟩ := h
    exact ⟨i, turn, (hlater hflaw).2 hi, hflaw,
      fun i' turn' e hi' h' => hfirst i' turn' e ((hlater h').1 hi') h'⟩

end Positions

theorem AnnotationId.number_pos (id : AnnotationId) : 0 < id.number := by
  cases id <;> decide

/-- The first flaw of a field is one that the earlier checks do not find. -/
theorem firstFieldFlaw_iff {w : WellKnown} {before after : List SchemaField} {f : SchemaField}
    {d : Defect} : FirstFieldFlaw w before f after d ↔
      FieldFlaw w before f after .number d ∨ (∀ e, ¬FieldFlaw w before f after .number e) ∧
      (FieldFlaw w before f after .type d ∨ (∀ e, ¬FieldFlaw w before f after .type e) ∧
      (FieldFlaw w before f after .place d ∨ (∀ e, ¬FieldFlaw w before f after .place e) ∧
      ∃ id, FieldFlaw w before f after (.mark id) d ∧
        ∀ id' e, FieldFlaw w before f after (.mark id') e → id.number ≤ id'.number)) := by
  constructor
  · intro h
    obtain ⟨check, hd, hfirst⟩ := h
    have hnone : ∀ check' : FieldCheck, check'.turn < check.turn →
        ∀ e, ¬FieldFlaw w before f after check' e :=
      fun check' hlt e he => Nat.not_lt.2 (hfirst check' e he) hlt
    cases check with
    | number => exact .inl hd
    | type => exact .inr ⟨hnone .number (by decide), .inl hd⟩
    | place => exact .inr ⟨hnone .number (by decide), .inr ⟨hnone .type (by decide), .inl hd⟩⟩
    | mark id =>
      have hpos := id.number_pos
      refine .inr ⟨hnone .number ?_, .inr ⟨hnone .type ?_, .inr ⟨hnone .place ?_, id, hd, ?_⟩⟩⟩
      · simp [FieldCheck.turn]
      · simp [FieldCheck.turn]
      · simpa [FieldCheck.turn] using hpos
      · intro id' e he
        simpa [FieldCheck.turn] using hfirst (.mark id') e he
  · intro h
    rcases h with hd | ⟨hnumber, hd | ⟨htype, hd | ⟨hplace, id, hd, hfirst⟩⟩⟩
    · exact ⟨.number, hd, fun _ _ _ => Nat.zero_le _⟩
    · refine ⟨.type, hd, ?_⟩
      intro check' e he
      cases check' with
      | number => exact absurd he (hnumber e)
      | _ => simp [FieldCheck.turn]
    · refine ⟨.place, hd, ?_⟩
      intro check' e he
      cases check' with
      | number => exact absurd he (hnumber e)
      | type => exact absurd he (htype e)
      | _ => simp [FieldCheck.turn]
    · refine ⟨.mark id, hd, ?_⟩
      intro check' e he
      cases check' with
      | number => exact absurd he (hnumber e)
      | type => exact absurd he (htype e)
      | place => exact absurd he (hplace e)
      | mark id' => simpa [FieldCheck.turn] using hfirst id' e he

/-! ### What the checks of a field report -/

/-- Annotations come in the order of their numbers. -/
theorem Annotation.number_le_of_lt {m n : Annotation} (h : compare m n = .lt) :
    m.id.number ≤ n.id.number := by
  have hkey : compare m.key n.key = .lt := h
  simp only [key, List.compare_cons_cons] at hkey
  cases hnumber : compare (m.id.number : Int) n.id.number with
  | lt =>
    have hlt := Int.compare_eq_lt.1 hnumber
    omega
  | eq =>
    have heq := Std.LawfulEqCmp.eq_of_compare hnumber
    omega
  | gt =>
    rw [hnumber] at hkey
    cases hkey

namespace Collation

theorem requireScalar_eq_error {name : String} {t : FieldType} {d : Defect} :
    requireScalar name t = .error d ↔ ¬t.IsScalar ∧ d = .stateFieldNotScalar name t := by
  rw [@eq_comm _ d]
  cases t <;> simp [requireScalar, FieldType.IsScalar, FieldType.isArray]

theorem readField_eq_error {r : Registry} {w : WellKnown} {index : Nat} {f : SchemaField}
    {d : Defect} : readField r w index f = .error d ↔
      (f.number ≠ index + 1 ∧ d = .nonConsecutiveFieldNumber f.name (index + 1) f.number) ∨
      (f.number = index + 1 ∧
        f.fieldType w (FieldOptions.read r f.options).logAsBytes = .error d) := by
  unfold readField
  by_cases hn : f.number = index + 1
  · simp [hn, bind_eq_error, pure, Except.pure]
  · simp [hn, bind, Except.bind, throw, throwThe, MonadExceptOf.throw, eq_comm]

/-- As far as an annotation asks for it, an atom tells which marks the fields before it carry. -/
structure Tells (before : List SchemaField) (a : Atom) (n : Annotation) : Prop where
  uid : n.id = .isUid → (a.uidField ≠ none ↔ ∃ g ∈ before, g.Carries .isUid)
  exclusive : n.id = .exclusiveState →
    (a.exclusiveField ≠ none ↔ ∃ g ∈ before, g.Carries .exclusiveState)

theorem Tells.note {before : List SchemaField} {a : Atom} {m n : Annotation}
    (h : Tells before a n) (other : n.id.isNumeric = false → m.id ≠ n.id) (number : Int) :
    Tells before (note number a m) n where
  uid hid := by
    rw [← h.uid hid, uid_gathers.note]
    exact or_iff_left (fun hm => other (by rw [hid]; rfl) (hm.trans hid.symm))
  exclusive hid := by
    rw [← h.exclusive hid, exclusive_gathers.note]
    exact or_iff_left (fun hm => other (by rw [hid]; rfl) (hm.trans hid.symm))

theorem annotateAtom_eq_error {before : List SchemaField} {f : SchemaField} {number : Int}
    {t : FieldType} {a : Atom} {n : Annotation} (tells : Tells before a n) (d : Defect) :
    annotateAtom f.name number t a n = .error d ↔ MarkFlaw before f t n.id d := by
  obtain ⟨id, value⟩ := n
  rw [markFlaw_iff]
  cases id with
  | isUid =>
    rw [← tells.uid rfl]
    by_cases ht : t = .int32 ∨ t = .int32Array
    · have ht' : ¬(t ≠ .int32 ∧ t ≠ .int32Array) := by
        rcases ht with rfl | rfl <;> simp
      cases hu : a.uidField <;> simp [annotateAtom, ht, ht', hu, eq_comm]
    · have ht' : t ≠ .int32 ∧ t ≠ .int32Array := not_or.1 ht
      simp [annotateAtom, ht', eq_comm]
  | primaryField =>
    simp only [annotateAtom, bind_eq_error, requireScalar_eq_error]
    simp [pure, Except.pure]
  | exclusiveState =>
    rw [← tells.exclusive rfl]
    simp only [annotateAtom, bind_eq_error, requireScalar_eq_error, requireScalar_eq_ok]
    cases hx : a.exclusiveField <;> simp [eq_comm]
  | primaryFieldFirstUid =>
    by_cases ht : t = .attributionChain <;> simp [annotateAtom, ht, eq_comm]
  | defaultState => cases value <;> simp [annotateAtom]
  | triggerStateReset => cases value <;> simp [annotateAtom]
  | _ => simp [annotateAtom]

/-- The annotations of a field are taken over up to the first with a flaw. -/
theorem foldlM_annotateAtom_eq_error {before : List SchemaField} {f : SchemaField} {t : FieldType}
    {number : Int} {ns : List Annotation} {a : Atom}
    (ascending : ns.Pairwise (fun m n => m.id.number ≤ n.id.number))
    (distinct : ns.Pairwise (fun m n => n.id.isNumeric = false → m.id ≠ n.id))
    (tells : ∀ n ∈ ns, Tells before a n) (d : Defect) :
    ns.foldlM (annotateAtom f.name number t) a = .error d ↔
      ∃ n ∈ ns, MarkFlaw before f t n.id d ∧
        ∀ m ∈ ns, ∀ d', MarkFlaw before f t m.id d' → n.id.number ≤ m.id.number := by
  induction ns generalizing a with
  | nil => simp [pure, Except.pure]
  | cons n ns ih =>
    obtain ⟨hascending, ascending⟩ := List.pairwise_cons.1 ascending
    obtain ⟨hdistinct, distinct⟩ := List.pairwise_cons.1 distinct
    have herror : ∀ d, annotateAtom f.name number t a n = .error d ↔ MarkFlaw before f t n.id d :=
      annotateAtom_eq_error (tells n (by simp))
    rw [List.foldlM_cons]
    cases hn : annotateAtom f.name number t a n with
    | error e =>
      have hfirst : ∀ m ∈ n :: ns, n.id.number ≤ m.id.number := by
        intro m hm
        rcases List.mem_cons.1 hm with rfl | hm
        · exact Nat.le_refl _
        · exact hascending m hm
      constructor
      · intro h
        cases h
        exact ⟨n, by simp, (herror d).1 hn, fun m hm _ _ => hfirst m hm⟩
      · intro h
        obtain ⟨m, hm, hflaw, hleast⟩ := h
        -- annotations of one number have one id, so a flaw of the one is a flaw of the other
        have hle := hleast n (by simp) e ((herror e).1 hn)
        have hid : m.id = n.id := AnnotationId.number_injective (Nat.le_antisymm hle (hfirst m hm))
        rw [hid] at hflaw
        rw [← hn, (herror d).2 hflaw]
        rfl
    | ok b =>
      obtain ⟨-, rfl⟩ := (annotateAtom_eq_ok _ _ _ _ _ _).1 hn
      have hnone : ∀ d', ¬MarkFlaw before f t n.id d' := by
        intro d' h
        rw [(herror d').2 h] at hn
        cases hn
      have hrest := ih ascending distinct
        (fun m hm => (tells m (by simp [hm])).note (hdistinct m hm) number)
      refine hrest.trans ?_
      simp [hnone]

/-! ### The fields before a flaw -/

/-- Fields that have been taken over, of so many altogether. -/
structure Taken (w : WellKnown) (count : Nat) (gs : List ReadField) : Prop where
  read : ∀ g ∈ gs, g.IsReading .standard w
  numbered : ∀ (i : Nat) g, gs[i]? = some g → g.field.number = i + 1
  chain_first : ∀ (i : Nat) g, gs[i]? = some g → g.type = .attributionChain → i = 0
  pairs_last : ∀ (i : Nat) g, gs[i]? = some g → g.type = .keyValuePairs → i + 1 = count

theorem Taken.nil (w : WellKnown) (count : Nat) : Taken w count [] where
  read := by simp
  numbered := by simp
  chain_first := by simp
  pairs_last := by simp

theorem Taken.concat {w : WellKnown} {count : Nat} {gs : List ReadField} {d : Draft} {g : ReadField}
    (h : Taken w count gs) (reading : g.IsReading .standard w)
    (admits : Admits count gs.length d g) : Taken w count (gs ++ [g]) := by
  have hlast : ∀ {P : Nat → ReadField → Prop}, (∀ (i : Nat) f, gs[i]? = some f → P i f) →
      P gs.length g → ∀ (i : Nat) f, (gs ++ [g])[i]? = some f → P i f := by
    intro P hgs hg i f hf
    rw [List.getElem?_append] at hf
    split at hf
    · exact hgs i f hf
    · obtain ⟨hi, rfl⟩ := List.getElem?_eq_some_iff.1 hf
      obtain rfl : i = gs.length := by simp at hi; omega
      simpa using hg
  refine ⟨?_, hlast h.numbered admits.numbered, ?_, ?_⟩
  · intro f hf
    rcases List.mem_append.1 hf with hf | hf
    · exact h.read f hf
    · obtain rfl := List.mem_singleton.1 hf
      exact reading
  · exact hlast h.chain_first (fun ht => (admits.placed.1 ht).2)
  · exact hlast h.pairs_last (fun ht => (admits.placed.2 ht).2)

theorem checkState_eq_error {a : Atom} {d : Defect} :
    checkState a = .error d ↔
      (a.primaryFields ≠ [] ∧ ¬a.exclusiveField ≠ none ∧ d = .primaryFieldWithoutExclusive) ∨
      ((a.defaultState ≠ none ∨ a.triggerStateReset ≠ none ∨ a.nested = true) ∧
        ¬(a.primaryFields ≠ [] ∨ a.exclusiveField ≠ none) ∧
        d = .stateWithoutPrimaryOrExclusive) := by
  unfold checkState Atom.isState
  cases a.primaryFields <;> cases a.exclusiveField <;> cases a.defaultState <;>
    cases a.triggerStateReset <;> cases a.nested <;> simp [@eq_comm _ d]

section Prefix

variable {w : WellKnown} {count : Nat} {gs : List ReadField} {a : Atom}
  (taken : Taken w count gs) (blank : Blank a)
include taken

theorem Taken.exists_iff {P : SchemaField → Prop} {Q : ReadField → Prop}
    (same : ∀ g, g.IsReading .standard w → (P g.field ↔ Q g)) :
    (∃ f ∈ gs.map ReadField.field, P f) ↔ ∃ g ∈ gs, Q g := by
  constructor
  · intro h
    obtain ⟨f, hf, hP⟩ := h
    obtain ⟨g, hg, rfl⟩ := List.mem_map.1 hf
    exact ⟨g, hg, (same g (taken.read g hg)).1 hP⟩
  · intro h
    obtain ⟨g, hg, hQ⟩ := h
    exact ⟨g.field, List.mem_map_of_mem hg, (same g (taken.read g hg)).2 hQ⟩

/-- A chain among the fields taken is the first of them. -/
theorem Taken.chain_iff :
    (∃ f ∈ gs.map ReadField.field, f.Logs w .attributionChain) ↔
      ∃ f, (gs.map ReadField.field).head? = some f ∧ f.Logs w .attributionChain := by
  constructor
  · intro h
    obtain ⟨f, hf, hchain⟩ := h
    obtain ⟨g, hg, rfl⟩ := List.mem_map.1 hf
    obtain ⟨i, hi⟩ := List.mem_iff_getElem?.1 hg
    obtain rfl := taken.chain_first i g hi (((taken.read g hg).logs_iff _).1 hchain)
    exact ⟨g.field, by simp [List.head?_eq_getElem?, hi], hchain⟩
  · intro h
    obtain ⟨f, hf, hchain⟩ := h
    exact ⟨f, List.mem_of_mem_head? hf, hchain⟩

include blank

theorem Taken.hasType_iff (t : FieldType) :
    (gs.foldl takeField { atom := a }).atom.hasType t = true ↔
      ∃ f ∈ gs.map ReadField.field, f.Logs w t := by
  rw [taken.exists_iff (fun g hg => hg.logs_iff t), ← Bool.not_eq_false, blank.hasType_iff]
  simp

theorem Taken.tells (n : Annotation) :
    Tells (gs.map ReadField.field) (gs.foldl takeField { atom := a }).atom n where
  uid _ := by
    rw [blank.uid_iff, taken.exists_iff (fun g hg => hg.carries_iff .isUid)]
  exclusive _ := by
    rw [blank.exclusive_iff, taken.exists_iff (fun g hg => hg.carries_iff .exclusiveState)]

theorem Taken.checkPlace_eq_error {f : SchemaField} {after : List SchemaField}
    (all : count = gs.length + 1 + after.length) {t : FieldType} {d : Defect} :
    checkPlace count gs.length f.name t (gs.foldl takeField { atom := a }).atom = .error d ↔
      PlaceFlaw w (gs.map ReadField.field) f after t d := by
  have htype := taken.hasType_iff blank
  rw [placeFlaw_iff, ← taken.chain_iff, ← htype]
  cases t with
  | attributionChain =>
    have hnone : (∀ f ∈ gs.map ReadField.field, ¬f.Logs w .attributionChain) ↔
        ¬(gs.foldl takeField { atom := a }).atom.hasType .attributionChain = true := by
      rw [htype]
      simp
    rw [hnone, checkPlace]
    generalize (gs.foldl takeField { atom := a }).atom.hasType .attributionChain = chained
    cases chained <;> by_cases hgs : gs = [] <;> simp [hgs, @eq_comm _ d]
  | keyValuePairs =>
    have hnone : (gs.foldl takeField { atom := a }).atom.hasType .keyValuePairs = false := by
      rw [blank.hasType_iff]
      intro g hg ht
      obtain ⟨i, hi⟩ := List.mem_iff_getElem?.1 hg
      have hlast := taken.pairs_last i g hi ht
      obtain ⟨hlt, -⟩ := List.getElem?_eq_some_iff.1 hi
      omega
    by_cases hafter : after = []
    · simp [checkPlace, hnone, hafter, all]
    · have hlength := List.length_pos_iff.2 hafter
      have hlast : gs.length + 1 ≠ count := by omega
      simp [checkPlace, hnone, hafter, hlast, @eq_comm _ d]
  | _ => simp [checkPlace]

theorem Taken.foldlM_annotateAtom_eq_error {g : ReadField} (reading : g.IsReading .standard w)
    {d : Defect} :
    g.options.annotations.toList.foldlM (annotateAtom g.field.name g.field.number g.type)
        (gs.foldl takeField { atom := a }).atom = .error d ↔
      ∃ id, (g.Has id ∧ MarkFlaw (gs.map ReadField.field) g.field g.type id d) ∧
        ∀ id' e, g.Has id' ∧ MarkFlaw (gs.map ReadField.field) g.field g.type id' e →
          id.number ≤ id'.number := by
  have regular := regular_of_isReading reading
  have ascending := g.options.annotations.ascending
  rw [Collation.foldlM_annotateAtom_eq_error (ascending.imp Annotation.number_le_of_lt) ?_
    (fun n _ => taken.tells blank n)]
  · constructor
    · intro h
      obtain ⟨n, hn, hflaw, hfirst⟩ := h
      refine ⟨n.id, ⟨⟨n, hn, rfl⟩, hflaw⟩, ?_⟩
      intro id' e h'
      obtain ⟨⟨n', hn', rfl⟩, hflaw'⟩ := h'
      exact hfirst n' hn' e hflaw'
    · intro h
      obtain ⟨_, ⟨⟨n, hn, rfl⟩, hflaw⟩, hfirst⟩ := h
      exact ⟨n, hn, hflaw, fun m hm e he => hfirst m.id e ⟨⟨m, hm, rfl⟩, he⟩⟩
  · refine ascending.imp_of_mem ?_
    intro m n hm hn hlt hmark hid
    have heq := (regular n hn).eq_of_id (regular m hm) hid.symm hmark
    simp [heq] at hlt

theorem Taken.addField_eq_error {f : SchemaField} {after : List SchemaField}
    (all : count = gs.length + 1 + after.length) {d : Defect} :
    addField .standard w count gs.length f (gs.foldl takeField { atom := a }) = .error d ↔
      FirstFieldFlaw w (gs.map ReadField.field) f after d := by
  have hright : f.number = gs.length + 1 →
      ∀ e, ¬FieldFlaw w (gs.map ReadField.field) f after .number e := by
    intro hn e h
    cases h with
    | number wrong => exact wrong (by simpa using hn)
  rw [firstFieldFlaw_iff, addField, bind_eq_error]
  cases hr : readField .standard w gs.length f with
  | error e =>
    simp only [Except.error.injEq, reduceCtorEq, false_and, exists_false, or_false]
    rcases readField_eq_error.1 hr with ⟨wrong, rfl⟩ | ⟨hn, untyped⟩
    · have hflaw : ∀ d, FieldFlaw w (gs.map ReadField.field) f after .number d ↔
          .nonConsecutiveFieldNumber f.name (gs.length + 1) f.number = d := by
        intro d
        simp only [fieldFlaw_iff, List.length_map]
        simpa [wrong, @eq_comm _ d] using fun _ => taken.numbered
      simp [hflaw]
    · obtain ⟨detail, rfl⟩ := f.fieldType_unsupported w _ e untyped
      have hflaw : ∀ d, FieldFlaw w (gs.map ReadField.field) f after .type d ↔
          .unsupportedType f.name detail = d := by
        intro d
        simp [fieldFlaw_iff, untyped, @eq_comm _ d]
      simp [hflaw, hright hn]
  | ok g =>
    obtain ⟨hn, rfl, reading⟩ := readField_eq_ok.1 hr
    have htype : ∀ e, ¬FieldFlaw w (gs.map ReadField.field) g.field after .type e := by
      intro e h
      cases h with
      | type untyped =>
        rw [← reading.options_eq, reading.type_eq] at untyped
        cases untyped
    have hplace : ∀ e, FieldFlaw w (gs.map ReadField.field) g.field after .place e ↔
        PlaceFlaw w (gs.map ReadField.field) g.field after g.type e := by
      intro e
      simp [fieldFlaw_iff, reading.logs_iff]
    have hmark : ∀ id e, FieldFlaw w (gs.map ReadField.field) g.field after (.mark id) e ↔
        g.Has id ∧ MarkFlaw (gs.map ReadField.field) g.field g.type id e := by
      intro id e
      simp [fieldFlaw_iff, reading.logs_iff, reading.carries_iff]
    simp only [hright hn, htype, hplace, hmark, ← taken.checkPlace_eq_error blank all,
      ← taken.foldlM_annotateAtom_eq_error blank reading, bind_eq_error, Except.ok.injEq,
      exists_eq_left', pure]
    cases checkPlace count gs.length g.field.name g.type
      (gs.foldl takeField { atom := a }).atom <;> simp [Except.pure]

/-- After the last field, all fields together are checked. -/
theorem Taken.checkState_eq_error {d : Defect} :
    checkState (gs.foldl takeField { atom := a }).atom = .error d ↔
      StateFlaw (gs.map ReadField.field) d := by
  have regular : ∀ g ∈ gs, ∀ n ∈ g.options.annotations, n.Regular :=
    fun g hg => regular_of_isReading (taken.read g hg)
  have hnone : ∀ P : SchemaField → Prop, (∀ f ∈ gs.map ReadField.field, ¬P f) ↔
      ¬∃ f ∈ gs.map ReadField.field, P f := by
    intro P
    simp only [not_exists, not_and]
  have hprimary : (∃ f ∈ gs.map ReadField.field,
      f.Carries .primaryField ∨ f.Carries .primaryFieldFirstUid) ↔
      ∃ g ∈ gs, g.Has .primaryField ∨ g.Has .primaryFieldFirstUid :=
    taken.exists_iff fun g hg =>
      or_congr (hg.carries_iff .primaryField) (hg.carries_iff .primaryFieldFirstUid)
  have hexclusive : (∃ f ∈ gs.map ReadField.field, f.Carries .exclusiveState) ↔
      ∃ g ∈ gs, g.Has .exclusiveState :=
    taken.exists_iff fun g hg => hg.carries_iff .exclusiveState
  have hhint : (∃ f ∈ gs.map ReadField.field, f.Carries .defaultState ∨
      f.Carries .triggerStateReset ∨ f.Carries .stateNested) ↔
      ∃ g ∈ gs, g.Has .defaultState ∨ g.Has .triggerStateReset ∨ g.Has .stateNested :=
    taken.exists_iff fun g hg => or_congr (hg.carries_iff .defaultState)
      (or_congr (hg.carries_iff .triggerStateReset) (hg.carries_iff .stateNested))
  have hstate : (∃ f ∈ gs.map ReadField.field, f.Carries .primaryField ∨
      f.Carries .primaryFieldFirstUid ∨ f.Carries .exclusiveState) ↔
      ∃ g ∈ gs, g.Has .primaryField ∨ g.Has .primaryFieldFirstUid ∨ g.Has .exclusiveState :=
    taken.exists_iff fun g hg => or_congr (hg.carries_iff .primaryField)
      (or_congr (hg.carries_iff .primaryFieldFirstUid) (hg.carries_iff .exclusiveState))
  rw [Collation.checkState_eq_error, blank.primary_iff, blank.exclusive_iff,
    blank.hint_iff gs regular, stateFlaw_iff, hnone, hnone, hprimary, hexclusive, hhint, hstate]
  simp only [and_or_left, exists_or, or_assoc]

/-- What is left of a run reports the first flaw of the fields that are left. -/
theorem Taken.addFields_eq_error {rest : List SchemaField}
    (all : count = gs.length + rest.length) {d : Defect} :
    (addFields .standard w count gs.length rest (gs.foldl takeField { atom := a }) >>=
        fun d => checkState d.atom) = .error d ↔
      FirstFlawFrom w (gs.map ReadField.field ++ rest) gs.length d := by
  -- the fields taken grow by one at each step; what they carry decides all checks of the next
  induction rest generalizing gs with
  | nil =>
    have hlength : (gs.map ReadField.field).length = gs.length := List.length_map _
    have hend : ∀ {i turn e}, gs.length ≤ i → (Flaw w (gs.map ReadField.field) i turn e ↔
        i = gs.length ∧ turn = 0 ∧ StateFlaw (gs.map ReadField.field) e) := by
      intro i turn e hi
      rw [flaw_at_end_iff (hlength.symm ▸ hi), hlength]
    rw [List.append_nil, addFields]
    refine (taken.checkState_eq_error blank).trans ?_
    constructor
    · intro h
      refine ⟨gs.length, 0, Nat.le_refl _, (hend (Nat.le_refl _)).2 ⟨rfl, rfl, h⟩, ?_⟩
      intro i turn e hi hflaw
      exact .inr ⟨((hend hi).1 hflaw).1.symm, Nat.zero_le _⟩
    · intro h
      obtain ⟨i, turn, hi, hflaw, -⟩ := h
      exact ((hend hi).1 hflaw).2.2
  | cons f rest ih =>
    have hcount : count = gs.length + 1 + rest.length := by
      rw [all, List.length_cons]
      omega
    have herror := fun d => taken.addField_eq_error blank hcount (d := d) (f := f)
    have hposition : (gs.map ReadField.field).length = gs.length := List.length_map _
    rw [addFields, bind_assoc]
    cases hrun : addField .standard w count gs.length f (gs.foldl takeField { atom := a }) with
    | error e =>
      obtain ⟨check, hflaw, -⟩ := (herror e).1 hrun
      rw [← hposition, firstFlawFrom_of_flaw hflaw, ← herror, hrun]
      simp [bind, Except.bind]
    | ok d' =>
      obtain ⟨g, rfl, reading, admits, rfl⟩ := addField_eq_ok.1 hrun
      have sound : ∀ turn e,
          ¬Flaw w (gs.map ReadField.field ++ g.field :: rest) gs.length turn e := by
        intro turn e h
        rw [← hposition] at h
        obtain ⟨check, hflaw, -⟩ := flaw_at_field_iff.1 h
        obtain ⟨e', he'⟩ := exists_firstFieldFlaw hflaw
        rw [(herror e').2 he'] at hrun
        cases hrun
      have hrest := ih (taken.concat reading admits) (by simpa using hcount)
      rw [firstFlawFrom_succ sound]
      simpa [bind, Except.bind] using hrest

end Prefix

/-! ### Entries -/

/-- The fields of a message report their first flaw. -/
theorem collateFields_eq_error {w : WellKnown} {m : Message} {a : Atom} (blank : Blank a)
    {d : Defect} :
    collateFields .standard w m a = .error d ↔ FirstFlaw w (sortFields m.fields) d := by
  have hcount : m.fields.length = 0 + (sortFields m.fields).length := by
    simp [sortFields]
  have hrun := (Taken.nil w m.fields.length).addFields_eq_error blank hcount (d := d)
  rw [← firstFlawFrom_zero]
  refine Iff.trans ?_ hrun
  simp only [collateFields, bind_eq_error, pure, Except.pure, reduceCtorEq, and_false,
    exists_false, or_false, List.foldl_nil, List.length_nil]

/-- A uid that is not a number is reported before a gap in the numbers behind it. -/
example :
    let uid : SchemaField := { name := "uid", number := 1, kind := .string,
                               options := [⟨.name "is_uid", .bool true⟩] }
    let state : SchemaField := { name := "state", number := 3, kind := .int32 }
    collateFields .standard {} { name := "Focus", fields := [uid, state] } default =
      .error (.uidFieldNotInt "uid" .string) := by
  intro uid state
  rw [collateFields_of_sorted (by decide)]
  rfl

/-- An entry is refused with a defect just when its message is missing, or when its fields by number
have a flaw with the defect and none that is found before it. -/
theorem collateEntry_fails_iff (s : Schema) (e : Entry) (d : Defect) :
    collateEntry .standard s e = .error d ↔
      (s.message? e.message = none ∧ d = .unknownMessage e.message) ∨
      ∃ m, s.message? e.message = some m ∧ FirstFlaw s.wellKnown (sortFields m.fields) d := by
  rw [collateEntry]
  cases hm : s.message? e.message with
  | none => simp [@eq_comm _ d]
  | some m =>
    have hfields := collateFields_eq_error (w := s.wellKnown) (m := m)
      (blank_startAtom .standard e m) (d := d)
    simp [bind_eq_error, hfields, pure, Except.pure]

end Collation

end AtomLog
