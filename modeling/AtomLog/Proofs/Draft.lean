import AtomLog.Collation.Basic
import AtomLog.Proofs.Lookups
/-!
Collating the fields of a message, split into what a field is checked for and what it adds.

A field that passes its checks is taken over by a function that cannot fail (`takeField`), so a
finished draft is a fold over the fields (`addFields_eq_ok`), and so is the atom of an entry
(`collateEntry_eq_ok`). What the fold leaves alone (`takeFields_frame`) and what it gathers
(`Gathers.fields`) follow from what one annotation does.
-/
namespace AtomLog

theorem bind_eq_ok {ε α β : Type} {x : Except ε α} {f : α → Except ε β} {b : β} :
    x >>= f = .ok b ↔ ∃ a, x = .ok a ∧ f a = .ok b := by
  cases x with
  | error e => simp [bind, Except.bind]
  | ok a => simp [bind, Except.bind]

theorem bind_eq_error {ε α β : Type} {x : Except ε α} {f : α → Except ε β} {e : ε} :
    x >>= f = .error e ↔ x = .error e ∨ ∃ a, x = .ok a ∧ f a = .error e := by
  cases x <;> simp [bind, Except.bind]

theorem pure_eq_ok {ε α : Type} {a b : α} : (pure a : Except ε α) = .ok b ↔ b = a := by
  simp [pure, Except.pure, eq_comm]

theorem ite_error_eq_ok {ε α : Type} {cond : Prop} [Decidable cond] {e : ε} {x : Except ε α}
    {a : α} : (if cond then .error e else x) = .ok a ↔ ¬ cond ∧ x = .ok a := by
  split <;> simp [*]

theorem mapError_eq_ok {ε ε' α : Type} {x : Except ε α} {f : ε → ε'} {a : α} :
    x.mapError f = .ok a ↔ x = .ok a := by
  cases x with
  | error e => exact ⟨nofun, nofun⟩
  | ok b =>
    change Except.ok b = .ok a ↔ _
    rw [Except.ok.injEq, Except.ok.injEq]

theorem mapError_eq_error {ε ε' α : Type} {x : Except ε α} {f : ε → ε'} {e : ε'} :
    x.mapError f = .error e ↔ ∃ d, x = .error d ∧ f d = e := by
  cases x with
  | error d =>
    change Except.error (f d) = .error e ↔ _
    simp
  | ok a =>
    change Except.ok a = .error e ↔ _
    simp

theorem map_eq_error {ε α β : Type} {x : Except ε α} {f : α → β} {e : ε} :
    x.map f = .error e ↔ x = .error e := by
  cases x <;> simp [Except.map]

theorem toOption_eq_some {ε α : Type} {x : Except ε α} {a : α} :
    x.toOption = some a ↔ x = .ok a := by
  cases x <;> simp [Except.toOption]

theorem toOption_isSome {ε α : Type} {x : Except ε α} :
    x.toOption.isSome = true ↔ ∃ a, x = .ok a := by
  cases x <;> simp [Except.toOption]

/-- A loop whose step fails or acts as a plain function runs through just when every step may be
taken in the state that the steps before it leave. -/
theorem foldlM_eq_ok {ε α β : Type} {f : β → α → Except ε β} {g : β → α → β} {may : β → α → Prop}
    (hf : ∀ b x c, f b x = .ok c ↔ may b x ∧ c = g b x) (xs : List α) (b c : β) :
    xs.foldlM f b = .ok c ↔
      (∀ i (h : i < xs.length), may ((xs.take i).foldl g b) xs[i]) ∧ c = xs.foldl g b := by
  induction xs generalizing b with
  | nil => simp [pure_eq_ok]
  | cons x xs ih =>
    simp only [List.foldlM_cons, bind_eq_ok, hf, ih, List.foldl_cons]
    constructor
    · intro h
      obtain ⟨_, ⟨hx, rfl⟩, hxs, hc⟩ := h
      refine ⟨?_, hc⟩
      intro i hi
      cases i with
      | zero => exact hx
      | succ i => exact hxs i (by simpa using hi)
    · intro h
      obtain ⟨hall, hc⟩ := h
      refine ⟨_, ⟨hall 0 (by simp), rfl⟩, ?_, hc⟩
      intro i hi
      exact hall (i + 1) (by simpa using hi)

/-- Types that a state can have. -/
def FieldType.IsScalar (t : FieldType) : Prop :=
  t.isArray = false ∧ t ≠ .attributionChain ∧ t ≠ .keyValuePairs ∧ t ≠ .bytes

/-- A field as a registry and the well-known messages read it. -/
structure ReadField.IsReading (r : Registry) (w : WellKnown) (f : ReadField) : Prop where
  options_eq : f.options = FieldOptions.read r f.field.options
  type_eq : f.field.fieldType w f.options.logAsBytes = .ok f.type

/-- Whether a field carries an annotation with an id. -/
def ReadField.Has (f : ReadField) (id : AnnotationId) : Prop :=
  ∃ n ∈ f.options.annotations, n.id = id

namespace Collation

/-! ### Annotations -/

/-- What a field with an annotation must be like, and what must not have come before it. -/
def Allows (t : FieldType) (a : Atom) (n : Annotation) : Prop :=
  match n.id with
  | .isUid => (t = .int32 ∨ t = .int32Array) ∧ a.uidField = none
  | .primaryField => t.IsScalar
  | .exclusiveState => t.IsScalar ∧ a.exclusiveField = none
  | .primaryFieldFirstUid => t = .attributionChain
  | _ => True

/-- What an annotation of field `number` says of the whole atom. -/
def note (number : Int) (a : Atom) (n : Annotation) : Atom :=
  match n.id, n.value with
  | .isUid, _ => { a with uidField := some number }
  | .primaryField, _ => { a with primaryFields := a.primaryFields ++ [number] }
  | .exclusiveState, _ => { a with exclusiveField := some number }
  | .primaryFieldFirstUid, _ => { a with primaryFields := a.primaryFields ++ [Atom.firstUid] }
  | .defaultState, .int v => { a with defaultState := some v }
  | .triggerStateReset, .int v => { a with triggerStateReset := some v }
  | .stateNested, _ => { a with nested := true }
  | _, _ => a

theorem note_code (number : Int) (a : Atom) (n : Annotation) : (note number a n).code = a.code := by
  unfold note
  split <;> rfl

theorem note_fields (number : Int) (a : Atom) (n : Annotation) :
    (note number a n).fields = a.fields := by
  unfold note
  split <;> rfl

theorem note_annotations (number : Int) (a : Atom) (n : Annotation) :
    (note number a n).annotations = a.annotations := by
  unfold note
  split <;> rfl

theorem requireScalar_eq_ok {name : String} {t : FieldType} {u : Unit} :
    requireScalar name t = .ok u ↔ t.IsScalar := by
  cases t <;> simp [requireScalar, FieldType.IsScalar, FieldType.isArray]

theorem annotateAtom_eq_ok (name : String) (number : Int) (t : FieldType) (a : Atom)
    (n : Annotation) (b : Atom) :
    annotateAtom name number t a n = .ok b ↔ Allows t a n ∧ b = note number a n := by
  obtain ⟨id, value⟩ := n
  cases id with
  | isUid =>
    simp only [annotateAtom, Allows, note]
    by_cases ht : t = .int32 ∨ t = .int32Array
    · have ht' : ¬(t ≠ .int32 ∧ t ≠ .int32Array) := by
        rcases ht with rfl | rfl <;> simp
      cases hu : a.uidField <;> simp [ht, ht', eq_comm]
    · have ht' : t ≠ .int32 ∧ t ≠ .int32Array := not_or.1 ht
      simp [ht']
  | primaryField =>
    simp only [annotateAtom, Allows, note, bind_eq_ok, requireScalar_eq_ok, pure_eq_ok]
    simp
  | exclusiveState =>
    simp only [annotateAtom, Allows, note, bind_eq_ok, requireScalar_eq_ok]
    cases hx : a.exclusiveField <;> simp [eq_comm]
  | primaryFieldFirstUid =>
    simp only [annotateAtom, Allows, note]
    by_cases ht : t = .attributionChain <;> simp [ht, eq_comm]
  | defaultState => cases value <;> simp [annotateAtom, Allows, note, eq_comm]
  | triggerStateReset => cases value <;> simp [annotateAtom, Allows, note, eq_comm]
  | _ => simp [annotateAtom, Allows, note, eq_comm]

/-! ### Fields -/

/-- A chain has its place before all other fields, key-value pairs after them. -/
def Placed (count index : Nat) (t : FieldType) (a : Atom) : Prop :=
  (t = .attributionChain → a.hasType t = false ∧ index = 0) ∧
    (t = .keyValuePairs → a.hasType t = false ∧ index + 1 = count)

/-- What a draft and the count of the fields before ask of the next field. -/
structure Admits (count index : Nat) (d : Draft) (f : ReadField) : Prop where
  numbered : f.field.number = index + 1
  placed : Placed count index f.type d.atom
  allowed : ∀ i (h : i < f.options.annotations.toList.length),
    Allows f.type ((f.options.annotations.toList.take i).foldl (note f.field.number) d.atom)
      f.options.annotations.toList[i]

/-- What a field that is admitted adds to a draft. -/
def takeField (d : Draft) (f : ReadField) : Draft where
  atom := appendField f (f.options.annotations.toList.foldl (note f.field.number) d.atom)
  tagField :=
    if f.options.attributionTag && f.type == .string then some f.field.number else d.tagField

theorem checkPlace_eq_ok {count index : Nat} {name : String} {t : FieldType} {a : Atom} {u : Unit} :
    checkPlace count index name t a = .ok u ↔ Placed count index t a := by
  unfold checkPlace Placed
  cases t with
  | attributionChain =>
    cases a.hasType .attributionChain <;> by_cases hi : index = 0 <;> simp [hi]
  | keyValuePairs =>
    cases a.hasType .keyValuePairs <;> by_cases hi : index + 1 = count <;> simp [hi]
  | _ => simp

theorem readField_eq_ok {r : Registry} {w : WellKnown} {index : Nat} {f : SchemaField}
    {g : ReadField} :
    readField r w index f = .ok g ↔ f.number = index + 1 ∧ g.field = f ∧ g.IsReading r w := by
  unfold readField
  by_cases hn : f.number = index + 1
  · simp only [hn, ne_eq, not_true_eq_false, if_false, bind_eq_ok, pure_eq_ok, true_and]
    constructor
    · intro h
      obtain ⟨t, ht, rfl⟩ := h
      exact ⟨rfl, rfl, ht⟩
    · obtain ⟨field, options, type⟩ := g
      intro h
      obtain ⟨rfl, hoptions, ht⟩ := h
      dsimp only at hoptions ht
      subst hoptions
      exact ⟨type, ht, rfl⟩
  · simp [hn, bind, Except.bind, throw, throwThe, MonadExceptOf.throw]

theorem addField_eq_ok {r : Registry} {w : WellKnown} {count index : Nat} {f : SchemaField}
    {d d' : Draft} :
    addField r w count index f d = .ok d' ↔ ∃ g : ReadField, g.field = f ∧ g.IsReading r w ∧
      Admits count index d g ∧ d' = takeField d g := by
  simp only [addField, bind_eq_ok, readField_eq_ok, checkPlace_eq_ok, pure_eq_ok,
    foldlM_eq_ok (annotateAtom_eq_ok _ _ _)]
  constructor
  · intro h
    obtain ⟨g, ⟨hn, rfl, hg⟩, u, hplace, _, ⟨hall, rfl⟩, rfl⟩ := h
    exact ⟨g, rfl, hg, ⟨hn, hplace, hall⟩, rfl⟩
  · intro h
    obtain ⟨g, rfl, hg, hadmits, rfl⟩ := h
    exact ⟨g, ⟨hadmits.numbered, rfl, hg⟩, (), hadmits.placed, _, ⟨hadmits.allowed, rfl⟩, rfl⟩

theorem addFields_eq_ok {r : Registry} {w : WellKnown} {count index : Nat} {fs : List SchemaField}
    {d d' : Draft} :
    addFields r w count index fs d = .ok d' ↔ ∃ gs : List ReadField,
      gs.map ReadField.field = fs ∧ (∀ g ∈ gs, g.IsReading r w) ∧
      (∀ i (h : i < gs.length), Admits count (index + i) ((gs.take i).foldl takeField d) gs[i]) ∧
      d' = gs.foldl takeField d := by
  induction fs generalizing index d with
  | nil =>
    simp only [addFields, List.map_eq_nil_iff, Except.ok.injEq]
    constructor
    · intro h
      obtain rfl := h
      exact ⟨[], rfl, by simp, by simp, rfl⟩
    · intro h
      obtain ⟨_, rfl, -, -, rfl⟩ := h
      rfl
  | cons f fs ih =>
    simp only [addFields, bind_eq_ok, addField_eq_ok, ih]
    constructor
    · intro h
      obtain ⟨_, ⟨g, rfl, hg, hadmits, rfl⟩, gs, rfl, hgs, hall, rfl⟩ := h
      refine ⟨g :: gs, rfl, by simpa using ⟨hg, hgs⟩, ?_, rfl⟩
      intro i hi
      cases i with
      | zero => exact hadmits
      | succ i =>
        have hindex : index + (i + 1) = index + 1 + i := by omega
        rw [hindex]
        exact hall i (by simpa using hi)
    · intro h
      obtain ⟨gs, hmap, hgs, hall, rfl⟩ := h
      cases gs with
      | nil => cases hmap
      | cons g gs =>
        obtain ⟨rfl, rfl⟩ := List.cons.inj hmap
        refine ⟨_, ⟨g, rfl, hgs g (by simp), hall 0 (by simp), rfl⟩, gs, rfl,
          fun h hh => hgs h (by simp [hh]), ?_, rfl⟩
        intro i hi
        have hindex : index + 1 + i = index + (i + 1) := by omega
        rw [hindex]
        exact hall (i + 1) (by simpa using hi)

theorem collateFields_eq_ok {r : Registry} {w : WellKnown} {m : Message} {a : Atom} {d : Draft} :
    collateFields r w m a = .ok d ↔ ∃ gs : List ReadField,
      gs.map ReadField.field = sortFields m.fields ∧ (∀ g ∈ gs, g.IsReading r w) ∧
      (∀ i (h : i < gs.length),
        Admits m.fields.length i ((gs.take i).foldl takeField { atom := a }) gs[i]) ∧
      d = gs.foldl takeField { atom := a } ∧ checkState d.atom = .ok () := by
  simp only [collateFields, bind_eq_ok, addFields_eq_ok, pure_eq_ok, Nat.zero_add]
  constructor
  · intro h
    obtain ⟨_, ⟨gs, hmap, hgs, hall, rfl⟩, _, hstate, rfl⟩ := h
    exact ⟨gs, hmap, hgs, hall, rfl, hstate⟩
  · intro h
    obtain ⟨gs, hmap, hgs, hall, rfl, hstate⟩ := h
    exact ⟨_, ⟨gs, hmap, hgs, hall, rfl⟩, (), hstate, rfl⟩

/-! ### What the fields leave alone and what they gather -/

theorem notes_frame {α : Type} (view : Atom → α)
    (hnote : ∀ number a n, view (note number a n) = view a) (number : Int) (ns : List Annotation)
    (a : Atom) : view (ns.foldl (note number) a) = view a := by
  induction ns generalizing a with
  | nil => rfl
  | cons n ns ih => rw [List.foldl_cons, ih, hnote]

/-- What neither an annotation nor the appending of a field changes stays as it is. -/
theorem takeFields_frame {α : Type} (view : Atom → α)
    (hnote : ∀ number a n, view (note number a n) = view a) (gs : List ReadField)
    (happend : ∀ g ∈ gs, ∀ a, view (appendField g a) = view a) (d : Draft) :
    view (gs.foldl takeField d).atom = view d.atom := by
  induction gs generalizing d with
  | nil => rfl
  | cons g gs ih =>
    have hg := happend g (by simp)
    have hgs : ∀ f ∈ gs, ∀ a, view (appendField f a) = view a :=
      fun f hf => happend f (by simp [hf])
    rw [List.foldl_cons, ih hgs, takeField, hg, notes_frame view hnote]

/-- A property of atoms that single annotations bring about and nothing else changes. -/
structure Gathers (gathered : Atom → Prop) (hit : Annotation → Prop) : Prop where
  note : ∀ number a n, gathered (note number a n) ↔ gathered a ∨ hit n
  append : ∀ f a, gathered (appendField f a) ↔ gathered a

namespace Gathers

variable {gathered : Atom → Prop} {hit : Annotation → Prop}

theorem notes (h : Gathers gathered hit) (number : Int) (ns : List Annotation) (a : Atom) :
    gathered (ns.foldl (Collation.note number) a) ↔ gathered a ∨ ∃ n ∈ ns, hit n :=
  foldl_gathers gathered (h.note number) ns a

theorem notes_of_unhit (h : Gathers gathered hit) (number : Int) {ns : List Annotation}
    (unhit : ∀ n ∈ ns, ¬hit n) (a : Atom) :
    gathered (ns.foldl (Collation.note number) a) ↔ gathered a := by
  rw [h.notes]
  constructor
  · intro h
    rcases h with ha | ⟨n, hn, hhit⟩
    · exact ha
    · exact absurd hhit (unhit n hn)
  · exact .inl

theorem fields (h : Gathers gathered hit) (gs : List ReadField) (d : Draft) :
    gathered (gs.foldl takeField d).atom ↔
      gathered d.atom ∨ ∃ g ∈ gs, ∃ n ∈ g.options.annotations, hit n := by
  induction gs generalizing d with
  | nil => simp
  | cons g gs ih =>
    rw [List.foldl_cons, ih, takeField, h.append, h.notes]
    simp only [SortedSet.mem_toList, List.mem_cons, or_assoc, exists_eq_or_imp]

end Gathers

theorem uid_gathers : Gathers (fun a => a.uidField ≠ none) (fun n => n.id = .isUid) where
  note := by
    intro number a n
    obtain ⟨id, value⟩ := n
    cases id <;> cases value <;> simp [note]
  append := fun _ _ => Iff.rfl

theorem exclusive_gathers :
    Gathers (fun a => a.exclusiveField ≠ none) (fun n => n.id = .exclusiveState) where
  note := by
    intro number a n
    obtain ⟨id, value⟩ := n
    cases id <;> cases value <;> simp [note]
  append := fun _ _ => Iff.rfl

theorem primary_gathers : Gathers (fun a => a.primaryFields ≠ [])
    (fun n => n.id = .primaryField ∨ n.id = .primaryFieldFirstUid) where
  note := by
    intro number a n
    obtain ⟨id, value⟩ := n
    cases id <;> cases value <;> simp [note]
  append := fun _ _ => Iff.rfl

theorem default_gathers : Gathers (fun a => a.defaultState ≠ none)
    (fun n => n.id = .defaultState ∧ ∃ v, n.value = .int v) where
  note := by
    intro number a n
    obtain ⟨id, value⟩ := n
    cases id <;> cases value <;> simp [note]
  append := fun _ _ => Iff.rfl

theorem reset_gathers : Gathers (fun a => a.triggerStateReset ≠ none)
    (fun n => n.id = .triggerStateReset ∧ ∃ v, n.value = .int v) where
  note := by
    intro number a n
    obtain ⟨id, value⟩ := n
    cases id <;> cases value <;> simp [note]
  append := fun _ _ => Iff.rfl

theorem nested_gathers : Gathers (fun a => a.nested = true) (fun n => n.id = .stateNested) where
  note := by
    intro number a n
    obtain ⟨id, value⟩ := n
    cases id <;> cases value <;> simp [note]
  append := fun _ _ => Iff.rfl

/-- The fields of a draft are the fields taken, in order. -/
theorem takeFields_fields (gs : List ReadField) (d : Draft) :
    (gs.foldl takeField d).atom.fields = d.atom.fields ++
      gs.map (fun g => ⟨g.field.name, g.type, enumNames g.type g.field.enumValues⟩) := by
  induction gs generalizing d with
  | nil => simp
  | cons g gs ih =>
    rw [List.foldl_cons, ih, takeField, appendField, notes_frame Atom.fields note_fields]
    simp

theorem takeFields_hasType (gs : List ReadField) (d : Draft) (t : FieldType) :
    (gs.foldl takeField d).atom.hasType t =
      (d.atom.hasType t || gs.any (fun g => g.type == t)) := by
  simp only [Atom.hasType, takeFields_fields, List.any_append, List.any_map]
  rfl

/-- The annotations at a number that none of the fields has are those that a draft began with. -/
theorem takeFields_annotations {number : Int} (gs : List ReadField)
    (other : ∀ g ∈ gs, g.field.number ≠ number) (d : Draft) :
    (gs.foldl takeField d).atom.annotations.get? number = d.atom.annotations.get? number := by
  apply takeFields_frame (fun a => a.annotations.get? number)
  · intro n a m
    rw [note_annotations]
  · intro g hg a
    simp only [appendField]
    split
    · rfl
    · rw [SortedMap.get?_insert, if_neg (other g hg).symm]

/-! ### Entries -/

theorem sortFields_perm (fs : List SchemaField) : (sortFields fs).Perm fs := List.mergeSort_perm ..

theorem length_of_readings {gs : List ReadField} {fs : List SchemaField}
    (h : gs.map ReadField.field = sortFields fs) : fs.length = gs.length := by
  rw [← (sortFields_perm fs).length_eq, ← h, List.length_map]

/-- The draft of an entry whose message has these fields. -/
def draftOf (r : Registry) (e : Entry) (m : Message) (gs : List ReadField) : Draft :=
  gs.foldl takeField { atom := startAtom r e m }

theorem sortFields_of_sorted {fs : List SchemaField}
    (sorted : fs.Pairwise (fun f g => f.number ≤ g.number)) : sortFields fs = fs :=
  List.mergeSort_of_pairwise (sorted.imp (fun h => decide_eq_true h))

/-- Fields that are declared in the order of their numbers are collated in the order declared. -/
theorem collateFields_of_sorted {r : Registry} {w : WellKnown} {m : Message} {a : Atom}
    (sorted : m.fields.Pairwise (fun f g => f.number ≤ g.number)) :
    collateFields r w m a = do
      let d ← addFields r w m.fields.length 0 m.fields { atom := a }
      checkState d.atom
      return d := by
  rw [collateFields, sortFields_of_sorted sorted]

theorem collateEntry_of_sorted {r : Registry} {s : Schema} {e : Entry} {m : Message}
    (hm : s.message? e.message = some m)
    (sorted : m.fields.Pairwise (fun f g => f.number ≤ g.number)) :
    collateEntry r s e = do
      let d ← addFields r s.wellKnown m.fields.length 0 m.fields { atom := startAtom r e m }
      checkState d.atom
      return { d.atom with nonChained := isNonChained d } := by
  simp only [collateEntry, hm, collateFields_of_sorted sorted, bind_assoc, pure_bind]

/-- An entry is collated when its message is there and its fields are read and admitted one after
the other. -/
theorem collateEntry_eq_ok {r : Registry} {s : Schema} {e : Entry} {a : Atom} :
    collateEntry r s e = .ok a ↔ ∃ m gs, s.message? e.message = some m ∧
      gs.map ReadField.field = sortFields m.fields ∧ (∀ g ∈ gs, g.IsReading r s.wellKnown) ∧
      (∀ i (h : i < gs.length), Admits gs.length i (draftOf r e m (gs.take i)) gs[i]) ∧
      checkState (draftOf r e m gs).atom = .ok () ∧
      a = { (draftOf r e m gs).atom with nonChained := isNonChained (draftOf r e m gs) } := by
  unfold collateEntry
  cases hm : s.message? e.message with
  | none => simp
  | some m =>
    simp only [bind_eq_ok, collateFields_eq_ok, pure_eq_ok]
    constructor
    · intro h
      obtain ⟨d, ⟨gs, hmap, hgs, hadmits, hd, hstate⟩, ha⟩ := h
      rw [length_of_readings hmap] at hadmits
      subst hd
      exact ⟨m, gs, rfl, hmap, hgs, hadmits, hstate, ha⟩
    · intro h
      obtain ⟨m', gs, hm', hmap, hgs, hadmits, hstate, ha⟩ := h
      cases hm'
      refine ⟨draftOf r e m gs, ⟨gs, hmap, hgs, ?_, rfl, hstate⟩, ha⟩
      rw [length_of_readings hmap]
      exact hadmits

end Collation

end AtomLog
