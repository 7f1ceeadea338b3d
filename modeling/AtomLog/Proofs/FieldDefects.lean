import AtomLog.Proofs.Outcomes
/-!
Which defects a collation can report.

The fields of a message have defects of their own, but they neither miss a message nor use a code
twice. Main statement: a schema whose entries have different codes and resolve to messages has
defects of fields only (`Collation.errors_ofFields`).
-/
namespace AtomLog

/-- A computation that can fail only with errors of which a property holds. -/
def FailsOnly {ε α : Type} (P : ε → Prop) (x : Except ε α) : Prop := ∀ e, x = .error e → P e

namespace FailsOnly

variable {ε α β : Type} {P : ε → Prop}

@[simp] theorem ok (a : α) : FailsOnly P (.ok a) := nofun

@[simp] theorem pure (a : α) : FailsOnly P (Pure.pure a : Except ε α) := nofun

@[simp] theorem error {e : ε} : FailsOnly P (.error e : Except ε α) ↔ P e := by
  simp [FailsOnly]

theorem bind {x : Except ε α} {f : α → Except ε β} (hx : FailsOnly P x)
    (hf : ∀ a, FailsOnly P (f a)) : FailsOnly P (x >>= f) := by
  cases x with
  | error e => exact error.2 (hx e rfl)
  | ok a => exact hf a

theorem ite {c : Prop} [Decidable c] {x y : Except ε α} (hx : FailsOnly P x)
    (hy : FailsOnly P y) : FailsOnly P (if c then x else y) := by
  split
  · exact hx
  · exact hy

theorem foldlM {f : β → α → Except ε β} (hf : ∀ b x, FailsOnly P (f b x)) (xs : List α) (b : β) :
    FailsOnly P (xs.foldlM f b) := by
  induction xs generalizing b with
  | nil => exact .pure b
  | cons x xs ih =>
    rw [List.foldlM_cons]
    exact (hf b x).bind ih

end FailsOnly

/-- The defects that fields can have: all but a message that is not there and a code that is used
twice, which are defects of entries. -/
def Defect.OfFields (d : Defect) : Prop :=
  (∀ name, d ≠ .unknownMessage name) ∧ ∀ code existing, d ≠ .duplicateCode code existing

/-- A field has a type or is reported by its name. -/
theorem SchemaField.fieldType_unsupported (f : SchemaField) (w : WellKnown) (asBytes : Bool) :
    FailsOnly (fun d => ∃ detail, d = .unsupportedType f.name detail) (f.fieldType w asBytes) := by
  have hmessage : FailsOnly (fun d => ∃ detail, d = .unsupportedType f.name detail)
      (f.messageFieldType w asBytes) :=
    .ite (.ok _) (.ite (.ok _) (.ite (.ok _) (FailsOnly.error.2 ⟨_, rfl⟩)))
  unfold fieldType
  refine .ite hmessage ?_
  split
  · exact FailsOnly.error.2 ⟨_, rfl⟩
  · refine .ite (.ok _) ?_
    split
    · exact .ok _
    · exact FailsOnly.error.2 ⟨_, rfl⟩

namespace Collation

/-! ### Fields -/

theorem fieldType_failsOnly (f : SchemaField) (w : WellKnown) (asBytes : Bool) :
    FailsOnly Defect.OfFields (f.fieldType w asBytes) := by
  intro d h
  obtain ⟨detail, rfl⟩ := f.fieldType_unsupported w asBytes d h
  simp [Defect.OfFields]

theorem readField_failsOnly (r : Registry) (w : WellKnown) (index : Nat) (f : SchemaField) :
    FailsOnly Defect.OfFields (readField r w index f) := by
  have htype := fieldType_failsOnly f w (FieldOptions.read r f.options).logAsBytes
  unfold readField
  split
  · refine .bind (FailsOnly.error.2 ?_) (fun _ => htype.bind (fun _ => .pure _))
    simp [Defect.OfFields]
  · exact htype.bind (fun _ => .pure _)

theorem checkPlace_failsOnly (count index : Nat) (name : String) (t : FieldType) (a : Atom) :
    FailsOnly Defect.OfFields (checkPlace count index name t a) := by
  unfold checkPlace
  split
  · exact .ite (by simp [Defect.OfFields]) (.ite (by simp [Defect.OfFields]) (.ok _))
  · exact .ite (by simp [Defect.OfFields]) (.ite (by simp [Defect.OfFields]) (.ok _))
  · exact .ok _

theorem requireScalar_failsOnly (name : String) (t : FieldType) :
    FailsOnly Defect.OfFields (requireScalar name t) :=
  .ite (by simp [Defect.OfFields]) (.ok _)

theorem annotateAtom_failsOnly (name : String) (number : Int) (t : FieldType) (a : Atom)
    (n : Annotation) : FailsOnly Defect.OfFields (annotateAtom name number t a n) := by
  have hscalar := requireScalar_failsOnly name t
  unfold annotateAtom
  split
  · exact .ite (by simp [Defect.OfFields]) (.ite (by simp [Defect.OfFields]) (.ok _))
  · exact hscalar.bind (fun _ => .pure _)
  · exact hscalar.bind (fun _ => .ite (by simp [Defect.OfFields]) (.ok _))
  · exact .ite (by simp [Defect.OfFields]) (.ok _)
  all_goals exact .ok _

theorem addField_failsOnly (r : Registry) (w : WellKnown) (count index : Nat) (f : SchemaField)
    (d : Draft) : FailsOnly Defect.OfFields (addField r w count index f d) := by
  refine (readField_failsOnly r w index f).bind (fun g => ?_)
  refine (checkPlace_failsOnly count index g.field.name g.type d.atom).bind (fun _ => ?_)
  have hnotes := FailsOnly.foldlM (annotateAtom_failsOnly g.field.name g.field.number g.type)
    g.options.annotations.toList d.atom
  exact hnotes.bind (fun _ => .pure _)

theorem addFields_failsOnly (r : Registry) (w : WellKnown) (count index : Nat)
    (fs : List SchemaField) (d : Draft) :
    FailsOnly Defect.OfFields (addFields r w count index fs d) := by
  induction fs generalizing index d with
  | nil => exact .ok d
  | cons f fs ih => exact (addField_failsOnly r w count index f d).bind (ih (index + 1))

theorem checkState_failsOnly (a : Atom) : FailsOnly Defect.OfFields (checkState a) :=
  .ite (by simp [Defect.OfFields]) (.ite (by simp [Defect.OfFields]) (.ok _))

theorem collateFields_failsOnly (r : Registry) (w : WellKnown) (m : Message) (a : Atom) :
    FailsOnly Defect.OfFields (collateFields r w m a) := by
  refine (addFields_failsOnly r w m.fields.length 0 (sortFields m.fields) _).bind (fun d => ?_)
  exact (checkState_failsOnly d.atom).bind (fun _ => .pure _)

/-! ### Entries -/

variable {r : Registry} {s : Schema}

/-- An entry whose message is there has only the defects of its fields. -/
theorem collateEntry_failsOnly {e : Entry} {m : Message} (hm : s.message? e.message = some m) :
    FailsOnly Defect.OfFields (collateEntry r s e) := by
  rw [collateEntry, hm]
  exact (collateFields_failsOnly r s.wellKnown m _).bind (fun _ => .pure _)

theorem attributionOf_failsOnly (r : Registry) (w : WellKnown) (m : Message) :
    FailsOnly Defect.OfFields (attributionOf r w m) :=
  (collateFields_failsOnly r w m _).bind (fun _ => .ite (.ok _) (by simp [Defect.OfFields]))

theorem attributionError_ofFields {x : CollationError} (hx : attributionError r s = some x) :
    x.defect.OfFields := by
  unfold attributionError at hx
  split at hx
  · cases hx
  · rename_i e herror
    obtain rfl := Option.some.inj hx
    unfold collateAttribution at herror
    split at herror
    · cases herror
    · rename_i m _
      obtain ⟨d, hd, rfl⟩ := mapError_eq_error.1 herror
      exact attributionOf_failsOnly r s.wellKnown m d hd

/-- Where every entry has a code of its own and a message, all that can be wrong are fields. -/
theorem errors_ofFields (distinct : s.entries.Pairwise (fun e f => e.code ≠ f.code))
    (resolved : ∀ e ∈ s.entries, ∃ m, s.message? e.message = some m) :
    ∀ x ∈ (collate r s).errors, x.defect.OfFields := by
  intro x hx
  rw [errors_collate, List.mem_append] at hx
  rcases hx with hx | hx
  · obtain ⟨o, ho, rfl⟩ := List.mem_filterMap.1 hx
    obtain ⟨i, hi, he⟩ := List.mem_mapIdx.1 ho
    have hfirst : firstWithCode? (s.entries.take i) s.entries[i].code = none := by
      rw [firstWithCode?, List.find?_eq_none]
      intro f hf
      obtain ⟨j, hj, rfl⟩ := List.mem_take_iff_getElem.1 hf
      have hne := List.pairwise_iff_getElem.1 distinct j i (by omega) hi (by omega)
      simpa using hne
    obtain ⟨m, hm⟩ := resolved _ (List.getElem_mem hi)
    simp only [errorAfter, hfirst] at he
    split at he
    · cases he
    · rename_i d herror
      obtain rfl := Option.some.inj he
      exact collateEntry_failsOnly hm d herror
  · exact attributionError_ofFields (Option.mem_toList.1 hx)

end Collation

end AtomLog
