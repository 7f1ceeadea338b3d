import AtomLog.Emit.Context
import AtomLog.Proofs.Collated
/-!
The nodes that the chains of a schema are made of.

A node begins with a uid and ends with a tag. A message has a chain at its beginning alone and
key-value pairs at its end alone, so neither has a place in a node. Main statement: the node of a
schema, defined or not, has different fields for the uid and the tag, which the emitters name, and
holds no chain and no pairs (`Emit.attributionNode_unnested`).
-/
namespace AtomLog

namespace Collation

theorem getLast?_cons_concat {α : Type} (x : α) (xs : List α) (y : α) :
    (x :: (xs ++ [y])).getLast? = some y := by
  rw [← List.cons_append, List.getLast?_concat]

/-- A node begins with the uid and ends with the tag. -/
theorem fields_of_isAttribution {a : Atom} (h : isAttribution a = true) :
    ∃ uid mid tag, a.fields = uid :: (mid ++ [tag]) ∧ uid.type = .int32 ∧ tag.type = .string := by
  simp only [isAttribution, Bool.and_eq_true, decide_eq_true_eq, beq_iff_eq] at h
  obtain ⟨⟨hlength, huid⟩, htag⟩ := h
  cases hfields : a.fields with
  | nil => simp [hfields] at hlength
  | cons uid fields =>
    rcases List.eq_nil_or_concat fields with rfl | ⟨mid, tag, rfl⟩
    · simp [hfields] at hlength
    · refine ⟨uid, mid, tag, by simp, ?_, ?_⟩
      · simpa [hfields] using huid
      · simpa [hfields, getLast?_cons_concat] using htag

/-- The node of a schema is that of the message it names, or the one that stands in for it. -/
theorem attribution_collate (r : Registry) (s : Schema) :
    (collate r s).attribution = builtinAttribution ∨
      ∃ m d,
        collateFields r s.wellKnown m { code := 0, name := m.name, message := m.name } = .ok d ∧
        isAttribution d.atom = true ∧ (collate r s).attribution = d.atom := by
  simp only [collate]
  cases h : collateAttribution r s with
  | error e => exact .inl rfl
  | ok a =>
    simp only [Except.toOption, Option.getD_some]
    unfold collateAttribution at h
    cases hm : s.message? s.wellKnown.attributionNode with
    | none =>
      simp only [hm] at h
      cases h
      exact .inl rfl
    | some m =>
      simp only [hm, mapError_eq_ok, attributionOf, bind_eq_ok] at h
      obtain ⟨d, hd, h⟩ := h
      split at h
      · cases h
        exact .inr ⟨m, d, hd, ‹_›, rfl⟩
      · cases h

theorem isAttribution_collate (r : Registry) (s : Schema) :
    isAttribution (collate r s).attribution = true := by
  rcases attribution_collate r s with h | ⟨m, d, -, node, h⟩
  · rw [h]
    rfl
  · rw [h]
    exact node

/-- A chain would stand in place of the uid, and pairs in place of the tag. -/
theorem unnested_of_isAttribution {r : Registry} {w : WellKnown} {m : Message} {b : Atom}
    {d : Draft} (h : collateFields r w m b = .ok d) (blank : b.fields = [])
    (node : isAttribution d.atom = true) :
    ∀ f ∈ d.atom.fields, f.type ≠ .attributionChain ∧ f.type ≠ .keyValuePairs := by
  obtain ⟨gs, hmap, -, hadmits, rfl, -⟩ := collateFields_eq_ok.1 h
  rw [length_of_readings hmap] at hadmits
  have hlength := congrArg List.length (takeFields_fields gs { atom := b })
  rw [blank, List.nil_append, List.length_map] at hlength
  obtain ⟨uid, mid, tag, hfields, huid, htag⟩ := fields_of_isAttribution node
  intro f hf
  obtain ⟨i, hi⟩ := List.getElem?_of_mem hf
  obtain ⟨hfirst, hlast⟩ := placed_of_admits blank hadmits hi
  constructor
  · intro hchain
    have hhead : f = uid := by simpa [hfirst hchain, hfields] using hi.symm
    rw [hhead, huid] at hchain
    cases hchain
  · intro hpairs
    have hend : i = (gs.foldl takeField { atom := b }).atom.fields.length - 1 := by
      have := hlast hpairs
      omega
    rw [hend, ← List.getLast?_eq_getElem?, hfields, getLast?_cons_concat, Option.some.injEq] at hi
    rw [← hi, htag] at hpairs
    cases hpairs

/-- Neither the node that a schema defines nor the one that stands in holds chains or pairs. -/
theorem unnested_collate (r : Registry) (s : Schema) :
    ∀ f ∈ (collate r s).attribution.fields,
      f.type ≠ .attributionChain ∧ f.type ≠ .keyValuePairs := by
  rcases attribution_collate r s with h | ⟨m, d, hd, node, h⟩
  · rw [h]
    simp [builtinAttribution]
  · rw [h]
    exact unnested_of_isAttribution hd rfl node

end Collation

namespace Emit

/-- The emitters name the uids of a chain for the first field of a node and the tags for the last. -/
theorem Context.names_of_fields (ctx : Context) {uid tag : AtomField} {mid : List AtomField}
    (h : ctx.attribution.fields = uid :: (mid ++ [tag])) :
    ctx.uidName = uid.name ∧ ctx.tagName = tag.name := by
  simp [uidName, tagName, h, Collation.getLast?_cons_concat]

/-- Every schema, sound or not, has a node of two fields or more. It begins with an int32 and ends
with a string, which give the uids and the tags of a chain their names, and it holds neither chains
nor key-value pairs. -/
theorem attributionNode_unnested (r : Registry) (s : Schema) :
    ∃ uid mid tag, (Collation.collate r s).attribution.fields = uid :: (mid ++ [tag]) ∧
      uid.type = .int32 ∧ tag.type = .string ∧
      (∀ f ∈ uid :: (mid ++ [tag]), f.type ≠ .attributionChain ∧ f.type ≠ .keyValuePairs) ∧
      ∀ c sel, let ctx : Context := ⟨c, (Collation.collate r s).attribution, sel⟩
        ctx.uidName = uid.name ∧ ctx.tagName = tag.name := by
  obtain ⟨uid, mid, tag, hfields, huid, htag⟩ :=
    Collation.fields_of_isAttribution (Collation.isAttribution_collate r s)
  refine ⟨uid, mid, tag, hfields, huid, htag, ?_, ?_⟩
  · rw [← hfields]
    exact Collation.unnested_collate r s
  · intro c sel ctx
    exact ctx.names_of_fields hfields

end Emit

end AtomLog
