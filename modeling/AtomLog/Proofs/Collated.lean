import AtomLog.Proofs.Meanings
import AtomLog.Proofs.Outcomes
/-!
What every collated atom is like.

Main statements: an atom that is not chained begins with a uid and a tag (`collateEntry_leading`),
and the annotations of the atom itself are those of its entry
(`collateEntry_annotationsAt_atomNumber`), chained or not (`Atom.chained_annotationsAt_atomNumber`).
-/
namespace AtomLog

namespace Atom

/-- The annotations of an atom stay, those of the two leading fields go, and the others move to
the number before. -/
theorem get?_shiftAnnotations (m : FieldAnnotations) (number : Int) :
    (shiftAnnotations m).get? number =
      if number = atomNumber then m.get? atomNumber
      else if 2 ≤ number then m.get? (number + 1) else none := by
  have hshift : ∀ (n k : Int) (set set' : AnnotationSet),
      (if n = atomNumber then some (n, set) else (shift? n).map (fun k => (k, set))) =
          some (k, set') ↔ set = set' ∧ (n = 0 ∧ k = 0 ∨ 2 < n ∧ n = k + 1) := by
    intro n k set set'
    unfold shift? atomNumber
    by_cases hzero : n = 0
    · simp [hzero, and_comm, eq_comm]
    · by_cases htwo : 2 < n
      · have hmove : n - 1 = k ↔ n = k + 1 := by omega
        simp [hzero, htwo, hmove, and_comm]
      · simp [hzero, htwo]
  ext set
  unfold shiftAnnotations
  rw [SortedMap.get?_ofList_eq_some]
  · simp only [List.mem_filterMap, Prod.exists, SortedMap.mem_entries_iff, hshift]
    unfold atomNumber
    constructor
    · intro h
      obtain ⟨n, _, hn, rfl, ⟨rfl, rfl⟩ | ⟨htwo, rfl⟩⟩ := h
      · simpa using hn
      · rw [if_neg (by omega), if_pos (by omega)]
        exact hn
    · intro h
      split at h
      · rename_i hzero
        exact ⟨0, set, h, rfl, .inl ⟨rfl, hzero⟩⟩
      · split at h
        · exact ⟨number + 1, set, h, rfl, .inr ⟨by omega, rfl⟩⟩
        · cases h
  · -- 0 stays and what is above 2 moves by one, so different numbers remain different
    refine m.entries_pairwise_ne.filterMap _ ?_
    intro d e hne p hp q hq
    have hp' := (hshift d.1 p.1 d.2 p.2).1 hp
    have hq' := (hshift e.1 q.1 e.2 q.2).1 hq
    omega

/-- The atom itself keeps its annotations when its leading fields become a chain. -/
theorem chained_annotationsAt_atomNumber (a : Atom) :
    a.chained.annotationsAt atomNumber = a.annotationsAt atomNumber := by
  unfold chained
  split
  · simp only [annotationsAt, get?_shiftAnnotations, if_true]
  · rfl

end Atom

namespace Collation

variable {r : Registry} {s : Schema} {e : Entry} {a : Atom}

/-- A draft that is not chained is pushed and begins with a uid and a tag. -/
theorem leading_of_isNonChained {d : Draft} (h : isNonChained d = true) :
    d.atom.kind = .pushed ∧ d.atom.uidField = some 1 ∧
      ∃ uid tag rest, d.atom.fields = uid :: tag :: rest ∧ uid.type = .int32 ∧
        tag.type = .string := by
  simp only [isNonChained, Bool.and_eq_true, beq_iff_eq] at h
  obtain ⟨⟨⟨⟨hkind, hmark⟩, -⟩, huid⟩, htag⟩ := h
  refine ⟨hkind, hmark, ?_⟩
  cases hfields : d.atom.fields with
  | nil => simp [Atom.field?, hfields] at huid
  | cons uid fields =>
    cases fields with
    | nil => simp [Atom.field?, hfields] at htag
    | cons tag rest =>
      simp only [Atom.field?, hfields] at huid htag
      exact ⟨uid, tag, rest, rfl, by simpa using huid, by simpa using htag⟩

theorem collateEntry_leading (h : collateEntry r s e = .ok a) (flat : a.nonChained = true) :
    ∃ uid tag rest, a.fields = uid :: tag :: rest ∧ uid.type = .int32 ∧ tag.type = .string := by
  obtain ⟨m, gs, -, -, -, -, -, rfl⟩ := collateEntry_eq_ok.1 h
  exact (leading_of_isNonChained flat).2.2

/-- Fields that are admitted stand where they are placed: a chain before all others, key-value pairs
behind them. -/
theorem placed_of_admits {gs : List ReadField} {b : Atom} (blank : b.fields = [])
    (hadmits : ∀ i (h : i < gs.length),
      Admits gs.length i ((gs.take i).foldl takeField { atom := b }) gs[i])
    {i : Nat} {f : AtomField} (hf : (gs.foldl takeField { atom := b }).atom.fields[i]? = some f) :
    (f.type = .attributionChain → i = 0) ∧ (f.type = .keyValuePairs → i + 1 = gs.length) := by
  rw [takeFields_fields, blank, List.nil_append, List.getElem?_map, Option.map_eq_some_iff] at hf
  obtain ⟨g, hg, rfl⟩ := hf
  obtain ⟨hi, rfl⟩ := List.getElem?_eq_some_iff.1 hg
  have hplaced := (hadmits i hi).placed
  exact ⟨fun ht => (hplaced.1 ht).2, fun ht => (hplaced.2 ht).2⟩

/-- A chain stands before all other fields. -/
theorem collateEntry_chain_first (h : collateEntry r s e = .ok a) {i : Nat} {f : AtomField}
    (hf : a.fields[i]? = some f) (ht : f.type = .attributionChain) : i = 0 := by
  obtain ⟨m, gs, -, -, -, hadmits, -, rfl⟩ := collateEntry_eq_ok.1 h
  exact (placed_of_admits rfl hadmits hf).1 ht

/-- The annotations of an atom itself are those that the options of its entry give. -/
theorem collateEntry_annotationsAt_atomNumber (h : collateEntry r s e = .ok a) :
    (a.annotationsAt atomNumber).getD ∅ = (AtomOptions.read r e.options).annotations := by
  obtain ⟨m, gs, -, -, -, hadmits, -, rfl⟩ := collateEntry_eq_ok.1 h
  have hother : ∀ g ∈ gs, g.field.number ≠ atomNumber := by
    intro g hg
    obtain ⟨i, hi, rfl⟩ := List.getElem_of_mem hg
    rw [(hadmits i hi).numbered, atomNumber]
    omega
  have hget : (draftOf r e m gs).atom.annotations.get? atomNumber =
      (startAtom r e m).annotations.get? atomNumber :=
    takeFields_annotations gs hother { atom := startAtom r e m }
  simp only [Atom.annotationsAt, hget, startAtom]
  cases hempty : (AtomOptions.read r e.options).annotations.isEmpty with
  | true =>
    simp only [if_true, SortedMap.get?_empty, Option.filter_none, Option.getD_none]
    exact (SortedSet.eq_empty_of_isEmpty hempty).symm
  | false => simp [SortedMap.get?_insert, hempty, Option.filter]

/-- The atoms of a selection are collated from entries. -/
theorem exists_entry_of_select {sel : Selection} {c : Catalog} {code : Int}
    (selected : (collate r s).catalog.select sel = .ok c) (found : c.get? code = some a) :
    ∃ e ∈ s.entries, collateEntry r s e = .ok a := by
  obtain ⟨bs, rfl, hbs⟩ := Catalog.select_ofAtoms selected
  exact exists_entry_of_accepted r s (hbs a (Catalog.mem_of_get?_ofAtoms found))

/-- A selection is a catalog of its own atoms. -/
theorem describes_of_select {sel : Selection} {c : Catalog}
    (selected : (collate r s).catalog.select sel = .ok c) : c.Describes c.get? := by
  obtain ⟨bs, rfl, -⟩ := Catalog.select_ofAtoms selected
  exact Catalog.describes_self bs

/-- Nothing has to be selected. -/
theorem foldlM_select_nil (r : Registry) (s : Schema) :
    [].foldlM Catalog.select (collate r s).catalog = .ok (collate r s).catalog := rfl

section SelectAll

variable {sels : List Selection} {c : Catalog}
  (selected : sels.foldlM Catalog.select (collate r s).catalog = .ok c)
include selected

/-- However often atoms are selected, the rest is a catalog of its own atoms. -/
theorem describes_of_selectAll : c.Describes c.get? := by
  obtain ⟨bs, rfl⟩ := Catalog.selectAll_ofAtoms selected
  exact Catalog.describes_self bs

theorem exists_entry_of_selectAll {code : Int} (found : c.get? code = some a) :
    ∃ e ∈ s.entries, collateEntry r s e = .ok a := by
  have keyed : Catalog.Keyed (collate r s).catalog.atoms := Catalog.keyed_ofAtoms _
  obtain ⟨hget, -⟩ := ((keyed.selectAll selected).2 code a).1 found
  exact exists_entry_of_accepted r s (Catalog.mem_of_get?_ofAtoms hget)

end SelectAll

/-- Atoms of a kind share a signature only where an entry gives such an atom. -/
theorem exists_entry_of_ofKind {sel : Selection} {c : Catalog}
    (selected : (collate r s).catalog.select sel = .ok c) {kind : AtomKind} {sig : Signature}
    {b : Bucket} (hb : (c.ofKind kind).get? sig = some b) :
    ∃ e a, collateEntry r s e = .ok a ∧ a.chained.signature = sig := by
  have describes := describes_of_select selected
  obtain ⟨code, hcode⟩ :=
    SortedSet.isEmpty_eq_false_iff.1 ((describes.byKind kind).inhabited sig b hb)
  obtain ⟨a, found, -, hsig⟩ := (describes.holds_ofKind_iff kind sig code).1 ⟨b, hb, hcode⟩
  obtain ⟨e, -, he⟩ := exists_entry_of_select selected found
  exact ⟨e, a, he, hsig⟩

/-- Atoms that are not chained share a signature only where an entry gives such an atom. -/
theorem exists_entry_of_nonChained {sel : Selection} {c : Catalog}
    (selected : (collate r s).catalog.select sel = .ok c) {sig : Signature} {b : Bucket}
    (hb : c.nonChained.get? sig = some b) :
    ∃ e a, collateEntry r s e = .ok a ∧ a.nonChained = true ∧ a.signature = sig := by
  have describes := describes_of_select selected
  obtain ⟨code, hcode⟩ := SortedSet.isEmpty_eq_false_iff.1 (describes.flat.inhabited sig b hb)
  obtain ⟨a, found, flat, hsig⟩ := (describes.holds_flat_iff sig code).1 ⟨b, hb, hcode⟩
  obtain ⟨e, -, he⟩ := exists_entry_of_select selected found
  exact ⟨e, a, he, flat, hsig⟩

end Collation

end AtomLog
