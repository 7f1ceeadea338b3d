/-!
Finite maps with ordered keys.

A map is held as its entries in strictly ascending key order, so two maps that answer every
look-up alike are equal values (`SortedMap.ext_get?`).
-/
namespace AtomLog

open Std

structure SortedMap (κ α : Type) [Ord κ] where
  entries : List (κ × α)
  ascending : entries.Pairwise (fun a b => compare a.1 b.1 = .lt) := by simp

namespace SortedMap

section Entries

variable {κ α β : Type} [Ord κ]

/-- Put an entry at its place, replacing the entry that has the same key. -/
def insertEntry (k : κ) (v : α) : List (κ × α) → List (κ × α)
  | [] => [(k, v)]
  | e :: es =>
    match compare k e.1 with
    | .lt => (k, v) :: e :: es
    | .eq => (k, v) :: es
    | .gt => e :: insertEntry k v es

def findEntry (k : κ) : List (κ × α) → Option α
  | [] => none
  | e :: es => if compare k e.1 = .eq then some e.2 else findEntry k es

theorem mem_of_mem_insertEntry {k : κ} {v : α} {x : κ × α} {es : List (κ × α)}
    (h : x ∈ insertEntry k v es) : x = (k, v) ∨ x ∈ es := by
  induction es with
  | nil => simpa [insertEntry] using h
  | cons e es ih =>
    unfold insertEntry at h
    split at h
    · simpa using h
    · rcases List.mem_cons.1 h with h | h
      · exact .inl h
      · exact .inr (List.mem_cons_of_mem _ h)
    · rcases List.mem_cons.1 h with h | h
      · exact .inr (h ▸ List.mem_cons_self)
      · exact (ih h).imp_right (List.mem_cons_of_mem _)

variable [TransOrd κ]

theorem insertEntry_ascending (k : κ) (v : α) {es : List (κ × α)}
    (h : es.Pairwise (fun a b => compare a.1 b.1 = .lt)) :
    (insertEntry k v es).Pairwise (fun a b => compare a.1 b.1 = .lt) := by
  induction es with
  | nil => simp [insertEntry]
  | cons e es ih =>
    obtain ⟨he, hes⟩ := List.pairwise_cons.1 h
    unfold insertEntry
    split
    · rename_i hk
      refine List.pairwise_cons.2 ⟨fun x hx => ?_, h⟩
      rcases List.mem_cons.1 hx with rfl | hx
      · exact hk
      · exact TransCmp.lt_trans hk (he x hx)
    · rename_i hk
      exact List.pairwise_cons.2 ⟨fun x hx => TransCmp.lt_of_eq_of_lt hk (he x hx), hes⟩
    · rename_i hk
      refine List.pairwise_cons.2 ⟨fun x hx => ?_, ih hes⟩
      rcases mem_of_mem_insertEntry hx with rfl | hx
      · exact OrientedCmp.lt_of_gt hk
      · exact he x hx

end Entries

variable {κ α β : Type} [Ord κ]

def empty : SortedMap κ α := ⟨[], by simp⟩

instance : EmptyCollection (SortedMap κ α) := ⟨empty⟩
instance : Inhabited (SortedMap κ α) := ⟨empty⟩

def isEmpty (m : SortedMap κ α) : Bool := m.entries.isEmpty

def size (m : SortedMap κ α) : Nat := m.entries.length

def keys (m : SortedMap κ α) : List κ := m.entries.map Prod.fst

def values (m : SortedMap κ α) : List α := m.entries.map Prod.snd

def get? (m : SortedMap κ α) (k : κ) : Option α := findEntry k m.entries

def contains (m : SortedMap κ α) (k : κ) : Bool := (m.get? k).isSome

/-- Keep the entries that pass a test. -/
def filter (p : κ → α → Bool) (m : SortedMap κ α) : SortedMap κ α :=
  ⟨m.entries.filter (fun e => p e.1 e.2), m.ascending.filter _⟩

def mapValues (f : κ → α → β) (m : SortedMap κ α) : SortedMap κ β :=
  ⟨m.entries.map (fun e => (e.1, f e.1 e.2)), by
    simpa [List.pairwise_map] using m.ascending⟩

@[simp] theorem get?_empty (k : κ) : (∅ : SortedMap κ α).get? k = none := rfl

variable [TransOrd κ]

def insert (m : SortedMap κ α) (k : κ) (v : α) : SortedMap κ α :=
  ⟨insertEntry k v m.entries, insertEntry_ascending k v m.ascending⟩

/-- Insert the pairs from left to right: of two pairs with one key the later stays. -/
def ofList (ps : List (κ × α)) : SortedMap κ α :=
  ps.foldl (fun m p => m.insert p.1 p.2) ∅

/-- Replace the value at a key by a function of what is there. -/
def modify (m : SortedMap κ α) (k : κ) (f : Option α → α) : SortedMap κ α :=
  m.insert k (f (m.get? k))

section Lemmas

variable [LawfulEqOrd κ]

theorem findEntry_insertEntry (k k' : κ) (v : α) (es : List (κ × α))
    (h : es.Pairwise (fun a b => compare a.1 b.1 = .lt)) :
    findEntry k' (insertEntry k v es) =
      if compare k' k = .eq then some v else findEntry k' es := by
  induction es with
  | nil => simp [insertEntry, findEntry]
  | cons e es ih =>
    obtain ⟨he, hes⟩ := List.pairwise_cons.1 h
    unfold insertEntry
    split
    · simp [findEntry]
    · rename_i hk
      have hke : k = e.1 := LawfulEqCmp.eq_of_compare hk
      simp only [findEntry, hke]
      split <;> rfl
    · rename_i hk
      simp only [findEntry, ih hes]
      by_cases h1 : compare k' e.1 = .eq
      · have hke : k' = e.1 := LawfulEqCmp.eq_of_compare h1
        have h2 : compare k' k ≠ .eq := by
          rw [hke, OrientedCmp.lt_of_gt hk]
          decide
        simp [h1, h2]
      · simp [h1]

theorem get?_insert [DecidableEq κ] (m : SortedMap κ α) (k k' : κ) (v : α) :
    (m.insert k v).get? k' = if k' = k then some v else m.get? k' := by
  simp only [get?, insert, findEntry_insertEntry k k' v m.entries m.ascending,
    LawfulEqCmp.compare_eq_iff_eq]

omit [TransOrd κ] in
theorem mem_entries_iff (m : SortedMap κ α) (k : κ) (v : α) :
    (k, v) ∈ m.entries ↔ m.get? k = some v := by
  obtain ⟨es, h⟩ := m
  simp only [get?]
  induction es with
  | nil => simp [findEntry]
  | cons e es ih =>
    obtain ⟨he, hes⟩ := List.pairwise_cons.1 h
    by_cases hk : compare k e.1 = .eq
    · have hke : k = e.1 := LawfulEqCmp.eq_of_compare hk
      have hn : (k, v) ∉ es := fun hm => by
        have := he _ hm
        simp [hke] at this
      simp only [List.mem_cons, hn, or_false, findEntry, hk, if_true, Option.some.injEq]
      constructor
      · rintro rfl
        rfl
      · rintro rfl
        rw [hke]
    · have hne : (k, v) ≠ e := fun heq => hk (by simp [← heq])
      simp [findEntry, hk, hne, ih hes]

/-- Entries in ascending order are determined by the look-ups they answer. -/
theorem ext_get? {m n : SortedMap κ α} (h : ∀ k, m.get? k = n.get? k) : m = n := by
  have hmem : ∀ x, x ∈ m.entries ↔ x ∈ n.entries := fun ⟨k, v⟩ => by
    rw [mem_entries_iff, mem_entries_iff, h]
  obtain ⟨xs, hx⟩ := m
  obtain ⟨ys, hy⟩ := n
  simp only [mk.injEq]
  clear h
  induction xs generalizing ys with
  | nil =>
    cases ys with
    | nil => rfl
    | cons y ys => simpa using (hmem y).2 List.mem_cons_self
  | cons x xs ih =>
    cases ys with
    | nil => simpa using (hmem x).1 List.mem_cons_self
    | cons y ys =>
      obtain ⟨hx1, hx2⟩ := List.pairwise_cons.1 hx
      obtain ⟨hy1, hy2⟩ := List.pairwise_cons.1 hy
      have hxy : x = y := by
        rcases List.mem_cons.1 ((hmem x).1 List.mem_cons_self) with h | h
        · exact h
        · rcases List.mem_cons.1 ((hmem y).2 List.mem_cons_self) with h' | h'
          · exact h'.symm
          · exact absurd (TransCmp.lt_trans (hx1 y h') (hy1 x h)) (by simp)
      subst hxy
      refine congrArg _ (ih hx2 ys hy2 (fun z => ?_))
      have hz := hmem z
      simp only [List.mem_cons] at hz
      constructor
      · intro hm
        rcases hz.1 (.inr hm) with rfl | h
        · simpa using hx1 _ hm
        · exact h
      · intro hm
        rcases hz.2 (.inr hm) with rfl | h
        · simpa using hy1 _ hm
        · exact h

end Lemmas

end SortedMap

end AtomLog
