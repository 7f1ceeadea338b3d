/-!
Finite sets of an ordered type, held as their elements in strictly ascending order.

`SortedSet.ext_mem`: sets with the same members are equal values.
-/
namespace AtomLog

open Std

structure SortedSet (α : Type) [Ord α] where
  toList : List α
  ascending : toList.Pairwise (fun a b => compare a b = .lt) := by simp

namespace SortedSet

variable {α : Type} [Ord α]

/-- Put an element at its place, unless it is there. -/
def insertElem (x : α) : List α → List α
  | [] => [x]
  | y :: ys =>
    match compare x y with
    | .lt => x :: y :: ys
    | .eq => y :: ys
    | .gt => y :: insertElem x ys

theorem mem_of_mem_insertElem {x y : α} {ys : List α} (h : y ∈ insertElem x ys) :
    y = x ∨ y ∈ ys := by
  induction ys with
  | nil => simpa [insertElem] using h
  | cons z zs ih =>
    unfold insertElem at h
    split at h
    · simpa using h
    · exact .inr h
    · rcases List.mem_cons.1 h with h | h
      · exact .inr (h ▸ List.mem_cons_self)
      · exact (ih h).imp_right (List.mem_cons_of_mem _)

theorem insertElem_ascending [TransOrd α] (x : α) {ys : List α}
    (h : ys.Pairwise (fun a b => compare a b = .lt)) :
    (insertElem x ys).Pairwise (fun a b => compare a b = .lt) := by
  induction ys with
  | nil => simp [insertElem]
  | cons z zs ih =>
    obtain ⟨hz, hzs⟩ := List.pairwise_cons.1 h
    unfold insertElem
    split
    · rename_i hx
      refine List.pairwise_cons.2 ⟨fun y hy => ?_, h⟩
      rcases List.mem_cons.1 hy with rfl | hy
      · exact hx
      · exact TransCmp.lt_trans hx (hz y hy)
    · exact h
    · rename_i hx
      refine List.pairwise_cons.2 ⟨fun y hy => ?_, ih hzs⟩
      rcases mem_of_mem_insertElem hy with rfl | hy
      · exact OrientedCmp.lt_of_gt hx
      · exact hz y hy

def empty : SortedSet α := ⟨[], by simp⟩

instance : EmptyCollection (SortedSet α) := ⟨empty⟩
instance : Inhabited (SortedSet α) := ⟨empty⟩
instance : Membership α (SortedSet α) := ⟨fun s x => x ∈ s.toList⟩

instance [DecidableEq α] (x : α) (s : SortedSet α) : Decidable (x ∈ s) :=
  inferInstanceAs (Decidable (x ∈ s.toList))

def isEmpty (s : SortedSet α) : Bool := s.toList.isEmpty

variable [TransOrd α]

def insert (s : SortedSet α) (x : α) : SortedSet α :=
  ⟨insertElem x s.toList, insertElem_ascending x s.ascending⟩

def ofList (xs : List α) : SortedSet α := xs.foldl insert ∅

variable [LawfulEqOrd α]

theorem mem_insert (s : SortedSet α) (x y : α) : y ∈ s.insert x ↔ y = x ∨ y ∈ s := by
  obtain ⟨xs, h⟩ := s
  change y ∈ insertElem x xs ↔ y = x ∨ y ∈ xs
  clear h
  induction xs with
  | nil => simp [insertElem]
  | cons z zs ih =>
    unfold insertElem
    split
    · simp
    · rename_i hx
      have : x = z := LawfulEqCmp.eq_of_compare hx
      simp [this]
    · simp only [List.mem_cons, ih]
      constructor
      · rintro (h | h | h) <;> simp [h]
      · rintro (h | h | h) <;> simp [h]

theorem ext_mem {s t : SortedSet α} (h : ∀ x, x ∈ s ↔ x ∈ t) : s = t := by
  obtain ⟨xs, hx⟩ := s
  obtain ⟨ys, hy⟩ := t
  replace h : ∀ x, x ∈ xs ↔ x ∈ ys := h
  simp only [mk.injEq]
  induction xs generalizing ys with
  | nil =>
    cases ys with
    | nil => rfl
    | cons y ys => simpa using (h y).2 List.mem_cons_self
  | cons x xs ih =>
    cases ys with
    | nil => simpa using (h x).1 List.mem_cons_self
    | cons y ys =>
      obtain ⟨hx1, hx2⟩ := List.pairwise_cons.1 hx
      obtain ⟨hy1, hy2⟩ := List.pairwise_cons.1 hy
      have hxy : x = y := by
        rcases List.mem_cons.1 ((h x).1 List.mem_cons_self) with h1 | h1
        · exact h1
        · rcases List.mem_cons.1 ((h y).2 List.mem_cons_self) with h2 | h2
          · exact h2.symm
          · exact absurd (TransCmp.lt_trans (hx1 y h2) (hy1 x h1)) (by simp)
      subst hxy
      refine congrArg _ (ih hx2 ys hy2 (fun z => ?_))
      have hz := h z
      simp only [List.mem_cons] at hz
      constructor
      · intro hm
        rcases hz.1 (.inr hm) with rfl | h1
        · simpa using hx1 _ hm
        · exact h1
      · intro hm
        rcases hz.2 (.inr hm) with rfl | h1
        · simpa using hy1 _ hm
        · exact h1

end SortedSet

end AtomLog
