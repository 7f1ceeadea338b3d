import AtomLog.Sorted.Map
import AtomLog.Sorted.Set
/-!
Sorted maps through the look-ups they answer.

Main statements: in a map built from a list the last pair of a key counts (`get?_ofList`), and the
values of a map are what its look-ups give (`mem_values`).
-/
namespace AtomLog

open Std

/-- Under distinct keys an element is found by its key. -/
theorem find?_key_eq_some {α κ : Type} [DecidableEq κ] (key : α → κ) {xs : List α}
    (distinct : xs.Pairwise (fun x y => key x ≠ key y)) {k : κ} {x : α} :
    xs.find? (fun x => key x = k) = some x ↔ x ∈ xs ∧ key x = k := by
  induction xs with
  | nil => simp
  | cons y ys ih =>
    obtain ⟨hy, hys⟩ := List.pairwise_cons.1 distinct
    by_cases hk : key y = k
    · rw [List.find?_cons_of_pos (by simpa using hk)]
      constructor
      · intro h
        cases h
        exact ⟨by simp, hk⟩
      · intro h
        obtain ⟨hm, hx⟩ := h
        rcases List.mem_cons.1 hm with rfl | hm
        · rfl
        · exact absurd (hk.trans hx.symm) (hy x hm)
    · rw [List.find?_cons_of_neg (by simpa using hk), ih hys, List.mem_cons]
      constructor
      · intro h
        exact ⟨.inr h.1, h.2⟩
      · intro h
        obtain ⟨rfl | hm, hx⟩ := h
        · exact absurd hx hk
        · exact ⟨hm, hx⟩

/-- What a loop holds in the end it held before, or one of its steps brought it about. -/
theorem foldl_gathers {σ τ : Type} {step : σ → τ → σ} (holds : σ → Prop) {hit : τ → Prop}
    (gathers : ∀ s x, holds (step s x) ↔ holds s ∨ hit x) (xs : List τ) (s : σ) :
    holds (xs.foldl step s) ↔ holds s ∨ ∃ x ∈ xs, hit x := by
  induction xs generalizing s with
  | nil => simp
  | cons x xs ih => simp [ih, gathers, or_assoc]

/-- Where a step of a loop may set a value, the last one that does so counts. -/
theorem foldl_last {σ τ υ : Type} {step : σ → τ → σ} (view : σ → Option υ) (write : τ → Option υ)
    (writes : ∀ s x, view (step s x) = (write x).or (view s)) (xs : List τ) (s : σ) :
    view (xs.foldl step s) = (xs.filterMap write).getLast?.or (view s) := by
  induction xs generalizing s with
  | nil => rfl
  | cons x xs ih =>
    rw [List.foldl_cons, ih, writes]
    cases hx : write x with
    | none => rw [List.filterMap_cons_none hx, Option.none_or]
    | some y =>
      rw [List.filterMap_cons_some hx, List.getLast?_cons]
      cases (xs.filterMap write).getLast? <;> rfl

theorem getLast?_filterMap_eq_some {α β : Type} {f : α → Option β} {xs : List α} {b : β} :
    (xs.filterMap f).getLast? = some b ↔
      ∃ ys x zs, xs = ys ++ x :: zs ∧ f x = some b ∧ ∀ z ∈ zs, f z = none := by
  rw [List.getLast?_filterMap, List.findSome?_eq_some_iff]
  constructor
  · intro h
    obtain ⟨zs, x, ys, hxs, hx, hzs⟩ := h
    refine ⟨ys.reverse, x, zs.reverse, ?_, hx, fun z hz => hzs z (List.mem_reverse.1 hz)⟩
    rw [← List.reverse_reverse xs, hxs]
    simp
  · intro h
    obtain ⟨ys, x, zs, rfl, hx, hzs⟩ := h
    exact ⟨zs.reverse, x, ys.reverse, by simp, hx, fun z hz => hzs z (List.mem_reverse.1 hz)⟩

namespace SortedMap

variable {κ α β : Type} [Ord κ] [LawfulEqOrd κ]

theorem mem_values {m : SortedMap κ α} {v : α} : v ∈ m.values ↔ ∃ k, m.get? k = some v := by
  simp only [values, List.mem_map, Prod.exists, exists_eq_right, mem_entries_iff]

theorem isEmpty_eq_false_iff {m : SortedMap κ α} :
    m.isEmpty = false ↔ ∃ k v, m.get? k = some v := by
  simp only [isEmpty, List.isEmpty_eq_false_iff_exists_mem, Prod.exists, mem_entries_iff]

theorem findEntry_eq_none {k : κ} {es : List (κ × α)} (h : ∀ e ∈ es, e.1 ≠ k) :
    findEntry k es = none := by
  induction es with
  | nil => rfl
  | cons e es ih =>
    have hk : compare k e.1 ≠ .eq := by
      intro heq
      exact h e (by simp) (LawfulEqCmp.eq_of_compare heq).symm
    rw [findEntry, if_neg hk]
    exact ih (fun d hd => h d (by simp [hd]))

/-- Two entries of one key are the same entry, so the keys of a map are pairwise different. -/
theorem entries_pairwise_ne (m : SortedMap κ α) : m.entries.Pairwise (fun a b => a.1 ≠ b.1) := by
  refine m.ascending.imp ?_
  intro a b hlt heq
  simp [heq] at hlt

section Entries

variable [DecidableEq κ]

theorem flatMap_findEntry (k : κ) (f : α → List β) (es : List (κ × α))
    (distinct : es.Pairwise (fun d e => d.1 ≠ e.1)) :
    es.flatMap (fun e => if e.1 = k then f e.2 else []) = ((findEntry k es).map f).getD [] := by
  induction es with
  | nil => rfl
  | cons e es ih =>
    obtain ⟨he, hes⟩ := List.pairwise_cons.1 distinct
    rw [List.flatMap_cons, ih hes]
    by_cases hk : e.1 = k
    · subst hk
      have hrest : findEntry e.1 es = none := findEntry_eq_none (fun d hd => (he d hd).symm)
      simp [findEntry, hrest]
    · have hk' : compare k e.1 ≠ .eq := fun heq => hk (LawfulEqCmp.eq_of_compare heq).symm
      simp [findEntry, hk, hk']

/-- What the entries of a map give for one key is what its look-up gives. -/
theorem flatMap_entries (m : SortedMap κ α) (k : κ) (f : α → List β) :
    m.entries.flatMap (fun e => if e.1 = k then f e.2 else []) = ((m.get? k).map f).getD [] :=
  flatMap_findEntry k f m.entries m.entries_pairwise_ne

end Entries

variable [TransOrd κ]

theorem size_insert (m : SortedMap κ α) (k : κ) (v : α) :
    (m.insert k v).size = if (m.get? k).isSome then m.size else m.size + 1 := by
  obtain ⟨es, h⟩ := m
  simp only [size, insert, get?]
  induction es with
  | nil => rfl
  | cons e es ih =>
    obtain ⟨he, hes⟩ := List.pairwise_cons.1 h
    unfold insertEntry
    split
    · rename_i hk
      have hn : findEntry k (e :: es) = none := by
        refine Option.eq_none_iff_forall_ne_some.2 ?_
        intro w hw
        have hm := (mem_entries_iff ⟨e :: es, h⟩ k w).2 hw
        rcases List.mem_cons.1 hm with rfl | hm
        · simp at hk
        · have := TransCmp.lt_trans hk (he _ hm)
          simp at this
      simp [hn]
    · rename_i hk
      simp [findEntry, hk]
    · rename_i hk
      have hk' : compare k e.1 ≠ .eq := by simp [hk]
      simp only [List.length_cons, ih hes, findEntry, if_neg hk']
      by_cases hf : (findEntry k es).isSome = true
      · simp [hf]
      · simp [hf]

variable [DecidableEq κ]

theorem size_foldl_insert (ps : List (κ × α)) (m : SortedMap κ α)
    (fresh : ∀ p ∈ ps, m.get? p.1 = none) (distinct : ps.Pairwise (fun p q => p.1 ≠ q.1)) :
    (ps.foldl (fun m p => m.insert p.1 p.2) m).size = m.size + ps.length := by
  induction ps generalizing m with
  | nil => rfl
  | cons p ps ih =>
    obtain ⟨hp, hps⟩ := List.pairwise_cons.1 distinct
    have hfresh : ∀ q ∈ ps, (m.insert p.1 p.2).get? q.1 = none := by
      intro q hq
      rw [get?_insert, if_neg (hp q hq).symm]
      exact fresh q (by simp [hq])
    rw [List.foldl_cons, ih _ hfresh hps, size_insert, fresh p (by simp), List.length_cons]
    simp only [Option.isSome_none, Bool.false_eq_true, if_false]
    omega

/-- Pairs under distinct keys all stay. -/
theorem size_ofList (ps : List (κ × α)) (distinct : ps.Pairwise (fun p q => p.1 ≠ q.1)) :
    (ofList ps).size = ps.length := by
  have h := size_foldl_insert ps (∅ : SortedMap κ α) (by simp) distinct
  rw [ofList, h]
  exact Nat.zero_add _

theorem get?_modify (m : SortedMap κ α) (k k' : κ) (f : Option α → α) :
    (m.modify k f).get? k' = if k' = k then some (f (m.get? k)) else m.get? k' :=
  get?_insert m k k' _

theorem get?_foldl_insert (ps : List (κ × α)) (m : SortedMap κ α) (k : κ) :
    (ps.foldl (fun m p => m.insert p.1 p.2) m).get? k =
      ((ps.reverse.find? (fun p => p.1 = k)).map Prod.snd).or (m.get? k) := by
  induction ps generalizing m with
  | nil => simp
  | cons p ps ih =>
    simp only [List.foldl_cons, ih, get?_insert, List.reverse_cons, List.find?_append]
    by_cases hp : k = p.1
    · cases List.find? (fun p => p.1 = k) ps.reverse <;> simp [hp]
    · have hp' : p.1 ≠ k := fun h => hp h.symm
      cases List.find? (fun p => p.1 = k) ps.reverse <;> simp [hp, hp']

/-- Of several pairs with one key the last counts. -/
theorem get?_ofList (ps : List (κ × α)) (k : κ) :
    (ofList ps).get? k = (ps.reverse.find? (fun p => p.1 = k)).map Prod.snd := by
  rw [ofList, get?_foldl_insert]
  simp

/-- Where all pairs with a key are the same pair, it is the one that is looked up. -/
theorem get?_ofList_of_unique {ps : List (κ × α)} {k : κ}
    (unique : ∀ v ∈ ps, ∀ w ∈ ps, v.1 = k → w.1 = k → v = w) {v : α} :
    (ofList ps).get? k = some v ↔ (k, v) ∈ ps := by
  rw [get?_ofList, Option.map_eq_some_iff]
  constructor
  · intro h
    obtain ⟨p, hfind, rfl⟩ := h
    obtain rfl : p.1 = k := by simpa using List.find?_some hfind
    exact List.mem_reverse.1 (List.mem_of_find?_eq_some hfind)
  · intro hm
    have hsome : (ps.reverse.find? (fun p => p.1 = k)).isSome :=
      List.find?_isSome.2 ⟨(k, v), List.mem_reverse.2 hm, by simp⟩
    obtain ⟨p, hfind⟩ := Option.isSome_iff_exists.1 hsome
    have hp : p ∈ ps := List.mem_reverse.1 (List.mem_of_find?_eq_some hfind)
    have hk : p.1 = k := by simpa using List.find?_some hfind
    exact ⟨p, hfind, congrArg Prod.snd (unique p hp (k, v) hm hk rfl)⟩

/-- Under distinct keys every pair is looked up by its key. -/
theorem get?_ofList_eq_some {ps : List (κ × α)} (distinct : ps.Pairwise (fun p q => p.1 ≠ q.1))
    {k : κ} {v : α} : (ofList ps).get? k = some v ↔ (k, v) ∈ ps := by
  apply get?_ofList_of_unique
  intro p hp q hq hpk hqk
  have hfind := (find?_key_eq_some Prod.fst distinct).2 ⟨hp, hpk⟩
  rw [(find?_key_eq_some Prod.fst distinct).2 ⟨hq, hqk⟩] at hfind
  exact (Option.some.inj hfind).symm

/-- Under distinct keys the order of the pairs does not matter. -/
theorem ofList_perm {ps qs : List (κ × α)} (hperm : ps.Perm qs)
    (distinct : ps.Pairwise (fun p q => p.1 ≠ q.1)) : ofList ps = ofList qs := by
  have distinct' : qs.Pairwise (fun p q => p.1 ≠ q.1) :=
    hperm.pairwise distinct (fun h => h.symm)
  refine ext_get? ?_
  intro k
  ext v
  rw [get?_ofList_eq_some distinct, get?_ofList_eq_some distinct', hperm.mem_iff]

end SortedMap

namespace SortedSet

variable {α : Type} [Ord α]

@[simp] theorem not_mem_empty (x : α) : x ∉ (∅ : SortedSet α) := List.not_mem_nil

theorem mem_toList {s : SortedSet α} {x : α} : x ∈ s.toList ↔ x ∈ s := Iff.rfl

/-- No element of a set comes twice in its list. -/
theorem getElem_not_mem_take [Std.ReflOrd α] (s : SortedSet α) (i : Nat) (h : i < s.toList.length) :
    s.toList[i] ∉ s.toList.take i := by
  intro hm
  obtain ⟨j, hj, heq⟩ := List.mem_take_iff_getElem.1 hm
  have hlt := List.pairwise_iff_getElem.1 s.ascending j i (by omega) h (by omega)
  have heq' := ReflOrd.compare_self (a := s.toList[i])
  rw [heq, heq'] at hlt
  cases hlt

theorem insert_comm [Std.TransOrd α] [Std.LawfulEqOrd α] (s : SortedSet α) (x y : α) :
    (s.insert x).insert y = (s.insert y).insert x := by
  refine ext_mem ?_
  intro z
  simp only [mem_insert]
  exact or_left_comm

theorem eq_empty_of_isEmpty {s : SortedSet α} (h : s.isEmpty = true) : s = ∅ := by
  obtain ⟨xs, _⟩ := s
  obtain rfl := List.isEmpty_iff.1 h
  rfl

theorem isEmpty_eq_false_iff {s : SortedSet α} : s.isEmpty = false ↔ ∃ x, x ∈ s :=
  List.isEmpty_eq_false_iff_exists_mem

end SortedSet

end AtomLog
