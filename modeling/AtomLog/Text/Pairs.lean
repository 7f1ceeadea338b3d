/-!
How often one character follows another one directly in a text.
-/
namespace AtomLog.Text

/-- How often `d` stands right after `c`. -/
def pairCount (c d : Char) : List Char → Nat
  | [] => 0
  | x :: xs => (if x = c ∧ xs.head? = some d then 1 else 0) + pairCount c d xs

variable {c d : Char} {xs ys : List Char}

theorem pairCount_cons (x : Char) (xs : List Char) : pairCount c d (x :: xs) =
    (if x = c ∧ xs.head? = some d then 1 else 0) + pairCount c d xs := rfl

theorem pairCount_cons_of_ne {x : Char} (h : x ≠ c) :
    pairCount c d (x :: xs) = pairCount c d xs := by
  rw [pairCount_cons, if_neg (fun hx => h hx.1), Nat.zero_add]

/-- A pair across a seam is one more. -/
theorem pairCount_append (xs ys : List Char) : pairCount c d (xs ++ ys) = pairCount c d xs +
    (if xs.getLast? = some c ∧ ys.head? = some d then 1 else 0) + pairCount c d ys := by
  induction xs with
  | nil => simp [pairCount]
  | cons x xs ih =>
    rw [List.cons_append, pairCount_cons, pairCount_cons, ih]
    cases xs with
    | nil => simp [pairCount]
    | cons x' xs => simp [Nat.add_assoc]

theorem pairCount_append_of_getLast? (h : xs.getLast? ≠ some c) :
    pairCount c d (xs ++ ys) = pairCount c d xs + pairCount c d ys := by
  rw [pairCount_append, if_neg (fun hx => h hx.1), Nat.add_zero]

theorem pairCount_append_of_head? (h : ys.head? ≠ some d) :
    pairCount c d (xs ++ ys) = pairCount c d xs + pairCount c d ys := by
  rw [pairCount_append, if_neg (fun hy => h hy.2), Nat.add_zero]

theorem pairCount_eq_zero_of_not_mem (h : d ∉ xs) : pairCount c d xs = 0 := by
  induction xs with
  | nil => rfl
  | cons x xs ih =>
    rw [List.mem_cons, not_or] at h
    have hhead : xs.head? ≠ some d := fun hd => h.2 (List.mem_of_mem_head? hd)
    rw [pairCount_cons, if_neg (fun hx => hhead hx.2), ih h.2]

theorem pairCount_eq_zero_iff : pairCount c d xs = 0 ↔ ¬[c, d] <:+: xs := by
  induction xs with
  | nil => simp [pairCount]
  | cons x xs ih =>
    have hhead : xs.head? = some d ↔ [d] <+: xs := by
      cases xs with
      | nil => simp
      | cons y ys => simp [eq_comm]
    simp only [pairCount_cons, Nat.add_eq_zero_iff, ih, hhead, List.infix_cons_iff,
      List.cons_prefix_cons]
    simp [eq_comm]

end AtomLog.Text
