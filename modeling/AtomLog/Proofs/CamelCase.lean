import AtomLog.Proofs.Constants
import AtomLog.Proofs.Items
/-!
Words joined by underscores and the same words in camel case.

In camel case a word begins with a capital, and an underscore is put before it only where the word
before has a small letter left. Main statement: both spellings give one constant just when every word
but the last has a letter besides its first one (`Naming.constant_pascalCase_iff`).
-/
namespace AtomLog.Naming

/-- A small letter or a digit. -/
def isWordChar (c : Char) : Bool := c.isLower || c.isDigit

/-- Whether a word is a small letter and then small letters and digits. -/
def isWord (w : List Char) : Bool := w.head?.any Char.isLower && w.all isWordChar

/-- The constant of words in camel case, where an underscore is due before a word that follows a
letter besides the first of a word. -/
def camelChars (due : Bool) : List (List Char) → List Char
  | [] => []
  | w :: ws =>
    (if due then ['_'] else []) ++ w.map Char.toUpper ++ camelChars (w.tail.any Char.isLower) ws

theorem constantChars_append (due : Bool) (cs ds : List Char) : constantChars due (cs ++ ds) =
    constantChars due cs ++ constantChars (cs.foldl dueAfter due) ds := by
  induction cs generalizing due with
  | nil => rfl
  | cons c cs ih =>
    rw [List.cons_append, constantChars_cons, constantChars_cons, ih, List.foldl_cons]
    simp

section Words

variable {c : Char} {cs w : List Char} {ws : List (List Char)}

theorem isSnakeChar_of_isWordChar (h : isWordChar c = true) : isSnakeChar c = true := by
  rw [isSnakeChar, ← isWordChar, h]
  rfl

theorem not_isUpper_of_isWordChar (h : isWordChar c = true) : c.isUpper = false := by
  rcases Bool.or_eq_true_iff.1 h with hlower | hdigit
  · simpa using Char.not_isUpper_of_isLower hlower
  · exact not_isUpper_of_isDigit hdigit

theorem ne_underscore_of_isWordChar (h : isWordChar c = true) : c ≠ '_' := by
  rintro rfl
  exact absurd h (by decide)

theorem dueAfter_of_isWordChar (h : isWordChar c = true) (due : Bool) :
    dueAfter due c = (due || c.isLower) := by
  have hne : (c != '_') = true := bne_iff_ne.2 (ne_underscore_of_isWordChar h)
  rw [dueAfter, if_neg (by simp [not_isUpper_of_isWordChar h]), hne, Bool.and_true, Bool.or_comm]

/-- Once a letter has come, what follows in a word leaves an underscore due. -/
theorem foldl_dueAfter (h : cs.all isWordChar = true) (due : Bool) :
    cs.foldl dueAfter due = (due || cs.any Char.isLower) := by
  induction cs generalizing due with
  | nil => simp
  | cons c cs ih =>
    obtain ⟨hc, hcs⟩ := Bool.and_eq_true_iff.1 h
    rw [List.foldl_cons, ih hcs, dueAfter_of_isWordChar hc, List.any_cons, Bool.or_assoc]

theorem constantChars_word (h : cs.all isWordChar = true) (due : Bool) :
    constantChars due cs = cs.map Char.toUpper := by
  refine constantChars_of_not_isUpper due (List.any_eq_false.2 ?_)
  intro c hc
  simp [not_isUpper_of_isWordChar (List.all_eq_true.1 h c hc)]

theorem pascalChars_append_word (h : cs.all isWordChar = true) (ds : List Char) :
    pascalChars false (cs ++ ds) = cs ++ pascalChars false ds := by
  induction cs with
  | nil => rfl
  | cons c cs ih =>
    obtain ⟨hc, hcs⟩ := Bool.and_eq_true_iff.1 h
    rw [List.cons_append, pascalChars_cons (isSnakeChar_of_isWordChar hc),
      if_neg (ne_underscore_of_isWordChar hc), ih hcs]
    rfl

/-- A word in camel case and what comes after it. -/
theorem constantChars_pascalChars_append (h : isWord w = true) (due : Bool) (ds : List Char) :
    constantChars due (pascalChars true (w ++ ds)) =
      (if due then ['_'] else []) ++ w.map Char.toUpper ++
        constantChars (w.tail.any Char.isLower) (pascalChars false ds) := by
  obtain ⟨hhead, hall⟩ := Bool.and_eq_true_iff.1 h
  cases w with
  | nil => cases hhead
  | cons c cs =>
    have hlower : c.isLower = true := hhead
    obtain ⟨hc, hcs⟩ := Bool.and_eq_true_iff.1 hall
    have hupper : c.toUpper.isUpper = true := by simp [Char.isAlpha, hlower]
    have hdue : dueAfter due c.toUpper = false := by simp [dueAfter, hupper]
    rw [List.cons_append, pascalChars_cons (isSnakeChar_of_isWordChar hc),
      if_neg (ne_underscore_of_isWordChar hc), if_pos rfl, pascalChars_append_word hcs,
      constantChars_cons, hdue, hupper, constantChars_append, constantChars_word hcs,
      foldl_dueAfter hcs]
    simp

/-- Words with an underscore before each. -/
def underscored (ws : List (List Char)) : List Char := ws.flatMap (fun w => '_' :: w)

theorem underscore_cons_intercalate (h : ws ≠ []) :
    '_' :: ['_'].intercalate ws = underscored ws := by
  induction ws with
  | nil => exact absurd rfl h
  | cons w ws ih =>
    cases ws with
    | nil => simp [underscored]
    | cons w' ws =>
      rw [List.intercalate_cons_cons, List.append_assoc, List.singleton_append, ih (by simp)]
      rfl

theorem constantChars_underscored (h : ∀ w ∈ ws, isWord w = true) (due : Bool) :
    constantChars due (underscored ws) = underscored (ws.map (List.map Char.toUpper)) := by
  induction ws generalizing due with
  | nil => rfl
  | cons w ws ih =>
    obtain ⟨hw, hws⟩ := List.forall_mem_cons.1 h
    have hstart : underscored (w :: ws) = '_' :: (w ++ underscored ws) := rfl
    rw [hstart, constantChars_underscore, constantChars_append,
      constantChars_word (Bool.and_eq_true_iff.1 hw).2, ih hws]
    rfl

theorem constantChars_pascalChars_underscored (h : ∀ w ∈ ws, isWord w = true) (due : Bool) :
    constantChars due (pascalChars false (underscored ws)) = camelChars due ws := by
  induction ws generalizing due with
  | nil => rfl
  | cons w ws ih =>
    obtain ⟨hw, hws⟩ := List.forall_mem_cons.1 h
    have hstart : pascalChars false (underscored (w :: ws)) =
        pascalChars true (w ++ underscored ws) := rfl
    rw [hstart, constantChars_pascalChars_append hw, ih hws]
    rfl

/-- In camel case the words keep their underscores just when one is due before each. -/
theorem camelChars_eq_iff (h : ∀ w ∈ ws, isWord w = true) (due : Bool) :
    camelChars due ws = underscored (ws.map (List.map Char.toUpper)) ↔
      (ws ≠ [] → due = true ∧ ∀ w ∈ ws.dropLast, w.tail.any Char.isLower = true) := by
  induction ws generalizing due with
  | nil => simp [camelChars, underscored]
  | cons w ws ih =>
    obtain ⟨hw, hws⟩ := List.forall_mem_cons.1 h
    have hcons : underscored ((w :: ws).map (List.map Char.toUpper)) =
        '_' :: (w.map Char.toUpper ++ underscored (ws.map (List.map Char.toUpper))) := rfl
    rw [camelChars, hcons]
    cases due with
    | false =>
      -- a word begins with a capital, so it cannot stand for the underscore before it
      obtain ⟨hhead, hall⟩ := Bool.and_eq_true_iff.1 hw
      cases w with
      | nil => cases hhead
      | cons c cs =>
        have hne : c.toUpper ≠ '_' := fun h =>
          ne_underscore_of_isWordChar (Bool.and_eq_true_iff.1 hall).1 (toUpper_eq_underscore_iff.1 h)
        simp [hne]
    | true =>
      rw [if_pos rfl, List.singleton_append, List.cons_append, List.cons_inj_right,
        List.append_right_inj, ih hws]
      cases ws with
      | nil => simp
      | cons w' ws => simp

end Words

/-- Words give one constant in snake case and in camel case just when every word but the last has a
letter besides its first one. -/
theorem constant_pascalCase_iff {ws : List String} (words : ∀ w ∈ ws, isWord w.toList = true) :
    constant (pascalCase (String.intercalate "_" ws)) = constant (String.intercalate "_" ws) ↔
      ∀ w ∈ ws.dropLast, w.toList.tail.any Char.isLower = true := by
  cases ws with
  | nil => exact iff_of_true rfl (by simp)
  | cons v vs =>
    have hwords : ∀ w ∈ (v :: vs).map String.toList, isWord w = true := List.forall_mem_map.2 words
    have hjoined : '_' :: (String.intercalate "_" (v :: vs)).toList =
        underscored ((v :: vs).map String.toList) := by
      rw [String.toList_intercalate]
      exact underscore_cons_intercalate (by simp)
    -- an underscore before the first word is due in camel case and stands there in snake case
    have hsnake : '_' :: (constant (String.intercalate "_" (v :: vs))).toList =
        underscored (((v :: vs).map String.toList).map (List.map Char.toUpper)) := by
      rw [toList_constant, ← constantChars_underscore true, hjoined,
        constantChars_underscored hwords]
    have hcamel : '_' :: (constant (pascalCase (String.intercalate "_" (v :: vs)))).toList =
        camelChars true ((v :: vs).map String.toList) := by
      have hstart : pascalChars true (String.intercalate "_" (v :: vs)).toList =
          pascalChars false (underscored ((v :: vs).map String.toList)) := by
        rw [← hjoined]
        rfl
      rw [toList_constant, pascalCase, String.toList_ofList, hstart,
        constantChars_pascalChars_underscored hwords]
      rfl
    rw [← String.toList_inj, ← List.cons_inj_right '_', hsnake, hcamel, camelChars_eq_iff hwords,
      ← List.map_dropLast, List.forall_mem_map]
    simp

theorem constant_pascalCase_iff_wifi :
    (∀ w ∈ ["wifi5", "scan", "x"], isWord w.toList = true) ∧
    constant (pascalCase (String.intercalate "_" ["wifi5", "scan", "x"])) =
      constant (String.intercalate "_" ["wifi5", "scan", "x"]) := by
  have words : ∀ w ∈ ["wifi5", "scan", "x"], isWord w.toList = true := by decide +kernel
  exact ⟨words, (constant_pascalCase_iff words).2 (by decide +kernel)⟩

/-- A word of one letter leaves nothing in camel case by which the next word could be told. -/
theorem not_constant_pascalCase :
    (∀ w ∈ ["x", "axis"], isWord w.toList = true) ∧
    constant (pascalCase (String.intercalate "_" ["x", "axis"])) ≠
      constant (String.intercalate "_" ["x", "axis"]) := by
  decide +kernel

end AtomLog.Naming
