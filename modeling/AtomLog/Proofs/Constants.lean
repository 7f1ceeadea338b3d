import AtomLog.Naming
import AtomLog.Text.Pairs
import Mathlib
/-!
What a constant tells of the names that it is made of.

An underscore is put in only between two characters that are none, so the constant of a name has
those underscores in pairs and at its ends that the name has. Main statement: from the constant of an
enum value the constants of the atom, the field and the value can be told where no part but the last
holds a double underscore or ends in one (`Naming.constants_decodable`).
-/
namespace AtomLog.Naming

open Text (pairCount)

/-- Whether an underscore is due before a capital that comes next. -/
def dueAfter (due : Bool) (c : Char) : Bool :=
  if c.isUpper then false else c.isLower || (due && c != '_')

section Chars

variable {c : Char} {cs : List Char}

theorem toUpper_of_isUpper (h : c.isUpper = true) : c.toUpper = c :=
  Char.toUpper_eq_of_not_isLower (by simp [Char.not_isLower_of_isUpper h])

/-- A character that is no letter is the capital of itself alone. -/
theorem toUpper_eq_iff {d : Char} (hd : d.isAlpha = false) : c.toUpper = d ↔ c = d := by
  have hsame : d.toUpper = d :=
    Char.toUpper_eq_of_not_isLower (by simp_all [Char.isAlpha])
  constructor
  · intro h
    have hlower : c.isLower = false := by
      rw [← h, Char.isAlpha_toUpper_eq_isAlpha, Char.isAlpha, Bool.or_eq_false_iff] at hd
      exact hd.2
    rwa [Char.toUpper_eq_of_not_isLower (by simp [hlower])] at h
  · rintro rfl
    exact hsame

theorem toUpper_eq_underscore_iff : c.toUpper = '_' ↔ c = '_' := toUpper_eq_iff (by decide)

/-- Every character gives its capital, one that is due an underscore before it as well. -/
theorem constantChars_cons (due : Bool) (c : Char) (cs : List Char) :
    constantChars due (c :: cs) =
      (if due && c.isUpper then ['_'] else []) ++
        c.toUpper :: constantChars (dueAfter due c) cs := by
  rw [constantChars, dueAfter]
  cases hupper : c.isUpper with
  | true => cases due <;> simp [toUpper_of_isUpper hupper]
  | false =>
    cases hlower : c.isLower with
    | true => simp
    | false =>
      have hsame : c.toUpper = c := Char.toUpper_eq_of_not_isLower (by simp [hlower])
      simp [hsame]

theorem constantChars_underscore (due : Bool) (cs : List Char) :
    constantChars due ('_' :: cs) = '_' :: constantChars false cs := by
  rw [constantChars_cons]
  cases due <;> rfl

theorem head?_constantChars : (constantChars false cs).head? = cs.head?.map Char.toUpper := by
  cases cs with
  | nil => rfl
  | cons c cs => simp [constantChars_cons]

theorem getLast?_constantChars (due : Bool) (cs : List Char) :
    (constantChars due cs).getLast? = cs.getLast?.map Char.toUpper := by
  induction cs generalizing due with
  | nil => rfl
  | cons c cs ih =>
    rw [constantChars_cons, List.getLast?_append_cons, List.getLast?_cons, List.getLast?_cons, ih]
    cases cs.getLast? <;> rfl

theorem map_toUpper_eq_underscore_iff {o : Option Char} :
    o.map Char.toUpper = some '_' ↔ o = some '_' := by
  cases o <;> simp [toUpper_eq_underscore_iff]

/-- Nothing but letters and underscores comes in. -/
theorem mem_of_mem_constantChars {d : Char} (hd : d.isAlpha = false) (hne : d ≠ '_') {due : Bool}
    (h : d ∈ constantChars due cs) : d ∈ cs := by
  induction cs generalizing due with
  | nil => exact h
  | cons c cs ih =>
    rw [constantChars_cons, List.mem_append, List.mem_cons] at h
    rcases h with h | h | h
    · split at h
      · exact absurd (List.mem_singleton.1 h) hne
      · cases h
    · exact List.mem_cons.2 (.inl ((toUpper_eq_iff hd).1 h.symm).symm)
    · exact List.mem_cons_of_mem _ (ih h)

/-- What is due is put before a capital, which is no underscore, and after none. -/
theorem pairCount_constantChars (due : Bool) (cs : List Char) :
    pairCount '_' '_' (constantChars due cs) = pairCount '_' '_' cs := by
  induction cs generalizing due with
  | nil => rfl
  | cons c cs ih =>
    by_cases hc : c = '_'
    · subst hc
      rw [constantChars_underscore, Text.pairCount_cons, Text.pairCount_cons, ih]
      simp only [head?_constantChars, map_toUpper_eq_underscore_iff]
    · have hcapital : c.toUpper ≠ '_' := fun h => hc (toUpper_eq_underscore_iff.1 h)
      have hhead : (c.toUpper :: constantChars (dueAfter due c) cs).head? ≠ some '_' := by
        simpa using hcapital
      rw [constantChars_cons, Text.pairCount_append_of_head? hhead,
        Text.pairCount_cons_of_ne hcapital, Text.pairCount_cons_of_ne hc, ih]
      cases due && c.isUpper <;> simp [pairCount]

theorem any_isLower_constantChars (due : Bool) (cs : List Char) :
    (constantChars due cs).any Char.isLower = false := by
  induction cs generalizing due with
  | nil => rfl
  | cons c cs ih =>
    rw [constantChars_cons, List.any_append, List.any_cons, ih, Char.isLower_toUpper_eq_false]
    cases due && c.isUpper <;> rfl

/-- Where there are no small letters nothing is ever due. -/
theorem constantChars_of_not_isLower (h : cs.any Char.isLower = false) :
    constantChars false cs = cs := by
  induction cs with
  | nil => rfl
  | cons c cs ih =>
    obtain ⟨hc, hcs⟩ := Bool.or_eq_false_iff.1 h
    have hdue : dueAfter false c = false := by simp [dueAfter, hc]
    rw [constantChars_cons, hdue, ih hcs, Char.toUpper_eq_of_not_isLower (by simp [hc])]
    rfl

/-- Where there are no capitals nothing is put in. -/
theorem constantChars_of_not_isUpper (due : Bool) (h : cs.any Char.isUpper = false) :
    constantChars due cs = cs.map Char.toUpper := by
  induction cs generalizing due with
  | nil => rfl
  | cons c cs ih =>
    obtain ⟨hc, hcs⟩ := Bool.or_eq_false_iff.1 h
    rw [constantChars_cons, ih _ hcs, hc, Bool.and_false]
    rfl

end Chars

/-! ### Names -/

theorem toList_constant (name : String) :
    (constant name).toList = constantChars false name.toList := String.toList_ofList

theorem constant_of_not_isLower {name : String} (h : name.toList.any Char.isLower = false) :
    constant name = name := by
  rw [constant, constantChars_of_not_isLower h, String.ofList_toList]

theorem constant_constant (name : String) : constant (constant name) = constant name := by
  apply constant_of_not_isLower
  rw [toList_constant, any_isLower_constantChars]

theorem pairCount_constant (name : String) :
    pairCount '_' '_' (constant name).toList = pairCount '_' '_' name.toList := by
  rw [toList_constant, pairCount_constantChars]

theorem constant_starts_iff {name : String} :
    (constant name).toList.head? = some '_' ↔ name.toList.head? = some '_' := by
  rw [toList_constant, head?_constantChars, map_toUpper_eq_underscore_iff]

theorem constant_ends_iff {name : String} :
    (constant name).toList.getLast? = some '_' ↔ name.toList.getLast? = some '_' := by
  rw [toList_constant, getLast?_constantChars, map_toUpper_eq_underscore_iff]

/-- The small letters of a name without capitals can be had back from its constant. -/
theorem constant_injOn {a b : String} (ha : a.toList.any Char.isUpper = false)
    (hb : b.toList.any Char.isUpper = false) (h : constant a = constant b) : a = b := by
  have smallAgain : ∀ cs : List Char, cs.any Char.isUpper = false →
      (constantChars false cs).map Char.toLower = cs := by
    intro cs hcs
    rw [constantChars_of_not_isUpper false hcs, List.map_map]
    refine (List.map_congr_left ?_).trans (List.map_id cs)
    intro c hc
    rw [Function.comp_apply, Char.toLower_toUpper_eq_toLower,
      Char.toLower_eq_of_not_isUpper (List.any_eq_false.1 hcs c hc), id]
  have hchars := congrArg (List.map Char.toLower) (String.ofList_injective h)
  rw [smallAgain _ ha, smallAgain _ hb] at hchars
  exact String.toList_injective hchars

/-- A name that can be told from a double underscore after it. How it begins does not matter. -/
structure Separable (name : String) : Prop where
  single : ¬['_', '_'] <:+: name.toList
  closed : name.toList.getLast? ≠ some '_'

instance (name : String) : Decidable (Separable name) :=
  decidable_of_iff (¬['_', '_'] <:+: name.toList ∧ name.toList.getLast? ≠ some '_')
    ⟨fun h => ⟨h.1, h.2⟩, fun h => ⟨h.single, h.closed⟩⟩

/-- What a name ends in does not begin with the double underscore that follows the name. -/
theorem eq_nil_of_append {xs zs vs ws : List Char} (single : ¬['_', '_'] <:+: xs ++ zs)
    (closed : (xs ++ zs).getLast? ≠ some '_') (h : '_' :: '_' :: vs = zs ++ ws) : zs = [] := by
  cases zs with
  | nil => rfl
  | cons z zs =>
    rw [List.cons_append, List.cons.injEq] at h
    obtain ⟨rfl, h⟩ := h
    cases zs with
    | nil => exact absurd List.getLast?_concat closed
    | cons z zs =>
      rw [List.cons_append, List.cons.injEq] at h
      obtain ⟨rfl, -⟩ := h
      exact absurd ⟨xs, zs, by simp⟩ single

namespace Separable

variable {a b v w : String}

theorem constant (ha : Separable a) : Separable (constant a) where
  single := by
    rw [← Text.pairCount_eq_zero_iff, pairCount_constant, Text.pairCount_eq_zero_iff]
    exact ha.single
  closed := fun h => ha.closed (constant_ends_iff.1 h)

theorem append_inj (ha : Separable a) (hb : Separable b)
    (h : a ++ ("__" ++ v) = b ++ ("__" ++ w)) : a = b ∧ v = w := by
  have hchars : a.toList ++ '_' :: '_' :: v.toList = b.toList ++ '_' :: '_' :: w.toList := by
    simpa using congrArg String.toList h
  have hparts : a.toList = b.toList := by
    rcases List.append_eq_append_iff.1 hchars with ⟨zs, hb', hrest⟩ | ⟨zs, ha', hrest⟩
    · obtain rfl := eq_nil_of_append (hb' ▸ hb.single) (hb' ▸ hb.closed) hrest
      simpa using hb'.symm
    · obtain rfl := eq_nil_of_append (ha' ▸ ha.single) (ha' ▸ ha.closed) hrest
      simpa using ha'
  obtain rfl := String.toList_injective hparts
  exact ⟨rfl, (String.append_right_inj _).1 ((String.append_right_inj _).1 h)⟩

end Separable

section Parts

variable {a f v a' f' v' : String} (ha : Separable a) (hf : Separable f) (ha' : Separable a')
  (hf' : Separable f')
include ha hf ha' hf'

theorem enumConstant_eq_iff : enumConstant a f v = enumConstant a' f' v' ↔
    constant a = constant a' ∧ constant f = constant f' ∧ constant v = constant v' := by
  simp only [enumConstant, String.append_assoc]
  constructor
  · intro h
    obtain ⟨hatom, hrest⟩ := ha.constant.append_inj ha'.constant h
    exact ⟨hatom, hf.constant.append_inj hf'.constant hrest⟩
  · rintro ⟨hatom, hfield, hvalue⟩
    rw [hatom, hfield, hvalue]

/-- Where the case of all letters is settled, nothing of the parts is lost. -/
theorem enumConstant_injOn (small : ∀ name ∈ [a, f, a', f'], name.toList.any Char.isUpper = false)
    (capital : ∀ value ∈ [v, v'], value.toList.any Char.isLower = false)
    (h : enumConstant a f v = enumConstant a' f' v') : a = a' ∧ f = f' ∧ v = v' := by
  obtain ⟨hatom, hfield, hvalue⟩ := (enumConstant_eq_iff ha hf ha' hf').1 h
  rw [constant_of_not_isLower (capital v (by simp)),
    constant_of_not_isLower (capital v' (by simp))] at hvalue
  exact ⟨constant_injOn (small a (by simp)) (small a' (by simp)) hatom,
    constant_injOn (small f (by simp)) (small f' (by simp)) hfield, hvalue⟩

end Parts

/-- The constant of a name is its own constant, and has underscores in pairs and at its ends just as
the name has. The constants of enum values are equal just when those of all their parts are; parts in
which letters have one case are then equal themselves. -/
theorem constants_decodable :
    (∀ name, constant (constant name) = constant name) ∧
    (∀ name, pairCount '_' '_' (constant name).toList = pairCount '_' '_' name.toList ∧
      ((constant name).toList.head? = some '_' ↔ name.toList.head? = some '_') ∧
      ((constant name).toList.getLast? = some '_' ↔ name.toList.getLast? = some '_')) ∧
    ∀ a f v a' f' v', Separable a → Separable f → Separable a' → Separable f' →
      (enumConstant a f v = enumConstant a' f' v' ↔
        constant a = constant a' ∧ constant f = constant f' ∧ constant v = constant v') ∧
      ((∀ name ∈ [a, f, a', f'], name.toList.any Char.isUpper = false) →
        (∀ value ∈ [v, v'], value.toList.any Char.isLower = false) →
        enumConstant a f v = enumConstant a' f' v' → a = a' ∧ f = f' ∧ v = v') := by
  refine ⟨constant_constant, ?_, ?_⟩
  · intro name
    exact ⟨pairCount_constant name, constant_starts_iff, constant_ends_iff⟩
  · intro a f v a' f' v' ha hf ha' hf'
    exact ⟨enumConstant_eq_iff ha hf ha' hf', enumConstant_injOn ha hf ha' hf'⟩

theorem constants_decodable_scan :
    (∀ name ∈ ["ble", "scan_state", "ble_scan", "state"], Separable name) ∧
    enumConstant "ble" "scan_state" "OFF" ≠ enumConstant "ble_scan" "state" "OFF" := by
  have separable : ∀ name ∈ ["ble", "scan_state", "ble_scan", "state"], Separable name := by
    decide +kernel
  obtain ⟨-, -, decodable⟩ := constants_decodable
  obtain ⟨-, distinct⟩ := decodable "ble" "scan_state" "OFF" "ble_scan" "state" "OFF"
    (separable _ (by simp)) (separable _ (by simp)) (separable _ (by simp)) (separable _ (by simp))
  refine ⟨separable, ?_⟩
  intro h
  obtain ⟨hatom, -⟩ := distinct (by decide +kernel) (by decide +kernel) h
  exact absurd hatom (by decide)

end AtomLog.Naming
