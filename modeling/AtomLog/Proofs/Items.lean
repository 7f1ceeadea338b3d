import AtomLog.Emit.Rust
import AtomLog.Proofs.Catalog
import Mathlib
/-!
The items of the Rust module: the variants of its enum of atoms, and its functions.

A variant is the name of an atom without its underscores, and an underscore can be told from the
capital after it. So what two names have to differ in is more than the underscores that no letter
follows. Functions have prefixes, and one prefix begins with another one. Main statement: for atoms
with names of their own, the variants are distinct just when the names are without such underscores,
and the functions just when no name is another name with the rest of the longer prefix before it
(`Emit.Rust.items_nodup_iff`).
-/
namespace AtomLog

namespace Naming

/-- A small letter, a digit or an underscore. -/
def isSnakeChar (c : Char) : Bool := c.isLower || c.isDigit || c == '_'

/-- Whether a name is a small letter and then small letters, digits and underscores. -/
def isSnake (name : String) : Bool :=
  name.toList.head?.any Char.isLower && name.toList.all isSnakeChar

/-- Drop the underscores that no letter follows. -/
def tightChars : List Char → List Char
  | [] => []
  | c :: cs =>
    if c = '_' ∧ cs.head?.any Char.isLower = false then tightChars cs else c :: tightChars cs

def tight (name : String) : String := String.ofList (tightChars name.toList)

section Chars

variable {c : Char} {cs : List Char}

theorem isSnakeChar_iff : isSnakeChar c = true ↔ c.isLower = true ∨ c.isDigit = true ∨ c = '_' := by
  simp [isSnakeChar, or_assoc]

theorem toNat_lt_of_isSnakeChar (h : isSnakeChar c = true) : c.toNat < 0x80 := by
  simp only [isSnakeChar_iff, Char.isLower, Char.isDigit, Bool.and_eq_true, decide_eq_true_eq,
    ge_iff_le, UInt32.le_iff_toNat_le, Char.toNat_val] at h
  rcases h with ⟨-, h⟩ | ⟨-, h⟩ | rfl
  · exact Nat.lt_of_le_of_lt h (by decide)
  · exact Nat.lt_of_le_of_lt h (by decide)
  · decide

theorem not_isLower_of_isDigit (h : c.isDigit = true) : c.isLower = false := by
  simp only [Char.isDigit, Char.isLower, Bool.and_eq_true, Bool.and_eq_false_iff, decide_eq_true_eq,
    decide_eq_false_iff_not, ge_iff_le, UInt32.le_iff_toNat_le] at h ⊢
  exact .inl (fun hle => absurd (hle.trans h.2) (by decide))

theorem not_isUpper_of_isDigit (h : c.isDigit = true) : c.isUpper = false := by
  simp only [Char.isDigit, Char.isUpper, Bool.and_eq_true, decide_eq_true_eq,
    decide_eq_false_iff_not, ge_iff_le, UInt32.le_iff_toNat_le] at h ⊢
  exact fun hle => absurd (hle.1.trans h.2) (by decide)

theorem pascalChars_cons (snake : isSnakeChar c = true) (atStart : Bool) :
    pascalChars atStart (c :: cs) = if c = '_' then pascalChars true cs
      else (if atStart then c.toUpper else c) :: pascalChars false cs := by
  have hyphen : c ≠ '-' := by
    rintro rfl
    exact absurd snake (by decide)
  have hupper : Text.upper c = [c.toUpper] := if_pos (toNat_lt_of_isSnakeChar snake)
  rw [pascalChars, hupper]
  by_cases h : c = '_' <;> cases atStart <;> simp [h, hyphen]

/-! ### Underscores that no letter follows -/

theorem tightChars_cons (h : c ≠ '_') : tightChars (c :: cs) = c :: tightChars cs := by
  rw [tightChars, if_neg (fun hc => h hc.1)]

/-- Underscores that no letter follows change nothing. -/
theorem pascalChars_tightChars (snake : ∀ c ∈ cs, isSnakeChar c = true) (atStart : Bool) :
    pascalChars atStart (tightChars cs) = pascalChars atStart cs := by
  induction cs generalizing atStart with
  | nil => rfl
  | cons c cs ih =>
    obtain ⟨hc, hcs⟩ := List.forall_mem_cons.1 snake
    rw [tightChars, pascalChars_cons hc]
    split
    · rename_i hdrop
      obtain ⟨rfl, hnext⟩ := hdrop
      rw [ih hcs, if_pos rfl]
      -- what comes next has no capital, so it does not matter whether a word starts with it
      cases cs with
      | nil => rfl
      | cons d ds =>
        obtain ⟨hd, -⟩ := List.forall_mem_cons.1 hcs
        have hlower : d.isLower = false := by simpa using hnext
        rw [pascalChars_cons hd, pascalChars_cons hd,
          Char.toUpper_eq_of_not_isLower (by simp [hlower])]
        simp
    · rw [pascalChars_cons hc, ih hcs, ih hcs]

/-- Put an underscore and a small letter for each capital. -/
def splitCapitals (cs : List Char) : List Char :=
  cs.flatMap (fun c => if c.isUpper then ['_', c.toLower] else [c])

theorem splitCapitals_cons (c : Char) (cs : List Char) : splitCapitals (c :: cs) =
    (if c.isUpper then ['_', c.toLower] else [c]) ++ splitCapitals cs := rfl

/-- The capitals give back the underscores that letters follow. -/
theorem splitCapitals_pascalChars (snake : ∀ c ∈ cs, isSnakeChar c = true) (atStart : Bool) :
    splitCapitals (pascalChars atStart cs) = tightChars (if atStart then '_' :: cs else cs) := by
  induction cs generalizing atStart with
  | nil => cases atStart <;> rfl
  | cons c cs ih =>
    obtain ⟨hc, hcs⟩ := List.forall_mem_cons.1 snake
    rw [pascalChars_cons hc]
    rcases isSnakeChar_iff.1 hc with hlower | hdigit | rfl
    · have hne : c ≠ '_' := by
        rintro rfl
        exact absurd hlower (by decide)
      have hupper := Char.not_isUpper_of_isLower hlower
      rw [if_neg hne, splitCapitals_cons, ih hcs]
      cases atStart with
      | false => simp [hupper, tightChars_cons hne]
      | true =>
        have hsmall : c.toUpper.toLower = c := by
          rw [Char.toLower_toUpper_eq_toLower, Char.toLower_eq_of_not_isUpper hupper]
        simp [Char.isAlpha, hlower, hsmall, tightChars, hne]
    · have hne : c ≠ '_' := by
        rintro rfl
        exact absurd hdigit (by decide)
      have hlower := not_isLower_of_isDigit hdigit
      have hsame : (if atStart then c.toUpper else c) = c := by
        rw [Char.toUpper_eq_of_not_isLower (by simp [hlower]), ite_self]
      rw [if_neg hne, hsame, splitCapitals_cons, ih hcs]
      cases atStart <;> simp [not_isUpper_of_isDigit hdigit, tightChars, hne, hlower]
    · rw [if_pos rfl, ih hcs]
      cases atStart with
      | false => rfl
      | true =>
        rw [if_pos rfl, if_pos rfl, tightChars.eq_2 '_' ('_' :: cs)]
        exact (if_pos ⟨rfl, rfl⟩).symm

end Chars

/-- Names give one variant just when they differ in underscores that no letter follows. -/
theorem pascalCase_eq_iff {a b : String} (ha : isSnake a = true) (hb : isSnake b = true) :
    pascalCase a = pascalCase b ↔ tight a = tight b := by
  simp only [isSnake, Bool.and_eq_true, List.all_eq_true] at ha hb
  have tight_of_letter : ∀ {cs : List Char}, cs.head?.any Char.isLower = true →
      tightChars ('_' :: cs) = '_' :: tightChars cs := by
    intro cs h
    rw [tightChars, if_neg (by simp [h])]
  constructor
  · intro h
    have hchars := congrArg splitCapitals (String.ofList_injective h)
    rw [splitCapitals_pascalChars ha.2, splitCapitals_pascalChars hb.2, if_pos rfl, if_pos rfl,
      tight_of_letter ha.1, tight_of_letter hb.1] at hchars
    exact congrArg String.ofList (List.cons.inj hchars).2
  · intro h
    have hchars := congrArg (pascalChars true) (String.ofList_injective h)
    rw [pascalChars_tightChars ha.2, pascalChars_tightChars hb.2] at hchars
    exact congrArg String.ofList hchars

end Naming

namespace Emit.Rust

/-! ### Functions -/

theorem functionName_chained_inj {a b : Atom}
    (h : functionName a.chained = functionName b.chained) : a.name = b.name := by
  have hhead := congrArg (fun name => name.toList.head?) h
  simp only [functionName, pushedName, Atom.chained_kind, Atom.chained_name] at h hhead
  cases ha : a.kind <;> cases hb : b.kind <;> simp only [ha, hb] at h hhead
  · exact (String.append_right_inj _).1 h
  · simp at hhead
  · simp at hhead
  · exact (String.append_right_inj _).1 h

/-- The prefix of a flat function begins with the prefix of a pushed one. -/
theorem functionName_chained_eq_flat {a b : Atom} :
    functionName a.chained = (flatFunction b).name ↔
      a.kind = .pushed ∧ a.name = "non_chained_" ++ b.name := by
  have hlonger : (flatFunction b).name = "stats_write_" ++ ("non_chained_" ++ b.name) := by
    rw [← String.append_assoc]
    rfl
  rw [hlonger]
  simp only [functionName, pushedName, Atom.chained_kind, Atom.chained_name]
  cases a.kind with
  | pushed => simp [String.append_right_inj]
  | pulled =>
    simp only [reduceCtorEq, false_and, iff_false]
    intro h
    have hhead := congrArg (fun name => name.toList.head?) h
    simp at hhead

theorem functions_nodup_iff {ctx : Context}
    (distinct : (ctx.catalog.toList.map Atom.name).Nodup) :
    ((functions ctx).map Function.name).Nodup ↔
      ∀ a ∈ supported ctx, a.kind = .pushed → ∀ b ∈ supported ctx, b.nonChained = true →
        a.name ≠ "non_chained_" ++ b.name := by
  have distinct_filter : ∀ p : Atom → Bool, ((ctx.catalog.toList.filter p).map Atom.name).Nodup :=
    fun p => distinct.sublist (List.filter_sublist.map _)
  have hchained : ((supported ctx).map (fun a => functionName a.chained)).Nodup := by
    refine List.Pairwise.map _ ?_ (List.pairwise_map.1 (distinct_filter _))
    intro a b hne heq
    exact hne (functionName_chained_inj heq)
  have hflat : (((supported ctx).filter Atom.nonChained).map
      (fun a => (flatFunction a).name)).Nodup := by
    refine List.Pairwise.map _ ?_ ((List.pairwise_map.1 (distinct_filter _)).filter _)
    intro a b hne heq
    exact hne ((String.append_right_inj _).1 heq)
  have hnames : (functions ctx).map Function.name =
      (supported ctx).map (fun a => functionName a.chained) ++
        ((supported ctx).filter Atom.nonChained).map (fun a => (flatFunction a).name) := by
    rw [functions, List.map_append, List.map_map, List.map_map]
    rfl
  rw [hnames, List.nodup_append]
  simp only [hchained, hflat, true_and, List.forall_mem_map, List.mem_filter, and_imp, ne_eq,
    functionName_chained_eq_flat, not_and]
  constructor
  · intro h a ha pushed b hb flat
    exact h a ha b hb flat pushed
  · intro h a ha b hb flat pushed
    exact h a ha pushed b hb flat

/-! ### Variants -/

theorem atomVariants_nodup_iff {ctx : Context}
    (snake : ∀ a ∈ ctx.catalog.toList, Naming.isSnake a.name = true) :
    ((atomVariants ctx).map Prod.fst).Nodup ↔
      (ctx.catalog.toList.map (fun a => Naming.tight a.name)).Nodup := by
  simp only [atomVariants, List.map_map, List.Nodup, List.pairwise_map]
  refine List.Pairwise.iff_of_mem ?_
  intro a b ha hb
  exact not_congr (Naming.pascalCase_eq_iff (snake a ha) (snake b hb))

/-- For atoms with names of their own, the variants are distinct just when the names still are
without the underscores that no letter follows, and the functions just when no pushed atom has the
name that a flat function of another one has. -/
theorem items_nodup_iff {ctx : Context} (distinct : (ctx.catalog.toList.map Atom.name).Nodup)
    (snake : ∀ a ∈ ctx.catalog.toList, Naming.isSnake a.name = true) :
    (((atomVariants ctx).map Prod.fst).Nodup ↔
      (ctx.catalog.toList.map (fun a => Naming.tight a.name)).Nodup) ∧
    (((functions ctx).map Function.name).Nodup ↔
      ∀ a ∈ supported ctx, a.kind = .pushed → ∀ b ∈ supported ctx, b.nonChained = true →
        a.name ≠ "non_chained_" ++ b.name) :=
  ⟨atomVariants_nodup_iff snake, functions_nodup_iff distinct⟩

/-- A pushed atom without fields. -/
def bareAtom (code : Int) (name : String) : Atom := { code, name }

/-- A pushed atom with a flat function. -/
def sessionAtom : Atom where
  code := 12
  name := "session"
  fields := [⟨"uid", .int32, ∅⟩, ⟨"tag", .string, ∅⟩]
  nonChained := true

def contextOf (as : List Atom) : Context := ⟨.ofAtoms as, default, .all⟩

theorem items_nodup_iff_wifi :
    let ctx := contextOf [sessionAtom, bareAtom 20 "wifi_scan", bareAtom 21 "wifi_5ghz"]
    (ctx.catalog.toList.map Atom.name).Nodup ∧
    (∀ a ∈ ctx.catalog.toList, Naming.isSnake a.name = true) ∧
    ((atomVariants ctx).map Prod.fst).Nodup ∧ ((functions ctx).map Function.name).Nodup := by
  intro ctx
  have distinct : (ctx.catalog.toList.map Atom.name).Nodup := by decide +kernel
  have snake : ∀ a ∈ ctx.catalog.toList, Naming.isSnake a.name = true := by decide +kernel
  obtain ⟨variants, functions⟩ := items_nodup_iff distinct snake
  exact ⟨distinct, snake, variants.2 (by decide +kernel), functions.2 (by decide +kernel)⟩

/-- Two names differ in an underscore before a digit, and two in the rest of the longer prefix. -/
theorem not_items_nodup :
    (let ctx := contextOf [bareAtom 20 "wifi5", bareAtom 21 "wifi_5"];
      (ctx.catalog.toList.map Atom.name).Nodup ∧
      (∀ a ∈ ctx.catalog.toList, Naming.isSnake a.name = true) ∧
      ¬((atomVariants ctx).map Prod.fst).Nodup) ∧
    (let ctx := contextOf [sessionAtom, bareAtom 20 "non_chained_session"];
      (ctx.catalog.toList.map Atom.name).Nodup ∧
      (∀ a ∈ ctx.catalog.toList, Naming.isSnake a.name = true) ∧
      ¬((functions ctx).map Function.name).Nodup) := by
  decide +kernel

end Emit.Rust

end AtomLog
