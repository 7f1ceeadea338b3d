import AtomLog.Schema.OptionKey
import Mathlib.Data.List.Induction
import Mathlib.Data.Nat.Digits.Defs
/-!
Option keys and the texts that spell them.

Main statement: a key is a number just where its text is a numeral of that number, and a nested key
just where its text is two numerals with a dot between; every other text is a name. What is printed
in decimal is read back (`OptionKey.parse_by_grammar`).
-/
namespace AtomLog

theorem Bits.isUnsigned_32_iff {n : Nat} : isUnsigned 32 n = true ↔ n ≤ 4294967295 := by
  have hvalues : values 32 = 4294967296 := rfl
  simp only [isUnsigned, hvalues, Bool.and_eq_true, decide_eq_true_eq]
  omega

theorem isUnsigned_toNat (n : UInt32) : Bits.isUnsigned 32 n.toNat := by
  have hn := n.toNat_lt
  exact Bits.isUnsigned_32_iff.2 (by omega)

namespace OptionKey

/-- Whether characters are the decimal digits, the highest first, of a number that 32 bits hold. -/
def DigitsOf (cs : List Char) (n : Nat) : Prop :=
  ∃ digits : List Nat, digits ≠ [] ∧ (∀ d ∈ digits, d < 10) ∧ cs = digits.map Nat.digitChar ∧
    Nat.ofDigits 10 digits.reverse = n ∧ n ≤ 4294967295

/-- Whether a text is a numeral of a number: its digits, with a plus sign in front or without. -/
def NumeralOf (text : String) (n : Nat) : Prop :=
  ∃ cs, DigitsOf cs n ∧ (text.toList = cs ∨ text.toList = '+' :: cs)

/-! ### Digits -/

theorem digitsValue_eq (cs : List Char) : digitsValue cs = Nat.ofDigitChars 10 cs 0 := by
  rw [digitsValue, Nat.ofDigitChars_eq_foldl]

/-- The value that is read from left to right is the one by powers of ten. -/
theorem digitsValue_map {digits : List Nat} (small : ∀ d ∈ digits, d < 10) :
    digitsValue (digits.map Nat.digitChar) = Nat.ofDigits 10 digits.reverse := by
  rw [digitsValue_eq]
  induction digits using List.reverseRecOn with
  | nil => rfl
  | append_singleton digits d ih =>
    have hd : d < 10 := small d (by simp)
    have hvalue := ih (fun d hd => small d (by simp [hd]))
    rw [List.map_append, Nat.ofDigitChars_append, hvalue, List.map_singleton,
      Nat.ofDigitChars_cons_digitChar_of_lt_ten hd, Nat.ofDigitChars_nil, List.reverse_append,
      List.reverse_singleton, List.singleton_append, Nat.ofDigits_cons, Nat.add_comm]

theorem exists_digitChar {c : Char} (h : c.isDigit = true) : ∃ d < 10, Nat.digitChar d = c := by
  have hbounds : 48 ≤ c.toNat ∧ c.toNat ≤ 57 := Char.isDigit_iff_toNat.1 h
  have hd : c.toNat - 48 < 10 := by omega
  refine ⟨c.toNat - 48, hd, Char.toNat_inj.1 ?_⟩
  rw [Nat.toNat_digitChar_of_lt_ten hd]
  omega

theorem exists_map_digitChar {cs : List Char} (h : ∀ c ∈ cs, c.isDigit = true) :
    ∃ digits : List Nat, (∀ d ∈ digits, d < 10) ∧ cs = digits.map Nat.digitChar := by
  induction cs with
  | nil => exact ⟨[], by simp, rfl⟩
  | cons c cs ih =>
    obtain ⟨d, hd, rfl⟩ := exists_digitChar (h c (by simp))
    obtain ⟨digits, hdigits, rfl⟩ := ih (fun c hc => h c (by simp [hc]))
    exact ⟨d :: digits, by simpa using ⟨hd, hdigits⟩, rfl⟩

section Numerals

variable {cs : List Char} {n : Nat}

theorem digits?_eq_some : digits? cs = some n ↔ DigitsOf cs n := by
  have hread : digits? cs = some n ↔ cs ≠ [] ∧ (∀ c ∈ cs, c.isDigit = true) ∧
      digitsValue cs ≤ 4294967295 ∧ digitsValue cs = n := by
    simp only [digits?, Option.ite_none_right_eq_some, Bool.and_eq_true, Bool.not_eq_true',
      List.isEmpty_eq_false_iff, List.all_eq_true, Bits.isUnsigned_32_iff, Option.some.injEq,
      and_assoc, ne_eq]
  rw [hread]
  constructor
  · intro h
    obtain ⟨hne, hdigits, hsmall, rfl⟩ := h
    obtain ⟨digits, hlt, rfl⟩ := exists_map_digitChar hdigits
    exact ⟨digits, by simpa using hne, hlt, rfl, (digitsValue_map hlt).symm, hsmall⟩
  · intro h
    obtain ⟨digits, hne, hlt, rfl, rfl, hsmall⟩ := h
    rw [digitsValue_map hlt]
    refine ⟨by simpa using hne, ?_, hsmall, rfl⟩
    intro c hc
    obtain ⟨d, hd, rfl⟩ := List.mem_map.1 hc
    simp [Nat.isDigit_digitChar, hlt d hd]

theorem DigitsOf.not_mem (h : DigitsOf cs n) {c : Char} (hc : c.isDigit = false) : c ∉ cs := by
  obtain ⟨digits, -, hlt, rfl, -⟩ := h
  intro hmem
  obtain ⟨d, hd, rfl⟩ := List.mem_map.1 hmem
  simp [Nat.isDigit_digitChar, hlt d hd] at hc

theorem numeral?_eq_some :
    numeral? cs = some n ↔ ∃ ds, DigitsOf ds n ∧ (cs = ds ∨ cs = '+' :: ds) := by
  fun_cases numeral? cs with
  | case1 ds =>
    rw [digits?_eq_some]
    constructor
    · intro h
      exact ⟨ds, h, .inr rfl⟩
    · intro h
      obtain ⟨ds', h, rfl | heq⟩ := h
      · exact absurd List.mem_cons_self (h.not_mem (c := '+') rfl)
      · obtain rfl := (List.cons.inj heq).2
        exact h
  | case2 _ unsigned =>
    rw [digits?_eq_some]
    constructor
    · intro h
      exact ⟨cs, h, .inl rfl⟩
    · intro h
      obtain ⟨ds, h, rfl | heq⟩ := h
      · exact h
      · exact absurd heq (unsigned ds)

theorem numeralOf_iff {text : String} : NumeralOf text n ↔ numeral? text.toList = some n :=
  numeral?_eq_some.symm

theorem NumeralOf.not_mem_dot {text : String} (h : NumeralOf text n) : '.' ∉ text.toList := by
  obtain ⟨cs, hcs, h | h⟩ := h
  · rw [h]
    exact hcs.not_mem rfl
  · rw [h, List.mem_cons, not_or]
    exact ⟨by decide, hcs.not_mem rfl⟩

theorem toList_toString (n : Nat) : (toString n).toList = Nat.toDigits 10 n := by
  rw [Nat.toString_eq_repr, Nat.toList_repr]

/-- The decimal text of a number is a numeral of it. -/
theorem numeralOf_toString (small : Bits.isUnsigned 32 n) : NumeralOf (toString n) n := by
  have hvalue : digitsValue (Nat.toDigits 10 n) = n := by
    rw [digitsValue_eq, Nat.ofDigitChars_ten_toDigits]
  have hdigits : (Nat.toDigits 10 n).all Char.isDigit = true :=
    List.all_eq_true.2 (fun _ => Nat.isDigit_of_mem_toDigits (by decide) (by decide))
  have hread : digits? (Nat.toDigits 10 n) = some n := by
    simp [digits?, hvalue, hdigits, small, Nat.toDigits_ne_nil]
  exact ⟨_, digits?_eq_some.1 hread, .inl (toList_toString n)⟩

end Numerals

/-! ### Dots -/

/-- The first dot splits a text, however many more there are. -/
theorem splitDot?_eq_some {cs xs ys : List Char} :
    splitDot? cs = some (xs, ys) ↔ cs = xs ++ '.' :: ys ∧ '.' ∉ xs := by
  induction cs generalizing xs with
  | nil => simp [splitDot?]
  | cons c cs ih =>
    by_cases hc : c = '.'
    · subst hc
      cases xs <;> simp +contextual [splitDot?, eq_comm]
    · have hstep : splitDot? (c :: cs) = (splitDot? cs).map (fun p => (c :: p.1, p.2)) := by
        simp [splitDot?, hc]
      rw [hstep, Option.map_eq_some_iff]
      constructor
      · intro h
        obtain ⟨⟨zs, ws⟩, hsplit, heq⟩ := h
        cases heq
        obtain ⟨rfl, hdot⟩ := ih.1 hsplit
        exact ⟨rfl, by simp [Ne.symm hc, hdot]⟩
      · intro h
        obtain ⟨heq, hdot⟩ := h
        cases xs with
        | nil => exact absurd (List.cons.inj heq).1 hc
        | cons x xs =>
          cases heq
          exact ⟨(xs, ys), ih.2 ⟨rfl, fun h => hdot (by simp [h])⟩, rfl⟩

theorem nested?_eq_some {key : String} {e f : Nat} : nested? key.toList = some (e, f) ↔
    ∃ a b, key = a ++ "." ++ b ∧ NumeralOf a e ∧ NumeralOf b f := by
  have hread : nested? key.toList = some (e, f) ↔ ∃ xs ys, splitDot? key.toList = some (xs, ys) ∧
      numeral? xs = some e ∧ numeral? ys = some f := by
    simp [nested?, Option.bind_eq_some_iff]
  rw [hread]
  constructor
  · intro h
    obtain ⟨xs, ys, hsplit, he, hf⟩ := h
    refine ⟨String.ofList xs, String.ofList ys, ?_, numeralOf_iff.2 (by simpa using he),
      numeralOf_iff.2 (by simpa using hf)⟩
    apply String.toList_injective
    rw [(splitDot?_eq_some.1 hsplit).1]
    simp
  · intro h
    obtain ⟨a, b, rfl, he, hf⟩ := h
    exact ⟨a.toList, b.toList, splitDot?_eq_some.2 ⟨by simp, he.not_mem_dot⟩, numeralOf_iff.1 he,
      numeralOf_iff.1 hf⟩

/-! ### Keys -/

section Keys

variable {key : String} {n e f : Nat}

theorem NumeralOf.not_nested (h : NumeralOf key n) : nested? key.toList = none := by
  refine Option.eq_none_iff_forall_ne_some.2 (fun p hp => ?_)
  obtain ⟨a, b, rfl, -⟩ := nested?_eq_some.1 hp
  exact h.not_mem_dot (by simp)

theorem parse_eq_nested : parse key = .nested e f ↔
    ∃ a b, key = a ++ "." ++ b ∧ NumeralOf a e ∧ NumeralOf b f := by
  rw [← nested?_eq_some, parse]
  split
  · simp_all
  · split <;> simp_all

theorem parse_eq_number : parse key = .number n ↔ NumeralOf key n := by
  constructor
  · intro h
    rw [parse] at h
    split at h
    · cases h
    · split at h
      · cases h
        exact numeralOf_iff.2 ‹_›
      · cases h
  · intro h
    rw [parse, h.not_nested, numeralOf_iff.1 h]

theorem name_of_parse {name : String} (h : parse key = .name name) : name = key := by
  rw [parse] at h
  split at h
  · cases h
  · split at h
    · cases h
    · exact (OptionKey.name.inj h).symm

theorem parse_eq_name {name : String} : parse key = .name name ↔ name = key ∧
    (¬∃ n, NumeralOf key n) ∧ ¬∃ e f a b, key = a ++ "." ++ b ∧ NumeralOf a e ∧ NumeralOf b f := by
  constructor
  · intro h
    refine ⟨name_of_parse h, ?_, ?_⟩
    · rintro ⟨n, hn⟩
      rw [parse_eq_number.2 hn] at h
      cases h
    · rintro ⟨e, f, hnested⟩
      rw [parse_eq_nested.2 hnested] at h
      cases h
  · intro h
    obtain ⟨rfl, hnumber, hnested⟩ := h
    cases hkey : parse name with
    | number n => exact absurd ⟨n, parse_eq_number.1 hkey⟩ hnumber
    | nested e f => exact absurd ⟨e, f, parse_eq_nested.1 hkey⟩ hnested
    | name text => rw [name_of_parse hkey]

theorem parse_number (small : Bits.isUnsigned 32 n) : parse (toString n) = .number n :=
  parse_eq_number.2 (numeralOf_toString small)

theorem parse_nested (he : Bits.isUnsigned 32 e) (hf : Bits.isUnsigned 32 f) :
    parse s!"{toString e}.{toString f}" = .nested e f :=
  parse_eq_nested.2 ⟨_, _, rfl, numeralOf_toString he, numeralOf_toString hf⟩

end Keys

/-- The grammar of keys. A numeral is a number, two numerals with a dot between are a nested key,
and anything else is a name as it stands; so decimal texts of one or two numbers are read back. -/
theorem parse_by_grammar :
    (∀ key n, parse key = .number n ↔ NumeralOf key n) ∧
    (∀ key e f, parse key = .nested e f ↔
      ∃ a b, key = a ++ "." ++ b ∧ NumeralOf a e ∧ NumeralOf b f) ∧
    (∀ key name, parse key = .name name ↔ name = key ∧ (¬∃ n, NumeralOf key n) ∧
      ¬∃ e f a b, key = a ++ "." ++ b ∧ NumeralOf a e ∧ NumeralOf b f) ∧
    (∀ n : UInt32, parse (toString n) = .number n.toNat) ∧
    (∀ e f : UInt32, parse (toString e ++ "." ++ toString f) = .nested e.toNat f.toNat) := by
  refine ⟨fun _ _ => parse_eq_number, fun _ _ _ => parse_eq_nested, fun _ _ => parse_eq_name,
    ?_, ?_⟩
  · intro n
    exact parse_number (isUnsigned_toNat n)
  · intro e f
    exact parse_nested (isUnsigned_toNat e) (isUnsigned_toNat f)

example : parse "50000.3" = .nested 50000 3 := by decide +kernel

end OptionKey

end AtomLog
