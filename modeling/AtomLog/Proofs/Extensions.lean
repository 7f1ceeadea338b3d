import AtomLog.Descriptor.Content
import AtomLog.Proofs.OptionDocs
import AtomLog.Proofs.OptionKeys
import AtomLog.Proofs.OptionLists
/-!
Options as extensions of a descriptor and as an option table.

An extension map says which extension numbers have which values, apart from any way to write it. A
descriptor can give a whole number in each of its forms that hold it (`ScalarValue.GivenAs`). Main
statement: the options of a descriptor with these extensions and the options of a table that spells
them under decimal keys say the same of a field and of an entry, although the two lists are in
different orders (`ExtensionMap.read_alike`).
-/
namespace AtomLog

open Descriptor (Content rawOptions)

inductive ScalarValue
  | bool (b : Bool)
  | int (n : Int64)
  | str (s : String)

inductive ExtensionValue
  | one (v : ScalarValue)
  | many (vs : List ScalarValue)
  /-- A message, with the values of its fields by number. -/
  | message (fields : SortedMap UInt32 ScalarValue)

abbrev ExtensionMap := SortedMap UInt32 ExtensionValue

namespace ScalarValue

def value : ScalarValue → OptionValue
  | .bool b => .bool b
  | .int n => .int n.toInt
  | .str s => .str s

/-- The contents of an options message that stand for the value. -/
inductive GivenAs : ScalarValue → Content → Prop
  | bool (b : Bool) : GivenAs (.bool b) (.bool b)
  | int32 {n : Int64} {k : Int32} (same : k.toInt = n.toInt) : GivenAs (.int n) (.int32 k)
  | int64 (n : Int64) : GivenAs (.int n) (.int64 n)
  | uint32 {n : Int64} {k : UInt32} (same : k.toNat = n.toInt) : GivenAs (.int n) (.uint32 k)
  | uint64 {n : Int64} {k : UInt64} (same : k.toNat = n.toInt) : GivenAs (.int n) (.uint64 k)
  | enumNumber {n : Int64} {k : Int32} (same : k.toInt = n.toInt) :
      GivenAs (.int n) (.enumNumber k)
  | str (s : String) : GivenAs (.str s) (.str s)

/-- The value in a schema file. -/
def doc : ScalarValue → Doc
  | .bool b => .bool b
  | .int n => .int n.toInt
  | .str s => .str s

end ScalarValue

/-- A member of a message that gives an entry, under the same number. -/
structure MemberGives {α : Type} (given : α → Content → Prop) (e : UInt32 × α)
    (c : Nat × Content) : Prop where
  number : c.1 = e.1.toNat
  content : given e.2 c.2

/-- The text that a number is written as. -/
def decimal (n : UInt32) : String := toString n.toNat

/-- The same map under the decimal texts of its keys, in the order of these texts. -/
def SortedMap.decimalKeys {α : Type} (m : SortedMap UInt32 α) : SortedMap String α :=
  .ofList (m.entries.map (fun e => (decimal e.1, e.2)))

/-- A table of the members of a map under their decimal keys. -/
def SortedMap.docOf {α : Type} (m : SortedMap UInt32 α) (doc : α → Doc) : Doc :=
  .table (m.entries.map (fun e => (.str (decimal e.1), doc e.2)))

namespace ExtensionValue

inductive GivenAs : ExtensionValue → Content → Prop
  | one {v : ScalarValue} {c : Content} (given : v.GivenAs c) : GivenAs (.one v) c
  | many {vs : List ScalarValue} {cs : List Content}
      (given : List.Forall₂ ScalarValue.GivenAs vs cs) : GivenAs (.many vs) (.list cs)
  | message {fields : SortedMap UInt32 ScalarValue} {members : List (Nat × Content)}
      (given : List.Forall₂ (MemberGives ScalarValue.GivenAs) fields.entries members) :
      GivenAs (.message fields) (.message members)

def input : ExtensionValue → OptionInput
  | .one v => .one v.value
  | .many vs => .many (vs.map ScalarValue.value)
  | .message fields => .table (fields.mapValues (fun _ v => v.value)).decimalKeys

def doc : ExtensionValue → Doc
  | .one v => v.doc
  | .many vs => .list (vs.map ScalarValue.doc)
  | .message fields => fields.docOf ScalarValue.doc

/-- The options that an extension stands for, in the order of its fields. -/
def options (n : UInt32) : ExtensionValue → List RawOption
  | .one v => [⟨.number n.toNat, v.value⟩]
  | .many vs => vs.map (fun v => ⟨.number n.toNat, v.value⟩)
  | .message fields => fields.entries.map (fun e => ⟨.nested n.toNat e.1.toNat, e.2.value⟩)

end ExtensionValue

namespace ExtensionMap

/-- An options message has these extensions, in the order of their numbers. -/
def GivenAs (m : ExtensionMap) (members : List (Nat × Content)) : Prop :=
  List.Forall₂ (MemberGives ExtensionValue.GivenAs) m.entries members

/-- The options that the extensions stand for, in that order. -/
def options (m : ExtensionMap) : List RawOption := m.entries.flatMap (fun e => e.2.options e.1)

/-- The option table that spells the extensions. -/
def table (m : ExtensionMap) : OptionTable := (m.mapValues (fun _ x => x.input)).decimalKeys

/-- What a schema file has for that table. -/
def doc (m : ExtensionMap) : Doc := m.docOf ExtensionValue.doc

end ExtensionMap

/-! ### Decimal keys -/

theorem parse_decimal (n : UInt32) : OptionKey.parse (decimal n) = .number n.toNat :=
  OptionKey.parse_number (isUnsigned_toNat n)

theorem parse_decimal_dot (e f : UInt32) :
    OptionKey.parse s!"{decimal e}.{decimal f}" = .nested e.toNat f.toNat :=
  OptionKey.parse_nested (isUnsigned_toNat e) (isUnsigned_toNat f)

theorem decimal_injective {m n : UInt32} (h : decimal m = decimal n) : m = n := by
  have hparse := congrArg OptionKey.parse h
  rw [parse_decimal, parse_decimal] at hparse
  exact UInt32.toNat_inj.1 (OptionKey.number.inj hparse)

theorem SortedMap.entries_ofList_perm {κ α : Type} [Ord κ] [Std.TransOrd κ] [Std.LawfulEqOrd κ]
    [DecidableEq κ] {ps : List (κ × α)} (distinct : ps.Pairwise (fun p q => p.1 ≠ q.1)) :
    (ofList ps).entries.Perm ps := by
  have nodup : ∀ {qs : List (κ × α)}, qs.Pairwise (fun p q => p.1 ≠ q.1) → qs.Nodup :=
    fun h => h.imp (fun hpq heq => hpq (congrArg Prod.fst heq))
  rw [List.perm_ext_iff_of_nodup (nodup (entries_pairwise_ne _)) (nodup distinct)]
  intro p
  rw [mem_entries_iff, get?_ofList_eq_some distinct]

/-- Entries under decimal keys are the entries under the numbers, in another order. -/
theorem SortedMap.decimalKeys_perm {α : Type} (m : SortedMap UInt32 α) :
    m.decimalKeys.entries.Perm (m.entries.map (fun e => (decimal e.1, e.2))) := by
  apply entries_ofList_perm
  rw [List.pairwise_map]
  exact m.entries_pairwise_ne.imp (fun hne heq => hne (decimal_injective heq))

/-! ### One extension -/

theorem isSigned_toInt (n : Int64) : Bits.isSigned 64 n.toInt = true := by
  have hlow := n.le_toInt
  have hhigh := n.toInt_lt
  have hvalues : Bits.values 63 = 2 ^ 63 := rfl
  simp only [Bits.isSigned, hvalues, Bool.and_eq_true, decide_eq_true_eq]
  omega

theorem ScalarValue.GivenAs.values {v : ScalarValue} {c : Content} (h : v.GivenAs c) :
    c.values = [v.value] := by
  cases h with
  | bool | str | int64 => rfl
  | int32 same | uint32 same | enumNumber same => simp only [Content.values, value, same]
  -- The number is signed, so it is kept although the form is not.
  | uint64 same => simp only [Content.values, value, same, isSigned_toInt, if_true]

theorem ScalarValue.exists_givenAs (v : ScalarValue) : ∃ c, v.GivenAs c := by
  cases v with
  | bool b => exact ⟨_, .bool b⟩
  | int n => exact ⟨_, .int64 n⟩
  | str s => exact ⟨_, .str s⟩

theorem ScalarValue.valuesAll_of_givenAs {vs : List ScalarValue} {cs : List Content}
    (h : List.Forall₂ GivenAs vs cs) : Content.valuesAll cs = vs.map value := by
  induction h with
  | nil => rfl
  | cons given _ ih => simp [Content.valuesAll, given.values, ih]

theorem exists_forall₂ {α β : Type} {R : α → β → Prop} (h : ∀ a, ∃ b, R a b) (as : List α) :
    ∃ bs, List.Forall₂ R as bs := by
  choose f hf using h
  exact ⟨as.map f, List.forall₂_map_right_iff.2 (List.forall₂_same.2 (fun a _ => hf a))⟩

theorem exists_members {α : Type} {given : α → Content → Prop} (h : ∀ a, ∃ c, given a c)
    (es : List (UInt32 × α)) : ∃ members, List.Forall₂ (MemberGives given) es members := by
  apply exists_forall₂
  intro e
  obtain ⟨c, hc⟩ := h e.2
  exact ⟨(e.1.toNat, c), rfl, hc⟩

theorem flatMap_eq_of_forall₂ {α β γ : Type} {R : α → β → Prop} {f : α → List γ} {g : β → List γ}
    {as : List α} {bs : List β} (h : List.Forall₂ R as bs) (same : ∀ a b, R a b → g b = f a) :
    bs.flatMap g = as.flatMap f := by
  induction h with
  | nil => rfl
  | cons head _ ih => rw [List.flatMap_cons, List.flatMap_cons, same _ _ head, ih]

namespace ExtensionValue

theorem exists_givenAs (x : ExtensionValue) : ∃ c, x.GivenAs c := by
  cases x with
  | one v =>
    obtain ⟨c, given⟩ := v.exists_givenAs
    exact ⟨c, .one given⟩
  | many vs =>
    obtain ⟨cs, given⟩ := exists_forall₂ ScalarValue.exists_givenAs vs
    exact ⟨_, .many given⟩
  | message fields =>
    obtain ⟨members, given⟩ := exists_members ScalarValue.exists_givenAs fields.entries
    exact ⟨_, .message given⟩

theorem GivenAs.options {n : UInt32} {x : ExtensionValue} {c : Content} (h : x.GivenAs c) :
    c.options n.toNat = x.options n := by
  cases h with
  | one given =>
    have hvalues := given.values
    -- A scalar is not given as a message, so its options are its values under one number.
    cases given <;> simp only [Content.options, ExtensionValue.options, hvalues, List.map_singleton]
  | many given =>
    simp only [Content.options, Content.values, ScalarValue.valuesAll_of_givenAs given,
      List.map_map, ExtensionValue.options]
    rfl
  | message given =>
    rw [Content.options, ExtensionValue.options, List.map_eq_flatMap]
    refine flatMap_eq_of_forall₂ given ?_
    rintro e ⟨_, c⟩ ⟨rfl, hgiven⟩
    simp only [hgiven.values, List.map_singleton]

/-- The options under a decimal key are those of the extension, but come in the order of the decimal
texts of its fields. -/
theorem options_input_perm (n : UInt32) (x : ExtensionValue) :
    (x.input.options (decimal n)).Perm (x.options n) := by
  cases x with
  | one v => simp [input, OptionInput.options, options, parse_decimal]
  | many vs => simp [input, OptionInput.options, options, parse_decimal, Function.comp_def]
  | message fields =>
    have hperm := (fields.mapValues (fun _ v => v.value)).decimalKeys_perm.map
      (fun e => (⟨OptionKey.parse s!"{decimal n}.{e.1}", e.2⟩ : RawOption))
    simpa [input, OptionInput.options, options, SortedMap.mapValues, Function.comp_def,
      parse_decimal_dot] using hperm

end ExtensionValue

/-! ### Log modes -/

/-- The keys that set a log mode under the standard options: one number, and names. -/
def OptionKey.SetsMode (k : OptionKey) : Prop := k = .number 50002 ∨ ∃ name, k = .name name

theorem Registry.setsMode_of_meaning? {o : RawOption} {mode : Int}
    (h : standard.meaning? .field o = some (.logMode mode)) : o.key.SetsMode := by
  rcases key_of_setMode? (setMode?_eq_some.2 (meaning?_eq_logMode.1 h)) with hkey | hkey
  · exact .inl hkey
  · exact .inr ⟨_, hkey⟩

theorem logModes_eq_nil {os : List RawOption} (other : ∀ o ∈ os, ¬o.key.SetsMode) :
    logModes .standard os = [] := by
  rw [List.eq_nil_iff_forall_not_mem]
  intro mode hmode
  obtain ⟨m, hm, hmode⟩ := List.mem_filterMap.1 hmode
  obtain ⟨o, ho, hm⟩ := List.mem_filterMap.1 hm
  cases m with
  | logMode i => exact other o ho (Registry.setsMode_of_meaning? hm)
  | _ => cases hmode

namespace ExtensionValue

/-- Other extensions, and the fields of a message, set no log mode. -/
theorem logModes_options {n : UInt32} {x : ExtensionValue}
    (other : n.toNat ≠ 50002 ∨ ∃ fields, x = .message fields) :
    logModes .standard (x.options n) = [] := by
  apply logModes_eq_nil
  intro o ho
  cases x with
  | message fields =>
    obtain ⟨e, -, rfl⟩ := List.mem_map.1 ho
    simp [OptionKey.SetsMode]
  | one v =>
    obtain rfl := List.mem_singleton.1 ho
    simpa [OptionKey.SetsMode] using other
  | many vs =>
    obtain ⟨v, -, rfl⟩ := List.mem_map.1 ho
    simpa [OptionKey.SetsMode] using other

/-- The values of a list keep their order under a decimal key, and so do the log modes. -/
theorem logModes_input (n : UInt32) (x : ExtensionValue) :
    logModes .standard (x.input.options (decimal n)) = logModes .standard (x.options n) := by
  cases x with
  | one v => rw [input, OptionInput.options, options, parse_decimal]
  | many vs =>
    rw [input, OptionInput.options, options, parse_decimal, List.map_map]
    rfl
  | message fields =>
    have hmodes : (logModes .standard ((message fields).input.options (decimal n))).Perm
        (logModes .standard ((message fields).options n)) :=
      ((options_input_perm n (.message fields)).filterMap _).filterMap _
    rw [logModes_options (.inr ⟨fields, rfl⟩)] at hmodes ⊢
    exact hmodes.eq_nil

end ExtensionValue

/-- Lists of which no two have elements are appended alike in every order. -/
theorem flatMap_perm_eq {α β : Type} {f : α → List β} {xs ys : List α} (hperm : xs.Perm ys)
    (single : xs.Pairwise (fun x y => f x = [] ∨ f y = [])) : xs.flatMap f = ys.flatMap f := by
  induction hperm with
  | nil => rfl
  | cons x _ ih => rw [List.flatMap_cons, List.flatMap_cons, ih (List.pairwise_cons.1 single).2]
  | swap x y zs =>
    have hxy := (List.pairwise_cons.1 single).1 x (by simp)
    rcases hxy with h | h <;> simp [h]
  | trans hxy _ ihx ihy =>
    exact (ihx single).trans (ihy (hxy.pairwise single (fun h => h.symm)))

theorem logModes_flatMap {α : Type} (r : Registry) (xs : List α) (f : α → List RawOption) :
    logModes r (xs.flatMap f) = xs.flatMap (fun x => logModes r (f x)) := by
  simp only [logModes, List.filterMap_flatMap]

/-! ### All extensions -/

namespace ExtensionMap

variable (m : ExtensionMap)

theorem GivenAs.rawOptions {m : ExtensionMap} {members : List (Nat × Content)}
    (h : m.GivenAs members) : Descriptor.rawOptions members = m.options := by
  refine flatMap_eq_of_forall₂ h ?_
  rintro e ⟨_, c⟩ ⟨rfl, hgiven⟩
  exact hgiven.options

theorem table_perm :
    m.table.entries.Perm (m.entries.map (fun e => (decimal e.1, e.2.input))) := by
  have hperm := (m.mapValues (fun _ x => x.input)).decimalKeys_perm
  rwa [SortedMap.mapValues, List.map_map] at hperm

theorem flatten_perm : m.table.flatten.Perm m.options := by
  have hperm := m.table_perm.flatMap_right (fun e => e.2.options e.1)
  rw [List.flatMap_map] at hperm
  exact hperm.trans (.flatMap (.refl _) (fun e _ => e.2.options_input_perm e.1))

/-- All log modes come from one extension, so their order is that of its values. -/
theorem logModes_flatten :
    logModes .standard m.table.flatten = logModes .standard m.options := by
  have single : (m.entries.map (fun e => (decimal e.1, e.2.input))).Pairwise (fun a b =>
      logModes .standard (a.2.options a.1) = [] ∨ logModes .standard (b.2.options b.1) = []) := by
    rw [List.pairwise_map]
    refine m.entries_pairwise_ne.imp (fun {a b} hne => ?_)
    simp only [ExtensionValue.logModes_input]
    by_cases ha : a.1.toNat = 50002
    · have hb : b.1.toNat ≠ 50002 := fun hb => hne (UInt32.toNat_inj.1 (ha.trans hb.symm))
      exact .inr (ExtensionValue.logModes_options (.inl hb))
    · exact .inl (ExtensionValue.logModes_options (.inl ha))
  calc logModes .standard m.table.flatten
      = m.table.entries.flatMap (fun e => logModes .standard (e.2.options e.1)) :=
        logModes_flatMap ..
    _ = (m.entries.map (fun e => (decimal e.1, e.2.input))).flatMap
          (fun e => logModes .standard (e.2.options e.1)) :=
        (flatMap_perm_eq m.table_perm.symm single).symm
    _ = m.entries.flatMap (fun e => logModes .standard (e.2.options e.1)) := by
        simp only [List.flatMap_map, ExtensionValue.logModes_input]
    _ = logModes .standard m.options := (logModes_flatMap ..).symm

end ExtensionMap

/-! ### Schema files -/

theorem ScalarValue.scalar_doc (v : ScalarValue) : v.doc.Scalar v.value := by
  cases v with
  | bool b => exact .bool b
  | int n => exact .int (isSigned_toInt n)
  | str s => exact .str s

theorem ScalarValue.isScalar_doc (v : ScalarValue) : v.doc.IsScalar := ⟨_, v.scalar_doc⟩

@[simp] theorem ScalarValue.scalarOf_doc (v : ScalarValue) : v.doc.scalarOf = v.value :=
  (v.isScalar_doc.scalar_iff.1 v.scalar_doc).symm

theorem SortedMap.lists_docOf {α : Type} (m : SortedMap UInt32 α) (doc : α → Doc) :
    (m.docOf doc).Lists (m.entries.map (fun e => (decimal e.1, doc e.2))) := by
  simp [Doc.Lists, docOf, Doc.members?]

theorem ExtensionValue.fit_doc {s s' : Setting} (inner : s.enter = .ok s') (x : ExtensionValue) :
    OptionInput.fit s x.doc = .ok x.input := by
  cases x with
  | one v =>
    rw [doc, OptionInput.fit_scalar v.isScalar_doc, v.scalarOf_doc]
    rfl
  | many vs =>
    have hscalars : ∀ d ∈ vs.map ScalarValue.doc, d.IsScalar :=
      List.forall_mem_map.2 (fun v _ => v.isScalar_doc)
    rw [doc, OptionInput.fit_list inner hscalars]
    simp [input, Function.comp_def]
  | message fields =>
    have hscalars : ∀ e ∈ fields.entries.map (fun e => (decimal e.1, e.2.doc)), e.2.IsScalar :=
      List.forall_mem_map.2 (fun e _ => e.2.isScalar_doc)
    rw [doc, OptionInput.fit_table inner (fields.lists_docOf ScalarValue.doc) hscalars]
    simp [input, SortedMap.decimalKeys, SortedMap.mapValues, Function.comp_def]

namespace ExtensionMap

/-- Wherever a table and what it holds can be entered, the extensions are read as their table. -/
theorem optionsFit_doc {s s₁ s₂ : Setting} (outer : s.enter = .ok s₁) (inner : s₁.enter = .ok s₂)
    (m : ExtensionMap) : optionsFit s m.doc = .ok m.table.flatten := by
  have htable : OptionTable.fit s m.doc = .ok m.table := by
    rw [OptionTable.fit, doc, Fit.map_eq_ok outer (m.lists_docOf ExtensionValue.doc)
      (fun e _ => e.2.fit_doc inner)]
    simp [table, SortedMap.decimalKeys, SortedMap.mapValues, Function.comp_def]
  rw [optionsFit, htable]
  rfl

/-- The options of a field or an entry with these extensions are the same whether they come from its
descriptor, which may give each number in any form that holds it, or from a schema file: the table
that spells them says the same, and any file with room for the table is read as that table. -/
theorem read_alike (m : ExtensionMap) : (∃ members, m.GivenAs members) ∧
    (∀ members, m.GivenAs members →
      FieldOptions.read .standard (rawOptions members) = .read .standard m.table.flatten ∧
        AtomOptions.read .standard (rawOptions members) = .read .standard m.table.flatten) ∧
    ∀ s s₁ s₂ : Setting, s.enter = .ok s₁ → s₁.enter = .ok s₂ →
      optionsFit s m.doc = .ok m.table.flatten := by
  have hperm : m.options.Perm m.table.flatten := m.flatten_perm.symm
  have hmodes : logModes .standard m.options = logModes .standard m.table.flatten :=
    m.logModes_flatten.symm
  refine ⟨exists_members ExtensionValue.exists_givenAs m.entries, ?_, ?_⟩
  · intro members given
    rw [given.rawOptions]
    exact ⟨FieldOptions.read_congr hperm hmodes, AtomOptions.read_perm .standard hperm⟩
  · intro s s₁ s₂ outer inner
    exact m.optionsFit_doc outer inner

/-- The state options by field, two modules and a field with two log modes. -/
def sample : ExtensionMap where
  entries :=
    [(50000, .message ⟨[(4, .int 7), (10, .bool true)], by decide⟩),
      (50002, .many [.int 1, .int 2]), (500004, .many [.str "a", .str "b"])]
  ascending := by decide

/-- The same in a descriptor, with an enum value among the log modes. -/
def sampleMembers : List (Nat × Content) :=
  [(50000, .message [(4, .int32 7), (10, .bool true)]),
    (50002, .list [.enumNumber 1, .uint64 2]), (500004, .list [.str "a", .str "b"])]

theorem sample_givenAs : sample.GivenAs sampleMembers := by
  have state : ExtensionValue.GivenAs (.message ⟨[(4, .int 7), (10, .bool true)], by decide⟩)
      (.message [(4, .int32 7), (10, .bool true)]) :=
    .message (.cons ⟨rfl, .int32 rfl⟩ (.cons ⟨rfl, .bool _⟩ .nil))
  have modes : ExtensionValue.GivenAs (.many [.int 1, .int 2]) (.list [.enumNumber 1, .uint64 2]) :=
    .many (.cons (.enumNumber rfl) (.cons (.uint64 rfl) .nil))
  have modules : ExtensionValue.GivenAs (.many [.str "a", .str "b"]) (.list [.str "a", .str "b"]) :=
    .many (.cons (.str _) (.cons (.str _) .nil))
  exact .cons ⟨rfl, state⟩ (.cons ⟨rfl, modes⟩ (.cons ⟨rfl, modules⟩ .nil))

theorem read_alike_sample : sample.GivenAs sampleMembers ∧
    FieldOptions.read .standard (rawOptions sampleMembers) =
        .read .standard sample.table.flatten ∧
      AtomOptions.read .standard (rawOptions sampleMembers) =
        .read .standard sample.table.flatten ∧
      optionsFit .json sample.doc = .ok sample.table.flatten ∧
      rawOptions sampleMembers ≠ sample.table.flatten := by
  obtain ⟨-, hread, hfit⟩ := read_alike sample
  obtain ⟨hfield, hatom⟩ := hread sampleMembers sample_givenAs
  exact ⟨sample_givenAs, hfield, hatom, hfit .json _ _ rfl rfl, by decide +kernel⟩

end ExtensionMap

end AtomLog
