import AtomLog.Proofs.OptionDocs
import AtomLog.Proofs.OptionKeys
import AtomLog.Proofs.OptionLists
import AtomLog.Text.Bytes
/-!
Option tables as they are written, and the options that they stand for.

A scalar of a table has a place: a key, an index of the list under a key, or a key of the table under
a key. Main statement: a table stands for one option for each of its scalars, in the order of their
places, and writing the fields of an inner table under keys with a dot changes at most the order,
which neither an entry nor a field depends on (`OptionTable.fit_flattens`).
-/
namespace AtomLog

namespace OptionTable

/-- Where a scalar stands in an option table: under a key, at an index of the list there, or under a
key of the table there. -/
inductive Place
  | one (key : String)
  | item (key : String) (index : Nat)
  | field (key inner : String)
  deriving DecidableEq

namespace Place

def key : Place → String
  | one key | item key _ | field key _ => key

/-- The text of the option key that a place stands for. -/
def text : Place → String
  | one key | item key _ => key
  | field key inner => key ++ "." ++ inner

/-- The order of places: keys by their bytes, elements by their indices, fields by their bytes. -/
inductive Before : Place → Place → Prop
  | keys {p q : Place} (h : Text.bytes p.key < Text.bytes q.key) : Before p q
  | items {key : String} {i j : Nat} (h : i < j) : Before (.item key i) (.item key j)
  | fields {key f g : String} (h : Text.bytes f < Text.bytes g) :
    Before (.field key f) (.field key g)

end Place

/-- The option of a scalar at a place. -/
def option (leaf : Place × OptionValue) : RawOption := ⟨OptionKey.parse leaf.1.text, leaf.2⟩

end OptionTable

open OptionTable (Place)

/-- Whether a value has a scalar at a place, where it stands under the key of the place. -/
def Doc.HasAt (d : Doc) (v : OptionValue) : Place → Prop
  | .one _ => d.Scalar v
  | .item _ i => ∃ xs x, d = .list xs ∧ xs[i]? = some x ∧ x.Scalar v
  | .field _ inner => ∃ x, d.HasMember inner x ∧ x.Scalar v

/-- Whether a table has a scalar at a place. -/
def Doc.HasLeaf (d : Doc) (leaf : Place × OptionValue) : Prop :=
  ∃ x, d.HasMember leaf.1.key x ∧ x.HasAt leaf.2 leaf.1

/-- Whether a table has the fields of an inner table instead of it, under their keys behind its own
and a dot. -/
structure Doc.SpelledOut (d : Doc) (outer : String) (inner : Doc) (d' : Doc) : Prop where
  table : inner.IsTable IsScalar
  member : d.HasMember outer inner
  fresh : ∀ key x, inner.HasMember key x → ∀ y, ¬d.HasMember (outer ++ "." ++ key) y
  members : ∀ key x, d'.HasMember key x ↔ key ≠ outer ∧ d.HasMember key x ∨
    ∃ k, key = outer ++ "." ++ k ∧ inner.HasMember k x

/-! ### Leaves -/

namespace OptionTable

namespace Place

theorem Before.asymm {p q : Place} (h : Before p q) (h' : Before q p) : False := by
  cases h with
  | keys h =>
    cases h' with
    | keys h' => exact List.lt_asymm h h'
    | items h' => exact List.lt_irrefl _ h
    | fields h' => exact List.lt_irrefl _ h
  | items h =>
    cases h' with
    | keys h' => exact List.lt_irrefl _ h'
    | items h' => omega
  | fields h =>
    cases h' with
    | keys h' => exact List.lt_irrefl _ h'
    | fields h' => exact List.lt_asymm h h'

end Place

variable {leaves leaves' : List (Place × OptionValue)}

theorem nodup_of_sorted (sorted : leaves.Pairwise (fun a b => a.1.Before b.1)) : leaves.Nodup := by
  refine sorted.imp ?_
  intro a b hab heq
  subst heq
  exact hab.asymm hab

/-- Leaves in the order of their places are determined by which ones there are. -/
theorem eq_of_sorted (sorted : leaves.Pairwise (fun a b => a.1.Before b.1))
    (sorted' : leaves'.Pairwise (fun a b => a.1.Before b.1))
    (same : ∀ l, l ∈ leaves ↔ l ∈ leaves') : leaves = leaves' := by
  have hperm : leaves.Perm leaves' :=
    (List.perm_ext_iff_of_nodup (nodup_of_sorted sorted) (nodup_of_sorted sorted')).2 same
  refine hperm.eq_of_pairwise ?_ sorted sorted'
  intro a b _ _ hab hba
  exact (hab.asymm hba).elim

end OptionTable

/-- The scalars of the value of a key, with their places. -/
def OptionInput.leaves (key : String) : OptionInput → List (Place × OptionValue)
  | .one v => [(.one key, v)]
  | .many vs => vs.zipIdx.map (fun v => (.item key v.2, v.1))
  | .table fields => fields.entries.map (fun e => (.field key e.1, e.2))

def OptionTable.leaves (t : OptionTable) : List (Place × OptionValue) :=
  t.entries.flatMap (fun e => e.2.leaves e.1)

namespace OptionInput

variable {key : String} {input : OptionInput}

theorem map_option_leaves (key : String) (input : OptionInput) :
    (input.leaves key).map OptionTable.option = input.options key := by
  cases input with
  | one v => rfl
  | many vs =>
    have hvalues : vs.zipIdx.map Prod.fst = vs := List.zipIdx_map_fst 0 vs
    conv => rhs; rw [← hvalues]
    simp only [leaves, options, List.map_map]
    rfl
  | table fields =>
    simp only [leaves, options, List.map_map]
    rfl

theorem key_of_mem_leaves {l : Place × OptionValue} (h : l ∈ input.leaves key) : l.1.key = key := by
  cases input with
  | one v => simp_all [leaves, Place.key]
  | many vs =>
    obtain ⟨v, -, rfl⟩ := List.mem_map.1 h
    rfl
  | table fields =>
    obtain ⟨e, -, rfl⟩ := List.mem_map.1 h
    rfl

theorem leaves_sorted (key : String) (input : OptionInput) :
    (input.leaves key).Pairwise (fun a b => a.1.Before b.1) := by
  cases input with
  | one v => simp [leaves]
  | many vs =>
    rw [leaves, List.pairwise_map, List.pairwise_iff_getElem]
    intro i j hi hj hij
    refine .items ?_
    simpa using hij
  | table fields =>
    rw [leaves, List.pairwise_map]
    refine fields.ascending.imp ?_
    intro a b hab
    exact .fields (Text.bytes_lt_of_lt (compareOfLessAndEq_eq_lt.1 hab))

end OptionInput

namespace OptionTable

theorem flatten_eq (t : OptionTable) : t.flatten = t.leaves.map option := by
  simp only [flatten, leaves, List.map_flatMap, OptionInput.map_option_leaves]

theorem leaves_sorted (t : OptionTable) : t.leaves.Pairwise (fun a b => a.1.Before b.1) := by
  rw [leaves, List.pairwise_flatMap]
  refine ⟨fun e _ => e.2.leaves_sorted e.1, t.ascending.imp ?_⟩
  intro a b hab l hl l' hl'
  apply Place.Before.keys
  rw [OptionInput.key_of_mem_leaves hl, OptionInput.key_of_mem_leaves hl']
  exact Text.bytes_lt_of_lt (compareOfLessAndEq_eq_lt.1 hab)

theorem mem_leaves {t : OptionTable} {l : Place × OptionValue} :
    l ∈ t.leaves ↔ ∃ input, t.get? l.1.key = some input ∧ l ∈ input.leaves l.1.key := by
  simp only [leaves, List.mem_flatMap, Prod.exists, SortedMap.mem_entries_iff]
  constructor
  · intro h
    obtain ⟨key, input, hkey, hl⟩ := h
    obtain rfl := OptionInput.key_of_mem_leaves hl
    exact ⟨input, hkey, hl⟩
  · intro h
    obtain ⟨input, hkey, hl⟩ := h
    exact ⟨_, input, hkey, hl⟩

end OptionTable

/-! ### Reading -/

namespace Doc

variable {x : Doc} {l : Place × OptionValue}

theorem IsScalar.members? (h : x.IsScalar) : x.members? = none := by
  obtain ⟨v, h⟩ := h
  cases h <;> rfl

theorem IsScalar.ne_list (h : x.IsScalar) (xs : List Doc) : x ≠ .list xs := by
  obtain ⟨v, h⟩ := h
  cases h <;> simp

theorem IsScalar.hasAt_iff (h : x.IsScalar) {v : OptionValue} {p : Place} :
    x.HasAt v p ↔ p = .one p.key ∧ x.Scalar v := by
  cases p with
  | one key => simp [HasAt, Place.key]
  | item key i => simp [HasAt, h.ne_list]
  | field key inner => simp [HasAt, HasMember, h.members?]

theorem IsTable.hasAt_iff {kind : Doc → Prop} (h : x.IsTable kind) {v : OptionValue} {p : Place} :
    x.HasAt v p ↔ ∃ k y, p = .field p.key k ∧ x.HasMember k y ∧ y.Scalar v := by
  obtain ⟨es, lists, -⟩ := h
  cases p with
  | one key =>
    have hscalar : ¬x.Scalar v := fun h => by simp [Lists, IsScalar.members? ⟨v, h⟩] at lists
    simp [HasAt, hscalar]
  | item key i =>
    have hlist : ∀ xs, x ≠ .list xs := by
      rintro xs rfl
      cases lists
    simp [HasAt, hlist]
  | field key inner => simp [HasAt, Place.key]

theorem hasAt_scalar (h : x.IsScalar) :
    l ∈ (OptionInput.one x.scalarOf).leaves l.1.key ↔ x.HasAt l.2 l.1 := by
  rw [h.hasAt_iff, h.scalar_iff]
  simp [OptionInput.leaves, Prod.ext_iff]

theorem hasAt_list {xs : List Doc} (h : ∀ x ∈ xs, x.IsScalar) :
    l ∈ (OptionInput.many (xs.map scalarOf)).leaves l.1.key ↔ (list xs).HasAt l.2 l.1 := by
  obtain ⟨p, v⟩ := l
  cases p with
  | one key => simp [OptionInput.leaves, HasAt, scalar_iff, OptionValue.ofDoc?]
  | item key i =>
    have hread : (Place.item key i, v) ∈ (OptionInput.many (xs.map scalarOf)).leaves key ↔
        ∃ x, xs[i]? = some x ∧ x.scalarOf = v := by
      simp [OptionInput.leaves, List.mk_mem_zipIdx_iff_getElem?]
    rw [Place.key, hread]
    constructor
    · intro h'
      obtain ⟨x, hx, rfl⟩ := h'
      exact ⟨xs, x, rfl, hx, (h x (List.mem_of_getElem? hx)).scalar_iff.2 rfl⟩
    · intro h'
      obtain ⟨_, x, heq, hx, hv⟩ := h'
      cases heq
      exact ⟨x, hx, ((h x (List.mem_of_getElem? hx)).scalar_iff.1 hv).symm⟩
  | field key inner => simp [OptionInput.leaves, HasAt, HasMember, members?]

theorem hasAt_table {es : List (String × Doc)} (lists : x.Lists es)
    (distinct : es.Pairwise (fun a b => a.1 ≠ b.1)) (scalars : ∀ e ∈ es, e.2.IsScalar) :
    l ∈ (OptionInput.table (.ofList (es.map (fun e => (e.1, e.2.scalarOf))))).leaves l.1.key ↔
      x.HasAt l.2 l.1 := by
  obtain ⟨p, v⟩ := l
  have table : x.IsTable IsScalar := ⟨es, lists, distinct, scalars⟩
  have hdistinct : (es.map (fun e => (e.1, e.2.scalarOf))).Pairwise (fun a b => a.1 ≠ b.1) :=
    List.pairwise_map.2 distinct
  simp only [table.hasAt_iff, hasMember_iff lists, OptionInput.leaves, List.mem_map, Prod.exists,
    SortedMap.mem_entries_iff, SortedMap.get?_ofList_eq_some hdistinct]
  constructor
  · intro h
    obtain ⟨k, _, ⟨_, y, hy, heq⟩, hl⟩ := h
    cases heq
    obtain ⟨hplace, rfl⟩ := Prod.mk.inj hl
    exact ⟨k, y, hplace.symm, hy, (scalars _ hy).scalar_iff.2 rfl⟩
  · intro h
    obtain ⟨k, y, hplace, hy, hv⟩ := h
    refine ⟨k, _, ⟨k, y, hy, rfl⟩, ?_⟩
    rw [← hplace, ← (scalars _ hy).scalar_iff.1 hv]

end Doc

namespace OptionInput

/-- A value of an option is read, with its scalars at their places. -/
theorem exists_input {s s' : Setting} (enter : s.enter = .ok s') {x : Doc}
    (h : x.IsOptionValue) : ∃ input, fit s x = .ok input ∧
      ∀ l : Place × OptionValue, l ∈ input.leaves l.1.key ↔ x.HasAt l.2 l.1 := by
  rcases h with h | ⟨xs, rfl, h⟩ | ⟨es, lists, distinct, scalars⟩
  · exact ⟨_, fit_scalar h, fun _ => Doc.hasAt_scalar h⟩
  · exact ⟨_, fit_list enter h, fun _ => Doc.hasAt_list h⟩
  · exact ⟨_, fit_table enter lists scalars, fun _ => Doc.hasAt_table lists distinct scalars⟩

end OptionInput

namespace OptionTable

/-- A table of options is read, with all its scalars. -/
theorem exists_table {s s₁ s₂ : Setting} (outer : s.enter = .ok s₁) (inner : s₁.enter = .ok s₂)
    {d : Doc} (h : d.IsOptionTable) :
    ∃ t, fit s d = .ok t ∧ ∀ l, l ∈ t.leaves ↔ d.HasLeaf l := by
  obtain ⟨es, lists, distinct, values⟩ := h
  let input (x : Doc) : OptionInput := (OptionInput.fit s₁ x).toOption.getD (.many [])
  have hinput : ∀ e ∈ es, OptionInput.fit s₁ e.2 = .ok (input e.2) ∧
      ∀ l : Place × OptionValue, l ∈ (input e.2).leaves l.1.key ↔ e.2.HasAt l.2 l.1 := by
    intro e he
    obtain ⟨i, hi, hleaves⟩ := OptionInput.exists_input inner (values e he)
    have heq : input e.2 = i := by simp [input, hi, Except.toOption]
    rw [heq]
    exact ⟨hi, hleaves⟩
  have hfit : fit s d = .ok (.ofList (es.map (fun e => (e.1, input e.2)))) :=
    Fit.map_eq_ok outer (by simpa using lists) (fun e he => (hinput e he).1)
  refine ⟨_, hfit, ?_⟩
  intro l
  have hdistinct : (es.map (fun e => (e.1, input e.2))).Pairwise (fun a b => a.1 ≠ b.1) :=
    List.pairwise_map.2 distinct
  simp only [mem_leaves, SortedMap.get?_ofList_eq_some hdistinct, Doc.HasLeaf,
    Doc.hasMember_iff lists]
  constructor
  · intro h
    obtain ⟨_, hmem, hl⟩ := h
    obtain ⟨⟨key, x⟩, hx, heq⟩ := List.mem_map.1 hmem
    cases heq
    exact ⟨x, hx, ((hinput _ hx).2 l).1 hl⟩
  · intro h
    obtain ⟨x, hx, hl⟩ := h
    exact ⟨input x, List.mem_map.2 ⟨_, hx, rfl⟩, ((hinput _ hx).2 l).2 hl⟩

/-- The options of a table, one for each of its scalars, in the order of their places. -/
theorem exists_leaves {s s₁ s₂ : Setting} (outer : s.enter = .ok s₁) (inner : s₁.enter = .ok s₂)
    {d : Doc} (h : d.IsOptionTable) : ∃ leaves : List (Place × OptionValue),
      optionsFit s d = .ok (leaves.map option) ∧
      leaves.Pairwise (fun a b => a.1.Before b.1) ∧ ∀ l, l ∈ leaves ↔ d.HasLeaf l := by
  obtain ⟨t, ht, hleaves⟩ := exists_table outer inner h
  refine ⟨t.leaves, ?_, t.leaves_sorted, hleaves⟩
  rw [optionsFit, ht, ← flatten_eq]
  rfl

end OptionTable

/-! ### Tables that are spelled out -/

/-- Where a scalar stands once the table under a key is spelled out. -/
def OptionTable.Place.respell (outer : String) : Place → Place
  | .field key inner => if key = outer then .one (outer ++ "." ++ inner) else .field key inner
  | p => p

namespace OptionTable.Place

variable {outer : String} {p : Place}

@[simp] theorem text_respell (outer : String) (p : Place) : (p.respell outer).text = p.text := by
  cases p with
  | field key inner =>
    by_cases h : key = outer
    · simp [respell, h, text]
    · simp [respell, h]
  | _ => rfl

theorem respell_of_ne (h : p.key ≠ outer) : p.respell outer = p := by
  cases p with
  | field outer' inner =>
    have hne : outer' ≠ outer := h
    simp [respell, hne]
  | _ => rfl

end OptionTable.Place

namespace Doc.SpelledOut

variable {d d' inner : Doc} {outer : String} {p q : Place} {v : OptionValue}

/-- Under the key that is spelled out, scalars are fields of the inner table. -/
theorem exists_field (h : d.SpelledOut outer inner d') (table : d.IsOptionTable)
    (hleaf : d.HasLeaf (p, v)) (hp : p.key = outer) :
    ∃ k x, p = .field outer k ∧ inner.HasMember k x ∧ x.Scalar v := by
  obtain ⟨x, hx, hat⟩ := hleaf
  simp only [hp] at hx
  obtain rfl := table.unique hx h.member
  obtain ⟨k, y, hplace, hy, hv⟩ := h.table.hasAt_iff.1 hat
  exact ⟨k, y, hp ▸ hplace, hy, hv⟩

theorem hasLeaf_iff (h : d.SpelledOut outer inner d') : d'.HasLeaf (q, v) ↔
    q.key ≠ outer ∧ d.HasLeaf (q, v) ∨
      ∃ k x, q = .one (outer ++ "." ++ k) ∧ inner.HasMember k x ∧ x.Scalar v := by
  have hscalar : ∀ k x, inner.HasMember k x → x.IsScalar := by
    obtain ⟨es, lists, -, scalars⟩ := h.table
    intro k x hx
    exact scalars _ ((hasMember_iff lists).1 hx)
  constructor
  · intro hleaf
    obtain ⟨x, hx, hat⟩ := hleaf
    rcases (h.members _ _).1 hx with ⟨hne, hx⟩ | ⟨k, hk, hx⟩
    · exact .inl ⟨hne, x, hx, hat⟩
    · obtain ⟨hplace, hv⟩ := (hscalar k x hx).hasAt_iff.1 hat
      exact .inr ⟨k, x, hk ▸ hplace, hx, hv⟩
  · intro hleaf
    rcases hleaf with ⟨hne, x, hx, hat⟩ | ⟨k, x, rfl, hx, hv⟩
    · exact ⟨x, (h.members _ _).2 (.inl ⟨hne, hx⟩), hat⟩
    · exact ⟨x, (h.members _ _).2 (.inr ⟨k, rfl, hx⟩), hv⟩

/-- The scalars stay, at their new places. -/
theorem hasLeaf_iff_respell (h : d.SpelledOut outer inner d') (table : d.IsOptionTable) :
    d'.HasLeaf (q, v) ↔ ∃ p, d.HasLeaf (p, v) ∧ p.respell outer = q := by
  rw [h.hasLeaf_iff]
  constructor
  · intro hleaf
    rcases hleaf with ⟨hne, hleaf⟩ | ⟨k, x, rfl, hx, hv⟩
    · exact ⟨q, hleaf, Place.respell_of_ne hne⟩
    · exact ⟨.field outer k, ⟨inner, h.member, x, hx, hv⟩, by simp [Place.respell]⟩
  · intro hleaf
    obtain ⟨p, hleaf, rfl⟩ := hleaf
    by_cases hp : p.key = outer
    · obtain ⟨k, x, rfl, hx, hv⟩ := h.exists_field table hleaf hp
      exact .inr ⟨k, x, by simp [Place.respell], hx, hv⟩
    · rw [Place.respell_of_ne hp]
      exact .inl ⟨hp, hleaf⟩

/-- A field that is spelled out comes to stand where nothing stood. -/
theorem respell_ne (h : d.SpelledOut outer inner d') (table : d.IsOptionTable) {w : OptionValue}
    (hleaf : d.HasLeaf (p, v)) (hp : p.key = outer) (hq : d.HasLeaf (q, w)) :
    p.respell outer ≠ q := by
  obtain ⟨k, x, rfl, hx, -⟩ := h.exists_field table hleaf hp
  rintro rfl
  obtain ⟨y, hy, -⟩ := hq
  simp only [Place.respell, if_true] at hy
  exact h.fresh k x hx y hy

/-- No two scalars come to stand at one place. -/
theorem respell_inj (h : d.SpelledOut outer inner d') (table : d.IsOptionTable) {w : OptionValue}
    (hp : d.HasLeaf (p, v)) (hq : d.HasLeaf (q, w)) (heq : p.respell outer = q.respell outer) :
    p = q := by
  by_cases hpk : p.key = outer
  -- Two fields of the inner table have keys of their own, and a field meets no scalar that stays.
  · by_cases hqk : q.key = outer
    · obtain ⟨k, x, rfl, -⟩ := h.exists_field table hp hpk
      obtain ⟨l, y, rfl, -⟩ := h.exists_field table hq hqk
      simpa [Place.respell, String.append_right_inj] using heq
    · rw [Place.respell_of_ne hqk] at heq
      exact absurd heq (h.respell_ne table hp hpk hq)
  · rw [Place.respell_of_ne hpk] at heq
    by_cases hqk : q.key = outer
    · exact absurd heq.symm (h.respell_ne table hq hqk hp)
    · rwa [Place.respell_of_ne hqk] at heq

end Doc.SpelledOut

namespace OptionTable

/-! ### Log modes -/

theorem setMode?_of_dot {l : Place × OptionValue} (dot : '.' ∈ l.1.text.toList) :
    Registry.standard.setMode? (option l) = none := by
  refine Option.eq_none_iff_forall_ne_some.2 (fun mode hmode => ?_)
  rcases Registry.key_of_setMode? hmode with hkey | hkey
  · exact (OptionKey.parse_eq_number.1 hkey).not_mem_dot dot
  · have htext := OptionKey.name_of_parse hkey
    rw [← htext] at dot
    exact absurd dot (by decide)

/-- The log modes come from the scalars whose keys have no dot. -/
theorem logModes_map_option (leaves : List (Place × OptionValue)) :
    logModes .standard (leaves.map option) =
      (leaves.filter (fun l => '.' ∉ l.1.text.toList)).filterMap
        (fun l => Registry.standard.setMode? (option l)) := by
  rw [logModes_eq, List.filterMap_map, List.filterMap_filter]
  apply List.filterMap_congr
  intro l _
  by_cases dot : '.' ∈ l.1.text.toList
  · simp [dot, setMode?_of_dot dot]
  · simp [dot]

/-! ### Two spellings -/

section Spellings

variable {d d' inner : Doc} {outer : String} {leaves leaves' : List (Place × OptionValue)}

/-- The leaves of a table that is spelled out are those of the first one, in another order. -/
theorem respell_perm (h : d.SpelledOut outer inner d') (table : d.IsOptionTable)
    (sorted : leaves.Pairwise (fun a b => a.1.Before b.1))
    (sorted' : leaves'.Pairwise (fun a b => a.1.Before b.1))
    (mem : ∀ l, l ∈ leaves ↔ d.HasLeaf l) (mem' : ∀ l, l ∈ leaves' ↔ d'.HasLeaf l) :
    (leaves.map (fun l => (l.1.respell outer, l.2))).Perm leaves' := by
  have nodup : (leaves.map (fun l => (l.1.respell outer, l.2))).Nodup := by
    refine (nodup_of_sorted sorted).map_on ?_
    intro a ha b hb heq
    obtain ⟨hplace, hvalue⟩ := Prod.mk.inj heq
    exact Prod.ext (h.respell_inj table ((mem a).1 ha) ((mem b).1 hb) hplace) hvalue
  rw [List.perm_ext_iff_of_nodup nodup (nodup_of_sorted sorted')]
  rintro ⟨q, v⟩
  simp only [mem', h.hasLeaf_iff_respell table, List.mem_map, mem, Prod.exists, Prod.mk.injEq]
  constructor
  · intro h
    obtain ⟨p, _, hleaf, hplace, rfl⟩ := h
    exact ⟨p, hleaf, hplace⟩
  · intro h
    obtain ⟨p, hleaf, hplace⟩ := h
    exact ⟨p, v, hleaf, hplace, rfl⟩

/-- The leaves whose keys have no dot stay where they are. -/
theorem filter_undotted (h : d.SpelledOut outer inner d') (table : d.IsOptionTable)
    (sorted : leaves.Pairwise (fun a b => a.1.Before b.1))
    (sorted' : leaves'.Pairwise (fun a b => a.1.Before b.1))
    (mem : ∀ l, l ∈ leaves ↔ d.HasLeaf l) (mem' : ∀ l, l ∈ leaves' ↔ d'.HasLeaf l) :
    leaves.filter (fun l => '.' ∉ l.1.text.toList) =
      leaves'.filter (fun l => '.' ∉ l.1.text.toList) := by
  refine eq_of_sorted (sorted.filter _) (sorted'.filter _) ?_
  rintro ⟨p, v⟩
  simp only [List.mem_filter, decide_eq_true_eq, mem, mem', h.hasLeaf_iff, and_congr_left_iff]
  intro undotted
  constructor
  · intro hleaf
    refine .inl ⟨fun hp => undotted ?_, hleaf⟩
    obtain ⟨k, x, rfl, -⟩ := h.exists_field table hleaf hp
    simp [Place.text]
  · intro hleaf
    rcases hleaf with ⟨-, hleaf⟩ | ⟨k, x, rfl, -⟩
    · exact hleaf
    · simp [Place.text] at undotted

end Spellings

/-- An option table stands for one option for each of its scalars: by the order of the keys, of the
elements of a list and of the keys of an inner table, which are joined to the key of that table by a
dot. If the fields of an inner table are written under such keys at once, the options change at most
in their order, and say the same of an entry and of a field. -/
theorem fit_flattens {s s₁ s₂ : Setting} (outer : s.enter = .ok s₁) (inner : s₁.enter = .ok s₂) :
    (∀ d : Doc, d.IsOptionTable → ∃ leaves : List (Place × OptionValue),
      optionsFit s d = .ok (leaves.map option) ∧
      leaves.Pairwise (fun a b => a.1.Before b.1) ∧ ∀ l, l ∈ leaves ↔ d.HasLeaf l) ∧
    ∀ (d d' : Doc) (key : String) (table : Doc), d.IsOptionTable → d'.IsOptionTable →
      d.SpelledOut key table d' → ∃ os os', optionsFit s d = .ok os ∧ optionsFit s d' = .ok os' ∧
        os.Perm os' ∧ AtomOptions.read .standard os = .read .standard os' ∧
        FieldOptions.read .standard os = .read .standard os' := by
  refine ⟨fun d h => exists_leaves outer inner h, ?_⟩
  intro d d' key table hd hd' h
  obtain ⟨leaves, hos, sorted, mem⟩ := exists_leaves outer inner hd
  obtain ⟨leaves', hos', sorted', mem'⟩ := exists_leaves outer inner hd'
  have hperm : (leaves.map option).Perm (leaves'.map option) := by
    have hoption : leaves.map option =
        (leaves.map (fun l => (l.1.respell key, l.2))).map option := by
      simp [option, Function.comp_def]
    rw [hoption]
    exact (respell_perm h hd sorted sorted' mem mem').map option
  -- The last log mode counts, so that the options are permuted is not enough for a field.
  have hmodes : logModes .standard (leaves.map option) =
      logModes .standard (leaves'.map option) := by
    rw [logModes_map_option, logModes_map_option, filter_undotted h hd sorted sorted' mem mem']
  exact ⟨_, _, hos, hos', hperm, AtomOptions.read_perm .standard hperm,
    FieldOptions.read_congr hperm hmodes⟩

/-- The state options of a field as an inner table, and what else is set on the field. -/
def stateDoc : Doc := .ofMembers [("default_state_value", .int 5), ("nested", .bool true)]

def nestedDoc : Doc := .ofMembers
  [("state_field_option", stateDoc), ("state_field_option-note", .str "old"),
    ("log_mode", .list [.int 1, .int 2])]

def dottedDoc : Doc := .ofMembers
  [("log_mode", .list [.int 1, .int 2]), ("state_field_option-note", .str "old"),
    ("state_field_option.nested", .bool true), ("state_field_option.default_state_value", .int 5)]

example : optionsFit .json nestedDoc = .ok
    [⟨.name "log_mode", .int 1⟩, ⟨.name "log_mode", .int 2⟩,
      ⟨.name "state_field_option.default_state_value", .int 5⟩,
      ⟨.name "state_field_option.nested", .bool true⟩,
      ⟨.name "state_field_option-note", .str "old"⟩] := by
  decide +kernel

theorem stateDoc_isTable : stateDoc.IsTable Doc.IsScalar := by
  refine ⟨_, rfl, by decide, ?_⟩
  simp only [List.mem_cons, List.not_mem_nil, or_false, forall_eq_or_imp, forall_eq]
  exact ⟨⟨_, .int (by decide)⟩, ⟨_, .bool true⟩⟩

theorem logModes_isOptionValue : (Doc.list [.int 1, .int 2]).IsOptionValue := by
  refine .inr (.inl ⟨_, rfl, ?_⟩)
  simp only [List.mem_cons, List.not_mem_nil, or_false, forall_eq_or_imp, forall_eq]
  exact ⟨⟨_, .int (by decide)⟩, ⟨_, .int (by decide)⟩⟩

theorem nestedDoc_spelledOut :
    nestedDoc.SpelledOut "state_field_option" stateDoc dottedDoc where
  table := stateDoc_isTable
  member := by simp [nestedDoc]
  fresh := by
    intro key x hx y
    simp only [stateDoc, nestedDoc, Doc.hasMember_ofMembers, List.mem_cons, Prod.mk.injEq,
      List.not_mem_nil, or_false] at hx ⊢
    rcases hx with ⟨rfl, -⟩ | ⟨rfl, -⟩ <;> simp
  members := by
    intro key x
    simp only [stateDoc, nestedDoc, dottedDoc, Doc.hasMember_ofMembers, List.mem_cons,
      Prod.mk.injEq, List.not_mem_nil, or_false]
    constructor
    · intro h
      rcases h with ⟨rfl, rfl⟩ | ⟨rfl, rfl⟩ | ⟨rfl, rfl⟩ | ⟨rfl, rfl⟩
      · simp
      · simp
      · exact .inr ⟨"nested", by simp⟩
      · exact .inr ⟨"default_state_value", by simp⟩
    · intro h
      rcases h with ⟨hne, ⟨rfl, -⟩ | h | h⟩ | ⟨k, rfl, ⟨rfl, rfl⟩ | ⟨rfl, rfl⟩⟩
      · exact absurd rfl hne
      · exact .inr (.inl h)
      · exact .inl h
      · simp
      · simp

theorem fit_flattens_state :
    nestedDoc.IsOptionTable ∧ dottedDoc.IsOptionTable ∧
      nestedDoc.SpelledOut "state_field_option" stateDoc dottedDoc ∧
      ∃ os os', optionsFit .json nestedDoc = .ok os ∧ optionsFit .json dottedDoc = .ok os' ∧
        os ≠ os' ∧ os.Perm os' ∧ FieldOptions.read .standard os = .read .standard os' := by
  have hnested : nestedDoc.IsOptionTable := by
    refine ⟨_, rfl, by decide, ?_⟩
    simp only [List.mem_cons, List.not_mem_nil, or_false, forall_eq_or_imp, forall_eq]
    exact ⟨.inr (.inr stateDoc_isTable), .inl ⟨_, .str "old"⟩, logModes_isOptionValue⟩
  have hdotted : dottedDoc.IsOptionTable := by
    refine ⟨_, rfl, by decide, ?_⟩
    simp only [List.mem_cons, List.not_mem_nil, or_false, forall_eq_or_imp, forall_eq]
    exact ⟨logModes_isOptionValue, .inl ⟨_, .str "old"⟩, .inl ⟨_, .bool true⟩,
      .inl ⟨_, .int (by decide)⟩⟩
  have hdiffer : optionsFit .json nestedDoc ≠ optionsFit .json dottedDoc := by decide +kernel
  obtain ⟨os, os', hos, hos', hperm, -, hread⟩ :=
    (fit_flattens (s := .json) rfl rfl).2 _ _ _ _ hnested hdotted nestedDoc_spelledOut
  refine ⟨hnested, hdotted, nestedDoc_spelledOut, os, os', hos, hos', ?_, hperm, hread⟩
  rintro rfl
  exact hdiffer (hos.trans hos'.symm)

end OptionTable

end AtomLog
