import AtomLog.Proofs.Lookups
import AtomLog.Schema.Document
/-!
Reading the values of options.

The value of an option is written as a scalar, as a list of scalars or as a table of scalars. Main
statements: such a value fits, and is read with these scalars (`OptionInput.fit_scalar`,
`OptionInput.fit_list`, `OptionInput.fit_table`), and a table whose members fit is read as the map
of what they are read as (`Fit.map_eq_ok`).
-/
namespace AtomLog

namespace Doc

/-- Whether a document is a value that an option can have. -/
inductive Scalar : Doc → OptionValue → Prop
  | bool (b : Bool) : Scalar (.bool b) (.bool b)
  | int {n : Int} (small : Bits.isSigned 64 n = true) : Scalar (.int n) (.int n)
  | str (s : String) : Scalar (.str s) (.str s)

def IsScalar (d : Doc) : Prop := ∃ v, d.Scalar v

def ofMembers (es : List (String × Doc)) : Doc := .table (es.map (fun e => (.str e.1, e.2)))

/-- Whether a document shows as a table with these members. -/
def Lists (d : Doc) (es : List (String × Doc)) : Prop :=
  d.members? = some (es.map (fun e => (.str e.1, e.2)))

/-- Whether a document shows as a table with every key once, whose values are of one kind. -/
def IsTable (kind : Doc → Prop) (d : Doc) : Prop :=
  ∃ es, d.Lists es ∧ es.Pairwise (fun a b => a.1 ≠ b.1) ∧ ∀ e ∈ es, kind e.2

/-- Whether a document is a scalar, a list of scalars or a table of scalars. -/
def IsOptionValue (d : Doc) : Prop :=
  d.IsScalar ∨ (∃ xs, d = .list xs ∧ ∀ x ∈ xs, x.IsScalar) ∨ d.IsTable IsScalar

def IsOptionTable (d : Doc) : Prop := d.IsTable IsOptionValue

/-- Whether a document shows as a table that has a value under a key. -/
def HasMember (d : Doc) (key : String) (x : Doc) : Prop :=
  ∃ ms, d.members? = some ms ∧ (.str key, x) ∈ ms

/-- The value that a scalar is read as. -/
def scalarOf (d : Doc) : OptionValue := (OptionValue.ofDoc? d).getD default

/-! ### Scalars and members -/

section Members

variable {d x : Doc} {es : List (String × Doc)}

theorem scalar_iff {v : OptionValue} : d.Scalar v ↔ OptionValue.ofDoc? d = some v := by
  constructor
  · intro h
    cases h with
    | int small => simp [OptionValue.ofDoc?, small]
    | _ => rfl
  · intro h
    cases d with
    | bool b =>
      cases h
      exact .bool b
    | int n =>
      by_cases small : Bits.isSigned 64 n = true
      · simp only [OptionValue.ofDoc?, small, if_true, Option.some.injEq] at h
        subst h
        exact .int small
      · simp [OptionValue.ofDoc?, small] at h
    | str s =>
      cases h
      exact .str s
    | _ => cases h

theorem IsScalar.ofDoc? (h : d.IsScalar) : OptionValue.ofDoc? d = some d.scalarOf := by
  obtain ⟨v, h⟩ := h
  rw [scalarOf, scalar_iff.1 h]
  rfl

theorem IsScalar.scalar_iff (h : d.IsScalar) {v : OptionValue} : d.Scalar v ↔ v = d.scalarOf := by
  rw [Doc.scalar_iff, h.ofDoc?, Option.some.injEq, eq_comm]

theorem hasMember_iff (h : d.Lists es) {key : String} : d.HasMember key x ↔ (key, x) ∈ es := by
  have members : d.members? = some (es.map (fun e => (.str e.1, e.2))) := h
  simp [HasMember, members]

theorem lists_ofMembers (es : List (String × Doc)) : (ofMembers es).Lists es := rfl

@[simp] theorem hasMember_ofMembers {key : String} :
    (ofMembers es).HasMember key x ↔ (key, x) ∈ es :=
  hasMember_iff (lists_ofMembers es)

theorem IsTable.unique {kind : Doc → Prop} (h : d.IsTable kind) {key : String} {x y : Doc}
    (hx : d.HasMember key x) (hy : d.HasMember key y) : x = y := by
  obtain ⟨es, members, distinct, -⟩ := h
  rw [hasMember_iff members] at hx hy
  have hkey := (find?_key_eq_some Prod.fst distinct).2 ⟨hx, rfl⟩
  have hkey' := (find?_key_eq_some Prod.fst distinct).2 ⟨hy, rfl⟩
  exact congrArg Prod.snd (Option.some.inj (hkey.symm.trans hkey'))

end Members

end Doc

/-! ### Fits -/

theorem mapM_eq_map {α β : Type} {f : α → Option β} {g : α → β} {xs : List α}
    (h : ∀ x ∈ xs, f x = some (g x)) : xs.mapM f = some (xs.map g) := by
  induction xs with
  | nil => rfl
  | cons x xs ih =>
    rw [List.mapM_cons, h x (by simp), ih (fun x hx => h x (by simp [hx]))]
    rfl

namespace Fit

variable {s s' : Setting}

theorem any_scalar {d : Doc} (h : d.IsScalar) : any s d = .ok () := by
  obtain ⟨v, h⟩ := h
  cases h with
  | int small => simp [any, Bits.fits, small]
  | _ => simp [any]

theorem anyItem_scalars {xs : List Doc} (h : ∀ x ∈ xs, x.IsScalar) : anyItem s xs = .ok () := by
  induction xs with
  | nil => simp [anyItem]
  | cons x xs ih =>
    rw [anyItem, any_scalar (h x (by simp)), ih (fun x hx => h x (by simp [hx]))]
    rfl

theorem anyMember_scalars {es : List (String × Doc)} (h : ∀ e ∈ es, e.2.IsScalar) :
    anyMember s (es.map (fun e => (.str e.1, e.2))) = .ok () := by
  induction es with
  | nil => simp [anyMember]
  | cons e es ih =>
    simp only [List.map_cons, anyMember, any_scalar (h e (by simp)),
      ih (fun e he => h e (by simp [he]))]
    rfl

/-- Members that fit are read into a map, one after the other. -/
theorem map_eq_ok {ι α : Type} {f : Fit α} {key : ι → String} {doc : ι → Doc} {value : ι → α}
    (enter : s.enter = .ok s') {d : Doc} {xs : List ι}
    (lists : d.Lists (xs.map (fun x => (key x, doc x))))
    (fits : ∀ x ∈ xs, f s' (doc x) = .ok (value x)) :
    map f s d = .ok (.ofList (xs.map (fun x => (key x, value x)))) := by
  have members : d.members? = some (xs.map (fun x => (Doc.str (key x), doc x))) := by
    rw [lists, List.map_map]
    rfl
  have hread : ∀ m : SortedMap String α,
      (xs.map (fun x => (Doc.str (key x), doc x))).foldlM
          (fun m e => return m.insert (← e.1.key) (← f s' e.2)) m =
        Except.ok ((xs.map (fun x => (key x, value x))).foldl (fun m p => m.insert p.1 p.2) m) := by
    intro m
    clear members lists
    induction xs generalizing m with
    | nil => rfl
    | cons x xs ih =>
      rw [List.map_cons, List.foldlM_cons]
      simp only [Doc.key, fits x (by simp)]
      exact ih (fun x hx => fits x (by simp [hx])) _
  simp only [map, members, enter]
  exact hread ∅

end Fit

namespace OptionInput

variable {s s' : Setting} {x : Doc}

theorem fit_scalar (h : x.IsScalar) : fit s x = .ok (.one x.scalarOf) := by
  simp [fit, Fit.any_scalar h, ofDoc?, h.ofDoc?, bind, Except.bind]

theorem fit_list (enter : s.enter = .ok s') {xs : List Doc} (h : ∀ x ∈ xs, x.IsScalar) :
    fit s (.list xs) = .ok (.many (xs.map Doc.scalarOf)) := by
  have hvalues : xs.mapM OptionValue.ofDoc? = some (xs.map Doc.scalarOf) :=
    mapM_eq_map (fun x hx => (h x hx).ofDoc?)
  simp [fit, Fit.any, enter, Fit.anyItem_scalars h, ofDoc?, OptionValue.ofDoc?, hvalues, bind,
    Except.bind]

theorem fit_table (enter : s.enter = .ok s') {es : List (String × Doc)} (lists : x.Lists es)
    (scalars : ∀ e ∈ es, e.2.IsScalar) :
    fit s x = .ok (.table (.ofList (es.map (fun e => (e.1, e.2.scalarOf))))) := by
  have members : x.members? = some (es.map (fun e => (.str e.1, e.2))) := lists
  have hfields : (es.map (fun e => (Doc.str e.1, e.2))).mapM field? =
      some (es.map (fun e => (e.1, e.2.scalarOf))) := by
    rw [List.mapM_map]
    apply mapM_eq_map
    intro e he
    simp [field?, (scalars e he).ofDoc?]
  have hany : Fit.any s x = .ok () := by
    cases x with
    | table ms =>
      cases members
      simp [Fit.any, enter, Fit.anyMember_scalars scalars, bind, Except.bind]
    | date text => simp [Fit.any]
    | _ => cases members
  have hread : ofDoc? x = some (.table (.ofList (es.map (fun e => (e.1, e.2.scalarOf))))) := by
    cases x with
    | table ms | date text => simp [ofDoc?, OptionValue.ofDoc?, members, hfields]
    | _ => cases members
  simp [fit, hany, hread, bind, Except.bind]

end OptionInput

end AtomLog
