import AtomLog.Proofs.Outcomes
/-!
Selecting the atoms of a module, beside collating the entries of that module alone.

A catalog of a list is known by its look-ups, and a selection keeps the look-ups that it takes. So
what is left of dropped atoms is nothing at all: selecting from a collation is collating fewer
entries. Main statement: `Collation.select_recollates`.
-/
namespace AtomLog

namespace Catalog

/-- The atoms of a map, put together under their codes, are that map again. -/
theorem Keyed.ofAtoms_values {m : SortedMap Int Atom} (keyed : Keyed m) :
    ofAtoms m.values = ofMap m := by
  refine congrArg ofMap (SortedMap.ext_get? ?_)
  intro code
  change (ofAtoms m.values).get? code = m.get? code
  ext a
  rw [get?_ofAtoms, lastWithCode?_of_distinct keyed.values_distinct,
    find?_key_eq_some Atom.code keyed.values_distinct, keyed.mem_values]
  constructor
  · intro h
    obtain ⟨hget, rfl⟩ := h
    exact hget
  · intro h
    have hcode := keyed code a h
    subst hcode
    exact ⟨h, rfl⟩

theorem ofAtoms_toList (as : List Atom) : ofAtoms (ofAtoms as).toList = ofAtoms as :=
  (keyed_ofAtoms as).ofAtoms_values

section Select

variable {c d : Catalog} {m : String}

/-- A module that some atom belongs to is all that can be selected. -/
theorem Keyed.exists_of_select (keyed : Keyed c.atoms) (h : c.select (.module m) = .ok d) :
    ∃ code a, c.get? code = some a ∧ m ∈ a.modules := by
  simp only [Catalog.select] at h
  split at h
  · cases h
  · rename_i hsome
    obtain ⟨a, ha⟩ := List.exists_mem_of_ne_nil _ hsome
    obtain ⟨hmem, hm⟩ := List.mem_filter.1 ha
    exact ⟨a.code, a, keyed.mem_values.1 hmem, of_decide_eq_true hm⟩

theorem Keyed.select_eq_error_iff (keyed : Keyed c.atoms) :
    c.select (.module m) = .error ⟨m⟩ ↔ ∀ code a, c.get? code = some a → m ∉ a.modules := by
  constructor
  · intro h code a found hm
    obtain ⟨d, hd⟩ := keyed.select_ok found (show (Selection.module m).Takes a from hm)
    rw [hd] at h
    cases h
  · intro h
    cases hselect : c.select (.module m) with
    | error e =>
      simp only [Catalog.select] at hselect
      split at hselect <;> cases hselect
      rfl
    | ok d =>
      obtain ⟨code, a, found, hm⟩ := keyed.exists_of_select hselect
      exact absurd hm (h code a found)

/-- Only a module that no atom belongs to cannot be selected. -/
theorem Keyed.select_fails_iff (keyed : Keyed c.atoms) {sel : Selection} :
    (∃ e, c.select sel = .error e) ↔
      ∃ m, sel = .module m ∧ ∀ code a, c.get? code = some a → m ∉ a.modules := by
  cases sel with
  | all => simp [Catalog.select]
  | module m =>
    simp only [Selection.module.injEq, exists_eq_left', ← keyed.select_eq_error_iff]
    constructor
    · intro h
      obtain ⟨e, he⟩ := h
      rw [he]
      simp only [Catalog.select] at he
      split at he <;> cases he
      rfl
    · intro h
      exact ⟨⟨m⟩, h⟩

end Select

section OfAtoms

variable {as bs : List Atom} {c d : Catalog}

/-- A selection is any catalog of a list that has the atoms taken and no others. -/
theorem select_eq_ok_of_get? {sel : Selection} (h : (ofAtoms as).select sel = .ok c)
    (get?_iff : ∀ code a, (ofAtoms bs).get? code = some a ↔
      (ofAtoms as).get? code = some a ∧ sel.Takes a) : c = ofAtoms bs := by
  obtain ⟨-, hget⟩ := (keyed_ofAtoms as).select h
  obtain ⟨cs, rfl, -⟩ := select_ofAtoms h
  refine ofAtoms_ext ?_
  intro code
  ext a
  rw [hget, get?_iff]

/-- Once a selection is made, making it again changes nothing. -/
theorem select_again {sel : Selection} (h : (ofAtoms as).select sel = .ok c) :
    c.select sel = .ok c := by
  cases sel with
  | all => rfl
  | module m =>
    have hget := ((keyed_ofAtoms as).select h).2
    obtain ⟨code, a, found, hm⟩ := (keyed_ofAtoms as).exists_of_select h
    obtain ⟨bs, rfl, -⟩ := select_ofAtoms h
    have takes : (Selection.module m).Takes a := hm
    obtain ⟨d, hd⟩ := (keyed_ofAtoms bs).select_ok ((hget code a).2 ⟨found, takes⟩) takes
    have hsame : d = ofAtoms bs := by
      refine select_eq_ok_of_get? hd ?_
      intro code a
      rw [hget, and_assoc, and_self]
    rw [hd, hsame]

/-- An atom of two modules survives both selections, in whichever order they are made. -/
theorem select_both {m k : String} (h : (ofAtoms as).select (.module m) = .ok c)
    (h' : c.select (.module k) = .ok d) :
    ∃ b, (ofAtoms as).select (.module k) = .ok b ∧ b.select (.module m) = .ok d := by
  have hc := ((keyed_ofAtoms as).select h).2
  obtain ⟨bs, rfl, -⟩ := select_ofAtoms h
  have hd := ((keyed_ofAtoms bs).select h').2
  obtain ⟨code, a, found, hk⟩ := (keyed_ofAtoms bs).exists_of_select h'
  obtain ⟨found, hm⟩ := (hc code a).1 found
  have takes : (Selection.module k).Takes a := hk
  obtain ⟨b, hb⟩ := (keyed_ofAtoms as).select_ok found takes
  have hbget := ((keyed_ofAtoms as).select hb).2
  obtain ⟨es, rfl, -⟩ := select_ofAtoms hb
  obtain ⟨ds, rfl, -⟩ := select_ofAtoms h'
  obtain ⟨d', hd'⟩ := (keyed_ofAtoms es).select_ok ((hbget code a).2 ⟨found, takes⟩) hm
  have hsame : d' = ofAtoms ds := by
    refine select_eq_ok_of_get? hd' ?_
    intro code a
    rw [hd, hc, hbget, and_right_comm]
  exact ⟨ofAtoms es, hb, hsame ▸ hd'⟩

end OfAtoms

end Catalog

/-- The modules that the options of an entry name. -/
def Entry.modules (r : Registry) (e : Entry) : SortedSet String := (AtomOptions.read r e.options).modules

/-- A schema without the entries of other modules. -/
def Schema.ofModule (r : Registry) (m : String) (s : Schema) : Schema :=
  { s with entries := s.entries.filter (fun e => decide (m ∈ e.modules r)) }

namespace Collation

theorem note_modules (number : Int) (a : Atom) (n : Annotation) :
    (note number a n).modules = a.modules := by
  unfold note
  split <;> rfl

/-- An atom belongs to the modules of its entry. -/
theorem collateEntry_modules {r : Registry} {s : Schema} {e : Entry} {a : Atom}
    (h : collateEntry r s e = .ok a) : a.modules = e.modules r := by
  obtain ⟨m, gs, -, -, -, -, -, rfl⟩ := collateEntry_eq_ok.1 h
  exact takeFields_frame Atom.modules note_modules gs (fun _ _ _ => rfl) _

section Select

variable {r : Registry} {s : Schema}

/-- Entries under codes of their own that are all accepted make up the atoms of a module. -/
theorem mem_modules_collate (clean : (collate r s).errors = []) (m : String) :
    (∃ code a, (collate r s).catalog.get? code = some a ∧ m ∈ a.modules) ↔
      ∃ e ∈ s.entries, m ∈ e.modules r := by
  obtain ⟨distinct, accepts, -⟩ := (errors_eq_nil_iff r s).1 clean
  constructor
  · intro h
    obtain ⟨code, a, found, hm⟩ := h
    obtain ⟨e, he, -, ha⟩ := (get?_collate_eq_some r s distinct).1 found
    exact ⟨e, he, collateEntry_modules ha ▸ hm⟩
  · intro h
    obtain ⟨e, he, hm⟩ := h
    obtain ⟨a, ha⟩ := accepts e he
    exact ⟨e.code, a, (get?_collate_eq_some r s distinct).2 ⟨e, he, rfl, ha⟩,
      (collateEntry_modules ha).symm ▸ hm⟩

/-- The collation of the entries of a module has their atoms and no others. -/
theorem get?_collate_ofModule (clean : (collate r s).errors = []) (m : String) (code : Int)
    (a : Atom) : (collate r (s.ofModule r m)).catalog.get? code = some a ↔
      (collate r s).catalog.get? code = some a ∧ m ∈ a.modules := by
  obtain ⟨distinct, -, -⟩ := (errors_eq_nil_iff r s).1 clean
  rw [get?_collate_eq_some r s distinct, get?_collate_eq_some r _ (distinct.filter _)]
  simp only [Schema.ofModule, List.mem_filter, decide_eq_true_eq]
  constructor
  · intro h
    obtain ⟨e, ⟨he, hm⟩, hcode, ha⟩ := h
    exact ⟨⟨e, he, hcode, ha⟩, (collateEntry_modules ha).symm ▸ hm⟩
  · intro h
    obtain ⟨⟨e, he, hcode, ha⟩, hm⟩ := h
    exact ⟨e, ⟨he, collateEntry_modules ha ▸ hm⟩, hcode, ha⟩

/-- The entries of a module are collated without errors when all entries are. -/
theorem errors_ofModule (clean : (collate r s).errors = []) (m : String) :
    (collate r (s.ofModule r m)).errors = [] := by
  obtain ⟨distinct, accepts, attribution⟩ := (errors_eq_nil_iff r s).1 clean
  refine (errors_eq_nil_iff r _).2 ⟨distinct.filter _, ?_, attribution⟩
  intro e he
  exact accepts e (List.mem_filter.1 he).1

/-- Nothing can be selected for a module that no entry names. -/
theorem select_collate_eq_error_iff (clean : (collate r s).errors = []) (m : String) :
    (collate r s).catalog.select (.module m) = .error ⟨m⟩ ↔ ∀ e ∈ s.entries, m ∉ e.modules r := by
  have keyed : Catalog.Keyed (collate r s).catalog.atoms := Catalog.keyed_ofAtoms _
  have hmem := mem_modules_collate clean m
  rw [keyed.select_eq_error_iff]
  constructor
  · intro h e he hm
    obtain ⟨code, a, found, hm⟩ := hmem.2 ⟨e, he, hm⟩
    exact h code a found hm
  · intro h code a found hm
    obtain ⟨e, he, hm⟩ := hmem.1 ⟨code, a, found, hm⟩
    exact h e he hm

/-- What is selected for a module that some entry names is the collation of its entries. -/
theorem select_collate_eq_ok (clean : (collate r s).errors = []) {m : String}
    (h : ∃ e ∈ s.entries, m ∈ e.modules r) :
    (collate r s).catalog.select (.module m) = .ok (collate r (s.ofModule r m)).catalog := by
  have keyed : Catalog.Keyed (collate r s).catalog.atoms := Catalog.keyed_ofAtoms _
  obtain ⟨code, a, found, hm⟩ := (mem_modules_collate clean m).2 h
  have takes : (Selection.module m).Takes a := hm
  obtain ⟨c, hc⟩ := keyed.select_ok found takes
  have hsame : c = (collate r (s.ofModule r m)).catalog :=
    Catalog.select_eq_ok_of_get? hc (get?_collate_ofModule clean m)
  rw [hsame] at hc
  exact hc

/-- What is selected for a module from a collation without errors is the collation of the entries
of that module, and nothing where there are none. Of any catalog of a list, the atoms make up the
catalog again, a second selection of a module changes nothing, and two modules can be selected in
either order. -/
theorem select_recollates (r : Registry) (s : Schema) (m : String) (as : List Atom) :
    ((collate r s).errors = [] →
      ((collate r s).catalog.select (.module m) = .error ⟨m⟩ ↔
        ∀ e ∈ s.entries, m ∉ e.modules r) ∧
      ((∃ e ∈ s.entries, m ∈ e.modules r) → (collate r (s.ofModule r m)).errors = [] ∧
        (collate r s).catalog.select (.module m) =
          .ok (collate r (s.ofModule r m)).catalog)) ∧
    Catalog.ofAtoms (Catalog.ofAtoms as).toList = Catalog.ofAtoms as ∧
    ((Catalog.ofAtoms as).select (.module m) >>= fun c => c.select (.module m)) =
      (Catalog.ofAtoms as).select (.module m) ∧
    ∀ k d, ((Catalog.ofAtoms as).select (.module m) >>= fun c => c.select (.module k)) = .ok d ↔
      ((Catalog.ofAtoms as).select (.module k) >>= fun c => c.select (.module m)) = .ok d := by
  refine ⟨?_, Catalog.ofAtoms_toList as, ?_, ?_⟩
  · intro clean
    refine ⟨select_collate_eq_error_iff clean m, ?_⟩
    intro h
    exact ⟨errors_ofModule clean m, select_collate_eq_ok clean h⟩
  · cases h : (Catalog.ofAtoms as).select (.module m) with
    | error e => rfl
    | ok c => exact Catalog.select_again h
  · intro k d
    simp only [bind_eq_ok]
    constructor
    · intro h
      obtain ⟨c, hc, hd⟩ := h
      exact Catalog.select_both hc hd
    · intro h
      obtain ⟨c, hc, hd⟩ := h
      exact Catalog.select_both hc hd

end Select

/-- A torch that two modules share, and a screen of one of them. -/
def torchSchema : Schema where
  container := "Atom"
  entries :=
    [{ name := "torch", code := 40, message := "Torch",
        options := [⟨.name "module", .str "camera"⟩, ⟨.name "module", .str "system"⟩] },
      { name := "screen", code := 41, message := "Screen",
        options := [⟨.name "module", .str "system"⟩] }]
  messages := .ofList [("Torch", { name := "Torch" }), ("Screen", { name := "Screen" })]

theorem select_recollates_torch :
    (collate .standard torchSchema).errors = [] ∧
    (torchSchema.ofModule .standard "camera").entries.map Entry.code = [40] ∧
    (collate .standard torchSchema).catalog.select (.module "camera") =
      .ok (collate .standard (torchSchema.ofModule .standard "camera")).catalog ∧
    (collate .standard torchSchema).catalog.select (.module "radio") = .error ⟨"radio"⟩ := by
  have clean : (collate .standard torchSchema).errors = [] := by decide +kernel
  obtain ⟨-, camera⟩ := (select_recollates .standard torchSchema "camera" []).1 clean
  obtain ⟨radio, -⟩ := (select_recollates .standard torchSchema "radio" []).1 clean
  obtain ⟨-, selected⟩ := camera (by decide +kernel)
  exact ⟨clean, by decide +kernel, selected, radio.2 (by decide +kernel)⟩

end Collation

end AtomLog
