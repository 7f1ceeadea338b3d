import AtomLog.Atom.Selection
import AtomLog.Proofs.Buckets
/-!
What a catalog says of the atoms that it was built from.

Main statement: a catalog of a list of atoms answers every question as the last atom of each code
does, and no other catalog answers so (`ofAtoms_describes`).
-/
namespace AtomLog

/-- The highest code of a list, from a least value on. -/
theorem foldl_max_code (as : List Atom) (least : Int) :
    least ≤ as.foldl (fun n a => max n a.code) least ∧
    (∀ a ∈ as, a.code ≤ as.foldl (fun n a => max n a.code) least) ∧
    (as.foldl (fun n a => max n a.code) least = least ∨
      ∃ a ∈ as, a.code = as.foldl (fun n a => max n a.code) least) := by
  induction as generalizing least with
  | nil => simp
  | cons a as ih =>
    obtain ⟨hleast, hle, hreach⟩ := ih (max least a.code)
    rw [List.foldl_cons]
    refine ⟨by omega, ?_, ?_⟩
    · intro b hb
      rcases List.mem_cons.1 hb with rfl | hb
      · omega
      · exact hle b hb
    · rcases hreach with heq | ⟨b, hb, heq⟩
      · by_cases hmax : a.code ≤ least
        · exact .inl (by omega)
        · exact .inr ⟨a, by simp, by omega⟩
      · exact .inr ⟨b, by simp [hb], heq⟩

theorem Atom.chained_eq_self {a : Atom} (h : a.nonChained = false) : a.chained = a := by
  simp [chained, h]

@[simp] theorem Atom.chained_code (a : Atom) : a.chained.code = a.code := by
  unfold Atom.chained
  split <;> rfl

@[simp] theorem Atom.chained_kind (a : Atom) : a.chained.kind = a.kind := by
  unfold Atom.chained
  split <;> rfl

@[simp] theorem Atom.chained_name (a : Atom) : a.chained.name = a.name := by
  unfold Atom.chained
  split <;> rfl

/-- Whether a selection takes an atom. -/
def Selection.Takes (a : Atom) : Selection → Prop
  | .all => True
  | .module m => m ∈ a.modules

namespace Catalog

/-- The last atom of a list with a code. -/
def lastWithCode? (as : List Atom) (code : Int) : Option Atom :=
  as.reverse.find? (fun a => a.code = code)

/-- The buckets of the atoms of a kind, as seen with a chain. -/
def ofKind (c : Catalog) : AtomKind → Buckets
  | .pushed => c.pushed
  | .pulled => c.pulled

/-- What a catalog has to say of atoms that are given by their codes. -/
structure Describes (c : Catalog) (atom? : Int → Option Atom) : Prop where
  get?_eq : ∀ code, c.get? code = atom? code
  /-- The atoms of each kind stand under their signatures as seen with a chain. -/
  byKind : ∀ kind, (c.ofKind kind).Groups
    (fun code => ((atom? code).filter (fun a => a.kind == kind)).map Atom.chained)
  /-- The atoms that are not chained stand under their flat signatures too. -/
  flat : c.nonChained.Groups (fun code => (atom? code).filter Atom.nonChained)
  max_nonneg : 0 ≤ c.maxPushedCode
  le_max : ∀ code a, atom? code = some a → a.kind = .pushed → code ≤ c.maxPushedCode
  max_reached : c.maxPushedCode = 0 ∨
    ∃ a, atom? c.maxPushedCode = some a ∧ a.kind = .pushed

/-- A map that holds every atom under its own code. -/
def Keyed (m : SortedMap Int Atom) : Prop := ∀ code a, m.get? code = some a → a.code = code

section OfMap

variable {m : SortedMap Int Atom}

theorem Keyed.mem_values (keyed : Keyed m) {a : Atom} :
    a ∈ m.values ↔ m.get? a.code = some a := by
  rw [SortedMap.mem_values]
  constructor
  · intro h
    obtain ⟨code, h⟩ := h
    rw [keyed code a h]
    exact h
  · intro h
    exact ⟨a.code, h⟩

theorem Keyed.values_distinct (keyed : Keyed m) :
    m.values.Pairwise (fun a b => a.code ≠ b.code) := by
  rw [SortedMap.values, List.pairwise_map]
  refine m.entries_pairwise_ne.imp_of_mem ?_
  intro d e hd he hne
  have hd' := keyed d.1 d.2 ((m.mem_entries_iff d.1 d.2).1 hd)
  have he' := keyed e.1 e.2 ((m.mem_entries_iff e.1 e.2).1 he)
  rw [hd', he']
  exact hne

/-- The buckets of a map's atoms, chosen by a test and seen in a way that keeps their codes. -/
theorem Keyed.groups (keyed : Keyed m) (p : Atom → Bool) (see : Atom → Atom)
    (hsee : ∀ a, (see a).code = a.code) :
    (Buckets.ofAtoms ((m.values.filter p).map see)).Groups
      (fun code => ((m.get? code).filter p).map see) := by
  have hdistinct : ((m.values.filter p).map see).Pairwise (fun a b => a.code ≠ b.code) := by
    rw [List.pairwise_map]
    simp only [hsee]
    exact keyed.values_distinct.filter p
  refine cast (congrArg _ (funext fun code => ?_)) (Buckets.groups_ofAtoms _ hdistinct)
  ext a
  rw [find?_key_eq_some Atom.code hdistinct]
  simp only [List.mem_map, List.mem_filter, Option.map_eq_some_iff, Option.filter_eq_some_iff,
    keyed.mem_values]
  constructor
  · intro h
    obtain ⟨⟨b, ⟨hb, hp⟩, rfl⟩, hcode⟩ := h
    rw [hsee] at hcode
    exact ⟨b, ⟨hcode ▸ hb, hp⟩, rfl⟩
  · intro h
    obtain ⟨b, ⟨hb, hp⟩, rfl⟩ := h
    have hcode := keyed code b hb
    exact ⟨⟨b, ⟨hcode.symm ▸ hb, hp⟩, rfl⟩, (hsee b).trans hcode⟩

theorem describes_ofMap (keyed : Keyed m) : (ofMap m).Describes m.get? where
  get?_eq := fun _ => rfl
  byKind := by
    intro kind
    cases kind with
    | pushed => exact keyed.groups _ _ Atom.chained_code
    | pulled => exact keyed.groups _ _ Atom.chained_code
  flat := by
    have h := keyed.groups Atom.nonChained id (fun _ => rfl)
    simp only [List.map_id, Option.map_id_fun, id_eq] at h
    exact h
  max_nonneg := (foldl_max_code _ 0).1
  le_max := by
    intro code a ha hk
    have hcode := keyed code a ha
    have hmem : a ∈ m.values.filter (fun a => a.kind == .pushed) := by
      simp [keyed.mem_values, hcode, ha, hk]
    have hle := (foldl_max_code _ 0).2.1 a hmem
    rw [hcode] at hle
    exact hle
  max_reached := by
    rcases (foldl_max_code (m.values.filter (fun a => a.kind == .pushed)) 0).2.2 with h | ⟨a, ha, h⟩
    · exact .inl h
    · obtain ⟨hm, hk⟩ := List.mem_filter.1 ha
      refine .inr ⟨a, ?_, by simpa using hk⟩
      change m.get? (List.foldl _ 0 _) = some a
      rw [← h]
      exact keyed.mem_values.1 hm

end OfMap

/-- The atoms of a list by code: of two atoms with one code the later counts. -/
theorem get?_ofAtoms (as : List Atom) (code : Int) :
    (ofAtoms as).get? code = lastWithCode? as code := by
  change (SortedMap.ofList _).get? code = _
  rw [SortedMap.get?_ofList, ← List.map_reverse, List.find?_map, lastWithCode?, Option.map_map]
  exact Option.map_id'

/-- A catalog of a list is determined by the atoms that it has under the codes. -/
theorem ofAtoms_ext {as bs : List Atom}
    (h : ∀ code, (ofAtoms as).get? code = (ofAtoms bs).get? code) : ofAtoms as = ofAtoms bs :=
  congrArg ofMap (SortedMap.ext_get? h)

/-- Under distinct codes no atom hides another. -/
theorem lastWithCode?_of_distinct {as : List Atom}
    (distinct : as.Pairwise (fun a b => a.code ≠ b.code)) (code : Int) :
    lastWithCode? as code = as.find? (fun a => a.code = code) := by
  have hreverse : as.reverse.Pairwise (fun a b => a.code ≠ b.code) := by
    rw [List.pairwise_reverse]
    exact distinct.imp (fun h => h.symm)
  ext a
  rw [lastWithCode?, find?_key_eq_some Atom.code hreverse, find?_key_eq_some Atom.code distinct,
    List.mem_reverse]

theorem size_ofAtoms {as : List Atom} (distinct : as.Pairwise (fun a b => a.code ≠ b.code)) :
    (ofAtoms as).atoms.size = as.length := by
  have h := SortedMap.size_ofList (as.map (fun a => (a.code, a))) (List.pairwise_map.2 distinct)
  rw [List.length_map] at h
  exact h

theorem keyed_ofAtoms (as : List Atom) : Keyed (ofAtoms as).atoms := by
  intro code a h
  have h' : lastWithCode? as code = some a := (get?_ofAtoms as code).symm.trans h
  simpa using List.find?_some h'

theorem mem_of_get?_ofAtoms {as : List Atom} {code : Int} {a : Atom}
    (h : (ofAtoms as).get? code = some a) : a ∈ as := by
  rw [get?_ofAtoms, lastWithCode?] at h
  exact List.mem_reverse.1 (List.mem_of_find?_eq_some h)

/-- A selection of a catalog is the catalog of some of its atoms. -/
theorem select_ofAtoms {as : List Atom} {sel : Selection} {c : Catalog}
    (h : (ofAtoms as).select sel = .ok c) : ∃ bs, c = ofAtoms bs ∧ ∀ b ∈ bs, b ∈ as := by
  cases sel with
  | all =>
    cases h
    exact ⟨as, rfl, fun _ hb => hb⟩
  | module m =>
    simp only [select] at h
    split at h
    · cases h
    · cases h
      refine ⟨_, rfl, ?_⟩
      intro b hb
      obtain ⟨code, hcode⟩ := SortedMap.mem_values.1 (List.mem_filter.1 hb).1
      exact mem_of_get?_ofAtoms hcode

/-- A selection holds the atoms of the catalog that it takes, under their codes. -/
theorem Keyed.select {c d : Catalog} (keyed : Keyed c.atoms) {sel : Selection}
    (h : c.select sel = .ok d) :
    Keyed d.atoms ∧ ∀ code a, d.get? code = some a ↔ c.get? code = some a ∧ sel.Takes a := by
  cases sel with
  | all =>
    cases h
    exact ⟨keyed, fun _ _ => (and_iff_left trivial).symm⟩
  | module m =>
    simp only [Catalog.select] at h
    split at h
    · cases h
    · cases h
      refine ⟨keyed_ofAtoms _, ?_⟩
      intro code a
      have hdistinct := keyed.values_distinct.filter (fun a => decide (m ∈ a.modules))
      change (ofAtoms (c.atoms.values.filter _)).get? code = some a ↔ _
      rw [get?_ofAtoms, lastWithCode?_of_distinct hdistinct, find?_key_eq_some Atom.code hdistinct,
        List.mem_filter, decide_eq_true_eq, keyed.mem_values]
      constructor
      · intro h
        obtain ⟨⟨hget, hm⟩, rfl⟩ := h
        exact ⟨hget, hm⟩
      · intro h
        obtain ⟨hget, hm⟩ := h
        have hcode := keyed code a hget
        rw [hcode]
        exact ⟨⟨hget, hm⟩, rfl⟩

/-- Selecting again and again keeps the atoms that every selection takes. -/
theorem Keyed.selectAll {c d : Catalog} (keyed : Keyed c.atoms) {sels : List Selection}
    (h : sels.foldlM Catalog.select c = .ok d) :
    Keyed d.atoms ∧ ∀ code a, d.get? code = some a ↔
      c.get? code = some a ∧ ∀ sel ∈ sels, sel.Takes a := by
  induction sels generalizing c with
  | nil =>
    cases h
    exact ⟨keyed, by simp⟩
  | cons sel sels ih =>
    rw [List.foldlM_cons] at h
    cases hsel : c.select sel with
    | error e =>
      rw [hsel] at h
      cases h
    | ok b =>
      rw [hsel] at h
      obtain ⟨hb, hget⟩ := keyed.select hsel
      obtain ⟨hd, hgets⟩ := ih hb h
      refine ⟨hd, ?_⟩
      intro code a
      rw [hgets, hget, List.forall_mem_cons, and_assoc]

/-- What is left after several selections is a catalog of a list too. -/
theorem selectAll_ofAtoms {as : List Atom} {sels : List Selection} {c : Catalog}
    (h : sels.foldlM select (ofAtoms as) = .ok c) : ∃ bs, c = ofAtoms bs := by
  induction sels generalizing as with
  | nil =>
    cases h
    exact ⟨as, rfl⟩
  | cons sel sels ih =>
    rw [List.foldlM_cons] at h
    cases hsel : (ofAtoms as).select sel with
    | error e =>
      rw [hsel] at h
      cases h
    | ok b =>
      rw [hsel] at h
      obtain ⟨bs, rfl, -⟩ := select_ofAtoms hsel
      exact ih h

/-- A selection that takes an atom of a catalog is not empty. -/
theorem Keyed.select_ok {c : Catalog} (keyed : Keyed c.atoms) {code : Int} {a : Atom}
    (found : c.get? code = some a) {sel : Selection} (takes : sel.Takes a) :
    ∃ d, c.select sel = .ok d := by
  cases sel with
  | all => exact ⟨c, rfl⟩
  | module m =>
    have hmem : a ∈ c.toList.filter (fun a => decide (m ∈ a.modules)) := by
      refine List.mem_filter.2 ⟨keyed.mem_values.2 ?_, decide_eq_true takes⟩
      rw [keyed code a found]
      exact found
    simp only [Catalog.select]
    split
    · rename_i hempty
      rw [hempty] at hmem
      cases hmem
    · exact ⟨_, rfl⟩

/-- A catalog of a list says of its atoms what it has to. -/
theorem describes_self (as : List Atom) : (ofAtoms as).Describes (ofAtoms as).get? :=
  describes_ofMap (keyed_ofAtoms as)

theorem describes_ofAtoms (as : List Atom) : (ofAtoms as).Describes (lastWithCode? as) := by
  have h := describes_self as
  rw [funext (get?_ofAtoms as)] at h
  exact h

namespace Describes

variable {c c' : Catalog} {atom? : Int → Option Atom}

/-- What a catalog has to say determines it. -/
theorem unique (h : c.Describes atom?) (h' : c'.Describes atom?) : c = c' := by
  have hatoms : c.atoms = c'.atoms :=
    SortedMap.ext_get? (fun code => (h.get?_eq code).trans (h'.get?_eq code).symm)
  have hpushed : c.pushed = c'.pushed := (h.byKind .pushed).unique (h'.byKind .pushed)
  have hpulled : c.pulled = c'.pulled := (h.byKind .pulled).unique (h'.byKind .pulled)
  have hflat : c.nonChained = c'.nonChained := h.flat.unique h'.flat
  have le : ∀ {c c' : Catalog}, c.Describes atom? → c'.Describes atom? →
      c.maxPushedCode ≤ c'.maxPushedCode := by
    intro c c' h h'
    rcases h.max_reached with hzero | ⟨a, ha, hk⟩
    · rw [hzero]
      exact h'.max_nonneg
    · exact h'.le_max _ a ha hk
  have hmax : c.maxPushedCode = c'.maxPushedCode := Int.le_antisymm (le h h') (le h' h)
  cases c
  cases c'
  simp_all

/-- An atom is held under its kind and its signature as seen with a chain alone. -/
theorem holds_ofKind_iff (h : c.Describes atom?) (kind : AtomKind) (s : Signature) (code : Int) :
    (c.ofKind kind).Holds s code ↔
      ∃ a, atom? code = some a ∧ a.kind = kind ∧ a.chained.signature = s := by
  rw [(h.byKind kind).holds_iff]
  simp only [Option.map_eq_some_iff, Option.filter_eq_some_iff, beq_iff_eq]
  constructor
  · intro h
    obtain ⟨_, ⟨a, ⟨ha, hk⟩, rfl⟩, hs⟩ := h
    exact ⟨a, ha, hk, hs⟩
  · intro h
    obtain ⟨a, ha, hk, hs⟩ := h
    exact ⟨_, ⟨a, ⟨ha, hk⟩, rfl⟩, hs⟩

/-- The annotations of a bucket are those of the atoms in it, as seen with a chain. -/
theorem annotations_ofKind_iff (h : c.Describes atom?) (kind : AtomKind) (s : Signature)
    (number code : Int) (set : AnnotationSet) :
    (c.ofKind kind).annotations? s number code = some set ↔
      ∃ a, atom? code = some a ∧ a.kind = kind ∧ a.chained.signature = s ∧
        a.chained.annotationsAt number = some set := by
  rw [(h.byKind kind).annotations_iff]
  simp only [Option.map_eq_some_iff, Option.filter_eq_some_iff, beq_iff_eq]
  constructor
  · intro h
    obtain ⟨_, ⟨a, ⟨ha, hk⟩, rfl⟩, hs, hset⟩ := h
    exact ⟨a, ha, hk, hs, hset⟩
  · intro h
    obtain ⟨a, ha, hk, hs, hset⟩ := h
    exact ⟨_, ⟨a, ⟨ha, hk⟩, rfl⟩, hs, hset⟩

theorem holds_flat_iff (h : c.Describes atom?) (s : Signature) (code : Int) :
    c.nonChained.Holds s code ↔
      ∃ a, atom? code = some a ∧ a.nonChained = true ∧ a.signature = s := by
  rw [h.flat.holds_iff]
  simp only [Option.filter_eq_some_iff, and_assoc]

end Describes

/-- A catalog of a list describes the last atom of each code, no other catalog does, every code in
a bucket is one of an atom, and every atom is in exactly one bucket of its kind. -/
theorem ofAtoms_describes (as : List Atom) :
    (∀ c : Catalog, c.Describes (lastWithCode? as) ↔ c = ofAtoms as) ∧
    (∀ kind s code, ((ofAtoms as).ofKind kind).Holds s code →
      ∃ a, (ofAtoms as).get? code = some a) ∧
    (∀ s code, (ofAtoms as).nonChained.Holds s code → ∃ a, (ofAtoms as).get? code = some a) ∧
    (∀ code a, (ofAtoms as).get? code = some a → ∃ kind s,
      ((ofAtoms as).ofKind kind).Holds s code ∧
      ∀ kind' s', ((ofAtoms as).ofKind kind').Holds s' code → kind' = kind ∧ s' = s) := by
  have h := describes_ofAtoms as
  refine ⟨?_, ?_, ?_, ?_⟩
  · intro c
    constructor
    · intro hc
      exact hc.unique h
    · intro h
      obtain rfl := h
      exact h
  · intro kind s code hheld
    obtain ⟨a, ha, -⟩ := (h.holds_ofKind_iff kind s code).1 hheld
    exact ⟨a, (h.get?_eq code).trans ha⟩
  · intro s code hheld
    obtain ⟨a, ha, -⟩ := (h.holds_flat_iff s code).1 hheld
    exact ⟨a, (h.get?_eq code).trans ha⟩
  · intro code a ha
    rw [h.get?_eq] at ha
    refine ⟨a.kind, a.chained.signature, (h.holds_ofKind_iff _ _ code).2 ⟨a, ha, rfl, rfl⟩, ?_⟩
    intro kind' s' hheld
    obtain ⟨a', ha', rfl, rfl⟩ := (h.holds_ofKind_iff kind' s' code).1 hheld
    rw [ha] at ha'
    cases ha'
    exact ⟨rfl, rfl⟩

end Catalog

end AtomLog
