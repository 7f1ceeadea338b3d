import AtomLog.Proofs.Delegates
import AtomLog.Proofs.InfoTables
/-!
The fields of an atom under new numbers, once its leading uid and tag are seen as one chain.

What stands behind the two leading fields moves to the number before, with its annotations and with
the columns that name it, and what the leading fields had is gone. Main statement: so it is for every
collated atom that is not chained, and no two of them share a signature with a chain unless they
share their flat one (`Collation.chained_renumbers`).
-/
namespace AtomLog

namespace Atom

/-- Field numbers behind the two leading ones, as they are once those are one. -/
def movedNumbers (numbers : List Int) : List Int := (numbers.filter (2 < ·)).map (· - 1)

theorem filterMap_shift? (numbers : List Int) :
    numbers.filterMap shift? = movedNumbers numbers := by
  induction numbers with
  | nil => rfl
  | cons n ns ih =>
    by_cases htwo : 2 < n
    · simp [movedNumbers, shift?, htwo, ih]
    · simp [movedNumbers, shift?, htwo, ih]

theorem mem_movedNumbers {numbers : List Int} {k : Int} :
    k ∈ movedNumbers numbers ↔ 2 ≤ k ∧ k + 1 ∈ numbers := by
  simp only [movedNumbers, List.mem_map, List.mem_filter, decide_eq_true_eq]
  constructor
  · intro h
    obtain ⟨n, ⟨hn, htwo⟩, rfl⟩ := h
    exact ⟨by omega, by simpa using hn⟩
  · intro h
    obtain ⟨htwo, hn⟩ := h
    exact ⟨k + 1, ⟨hn, by omega⟩, by omega⟩

/-- Moving numbers keeps their order. -/
theorem movedNumbers_ascending {numbers : List Int} (h : numbers.Pairwise (· < ·)) :
    (movedNumbers numbers).Pairwise (· < ·) := by
  rw [movedNumbers, List.pairwise_map]
  exact (h.filter _).imp (fun hlt => by omega)

/-- An atom `v` that is `a` with its two leading fields as one chain. -/
structure Renumbered (a v : Atom) : Prop where
  length_fields : v.fields.length + 1 = a.fields.length
  chain : ∃ f, v.field? 1 = some f ∧ f.type = .attributionChain
  field_eq : ∀ n, 2 < n → v.field? (n - 1) = a.field? n
  annotations_eq : ∀ n, 2 < n → v.annotations.get? (n - 1) = a.annotations.get? n
  atom_annotations : v.annotations.get? atomNumber = a.annotations.get? atomNumber
  chain_bare : v.annotations.get? 1 = none
  primary_eq : v.primaryFields = movedNumbers a.primaryFields
  exclusive_eq : v.exclusiveField.toList = movedNumbers a.exclusiveField.toList
  binary_eq : v.binaryFields = movedNumbers a.binaryFields
  /-- The numbers in the columns are those of fields. -/
  columns_within : ∀ k ∈ v.primaryFields ++ v.exclusiveField.toList ++ v.binaryFields,
    1 ≤ k ∧ k ≤ v.fields.length
  binary_ascending : v.binaryFields.Pairwise (· < ·)
  binary_iff : ∀ k, k ∈ v.binaryFields ↔ ∃ f, v.field? k = some f ∧ f.type = .bytes
  chain_first : ∀ k f, v.field? k = some f → f.type = .attributionChain → k = 1
  pairs_last : ∀ k f, v.field? k = some f → f.type = .keyValuePairs → k = v.fields.length
  code_eq : v.code = a.code
  name_eq : v.name = a.name
  kind_eq : v.kind = a.kind
  modules_eq : v.modules = a.modules
  doc_eq : v.doc = a.doc

section Chained

variable {a : Atom} (flat : a.nonChained = true)
include flat

theorem chained_get?_annotations {n : Int} (h : 2 < n) :
    a.chained.annotations.get? (n - 1) = a.annotations.get? n := by
  simp only [chained, flat, if_true, get?_shiftAnnotations]
  rw [if_neg (by unfold atomNumber; omega), if_pos (by omega), Int.sub_add_cancel]

theorem chained_primaryFields : a.chained.primaryFields = movedNumbers a.primaryFields := by
  simp only [chained, flat, if_true, filterMap_shift?]

theorem chained_binaryFields : a.chained.binaryFields = movedNumbers a.binaryFields := by
  simp only [chained, flat, if_true, filterMap_shift?]

theorem chained_exclusiveField :
    a.chained.exclusiveField.toList = movedNumbers a.exclusiveField.toList := by
  simp only [chained, flat, if_true, ← filterMap_shift?]
  cases a.exclusiveField with
  | none => rfl
  | some n => cases hn : shift? n <;> simp [hn]

/-- A field of the chained view is the chain or a field of the atom with the number behind. -/
theorem chained_field?_iff {k : Int} {f : AtomField} : a.chained.field? k = some f ↔
    (k = 1 ∧ f = chainField) ∨ (2 ≤ k ∧ a.field? (k + 1) = some f) := by
  have hfields : a.chained.fields = chainField :: a.fields.drop 2 := by
    simp only [chained, flat, if_true]
  simp only [field?_eq_some, hfields]
  constructor
  · intro h
    obtain ⟨i, rfl, hi⟩ := h
    cases i with
    | zero => exact .inl ⟨rfl, by simpa [eq_comm] using hi⟩
    | succ i =>
      rw [List.getElem?_cons_succ, List.getElem?_drop, Nat.add_comm] at hi
      exact .inr ⟨by omega, i + 2, by omega, hi⟩
  · intro h
    obtain ⟨rfl, rfl⟩ | ⟨htwo, i, hi, hf⟩ := h
    · exact ⟨0, rfl, rfl⟩
    · obtain ⟨j, rfl⟩ : ∃ j, i = j + 2 := ⟨i - 2, by omega⟩
      refine ⟨j + 1, by omega, ?_⟩
      rw [List.getElem?_cons_succ, List.getElem?_drop, Nat.add_comm]
      exact hf

end Chained

/-- Seen with a chain, an atom has no more leading fields that a chain could take in. -/
theorem chained_chained (a : Atom) : a.chained.chained = a.chained := by
  cases flat : a.nonChained with
  | false => rw [chained_eq_self flat, chained_eq_self flat]
  | true =>
    have hchained : a.chained.nonChained = false := by simp only [chained, flat, if_true]
    exact chained_eq_self hchained

theorem field?_within {a : Atom} {k : Int} {f : AtomField} (h : a.field? k = some f) :
    1 ≤ k ∧ k ≤ a.fields.length := by
  obtain ⟨i, rfl, hi⟩ := field?_eq_some.1 h
  obtain ⟨hlt, -⟩ := List.getElem?_eq_some_iff.1 hi
  omega

/-- The columns of an atom that is not chained, apart from the uid, stay those of its view. -/
theorem Reflects.renumbered {w : WellKnown} {m : Message} {a : Atom} (reflects : a.Reflects w m)
    (flat : a.nonChained = true) : a.Renumbered a.chained := by
  obtain ⟨-, -, uid, tag, rest, hfields, huid, htag⟩ := reflects.flat flat
  have hlength : a.chained.fields.length + 1 = a.fields.length := by
    simp [chained, flat, hfields]
  -- a number behind the leading ones that a column names is that of a field
  have within : ∀ k, 2 ≤ k → (∃ f, a.field? (k + 1) = some f) →
      1 ≤ k ∧ k ≤ a.chained.fields.length := by
    intro k htwo h
    obtain ⟨f, hf⟩ := h
    have := field?_within hf
    omega
  refine
    { length_fields := hlength
      chain := ⟨chainField, (chained_field?_iff flat).2 (.inl ⟨rfl, rfl⟩), rfl⟩
      field_eq := ?_
      annotations_eq := fun n hn => chained_get?_annotations flat hn
      atom_annotations := ?_
      chain_bare := ?_
      primary_eq := chained_primaryFields flat
      exclusive_eq := chained_exclusiveField flat
      binary_eq := chained_binaryFields flat
      columns_within := ?_
      binary_ascending := ?_
      binary_iff := ?_
      chain_first := ?_
      pairs_last := ?_
      code_eq := chained_code a
      name_eq := chained_name a
      kind_eq := chained_kind a
      modules_eq := ?_
      doc_eq := ?_ }
  · intro n hn
    ext f
    have hone : n - 1 ≠ 1 := by omega
    have htwo : 2 ≤ n - 1 := by omega
    rw [chained_field?_iff flat]
    simp [hone, htwo]
  · simp only [chained, flat, if_true, get?_shiftAnnotations]
  · simp only [chained, flat, if_true, get?_shiftAnnotations]
    rfl
  · intro k hk
    simp only [chained_primaryFields flat, chained_exclusiveField flat, chained_binaryFields flat,
      List.mem_append, mem_movedNumbers, Option.mem_toList] at hk
    rcases hk with (⟨htwo, hprimary⟩ | ⟨htwo, hexclusive⟩) | ⟨htwo, hbinary⟩
    · refine within k htwo ?_
      rcases (reflects.primary_iff _).1 hprimary with ⟨hzero, -⟩ | ⟨-, has⟩
      · unfold firstUid at hzero
        omega
      · exact reflects.exists_field has (by decide)
    · exact within k htwo (reflects.exists_field ((reflects.exclusive_iff _).1 hexclusive) (by decide))
    · obtain ⟨f, hf, -⟩ := (reflects.binary_iff _).1 hbinary
      exact within k htwo ⟨f, hf⟩
  · rw [chained_binaryFields flat]
    exact movedNumbers_ascending reflects.binary_ascending
  · intro k
    rw [chained_binaryFields flat, mem_movedNumbers, reflects.binary_iff]
    simp only [chained_field?_iff flat]
    constructor
    · intro h
      obtain ⟨htwo, f, hf, htype⟩ := h
      exact ⟨f, .inr ⟨htwo, hf⟩, htype⟩
    · intro h
      obtain ⟨f, ⟨-, rfl⟩ | ⟨htwo, hf⟩, htype⟩ := h
      · cases htype
      · exact ⟨htwo, f, hf, htype⟩
  · intro k f hf htype
    rcases (chained_field?_iff flat).1 hf with ⟨hone, -⟩ | ⟨htwo, hf⟩
    · exact hone
    · have := reflects.chain_first _ f hf htype
      omega
  · intro k f hf htype
    rcases (chained_field?_iff flat).1 hf with ⟨-, rfl⟩ | ⟨htwo, hf⟩
    · cases htype
    · have := reflects.pairs_last _ f hf htype
      omega
  · simp only [chained, flat, if_true]
  · simp only [chained, flat, if_true]

end Atom

namespace Collation

/-- A collated atom that is not chained is renumbered faithfully once it is seen with a chain, and
is left alone from then on. Two such atoms share a signature with a chain just when they share
their flat one. -/
theorem chained_renumbers {s t : Schema} {code code' : Int} {a b : Atom}
    (found : (collate .standard s).catalog.get? code = some a) (flat : a.nonChained = true)
    (found' : (collate .standard t).catalog.get? code' = some b) (flat' : b.nonChained = true) :
    a.Renumbered a.chained ∧ a.chained.chained = a.chained ∧
      (a.chained.signature = b.chained.signature ↔ a.signature = b.signature) := by
  obtain ⟨e, -, he⟩ := exists_entry_of_selectAll (foldlM_select_nil _ s) found
  obtain ⟨e', -, he'⟩ := exists_entry_of_selectAll (foldlM_select_nil _ t) found'
  obtain ⟨m, -, reflects⟩ := collateEntry_reflects he
  obtain ⟨uid, tag, rest, hflat⟩ := collateEntry_flat he flat
  obtain ⟨uid', tag', rest', hflat'⟩ := collateEntry_flat he' flat'
  refine ⟨reflects.renumbered flat, a.chained_chained, ?_⟩
  rw [hflat.chained_signature_eq, hflat'.chained_signature_eq, hflat.signature_eq,
    hflat'.signature_eq]
  simp [Signature.withChain, Signature.flat]

/-- A charge with a state, a port and a trace behind a uid and a tag, and maybe pairs at the end. -/
def chargeMessage (pairs : Bool) : Message where
  name := "Charge"
  fields :=
    [{ name := "uid", number := 1, kind := .int32, options := [⟨.number 50001, .bool true⟩] },
      { name := "tag", number := 2, kind := .string, options := [⟨.number 50016, .bool true⟩] },
      { name := "state", number := 3, kind := .int32, options := [⟨.number 50011, .bool true⟩] },
      { name := "port", number := 4, kind := .int32, options := [⟨.number 50010, .bool true⟩] },
      { name := "trace", number := 5, kind := .bytes }] ++
    if pairs then
      [{ name := "extras", number := 6, kind := .message, messageType := some "KeyValuePair" }]
    else []

def chargeEntry : Entry where
  name := "charge"
  code := 90
  message := "Charge"

def chargeSchema (pairs : Bool) : Schema where
  container := "Atom"
  entries := [chargeEntry]
  messages := .ofList [("Charge", chargeMessage pairs)]

theorem charge_collated (pairs : Bool) :
    ∃ a, (collate .standard (chargeSchema pairs)).catalog.get? 90 = some a ∧
      a.nonChained = true ∧ a.primaryFields = [4] ∧ a.exclusiveField = some 3 ∧
      a.binaryFields = [5] ∧ a.fields.length = if pairs then 6 else 5 := by
  have hm : (chargeSchema pairs).message? chargeEntry.message = some (chargeMessage pairs) := by
    cases pairs <;> decide +kernel
  have hnode : collateAttribution .standard (chargeSchema pairs) = .ok builtinAttribution := by
    cases pairs <;> rfl
  obtain ⟨-, a, hcolumns, get?_iff⟩ := collate_of_fields .standard (chargeSchema pairs) rfl hm
    (by cases pairs <;> decide) hnode
    (p := fun a => a.nonChained = true ∧ a.primaryFields = [4] ∧ a.exclusiveField = some 3 ∧
      a.binaryFields = [5] ∧ a.fields.length = if pairs then 6 else 5)
    (by cases pairs <;> decide +kernel)
  exact ⟨a, (get?_iff _ _).2 ⟨rfl, rfl⟩, hcolumns⟩

theorem chained_renumbers_charge :
    ∃ a b, (collate .standard (chargeSchema true)).catalog.get? 90 = some a ∧
      (collate .standard (chargeSchema false)).catalog.get? 90 = some b ∧
      a.nonChained = true ∧ b.nonChained = true ∧ a.Renumbered a.chained ∧
      a.chained.primaryFields = [3] ∧ a.chained.exclusiveField.toList = [2] ∧
      a.chained.binaryFields = [4] ∧ a.chained.signature ≠ b.chained.signature := by
  obtain ⟨a, found, flat, hprimary, hexclusive, hbinary, hlength⟩ := charge_collated true
  obtain ⟨b, found', flat', -, -, -, hlength'⟩ := charge_collated false
  obtain ⟨renumbered, -, hsignature⟩ := chained_renumbers found flat found' flat'
  refine ⟨a, b, found, found', flat, flat', renumbered, ?_, ?_, ?_, ?_⟩
  · rw [renumbered.primary_eq, hprimary]
    rfl
  · rw [renumbered.exclusive_eq, hexclusive]
    rfl
  · rw [renumbered.binary_eq, hbinary]
    rfl
  · intro heq
    have hlengths := congrArg (fun sig => sig.types.length) (hsignature.1 heq)
    simp [Atom.signature, Signature.ofTypes, hlength, hlength'] at hlengths

end Collation

end AtomLog
