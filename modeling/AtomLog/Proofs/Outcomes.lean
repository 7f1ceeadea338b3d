import AtomLog.Proofs.Catalog
import AtomLog.Proofs.Draft
/-!
What becomes of the entries of a schema.

Main statement: every entry gives one atom or one error, the atom of a code is the result of the
first entry with that code, and every later entry with it is an error (`collate_accounts`).
-/
namespace AtomLog.Collation

theorem collateEntry_code {r : Registry} {s : Schema} {e : Entry} {a : Atom}
    (h : collateEntry r s e = .ok a) : a.code = e.code := by
  obtain ⟨m, gs, -, -, -, -, -, rfl⟩ := collateEntry_eq_ok.1 h
  exact takeFields_frame Atom.code note_code gs (fun _ _ _ => rfl) _

/-- The first entry of a list with a code. -/
def firstWithCode? (es : List Entry) (code : Int) : Option Entry :=
  es.find? (fun e => e.code = code)

/-- The error that an entry gives after other entries: a code belongs to its first entry, sound or
not, and that one answers for its own defects. -/
def errorAfter (r : Registry) (s : Schema) (before : List Entry) (e : Entry) :
    Option CollationError :=
  match firstWithCode? before e.code with
  | some first => some ⟨e.name, e.code, .duplicateCode e.code first.name⟩
  | none =>
    match collateEntry r s e with
    | .ok _ => none
    | .error d => some ⟨e.name, e.code, d⟩

/-- The error of the attribution node. -/
def attributionError (r : Registry) (s : Schema) : Option CollationError :=
  match collateAttribution r s with
  | .ok _ => none
  | .error e => some e

section Outcomes

variable (r : Registry) (s : Schema)

theorem firstWithCode?_append (es : List Entry) (e : Entry) (code : Int) :
    firstWithCode? (es ++ [e]) code =
      (firstWithCode? es code).or (if e.code = code then some e else none) := by
  simp only [firstWithCode?, List.find?_append, List.find?_singleton, decide_eq_true_eq]

theorem toOption_mapError {ε ε' α : Type} (x : Except ε α) (f : ε → ε') :
    (x.mapError f).toOption = x.toOption := by
  cases x <;> rfl

theorem accepted_cons (o : Except CollationError Atom) (os : List (Except CollationError Atom)) :
    accepted (o :: os) = o.toOption.toList ++ accepted os := by
  cases o <;> rfl

theorem rejected_cons (o : Except CollationError Atom) (os : List (Except CollationError Atom)) :
    rejected (o :: os) = (match o with | .error e => [e] | .ok _ => []) ++ rejected os := by
  cases o <;> rfl

theorem rejected_cons_eq_nil (o : Except CollationError Atom)
    (os : List (Except CollationError Atom)) :
    rejected (o :: os) = [] ↔ (∃ a, o = .ok a) ∧ rejected os = [] := by
  cases o with
  | error e => simp [rejected_cons]
  | ok a => simp [rejected_cons]

/-- The errors depend on the entries before alone; `seen` remembers the names of their firsts. -/
theorem rejected_outcomes {seen : SortedMap Int String} (before : List Entry)
    (hseen : ∀ code, seen.get? code = (firstWithCode? before code).map Entry.name)
    (es : List Entry) :
    rejected (outcomes r s seen es) =
      (es.mapIdx (fun i e => errorAfter r s (before ++ es.take i) e)).filterMap id := by
  induction es generalizing seen before with
  | nil => rfl
  | cons e es ih =>
    have htail : (es.mapIdx (fun i f => errorAfter r s (before ++ (e :: es).take (i + 1)) f)) =
        es.mapIdx (fun i f => errorAfter r s ((before ++ [e]) ++ es.take i) f) := by
      simp
    rw [outcomes, List.mapIdx_cons, htail, List.take_zero, List.append_nil]
    cases hfirst : firstWithCode? before e.code with
    | some first =>
      have hseen' : ∀ code, seen.get? code =
          (firstWithCode? (before ++ [e]) code).map Entry.name := by
        intro code
        rw [hseen, firstWithCode?_append]
        by_cases hc : e.code = code
        · simp [← hc, hfirst]
        · simp [hc]
      have hget : seen.get? e.code = some first.name := by
        rw [hseen, hfirst]
        rfl
      simp only [hget, rejected_cons, ih _ hseen', errorAfter, hfirst, List.filterMap_cons, id_eq,
        List.cons_append, List.nil_append]
    | none =>
      have hseen' : ∀ code, (seen.insert e.code e.name).get? code =
          (firstWithCode? (before ++ [e]) code).map Entry.name := by
        intro code
        rw [SortedMap.get?_insert, firstWithCode?_append, hseen]
        by_cases hc : code = e.code
        · simp [hc, hfirst]
        · simp [hc, Ne.symm hc]
      have hget : seen.get? e.code = none := by
        rw [hseen, hfirst]
        rfl
      simp only [hget, rejected_cons, ih _ hseen', errorAfter, hfirst, List.filterMap_cons, id_eq]
      cases collateEntry r s e <;> rfl

/-- An accepted atom comes from the first entry with its code that was not seen before. -/
theorem find?_accepted_outcomes (seen : SortedMap Int String) (es : List Entry) (code : Int) :
    (accepted (outcomes r s seen es)).find? (fun a => a.code = code) =
      if (seen.get? code).isSome then none
      else (firstWithCode? es code).bind (fun e => (collateEntry r s e).toOption) := by
  induction es generalizing seen with
  | nil => simp [outcomes, accepted, firstWithCode?]
  | cons e es ih =>
    rw [outcomes]
    cases hget : seen.get? e.code with
    | some name =>
      simp only [accepted_cons, Except.toOption, Option.toList_none, List.nil_append, ih]
      by_cases hc : e.code = code
      · simp [← hc, hget]
      · simp [firstWithCode?, hc]
    | none =>
      simp only [accepted_cons, toOption_mapError, List.find?_append, ih, SortedMap.get?_insert]
      by_cases hc : code = e.code
      · subst hc
        cases he : collateEntry r s e with
        | error d => simp [Except.toOption, firstWithCode?, hget, he]
        | ok a =>
          have hcode := collateEntry_code he
          simp [Except.toOption, firstWithCode?, hget, he, hcode]
      · have hown :
            (collateEntry r s e).toOption.toList.find? (fun a => a.code = code) = none := by
          cases he : collateEntry r s e with
          | error d => rfl
          | ok a =>
            have hcode := collateEntry_code he
            simp [Except.toOption, hcode, Ne.symm hc]
        simp [hown, hc, firstWithCode?, Ne.symm hc]

theorem accepted_outcomes_distinct (seen : SortedMap Int String) (es : List Entry) :
    (accepted (outcomes r s seen es)).Pairwise (fun a b => a.code ≠ b.code) := by
  induction es generalizing seen with
  | nil => exact List.Pairwise.nil
  | cons e es ih =>
    rw [outcomes]
    cases hget : seen.get? e.code with
    | some name =>
      simp only [accepted_cons, Except.toOption, Option.toList_none, List.nil_append]
      exact ih seen
    | none =>
      simp only [accepted_cons, toOption_mapError]
      cases he : collateEntry r s e with
      | error d => exact ih _
      | ok a =>
        refine List.pairwise_cons.2 ⟨?_, ih _⟩
        intro b hb hcode
        -- the code of `a` is seen by now, so no atom after it is found under it
        have hnone := find?_accepted_outcomes r s (seen.insert e.code e.name) es b.code
        rw [SortedMap.get?_insert, ← hcode, collateEntry_code he] at hnone
        simp only [if_true, Option.isSome_some] at hnone
        have := List.find?_eq_none.1 hnone b hb
        rw [← hcode, collateEntry_code he] at this
        simp at this

theorem length_outcomes (seen : SortedMap Int String) (es : List Entry) :
    (outcomes r s seen es).length = es.length := by
  induction es generalizing seen with
  | nil => rfl
  | cons e es ih =>
    rw [outcomes]
    split <;> simp [ih]

theorem length_rejected_add_accepted (os : List (Except CollationError Atom)) :
    (rejected os).length + (accepted os).length = os.length := by
  induction os with
  | nil => rfl
  | cons o os ih =>
    rw [rejected_cons, accepted_cons]
    cases o <;> simp [Except.toOption] <;> omega

/-- Every accepted atom is what some entry gives. -/
theorem exists_entry_of_accepted {seen : SortedMap Int String} {es : List Entry} {a : Atom}
    (h : a ∈ accepted (outcomes r s seen es)) : ∃ e ∈ es, collateEntry r s e = .ok a := by
  have hdistinct := accepted_outcomes_distinct r s seen es
  have hfind := (find?_key_eq_some Atom.code hdistinct).2 ⟨h, rfl⟩
  rw [find?_accepted_outcomes] at hfind
  split at hfind
  · cases hfind
  · obtain ⟨e, he, ha⟩ := Option.bind_eq_some_iff.1 hfind
    exact ⟨e, List.mem_of_find?_eq_some he, toOption_eq_some.1 ha⟩

/-- A collation has under a code what the first entry with that code gives. -/
theorem get?_collate (code : Int) : (collate r s).catalog.get? code =
    (firstWithCode? s.entries code).bind (fun e => (collateEntry r s e).toOption) := by
  have hdistinct := accepted_outcomes_distinct r s ∅ s.entries
  change (Catalog.ofAtoms (accepted (outcomes r s ∅ s.entries))).get? code = _
  rw [Catalog.get?_ofAtoms, Catalog.lastWithCode?_of_distinct hdistinct, find?_accepted_outcomes]
  simp

/-- Where every entry has a code of its own, the atoms of a collation are those of its entries. -/
theorem get?_collate_eq_some (distinct : s.entries.Pairwise (fun e f => e.code ≠ f.code))
    {code : Int} {a : Atom} : (collate r s).catalog.get? code = some a ↔
      ∃ e ∈ s.entries, e.code = code ∧ collateEntry r s e = .ok a := by
  simp only [get?_collate, Option.bind_eq_some_iff, firstWithCode?,
    find?_key_eq_some Entry.code distinct, toOption_eq_some, and_assoc]

theorem rejected_outcomes_eq_nil (seen : SortedMap Int String) (es : List Entry) :
    rejected (outcomes r s seen es) = [] ↔ (∀ e ∈ es, seen.get? e.code = none) ∧
      es.Pairwise (fun e f => e.code ≠ f.code) ∧ ∀ e ∈ es, ∃ a, collateEntry r s e = .ok a := by
  induction es generalizing seen with
  | nil => simp [outcomes, rejected]
  | cons e es ih =>
    have get?_after : ∀ code, (seen.insert e.code e.name).get? code = none ↔
        e.code ≠ code ∧ seen.get? code = none := by
      intro code
      rw [SortedMap.get?_insert]
      by_cases hc : code = e.code
      · simp [hc]
      · simp [hc, Ne.symm hc]
    rw [outcomes]
    cases hget : seen.get? e.code with
    | some name => simp [rejected_cons_eq_nil, hget]
    | none =>
      simp only [rejected_cons_eq_nil, mapError_eq_ok, ih, get?_after, imp_and, forall_and,
        List.forall_mem_cons, List.pairwise_cons, hget, true_and]
      constructor
      · intro h
        obtain ⟨hok, ⟨hne, hseen⟩, hes, hoks⟩ := h
        exact ⟨hseen, ⟨hne, hes⟩, hok, hoks⟩
      · intro h
        obtain ⟨hseen, ⟨hne, hes⟩, hok, hoks⟩ := h
        exact ⟨hok, ⟨hne, hseen⟩, hes, hoks⟩

theorem errors_eq_append : (collate r s).errors =
    rejected (outcomes r s ∅ s.entries) ++ (attributionError r s).toList := by
  simp only [collate, rejected, List.filterMap_append, attributionError]
  cases collateAttribution r s <;> rfl

/-- The errors of a collation are those of its entries, each after the ones before it, and that of
the attribution node. -/
theorem errors_collate : (collate r s).errors =
    (s.entries.mapIdx (fun i e => errorAfter r s (s.entries.take i) e)).filterMap id ++
      (attributionError r s).toList := by
  rw [errors_eq_append, rejected_outcomes r s [] (by simp [firstWithCode?])]
  simp

/-- A collation has no errors just when every entry has a code of its own and is accepted, and so
is the attribution node. -/
theorem errors_eq_nil_iff : (collate r s).errors = [] ↔
    s.entries.Pairwise (fun e f => e.code ≠ f.code) ∧
      (∀ e ∈ s.entries, ∃ a, collateEntry r s e = .ok a) ∧ ∃ n, collateAttribution r s = .ok n := by
  have hentries := rejected_outcomes_eq_nil r s ∅ s.entries
  simp only [rejected] at hentries
  simp only [collate, rejected, List.filterMap_append, List.append_eq_nil_iff, hentries]
  cases collateAttribution r s <;> simp

/-- A schema of one entry that is accepted, with a sound attribution node, has that atom alone. -/
theorem collate_of_entry {e : Entry} {a n : Atom} (hentries : s.entries = [e])
    (ha : collateEntry r s e = .ok a) (hn : collateAttribution r s = .ok n) :
    (collate r s).errors = [] ∧ (collate r s).catalog.get? e.code = some a := by
  have distinct : s.entries.Pairwise (fun e f => e.code ≠ f.code) := by
    rw [hentries]
    exact List.pairwise_singleton _ _
  refine ⟨(errors_eq_nil_iff r s).2 ⟨distinct, ?_, n, hn⟩, ?_⟩
  · intro f hf
    rw [hentries] at hf
    obtain rfl := List.mem_singleton.1 hf
    exact ⟨a, ha⟩
  · refine (get?_collate_eq_some r s distinct).2 ⟨e, ?_, rfl, ha⟩
    rw [hentries]
    exact List.mem_singleton_self e

/-- A schema of one entry, whose message has its fields in order, has the atom that the fields give
one after the other, and no other atom. -/
theorem collate_of_fields {e : Entry} {m : Message} {n : Atom} (hentries : s.entries = [e])
    (hm : s.message? e.message = some m)
    (sorted : m.fields.Pairwise (fun f g => f.number ≤ g.number))
    (hn : collateAttribution r s = .ok n) {p : Atom → Prop}
    (given : ∃ a ∈ Except.toOption (do
      let d ← addFields r s.wellKnown m.fields.length 0 m.fields { atom := startAtom r e m }
      checkState d.atom
      return { d.atom with nonChained := isNonChained d }), p a) :
    (collate r s).errors = [] ∧ ∃ a, p a ∧
      ∀ code a', (collate r s).catalog.get? code = some a' ↔ code = e.code ∧ a' = a := by
  rw [← collateEntry_of_sorted hm sorted] at given
  obtain ⟨a, ha, hp⟩ := given
  have ha := toOption_eq_some.1 ha
  obtain ⟨clean, found⟩ := collate_of_entry r s hentries ha hn
  have distinct := ((errors_eq_nil_iff r s).1 clean).1
  refine ⟨clean, a, hp, ?_⟩
  intro code a'
  constructor
  · intro h
    obtain ⟨f, hf, hcode, ha'⟩ := (get?_collate_eq_some r s distinct).1 h
    rw [hentries] at hf
    obtain rfl := List.mem_singleton.1 hf
    rw [ha] at ha'
    cases ha'
    exact ⟨hcode.symm, rfl⟩
  · intro h
    obtain ⟨rfl, rfl⟩ := h
    exact found

end Outcomes

/-- A collation accounts for every entry once, and for the attribution node. -/
theorem collate_accounts (r : Registry) (s : Schema) :
    (∀ code, (collate r s).catalog.get? code =
      (firstWithCode? s.entries code).bind (fun e => (collateEntry r s e).toOption)) ∧
    (∀ e es, collateEntry r { s with entries := es } e = collateEntry r s e) ∧
    (collate r s).errors =
      (s.entries.mapIdx (fun i e => errorAfter r s (s.entries.take i) e)).filterMap id ++
        (attributionError r s).toList ∧
    (collate r s).errors.length + (collate r s).catalog.atoms.size =
      s.entries.length + match collateAttribution r s with | .ok _ => 0 | .error _ => 1 := by
  have hdistinct := accepted_outcomes_distinct r s ∅ s.entries
  refine ⟨get?_collate r s, fun _ _ => rfl, errors_collate r s, ?_⟩
  have hsize : (collate r s).catalog.atoms.size =
      (accepted (outcomes r s ∅ s.entries)).length := Catalog.size_ofAtoms hdistinct
  have hall := length_rejected_add_accepted (outcomes r s ∅ s.entries)
  rw [length_outcomes] at hall
  rw [errors_eq_append, hsize, List.length_append, attributionError]
  cases collateAttribution r s <;> simp <;> omega

end AtomLog.Collation
