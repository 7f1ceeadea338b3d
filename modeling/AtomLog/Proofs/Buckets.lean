import AtomLog.Atom.Catalog
import AtomLog.Proofs.Lookups
/-!
What the buckets of a list of atoms hold.

Main statements: adding atoms under distinct codes groups them by signature (`groups_ofAtoms`), and
buckets are determined by the atoms that they group (`Groups.unique`).
-/
namespace AtomLog

namespace Bucket

/-- The annotations that a bucket holds for a code at a field number. -/
def annotations? (b : Bucket) (number code : Int) : Option AnnotationSet :=
  (b.annotations.get? number).bind (·.get? code)

/-- A field number is there only when some code is annotated at it. -/
def Tight (b : Bucket) : Prop :=
  ∀ number byCode, b.annotations.get? number = some byCode → byCode.isEmpty = false

theorem tight_empty : ({} : Bucket).Tight := by
  intro number byCode h
  cases h

theorem annotations?_empty (n c : Int) : ({} : Bucket).annotations? n c = none := rfl

@[simp] theorem annotate_codes (b : Bucket) (code number : Int) (set : AnnotationSet) :
    (b.annotate code number set).codes = b.codes := by
  unfold annotate
  split <;> rfl

theorem annotations?_annotate (b : Bucket) (code number : Int) (set : AnnotationSet) (n c : Int) :
    (b.annotate code number set).annotations? n c =
      if n = number ∧ c = code ∧ set.isEmpty = false then some set else b.annotations? n c := by
  unfold annotate
  cases hs : set.isEmpty with
  | true => simp
  | false =>
    simp only [annotations?, Bool.false_eq_true, if_false, SortedMap.get?_modify, and_true]
    by_cases hn : n = number
    · subst hn
      by_cases hc : c = code
      · simp [SortedMap.get?_insert, hc]
      · cases hm : b.annotations.get? n <;> simp [SortedMap.get?_insert, hc]
    · simp [hn]

theorem Tight.annotate {b : Bucket} (h : b.Tight) (code number : Int) (set : AnnotationSet) :
    (b.annotate code number set).Tight := by
  unfold Bucket.annotate
  split
  · exact h
  · intro n byCode hn
    simp only [SortedMap.get?_modify] at hn
    split at hn
    · cases hn
      exact SortedMap.isEmpty_eq_false_iff.2 ⟨code, set, by simp [SortedMap.get?_insert]⟩
    · exact h n byCode hn

section Entries

variable (code : Int) (es : List (Int × AnnotationSet))

theorem annotateAll_codes (b : Bucket) :
    (es.foldl (fun b e => b.annotate code e.1 e.2) b).codes = b.codes := by
  induction es generalizing b with
  | nil => rfl
  | cons e es ih => rw [List.foldl_cons, ih, annotate_codes]

theorem Tight.annotateAll {b : Bucket} (h : b.Tight) :
    (es.foldl (fun b e => b.annotate code e.1 e.2) b).Tight := by
  induction es generalizing b with
  | nil => exact h
  | cons e es ih => exact ih (h.annotate code e.1 e.2)

/-- Entries with distinct numbers land where they belong and disturb no other code. -/
theorem annotations?_annotateAll (b : Bucket) (distinct : es.Pairwise (fun d e => d.1 ≠ e.1))
    (n c : Int) :
    (es.foldl (fun b e => b.annotate code e.1 e.2) b).annotations? n c =
      if c = code then
        ((SortedMap.findEntry n es).filter (fun s => !s.isEmpty)).or (b.annotations? n c)
      else b.annotations? n c := by
  induction es generalizing b with
  | nil => simp [SortedMap.findEntry]
  | cons e es ih =>
    obtain ⟨he, hes⟩ := List.pairwise_cons.1 distinct
    rw [List.foldl_cons, ih (b.annotate code e.1 e.2) hes, annotations?_annotate]
    by_cases hc : c = code
    · by_cases hn : n = e.1
      · have hlater : SortedMap.findEntry e.1 es = none := by
          apply SortedMap.findEntry_eq_none
          intro d hd
          exact (he d hd).symm
        cases hs : e.2.isEmpty <;> simp [SortedMap.findEntry, hc, hn, hs, hlater, Option.filter]
      · simp [SortedMap.findEntry, hc, hn]
    · simp [hc]

end Entries

theorem mem_codes_add (b : Bucket) (a : Atom) (c : Int) :
    c ∈ (b.add a).codes ↔ c = a.code ∨ c ∈ b.codes := by
  unfold add
  rw [annotateAll_codes, SortedSet.mem_insert]

theorem Tight.add {b : Bucket} (h : b.Tight) (a : Atom) : (b.add a).Tight :=
  Tight.annotateAll (b := { b with codes := b.codes.insert a.code }) _ _ h

theorem annotations?_add (b : Bucket) (a : Atom) (n c : Int) :
    (b.add a).annotations? n c =
      if c = a.code then (a.annotationsAt n).or (b.annotations? n c) else b.annotations? n c :=
  annotations?_annotateAll a.code a.annotations.entries { b with codes := b.codes.insert a.code }
    a.annotations.entries_pairwise_ne n c

/-- A tight bucket is determined by its codes and their annotations. -/
theorem Tight.ext {b b' : Bucket} (h : b.Tight) (h' : b'.Tight)
    (codes : ∀ c, c ∈ b.codes ↔ c ∈ b'.codes)
    (annotations : ∀ n c, b.annotations? n c = b'.annotations? n c) : b = b' := by
  have none_of_none : ∀ {b b' : Bucket}, b'.Tight →
      (∀ n c, b.annotations? n c = b'.annotations? n c) →
      ∀ n, b.annotations.get? n = none → b'.annotations.get? n = none := by
    intro b b' ht heq n hn
    rw [Option.eq_none_iff_forall_ne_some]
    intro byCode hb
    obtain ⟨c, set, hc⟩ := SortedMap.isEmpty_eq_false_iff.1 (ht n byCode hb)
    have := heq n c
    simp [annotations?, hn, hb, hc] at this
  have hnumbers : b.annotations = b'.annotations := by
    refine SortedMap.ext_get? ?_
    intro n
    cases hn : b.annotations.get? n with
    | none => exact (none_of_none h' annotations n hn).symm
    | some byCode =>
      cases hn' : b'.annotations.get? n with
      | none =>
        have := none_of_none h (fun n c => (annotations n c).symm) n hn'
        rw [hn] at this
        cases this
      | some byCode' =>
        refine congrArg some (SortedMap.ext_get? ?_)
        intro c
        simpa [annotations?, hn, hn'] using annotations n c
  cases b
  cases b'
  obtain rfl := hnumbers
  obtain rfl := SortedSet.ext_mem codes
  rfl

end Bucket

namespace Buckets

/-- Whether the bucket of a signature holds a code. -/
def Holds (m : Buckets) (s : Signature) (code : Int) : Prop :=
  ∃ b, m.get? s = some b ∧ code ∈ b.codes

/-- The annotations that the bucket of a signature holds for a code at a field number. -/
def annotations? (m : Buckets) (s : Signature) (number code : Int) : Option AnnotationSet :=
  (m.get? s).bind (·.annotations? number code)

theorem get?_add (m : Buckets) (a : Atom) (s : Signature) :
    (m.add a).get? s =
      if s = a.signature then some (((m.get? a.signature).getD {}).add a) else m.get? s :=
  SortedMap.get?_modify m a.signature s _

theorem holds_add (m : Buckets) (a : Atom) (s : Signature) (c : Int) :
    (m.add a).Holds s c ↔ (c = a.code ∧ s = a.signature) ∨ m.Holds s c := by
  simp only [Holds, get?_add]
  by_cases hs : s = a.signature
  · subst hs
    cases m.get? a.signature <;> simp [Bucket.mem_codes_add]
  · simp [hs]

theorem annotations?_add (m : Buckets) (a : Atom) (s : Signature) (n c : Int) :
    (m.add a).annotations? s n c =
      if c = a.code ∧ s = a.signature then (a.annotationsAt n).or (m.annotations? s n c)
      else m.annotations? s n c := by
  simp only [annotations?, get?_add]
  by_cases hs : s = a.signature
  · subst hs
    cases m.get? a.signature with
    | none => simp [Bucket.annotations?_add, Bucket.annotations?_empty]
    | some b => simp [Bucket.annotations?_add]
  · simp [hs]

/-- Buckets that group the atoms of a view, which gives the atom of each code, by signature: an atom
is in the bucket of its signature alone, with its annotations, and nothing else is there. -/
structure Groups (m : Buckets) (view : Int → Option Atom) : Prop where
  holds_iff : ∀ s code, m.Holds s code ↔ ∃ a, view code = some a ∧ a.signature = s
  annotations_iff : ∀ s number code set, m.annotations? s number code = some set ↔
    ∃ a, view code = some a ∧ a.signature = s ∧ a.annotationsAt number = some set
  inhabited : ∀ s b, m.get? s = some b → b.codes.isEmpty = false
  tight : ∀ s b, m.get? s = some b → b.Tight

theorem groups_empty : (∅ : Buckets).Groups (fun _ => none) where
  holds_iff := by simp [Holds]
  annotations_iff := by simp [annotations?]
  inhabited := by simp
  tight := by simp

namespace Groups

variable {m : Buckets} {view : Int → Option Atom}

/-- Adding an atom under a code of its own extends the view by it. -/
theorem add (h : m.Groups view) (a : Atom) (fresh : view a.code = none) :
    (m.add a).Groups (fun code => if code = a.code then some a else view code) where
  holds_iff := by
    intro s code
    rw [holds_add, h.holds_iff]
    by_cases hc : code = a.code
    · subst hc
      simp [fresh, eq_comm]
    · simp [hc]
  annotations_iff := by
    intro s number code set
    rw [annotations?_add]
    by_cases hc : code = a.code
    · subst hc
      have hnone : m.annotations? s number a.code = none := by
        rw [Option.eq_none_iff_forall_ne_some]
        intro set' hset
        obtain ⟨b, hb, -⟩ := (h.annotations_iff s number a.code set').1 hset
        simp [fresh] at hb
      by_cases hs : s = a.signature
      · simp [hs, hs ▸ hnone]
      · simp [hs, hnone, Ne.symm hs]
    · simp [hc, h.annotations_iff]
  inhabited := by
    intro s b hb
    rw [get?_add] at hb
    split at hb
    · cases hb
      exact SortedSet.isEmpty_eq_false_iff.2 ⟨a.code, by simp [Bucket.mem_codes_add]⟩
    · exact h.inhabited s b hb
  tight := by
    intro s b hb
    rw [get?_add] at hb
    split at hb
    · cases hb
      apply Bucket.Tight.add
      cases hm : m.get? a.signature with
      | none => exact Bucket.tight_empty
      | some b => exact h.tight a.signature b hm
    · exact h.tight s b hb

/-- Atoms added under codes of their own, one after the other, all join the view. -/
theorem addAll (h : m.Groups view) (as : List Atom) (fresh : ∀ a ∈ as, view a.code = none)
    (distinct : as.Pairwise (fun a b => a.code ≠ b.code)) :
    (as.foldl Buckets.add m).Groups
      (fun code => (as.find? (fun a => a.code = code)).or (view code)) := by
  induction as generalizing m view with
  | nil => simpa using h
  | cons a as ih =>
    obtain ⟨ha, has⟩ := List.pairwise_cons.1 distinct
    have hfresh : ∀ b ∈ as, (if b.code = a.code then some a else view b.code) = none := by
      intro b hb
      rw [if_neg (ha b hb).symm]
      exact fresh b (by simp [hb])
    have hrest := ih (h.add a (fresh a (by simp))) hfresh has
    refine cast (congrArg _ (funext fun code => ?_)) hrest
    by_cases hc : a.code = code
    · have hnone : as.find? (fun b => b.code = code) = none := by
        rw [List.find?_eq_none]
        intro b hb
        simpa [hc] using (ha b hb).symm
      simp [hc, hnone]
    · simp [hc, Ne.symm hc]

/-- Buckets are determined by the atoms that they group. -/
theorem unique {m' : Buckets} (h : m.Groups view) (h' : m'.Groups view) : m = m' := by
  -- a bucket that one side lacks would hold some code on the other
  have none_of_none : ∀ {m m' : Buckets}, m.Groups view → m'.Groups view →
      ∀ s, m.get? s = none → m'.get? s = none := by
    intro m m' h h' s hs
    rw [Option.eq_none_iff_forall_ne_some]
    intro b hb
    obtain ⟨c, hc⟩ := SortedSet.isEmpty_eq_false_iff.1 (h'.inhabited s b hb)
    have hheld : m.Holds s c := (h.holds_iff s c).2 ((h'.holds_iff s c).1 ⟨b, hb, hc⟩)
    obtain ⟨b', hb', -⟩ := hheld
    rw [hs] at hb'
    cases hb'
  refine SortedMap.ext_get? ?_
  intro s
  cases hs : m.get? s with
  | none => exact (none_of_none h h' s hs).symm
  | some b =>
    cases hs' : m'.get? s with
    | none =>
      have := none_of_none h' h s hs'
      rw [hs] at this
      cases this
    | some b' =>
      refine congrArg some ((h.tight s b hs).ext (h'.tight s b' hs') ?_ ?_)
      · intro c
        simpa [Holds, hs, hs'] using (h.holds_iff s c).trans (h'.holds_iff s c).symm
      · intro n c
        ext set
        simpa [annotations?, hs, hs'] using
          (h.annotations_iff s n c set).trans (h'.annotations_iff s n c set).symm

end Groups

/-- The buckets of a list of atoms under distinct codes group them. -/
theorem groups_ofAtoms (as : List Atom) (distinct : as.Pairwise (fun a b => a.code ≠ b.code)) :
    (ofAtoms as).Groups (fun code => as.find? (fun a => a.code = code)) := by
  simpa [ofAtoms] using groups_empty.addAll as (by simp) distinct

end Buckets

end AtomLog
