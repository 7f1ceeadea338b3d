import AtomLog.Proofs.Columns
import AtomLog.Proofs.Events
/-!
The field numbers in the tables about all atoms, beside the positions at which fields are written.

The tables number the fields of an atom as its message does; the functions write them as seen with a
chain. Main statement: the two agree for an atom that is chained, and for the leading field of one
that is not (`Native.published_written`).
-/
namespace AtomLog

namespace Atom

/-- The position of a field once an atom is seen with a chain, which takes in both leading fields of
an atom that is not chained. -/
def position (a : Atom) (number : Int) : Int :=
  if a.nonChained then (shift? number).getD 1 else number

/-- At the position of a field stands that field, or the chain that takes it in. -/
theorem chained_field?_position {a : Atom} {number : Int} {f : AtomField}
    (h : a.field? number = some f) : a.chained.field? (a.position number) =
      some (if a.nonChained = true ∧ number ≤ 2 then chainField else f) := by
  cases flat : a.nonChained with
  | false => simpa [chained, position, flat] using h
  | true =>
    obtain ⟨i, rfl, hi⟩ := field?_eq_some.1 h
    rw [field?_eq_some]
    by_cases hleading : ((i : Int) + 1) ≤ 2
    · refine ⟨0, ?_, ?_⟩
      · simp [position, flat, shift?, show ¬(2 < (i : Int) + 1) by omega]
      · simp [chained, flat, hleading]
    · refine ⟨i - 1, ?_, ?_⟩
      · simp [position, flat, shift?, show 2 < (i : Int) + 1 by omega]
        omega
      · obtain ⟨j, rfl⟩ : ∃ j, i = j + 2 := ⟨i - 2, by omega⟩
        have hmove : j + 2 - 1 = j + 1 := rfl
        simp only [chained, flat, if_true, hmove, List.getElem?_cons_succ, List.getElem?_drop,
          hleading, and_false, if_false]
        rw [Nat.add_comm 2 j]
        exact hi

theorem position_eq_self_iff {a : Atom} {number : Int} :
    a.position number = number ↔ a.nonChained = false ∨ number = 1 := by
  unfold position shift?
  cases a.nonChained with
  | false => simp
  | true =>
    by_cases htwo : 2 < number
    · simp [htwo]
      omega
    · simp [htwo]
      omega

/-- What columns are set by stands on a field of the atom. -/
theorem Reflects.exists_field {w : WellKnown} {m : Message} {a : Atom} (h : a.Reflects w m)
    {number : Int} {id : AnnotationId} (has : a.Has number id)
    (hid : id ≠ .truncateTimestamp ∧ id ≠ .restrictionCategory) :
    ∃ f, a.field? number = some f := by
  have hnumber : number ≠ atomNumber := by
    intro hzero
    rcases h.atom_ids id (hzero ▸ has) with hatom | hatom
    · exact hid.1 hatom
    · exact hid.2 hatom
  obtain ⟨set, hset, -⟩ := has
  obtain ⟨hnonneg, hle, -⟩ := h.annotations_at number set hset
  unfold atomNumber at hnumber
  obtain ⟨i, rfl⟩ : ∃ i : Nat, number = i + 1 := ⟨(number - 1).toNat, by omega⟩
  have hi : i < a.fields.length := by omega
  exact ⟨a.fields[i], field?_eq_some.2 ⟨i, rfl, List.getElem?_eq_getElem hi⟩⟩

end Atom

namespace Emit

theorem mem_sharedBody_write {ctx : Context} {s : Signature} {b : Bucket} {i : Nat}
    {type : FieldType} :
    Stmt.always (.write i type) ∈ sharedBody ctx s b ↔ 1 ≤ i ∧ s.types[i - 1]? = some type := by
  have hblocks : ∀ position, Stmt.always (.write i type) ∉ bucketAnnotations ctx b position := by
    simp [bucketAnnotations]
  simp only [sharedBody, List.mem_append, List.mem_cons, Stmt.always.injEq, reduceCtorEq, false_or,
    List.mem_flatMap, hblocks, or_false, Step.write.injEq, Prod.exists]
  constructor
  · intro h
    obtain ⟨t, j, hmem, rfl, rfl⟩ := h
    exact List.mem_zipIdx_iff_le_and_getElem?_sub.1 hmem
  · intro h
    exact ⟨type, i, List.mem_zipIdx_iff_le_and_getElem?_sub.2 h, rfl, rfl⟩

namespace Native

/-- A field number that the tables about all atoms give for an atom. -/
inductive Published (ctx : Context) (a : Atom) : Int → Prop
  | uid {number : Int} : (a, number) ∈ uidFields ctx → Published ctx a number
  | exclusive {number : Int} {primary : List Int} :
    (a, primary, number) ∈ stateFields ctx → Published ctx a number
  | primary {number exclusive : Int} {primary : List Int} :
    (a, primary, exclusive) ∈ stateFields ctx → number ∈ primary → number ≠ Atom.firstUid →
      Published ctx a number
  | bytes {number : Int} {numbers : List Int} :
    (a, numbers) ∈ bytesFields ctx → number ∈ numbers → Published ctx a number

theorem mem_sourceLines {ctx : Context} (o : Options) {line : String} (h : line ∈ infoTables ctx) :
    line ∈ sourceLines ctx o := by
  unfold sourceLines
  iterate 4 apply List.mem_append_left
  exact List.mem_append_right _ h

/-- A published number is printed, where the tables about all atoms are. -/
theorem Published.printed {ctx : Context} {a : Atom} {number : Int} (h : Published ctx a number)
    (default : ctx.selection.isDefault = true) (o : Options) :
    s!"    uidField[{codeOf a}] = {number};" ∈ sourceLines ctx o ∨
      s!"    opt.exclusiveField = {number};" ∈ sourceLines ctx o ∨
      s!"    opt.primaryFields.push_back({number});" ∈ sourceLines ctx o ∨
      s!"    options[{codeOf a}].push_back({number});" ∈ sourceLines ctx o := by
  have tables : ∀ line, line ∈ uidTable ctx ∨ line ∈ stateTable ctx ∨ line ∈ bytesTable ctx →
      line ∈ sourceLines ctx o := by
    intro line hline
    apply mem_sourceLines
    rw [infoTables, if_pos default]
    simp only [List.mem_append]
    rcases hline with hline | hline | hline
    · exact .inl (.inl (.inr hline))
    · exact .inl (.inr hline)
    · exact .inr hline
  -- a row of a table stands between what opens the table and what closes it
  have row : ∀ {line : String} {before rows after : List String}, line ∈ rows →
      line ∈ before ++ rows ++ after :=
    fun hline => List.mem_append_left _ (List.mem_append_right _ hline)
  cases h with
  | uid h => exact .inl (tables _ (.inl (row (List.mem_flatMap.2 ⟨_, h, by simp⟩))))
  | exclusive h =>
    exact .inr (.inl (tables _ (.inr (.inl (row (List.mem_flatMap.2 ⟨_, h, by simp⟩))))))
  | primary h hmem _ =>
    refine .inr (.inr (.inl (tables _ (.inr (.inl (row (List.mem_flatMap.2 ⟨_, h, ?_⟩)))))))
    exact row (List.mem_map_of_mem hmem)
  | bytes h hmem =>
    refine .inr (.inr (.inr (tables _ (.inr (.inr (row (List.mem_flatMap.2 ⟨_, h, ?_⟩)))))))
    exact List.mem_append_right _ (List.mem_map_of_mem hmem)

/-- The one function of an atom's kind that has its signature as seen with a chain writes a field,
or the chain that takes it in, at a position. -/
structure WritesAt (ctx : Context) (a : Atom) (number : Int) (position : Nat) : Prop where
  position_eq : a.position number = position
  write : ∃ f b, a.field? number = some f ∧
    (∀ b', (a.chained.signature, b') ∈ overloads ctx (.ofKind a.kind) ↔ b' = b) ∧
    Stmt.always (.write position
      (if a.nonChained = true ∧ number ≤ 2 then .attributionChain else f.type.wire)) ∈
        sharedBody ctx a.chained.signature b

theorem supportsSignature_iff {a : Atom} :
    target.supportsSignature a.signature = true ↔ target.supportsAtom a = true := by
  rw [Target.supportsSignature_eq supports_wire]

section Tables

variable {ctx : Context} (describes : ctx.catalog.Describes ctx.catalog.get?) {code : Int}
  {a : Atom} (found : ctx.catalog.get? code = some a)
include describes found

/-- A field is written at its position, if the types of its atom can be written at all. -/
theorem writesAt_iff {number : Int} {f : AtomField} (h : a.field? number = some f)
    (position : Nat) : WritesAt ctx a number position ↔
      target.supportsAtom a.chained = true ∧ a.position number = position := by
  obtain ⟨b, hb, -⟩ := (describes.holds_ofKind_iff a.kind _ code).2 ⟨a, found, rfl, rfl⟩
  constructor
  · intro hwrites
    obtain ⟨hposition, -, b', -, honly, -⟩ := hwrites
    have hmem := (honly b').2 rfl
    rw [overloads_ofKind, Target.mem_supported] at hmem
    exact ⟨supportsSignature_iff.1 hmem.2, hposition⟩
  · intro hsupported
    obtain ⟨hsupports, hposition⟩ := hsupported
    have hfield := Atom.chained_field?_position h
    rw [hposition] at hfield
    refine ⟨hposition, f, b, h, ?_, ?_⟩
    · intro b'
      rw [overloads_ofKind]
      exact Target.mem_supported_iff_of_atom supports_wire hsupports hb b'
    · obtain ⟨i, hi, hget⟩ := Atom.field?_eq_some.1 hfield
      obtain rfl : position = i + 1 := by omega
      refine mem_sharedBody_write.2 ⟨by omega, ?_⟩
      simp only [Nat.add_sub_cancel, Atom.signature, Signature.ofTypes, List.getElem?_map, hget,
        Option.map_some]
      split <;> rfl

end Tables

/-- A published number is that of a field. -/
theorem Published.exists_field {ctx : Context} {w : WellKnown} {m : Message} {a : Atom}
    {number : Int} (h : Published ctx a number) (reflects : a.Reflects w m) :
    ∃ f, a.field? number = some f := by
  cases h with
  | uid h =>
    simp only [uidFields, List.mem_filterMap, Option.map_eq_some_iff, Prod.mk.injEq] at h
    obtain ⟨_, -, n, huid, rfl, rfl⟩ := h
    exact reflects.exists_field ((reflects.uid_iff _).1 huid) (by decide)
  | exclusive h =>
    simp only [stateFields, List.mem_map, List.mem_filter, Prod.mk.injEq] at h
    obtain ⟨a, ⟨-, hstate⟩, rfl, rfl, rfl⟩ := h
    have hsome : a.exclusiveField ≠ none := by
      simp only [Atom.isState, Bool.or_eq_true, Bool.not_eq_true', List.isEmpty_eq_false_iff,
        Option.isSome_iff_ne_none] at hstate
      exact hstate.elim reflects.exclusive_of_primary id
    obtain ⟨n, hn⟩ := Option.ne_none_iff_exists'.1 hsome
    rw [hn, Option.getD_some]
    exact reflects.exists_field ((reflects.exclusive_iff n).1 hn) (by decide)
  | primary h hmem hne =>
    simp only [stateFields, List.mem_map, Prod.mk.injEq] at h
    obtain ⟨_, -, rfl, rfl, -⟩ := h
    rcases (reflects.primary_iff number).1 hmem with ⟨hfirst, -⟩ | ⟨-, has⟩
    · exact absurd hfirst hne
    · exact reflects.exists_field has (by decide)
  | bytes h hmem =>
    simp only [bytesFields, List.mem_map, Prod.mk.injEq] at h
    obtain ⟨_, -, rfl, rfl⟩ := h
    obtain ⟨f, hf, -⟩ := (reflects.binary_iff number).1 hmem
    exact ⟨f, hf⟩

/-- In the output for every module, a field whose number is published is written at its position,
and that is the published number for an atom that is chained and for a leading field alone. -/
theorem published_written {s : Schema} {code number : Int} {a : Atom}
    (found : (Collation.collate .standard s).catalog.get? code = some a) :
    let ctx : Context :=
      ⟨(Collation.collate .standard s).catalog, (Collation.collate .standard s).attribution, .all⟩
    Published ctx a number →
      (∀ position : Nat, WritesAt ctx a number position ↔
        target.supportsAtom a.chained = true ∧ a.position number = position) ∧
      (a.position number = number ↔ a.nonChained = false ∨ number = 1) := by
  intro ctx published
  have selected : (Collation.collate .standard s).catalog.select .all =
      .ok (Collation.collate .standard s).catalog := rfl
  obtain ⟨e, -, he⟩ := Collation.exists_entry_of_select selected found
  obtain ⟨m, -, reflects⟩ := Collation.collateEntry_reflects he
  obtain ⟨f, hf⟩ := published.exists_field reflects
  have describes : ctx.catalog.Describes ctx.catalog.get? := Catalog.describes_self _
  exact ⟨writesAt_iff describes found hf, Atom.position_eq_self_iff⟩

/-- A state behind a uid and a tag, and bytes behind the state. -/
def wakelockMessage : Message where
  name := "Wakelock"
  fields :=
    [{ name := "uid", number := 1, kind := .int32, options := [⟨.number 50001, .bool true⟩] },
      { name := "tag", number := 2, kind := .string, options := [⟨.number 50016, .bool true⟩] },
      { name := "state", number := 3, kind := .int32, options := [⟨.number 50011, .bool true⟩] },
      { name := "trace", number := 4, kind := .bytes }]

def wakelockEntry : Entry where
  name := "wakelock"
  code := 10
  message := "Wakelock"

def wakelockSchema : Schema where
  container := "Atom"
  entries := [wakelockEntry]
  messages := ⟨[("Wakelock", wakelockMessage)], by simp⟩

def wakelockContext : Context :=
  ⟨(Collation.collate .standard wakelockSchema).catalog,
    (Collation.collate .standard wakelockSchema).attribution, .all⟩

theorem wakelock_collated : (Collation.collate .standard wakelockSchema).errors = [] ∧
    ∃ a, (Collation.collate .standard wakelockSchema).catalog.get? 10 = some a ∧
      a.nonChained = true ∧ a.exclusiveField = some 3 ∧ target.supportsAtom a.chained = true := by
  have hm : wakelockSchema.message? wakelockEntry.message = some wakelockMessage := by
    decide +kernel
  obtain ⟨clean, a, hcolumns, get?_iff⟩ := Collation.collate_of_fields .standard wakelockSchema rfl
    hm (by decide) rfl (p := fun a => a.nonChained = true ∧ a.exclusiveField = some 3 ∧
      target.supportsAtom a.chained = true) (by decide +kernel)
  exact ⟨clean, a, (get?_iff _ _).2 ⟨rfl, rfl⟩, hcolumns⟩

/-- The table says that the state is field 3, where its function writes the bytes. -/
theorem wakelock_published : ∃ a, wakelockContext.catalog.get? 10 = some a ∧
    a.nonChained = true ∧ target.supportsAtom a.chained = true ∧ Published wakelockContext a 3 := by
  obtain ⟨-, a, found, flat, hexclusive, hsupports⟩ := wakelock_collated
  have hmem : a ∈ wakelockContext.catalog.toList := SortedMap.mem_values.2 ⟨10, found⟩
  have hstate : a.isState = true := by simp [Atom.isState, hexclusive]
  have hrow : (a, a.primaryFields, (3 : Int)) ∈ stateFields wakelockContext :=
    List.mem_map.2 ⟨a, List.mem_filter.2 ⟨hmem, hstate⟩, by rw [hexclusive, Option.getD_some]⟩
  exact ⟨a, found, flat, hsupports, .exclusive hrow⟩

theorem published_written_wakelock : ∃ a, wakelockContext.catalog.get? 10 = some a ∧
    Published wakelockContext a 3 ∧ WritesAt wakelockContext a 3 2 := by
  obtain ⟨a, found, flat, hsupports, published⟩ := wakelock_published
  obtain ⟨hwritten, -⟩ := published_written found published
  have hposition : a.position 3 = 2 := by simp [Atom.position, flat, Atom.shift?]
  exact ⟨a, found, published, (hwritten 2).2 ⟨hsupports, hposition⟩⟩

/-- Not every published number is the position at which its field is written. -/
theorem not_published_position : (Collation.collate .standard wakelockSchema).errors = [] ∧
    ¬∀ code a number, wakelockContext.catalog.get? code = some a →
      target.supportsAtom a.chained = true → Published wakelockContext a number →
      ∃ position : Nat, (position : Int) = number ∧ WritesAt wakelockContext a number position := by
  refine ⟨wakelock_collated.1, ?_⟩
  intro h
  obtain ⟨a, found, flat, hsupports, published⟩ := wakelock_published
  obtain ⟨position, hnumber, hwrites⟩ := h 10 a 3 found hsupports published
  have hposition := hwrites.position_eq
  rw [hnumber] at hposition
  simp [Atom.position, flat, Atom.shift?] at hposition

end Native

end Emit

end AtomLog
