import AtomLog.Proofs.FlatCalls
/-!
Which functions of one name have the same parameter types.

A language spells a signature type by type. Spellings that begin differently can be told apart, so
in C++ different signatures have different parameter types (`Native.overloads_distinct`). Java
spells a chain like two arrays: there a signature that begins with a chain has the parameter types
of the one that begins with these arrays instead, and of no other (`Java.overloads_coincide_iff`).
-/
namespace AtomLog

/-- Words that begin differently, none of them empty, are read back from what they make up. -/
theorem flatMap_injOn {α β : Type} {word : α → List β} {p : α → Prop}
    (nonempty : ∀ a, p a → word a ≠ [])
    (heads : ∀ a b, p a → p b → (word a).head? = (word b).head? → a = b) {xs ys : List α}
    (hxs : ∀ x ∈ xs, p x) (hys : ∀ y ∈ ys, p y) (h : xs.flatMap word = ys.flatMap word) :
    xs = ys := by
  induction xs generalizing ys with
  | nil =>
    cases ys with
    | nil => rfl
    | cons y ys =>
      have hy : word y = [] := List.flatMap_eq_nil_iff.1 h.symm y (by simp)
      exact absurd hy (nonempty y (hys y (by simp)))
  | cons x xs ih =>
    have hx := hxs x (by simp)
    cases ys with
    | nil =>
      have hempty : word x = [] := List.flatMap_eq_nil_iff.1 h x (by simp)
      exact absurd hempty (nonempty x hx)
    | cons y ys =>
      have hy := hys y (by simp)
      rw [List.flatMap_cons, List.flatMap_cons] at h
      have hhead := congrArg List.head? h
      rw [List.head?_append_of_ne_nil _ (nonempty x hx),
        List.head?_append_of_ne_nil _ (nonempty y hy)] at hhead
      obtain rfl := heads x y hx hy hhead
      have hrest := List.append_cancel_left h
      rw [ih (fun z hz => hxs z (by simp [hz])) (fun z hz => hys z (by simp [hz])) hrest]

theorem FieldType.wire_wire (t : FieldType) : t.wire.wire = t.wire := by
  cases t <;> rfl

/-- The types of a signature are written as they are. -/
theorem Signature.wire_of_mem {ts : List FieldType} {t : FieldType} (h : t ∈ (ofTypes ts).types) :
    t.wire = t := by
  obtain ⟨u, -, rfl⟩ := List.mem_map.1 h
  exact u.wire_wire

namespace Emit

theorem Target.supports_of_mem {t : Target} {s : Signature} (h : t.supportsSignature s = true)
    {type : FieldType} (hmem : type ∈ s.types) : t.supports type = true :=
  List.all_eq_true.1 h type hmem

/-! ### C++ -/

namespace Native

/-- The result and the name of the functions of a family. -/
def Family.result : Family → String
  | .write => "int stats_write("
  | .writeNonChained => "int stats_write_non_chained("
  | .addEvent => "void addAStatsEvent("

/-- The parameters that all functions of a family begin with. -/
def Family.ownParams : Family → List Param
  | .write | .writeNonChained => []
  | .addEvent => [⟨"AStatsEventList*", "pulled_data"⟩]

/-- All parameters of the function of a family for a signature. -/
def declaredParams (ctx : Context) (m : Family) (s : Signature) : List Param :=
  m.ownParams ++ params ctx s

def paramTypes (ctx : Context) (m : Family) (s : Signature) : List String :=
  (declaredParams ctx m s).map Param.type

theorem methodSignature_eq (ctx : Context) (m : Family) (s : Signature) :
    methodSignature ctx m s =
      m.result ++ String.intercalate ", " ((declaredParams ctx m s).map paramText) ++ ")" := by
  cases m with
  | write => rfl
  | writeNonChained => rfl
  | addEvent =>
    simp only [methodSignature, Family.opening, Family.result, declaredParams, Family.ownParams,
      params, List.cons_append, List.nil_append, List.map_cons, String.intercalate_cons_cons]
    simp only [← String.append_assoc]
    rfl

/-- How C++ spells a type among the types of parameters. -/
def spelled (ctx : Context) (t : FieldType) : List String := (argParams ctx 0 t).map Param.type

theorem paramTypes_eq (ctx : Context) (m : Family) (s : Signature) :
    paramTypes ctx m s =
      m.ownParams.map Param.type ++ "int32_t" :: s.types.flatMap (spelled ctx) := by
  rw [paramTypes, declaredParams, params, List.map_append, List.map_cons,
    types_flatMap (argParams_types ctx)]
  rfl

/-- What the spelling of a type begins with. -/
def firstSpelled (t : FieldType) : String :=
  if t = .attributionChain then "const int32_t*" else (type? t).getD "void*"

/-- A chain begins with the uids of its nodes. -/
theorem spelled_head? {ctx : Context}
    (node : ctx.attribution.fields.head?.map AtomField.type = some .int32) (t : FieldType) :
    (spelled ctx t).head? = some (firstSpelled t) := by
  unfold spelled argParams firstSpelled
  by_cases ht : t = .attributionChain
  · cases hfields : ctx.attribution.fields with
    | nil => simp [hfields] at node
    | cons uid rest =>
      have huid : uid.type = .int32 := by simpa [hfields] using node
      simp only [ht, beq_self_eq_true, if_true, chainParams, hfields, List.flatMap_cons, huid]
      rfl
  · simp [ht]

theorem firstSpelled_injective : ∀ t u : FieldType, target.supports t = true →
    target.supports u = true → t.wire = t → u.wire = u → firstSpelled t = firstSpelled u →
    t = u := by
  decide

/-- Where a node begins with a uid, the parameter types of supported signatures tell which one they
are of. -/
theorem paramTypes_injective {ctx : Context}
    (node : ctx.attribution.fields.head?.map AtomField.type = some .int32) (m : Family)
    {s t : Signature} (hs : target.supportsSignature s = true)
    (ht : target.supportsSignature t = true) (hswire : ∀ type ∈ s.types, type.wire = type)
    (htwire : ∀ type ∈ t.types, type.wire = type)
    (h : paramTypes ctx m s = paramTypes ctx m t) : s = t := by
  rw [paramTypes_eq, paramTypes_eq] at h
  have hspelled := (List.cons.inj (List.append_cancel_left h)).2
  have htypes : s.types = t.types := by
    refine flatMap_injOn (p := fun type => target.supports type = true ∧ type.wire = type)
      ?_ ?_ ?_ ?_ hspelled
    · intro a _ hempty
      have hhead := spelled_head? node a
      simp [hempty] at hhead
    · intro a b ha hb hheads
      rw [spelled_head? node, spelled_head? node] at hheads
      exact firstSpelled_injective a b ha.1 hb.1 ha.2 hb.2 (Option.some.inj hheads)
    · intro type hmem
      exact ⟨Target.supports_of_mem hs hmem, hswire type hmem⟩
    · intro type hmem
      exact ⟨Target.supports_of_mem ht hmem, htwire type hmem⟩
  cases s
  cases t
  exact congrArg Signature.mk htypes

end Native

/-! ### Java -/

namespace Java

def paramTypes (ctx : Context) (s : Signature) : List String := (params ctx s).map Param.type

/-- How Java spells a type among the types of parameters. -/
def spelled (ctx : Context) (t : FieldType) : List String := (argParams ctx 0 t).map Param.type

theorem paramTypes_eq (ctx : Context) (s : Signature) :
    paramTypes ctx s = "int" :: s.types.flatMap (spelled ctx) := by
  rw [paramTypes, params, List.map_cons, types_flatMap (argParams_types ctx)]
  rfl

/-- The types that are spelt like a type, none of them a chain. -/
def unchained : FieldType → List FieldType
  | .attributionChain => [.int32Array, .stringArray]
  | t => [t]

theorem unchained_of_ne {t : FieldType} (h : t ≠ .attributionChain) : unchained t = [t] := by
  cases t <;> first | rfl | exact absurd rfl h

theorem flatMap_unchained {ts : List FieldType} (h : .attributionChain ∉ ts) :
    ts.flatMap unchained = ts := by
  have hsame : ∀ t ∈ ts, unchained t = [t] := by
    intro t ht
    apply unchained_of_ne
    intro hchain
    exact h (hchain ▸ ht)
  rw [List.flatMap_congr hsame, List.flatMap_singleton']

theorem spelled_unchained (ctx : Context) (t : FieldType) :
    (unchained t).flatMap (spelled ctx) = spelled ctx t := by
  cases t <;> rfl

/-- What the spelling of a type begins with. -/
def firstSpelled (t : FieldType) : String :=
  if t = .keyValuePairs then "SparseIntArray" else (type? t).getD "Object"

theorem spelled_head? (ctx : Context) {t : FieldType} (h : t ≠ .attributionChain) :
    (spelled ctx t).head? = some (firstSpelled t) := by
  cases t <;> first | rfl | exact absurd rfl h

/-- A type that tells itself by its spelling. -/
structure Plain (t : FieldType) : Prop where
  supported : target.supports t = true
  wire : t.wire = t
  unchained : t ≠ .attributionChain

instance (t : FieldType) : Decidable (Plain t) :=
  decidable_of_iff (target.supports t = true ∧ t.wire = t ∧ t ≠ .attributionChain)
    ⟨fun h => ⟨h.1, h.2.1, h.2.2⟩, fun h => ⟨h.1, h.2, h.3⟩⟩

theorem Plain.eq_of_firstSpelled :
    ∀ t u : FieldType, Plain t → Plain u → firstSpelled t = firstSpelled u → t = u := by
  decide

theorem plain_of_mem_unchained {s : Signature} (hs : target.supportsSignature s = true)
    (hswire : ∀ type ∈ s.types, type.wire = type) :
    ∀ t ∈ s.types.flatMap Java.unchained, Plain t := by
  intro t ht
  obtain ⟨u, hu, ht⟩ := List.mem_flatMap.1 ht
  by_cases hchain : u = .attributionChain
  · subst hchain
    simp only [Java.unchained, List.mem_cons, List.not_mem_nil, or_false] at ht
    rcases ht with rfl | rfl
    · exact ⟨rfl, rfl, by decide⟩
    · exact ⟨rfl, rfl, by decide⟩
  · rw [unchained_of_ne hchain] at ht
    obtain rfl := List.mem_singleton.1 ht
    exact ⟨Target.supports_of_mem hs hu, hswire t hu, hchain⟩

/-- Supported signatures have the same parameter types just when they are the same but for the
arrays that stand for chains. -/
theorem paramTypes_eq_iff (ctx : Context) {s t : Signature}
    (hs : target.supportsSignature s = true) (ht : target.supportsSignature t = true)
    (hswire : ∀ type ∈ s.types, type.wire = type) (htwire : ∀ type ∈ t.types, type.wire = type) :
    paramTypes ctx s = paramTypes ctx t ↔
      s.types.flatMap unchained = t.types.flatMap unchained := by
  have hspelled : ∀ u : Signature, paramTypes ctx u =
      "int" :: (u.types.flatMap unchained).flatMap (spelled ctx) := by
    intro u
    rw [paramTypes_eq, List.flatMap_assoc]
    simp only [spelled_unchained]
  rw [hspelled, hspelled, List.cons.injEq, and_iff_right rfl]
  constructor
  · intro h
    refine flatMap_injOn (p := Plain) ?_ ?_ (plain_of_mem_unchained hs hswire)
      (plain_of_mem_unchained ht htwire) h
    · intro a ha hempty
      have hhead := spelled_head? ctx ha.unchained
      simp [hempty] at hhead
    · intro a b ha hb hheads
      rw [spelled_head? ctx ha.unchained, spelled_head? ctx hb.unchained] at hheads
      exact Plain.eq_of_firstSpelled a b ha hb (Option.some.inj hheads)
  · intro h
    rw [h]

/-- A signature that begins with a chain, and the one that begins with two arrays instead. -/
def SpeltAlike (s t : Signature) : Prop :=
  ∃ ts, s.types = .attributionChain :: ts ∧ t.types = .int32Array :: .stringArray :: ts

/-- A chain that nothing comes before is the first type or is not there. -/
theorem chain_first_or_absent {ts : List FieldType} (h : .attributionChain ∉ ts.tail) :
    (∃ us, ts = .attributionChain :: us ∧ .attributionChain ∉ us) ∨ .attributionChain ∉ ts := by
  cases ts with
  | nil => exact .inr List.not_mem_nil
  | cons t us =>
    by_cases ht : t = .attributionChain
    · subst ht
      exact .inl ⟨us, rfl, h⟩
    · exact .inr (List.not_mem_cons_of_ne_of_not_mem (Ne.symm ht) h)

theorem flatMap_unchained_cons {us : List FieldType} (h : .attributionChain ∉ us) :
    (.attributionChain :: us).flatMap unchained = .int32Array :: .stringArray :: us := by
  rw [List.flatMap_cons, flatMap_unchained h]
  rfl

theorem flatMap_unchained_eq_iff {s t : Signature} (hne : s ≠ t)
    (hs : .attributionChain ∉ s.types.tail) (ht : .attributionChain ∉ t.types.tail) :
    s.types.flatMap unchained = t.types.flatMap unchained ↔ SpeltAlike s t ∨ SpeltAlike t s := by
  obtain ⟨ss⟩ := s
  obtain ⟨ts⟩ := t
  simp only [ne_eq, Signature.mk.injEq] at hne
  rcases chain_first_or_absent hs with ⟨us, rfl, hus⟩ | hs <;>
    rcases chain_first_or_absent ht with ⟨vs, rfl, hvs⟩ | ht
  · simp only [flatMap_unchained_cons hus, flatMap_unchained_cons hvs, SpeltAlike]
    simp_all
  · simp only [flatMap_unchained_cons hus, flatMap_unchained ht, SpeltAlike]
    simp [eq_comm]
  · simp only [flatMap_unchained hs, flatMap_unchained_cons hvs, SpeltAlike]
    simp
  · simp only [flatMap_unchained hs, flatMap_unchained ht, SpeltAlike]
    constructor
    · intro h
      exact absurd h hne
    · intro h
      rcases h with ⟨us, rfl, -⟩ | ⟨us, rfl, -⟩
      · exact absurd (List.mem_cons_self) hs
      · exact absurd (List.mem_cons_self) ht

end Java

/-! ### The overloads of a schema -/

section Collated

variable {r : Registry} {s : Schema} {sel : Selection} {c : Catalog}

/-- Under two keys of a map stand different entries, also of those that a language supports. -/
theorem Target.supported_distinct (t : Target) (m : Buckets) :
    (t.supported m).Pairwise (fun x y => x.1 ≠ y.1) :=
  m.entries_pairwise_ne.filter _

theorem collated_wire (selected : (Collation.collate r s).catalog.select sel = .ok c)
    {m : Native.Family} {sig : Signature} {b : Bucket}
    (hb : (m.buckets c).get? sig = some b) : ∀ type ∈ sig.types, type.wire = type := by
  cases m with
  | write =>
    have hb : (c.ofKind .pushed).get? sig = some b := hb
    obtain ⟨e, a, -, rfl⟩ := Collation.exists_entry_of_ofKind selected hb
    exact fun _ => Signature.wire_of_mem
  | addEvent =>
    have hb : (c.ofKind .pulled).get? sig = some b := hb
    obtain ⟨e, a, -, rfl⟩ := Collation.exists_entry_of_ofKind selected hb
    exact fun _ => Signature.wire_of_mem
  | writeNonChained =>
    obtain ⟨e, a, -, -, rfl⟩ := Collation.exists_entry_of_nonChained selected hb
    exact fun _ => Signature.wire_of_mem

/-- Nothing stands before a chain, with the leading fields of an atom seen as one or not. -/
theorem chain_not_mem_tail {e : Entry} {a : Atom} (h : Collation.collateEntry r s e = .ok a) :
    .attributionChain ∉ a.chained.signature.types.tail := by
  cases flat : a.nonChained with
  | true =>
    obtain ⟨uid, tag, rest, flat⟩ := Collation.collateEntry_flat h flat
    rw [flat.chained_signature_types]
    intro hchain
    exact flat.wire_unchained _ hchain rfl
  | false =>
    have hsame : a.chained = a := by simp [Atom.chained, flat]
    rw [hsame, Atom.signature, Signature.ofTypes, List.map_map, ← List.map_tail]
    intro hchain
    obtain ⟨f, hf, hwire⟩ := List.mem_map.1 hchain
    obtain ⟨i, hi, rfl⟩ := List.getElem_of_mem hf
    have hget : a.fields[i + 1]? = some a.fields.tail[i] := by
      rw [← List.getElem?_tail, List.getElem?_eq_getElem hi]
    have := Collation.collateEntry_chain_first h hget (FieldType.eq_chain_of_wire hwire)
    omega

theorem chain_not_mem_of_flat {e : Entry} {a : Atom} (h : Collation.collateEntry r s e = .ok a)
    (flat : a.nonChained = true) : .attributionChain ∉ a.signature.types := by
  obtain ⟨uid, tag, rest, flat⟩ := Collation.collateEntry_flat h flat
  rw [flat.signature_types]
  intro hchain
  simp only [List.mem_cons, reduceCtorEq, false_or] at hchain
  exact flat.wire_unchained _ hchain rfl

/-- In Java two different signatures among those of a kind have the same parameter types just when
one begins with a chain and the other with an array of whole numbers and one of texts, and they go
on alike. Flat signatures always differ in their parameter types. -/
theorem Java.overloads_coincide_iff
    (selected : (Collation.collate r s).catalog.select sel = .ok c) :
    let ctx : Context := ⟨c, (Collation.collate r s).attribution, sel⟩
    (∀ kind, (overloads ctx kind).Pairwise (fun x y =>
      paramTypes ctx x.1 = paramTypes ctx y.1 ↔ SpeltAlike x.1 y.1 ∨ SpeltAlike y.1 x.1)) ∧
    (nonChained ctx).Pairwise (fun x y => paramTypes ctx x.1 ≠ paramTypes ctx y.1) := by
  intro ctx
  refine ⟨?_, ?_⟩
  · intro kind
    rw [overloads_eq]
    refine (target.supported_distinct _).imp_of_mem ?_
    intro x y hx hy hne
    obtain ⟨hx, hxs⟩ := Target.mem_supported.1 hx
    obtain ⟨hy, hys⟩ := Target.mem_supported.1 hy
    obtain ⟨e, a, ha, hxa⟩ := Collation.exists_entry_of_ofKind selected hx
    obtain ⟨e', a', ha', hya⟩ := Collation.exists_entry_of_ofKind selected hy
    have hxchain := chain_not_mem_tail ha
    have hychain := chain_not_mem_tail ha'
    rw [hxa] at hxchain
    rw [hya] at hychain
    rw [paramTypes_eq_iff ctx hxs hys (hxa ▸ fun _ => Signature.wire_of_mem)
      (hya ▸ fun _ => Signature.wire_of_mem), flatMap_unchained_eq_iff hne hxchain hychain]
  · refine (target.supported_distinct _).imp_of_mem ?_
    intro x y hx hy hne heq
    obtain ⟨hx, hxs⟩ := Target.mem_supported.1 hx
    obtain ⟨hy, hys⟩ := Target.mem_supported.1 hy
    obtain ⟨e, a, ha, flat, hxa⟩ := Collation.exists_entry_of_nonChained selected hx
    obtain ⟨e', a', ha', flat', hya⟩ := Collation.exists_entry_of_nonChained selected hy
    have hxchain := chain_not_mem_of_flat ha flat
    have hychain := chain_not_mem_of_flat ha' flat'
    rw [hxa] at hxchain
    rw [hya] at hychain
    rw [paramTypes_eq_iff ctx hxs hys (hxa ▸ fun _ => Signature.wire_of_mem)
      (hya ▸ fun _ => Signature.wire_of_mem), flatMap_unchained hxchain,
      flatMap_unchained hychain] at heq
    exact hne (congrArg Signature.mk heq)

end Collated

/-- Visitors as a chain. -/
def visitMessage : Message where
  name := "Visit"
  fields :=
    [{ name := "visitors", number := 1, kind := .message, repeated := true,
        messageType := some "AttributionNode" }]

/-- Visitors as two lists. -/
def rollMessage : Message where
  name := "Roll"
  fields :=
    [{ name := "uids", number := 1, kind := .int32, repeated := true },
      { name := "tags", number := 2, kind := .string, repeated := true }]

def visitEntry : Entry where
  name := "visit"
  code := 20
  message := "Visit"

def rollEntry : Entry where
  name := "roll"
  code := 21
  message := "Roll"

def visitSchema : Schema where
  container := "Atom"
  entries := [visitEntry, rollEntry]
  messages := .ofList [("Visit", visitMessage), ("Roll", rollMessage)]

def visitContext : Context where
  catalog := (Collation.collate .standard visitSchema).catalog
  attribution := (Collation.collate .standard visitSchema).attribution
  selection := .all

theorem Java.overloads_coincide_visits :
    (Collation.collate .standard visitSchema).catalog.select .all = .ok visitContext.catalog ∧
    (∀ kind, (Java.overloads visitContext kind).Pairwise (fun x y =>
      Java.paramTypes visitContext x.1 = Java.paramTypes visitContext y.1 ↔
        Java.SpeltAlike x.1 y.1 ∨ Java.SpeltAlike y.1 x.1)) ∧
    (Java.nonChained visitContext).Pairwise (fun x y =>
      Java.paramTypes visitContext x.1 ≠ Java.paramTypes visitContext y.1) := by
  have selected :
      (Collation.collate .standard visitSchema).catalog.select .all = .ok visitContext.catalog :=
    rfl
  exact ⟨selected, Java.overloads_coincide_iff selected⟩

theorem visit_collated : (Collation.collate .standard visitSchema).errors = [] ∧
    (∃ a, visitContext.catalog.get? 20 = some a ∧ a.kind = .pushed ∧
      a.chained.signature = ⟨[.attributionChain]⟩) ∧
    (∃ a, visitContext.catalog.get? 21 = some a ∧ a.kind = .pushed ∧
      a.chained.signature = ⟨[.int32Array, .stringArray]⟩) := by
  have distinct : visitSchema.entries.Pairwise (fun e f => e.code ≠ f.code) := by decide
  have hvisit : ∃ a ∈ (Collation.collateEntry .standard visitSchema visitEntry).toOption,
      a.kind = .pushed ∧ a.chained.signature = ⟨[.attributionChain]⟩ := by
    have hm : visitSchema.message? visitEntry.message = some visitMessage := by decide +kernel
    rw [Collation.collateEntry_of_sorted hm (by decide)]
    decide +kernel
  have hroll : ∃ a ∈ (Collation.collateEntry .standard visitSchema rollEntry).toOption,
      a.kind = .pushed ∧ a.chained.signature = ⟨[.int32Array, .stringArray]⟩ := by
    have hm : visitSchema.message? rollEntry.message = some rollMessage := by decide +kernel
    rw [Collation.collateEntry_of_sorted hm (by decide)]
    decide +kernel
  obtain ⟨visit, hvisit, hvisitKind, hvisitSig⟩ := hvisit
  obtain ⟨roll, hroll, hrollKind, hrollSig⟩ := hroll
  have hvisit := toOption_eq_some.1 hvisit
  have hroll := toOption_eq_some.1 hroll
  refine ⟨?_, ⟨visit, ?_, hvisitKind, hvisitSig⟩, ⟨roll, ?_, hrollKind, hrollSig⟩⟩
  · refine (Collation.errors_eq_nil_iff _ _).2 ⟨distinct, ?_, _, rfl⟩
    intro e he
    simp only [visitSchema, List.mem_cons, List.not_mem_nil, or_false] at he
    rcases he with rfl | rfl
    · exact ⟨visit, hvisit⟩
    · exact ⟨roll, hroll⟩
  · exact (Collation.get?_collate_eq_some _ _ distinct).2 ⟨visitEntry, by decide, rfl, hvisit⟩
  · exact (Collation.get?_collate_eq_some _ _ distinct).2 ⟨rollEntry, by decide, rfl, hroll⟩

/-- The functions for a chain and for two lists of the same make clash in Java. -/
theorem Java.not_overloads_distinct : (Collation.collate .standard visitSchema).errors = [] ∧
    ∃ x ∈ Java.overloads visitContext .pushed, ∃ y ∈ Java.overloads visitContext .pushed,
      x.1 ≠ y.1 ∧ Java.paramTypes visitContext x.1 = Java.paramTypes visitContext y.1 := by
  obtain ⟨clean, ⟨visit, hvisit, hvisitKind, hvisitSig⟩, ⟨roll, hroll, hrollKind, hrollSig⟩⟩ :=
    visit_collated
  have selected :
      (Collation.collate .standard visitSchema).catalog.select .all = .ok visitContext.catalog :=
    rfl
  have describes : visitContext.catalog.Describes visitContext.catalog.get? :=
    Collation.describes_of_select selected
  obtain ⟨b, hb, -⟩ := (describes.holds_ofKind_iff .pushed _ 20).2
    ⟨visit, hvisit, hvisitKind, hvisitSig⟩
  obtain ⟨b', hb', -⟩ := (describes.holds_ofKind_iff .pushed _ 21).2
    ⟨roll, hroll, hrollKind, hrollSig⟩
  have hne : (⟨[.attributionChain]⟩ : Signature) ≠ ⟨[.int32Array, .stringArray]⟩ := by decide
  exact ⟨clean, (_, b), Target.mem_supported.2 ⟨hb, rfl⟩, (_, b'),
    Target.mem_supported.2 ⟨hb', rfl⟩, hne, rfl⟩

end Emit

end AtomLog
