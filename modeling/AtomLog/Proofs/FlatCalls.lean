import AtomLog.Proofs.AttributionNodes
import AtomLog.Proofs.Events
/-!
The calls by which flat functions hand over to the functions that take a chain.

Main statement: in Java such a call always passes what the function called declares, in the other
languages just when an attribution node has no fields besides a uid and a tag
(`flatCalls_iff`).
-/
namespace AtomLog

/-- A chain is written as no other type is. -/
theorem FieldType.eq_chain_of_wire {t : FieldType} (h : t.wire = .attributionChain) :
    t = .attributionChain := by
  cases t <;> first | rfl | cases h

/-- The types of fields as they are written. -/
def wireTypes (fs : List AtomField) : List FieldType := fs.map (fun f => f.type.wire)

/-- An atom that is not chained, with its leading fields apart. -/
structure Atom.Flat (a : Atom) (uid tag : AtomField) (rest : List AtomField) : Prop where
  nonChained : a.nonChained = true
  pushed : a.kind = .pushed
  fields : a.fields = uid :: tag :: rest
  uid_type : uid.type = .int32
  tag_type : tag.type = .string
  unchained : ∀ f ∈ rest, f.type ≠ .attributionChain

namespace Atom.Flat

variable {a : Atom} {uid tag : AtomField} {rest : List AtomField} (flat : a.Flat uid tag rest)
include flat

theorem signature_types :
    a.signature.types = .int32 :: .string :: wireTypes rest := by
  simp [signature, Signature.ofTypes, flat.fields, flat.uid_type, flat.tag_type, FieldType.wire,
    wireTypes]

theorem chained_fields : a.chained.fields = chainField :: rest := by
  simp [chained, flat.nonChained, flat.fields]

theorem chained_signature_types :
    a.chained.signature.types = .attributionChain :: wireTypes rest := by
  simp [signature, Signature.ofTypes, flat.chained_fields, chainField, FieldType.wire, wireTypes]

theorem wire_unchained : ∀ t ∈ wireTypes rest, t ≠ .attributionChain := by
  intro t ht
  obtain ⟨f, hf, rfl⟩ := List.mem_map.1 ht
  exact fun hchain => flat.unchained f hf (FieldType.eq_chain_of_wire hchain)

end Atom.Flat

namespace Collation

theorem collateEntry_flat {r : Registry} {s : Schema} {e : Entry} {a : Atom}
    (h : collateEntry r s e = .ok a) (flat : a.nonChained = true) :
    ∃ uid tag rest, a.Flat uid tag rest := by
  obtain ⟨uid, tag, rest, hfields, huid, htag⟩ := collateEntry_leading h flat
  refine ⟨uid, tag, rest, flat, ?_, hfields, huid, htag, ?_⟩
  · obtain ⟨m, gs, -, -, -, -, -, rfl⟩ := collateEntry_eq_ok.1 h
    exact (leading_of_isNonChained flat).1
  · intro f hf ht
    obtain ⟨i, hi, rfl⟩ := List.getElem_of_mem hf
    have hget : a.fields[i + 2]? = some rest[i] := by simp [hfields, List.getElem?_eq_getElem hi]
    have := collateEntry_chain_first h hget ht
    omega

end Collation

namespace Emit

/-- A call passes an argument for every parameter in order, each of a type that the parameter
accepts. `known` has the expressions whose types the caller declares. -/
def Passes (accepts : String → String → Prop) (known : List Param) (args : List String)
    (params : List Param) : Prop :=
  List.Forall₂ (fun arg p => ∃ type, ⟨type, arg⟩ ∈ known ∧ accepts type p.type) args params

/-- Variables with the types of the parameters are accepted for them. -/
theorem Passes.of_types {accepts : String → String → Prop} (refl : ∀ t, accepts t t)
    {known qs ps : List Param} (hknown : ∀ q ∈ qs, q ∈ known)
    (htypes : qs.map Param.type = ps.map Param.type) :
    Passes accepts known (qs.map Param.name) ps := by
  induction qs generalizing ps with
  | nil =>
    obtain rfl := List.map_eq_nil_iff.1 htypes.symm
    exact .nil
  | cons q qs ih =>
    cases ps with
    | nil => cases htypes
    | cons p ps =>
      obtain ⟨htype, htypes⟩ := List.cons.inj htypes
      have hrest := ih (fun q hq => hknown q (by simp [hq])) htypes
      refine .cons ⟨q.type, hknown q (by simp), ?_⟩ hrest
      rw [htype]
      exact refl p.type

/-- The types of parameters are those of every single type in order. -/
theorem types_flatMap {params : Nat → FieldType → List Param}
    (same : ∀ t i j, (params i t).map Param.type = (params j t).map Param.type)
    (ts : List FieldType) (i : Nat) :
    ((ts.zipIdx i).flatMap (fun (t, i) => params i t)).map Param.type =
      ts.flatMap (fun t => (params 0 t).map Param.type) := by
  induction ts generalizing i with
  | nil => rfl
  | cons t ts ih =>
    simp only [List.zipIdx_cons, List.flatMap_cons, List.map_append, same t i 0, ih (i + 1)]

/-- The types of parameters do not depend on where their numbers begin. -/
theorem types_zipIdx {params : Nat → FieldType → List Param}
    (same : ∀ t i j, (params i t).map Param.type = (params j t).map Param.type)
    (ts : List FieldType) (i j : Nat) :
    ((ts.zipIdx i).flatMap (fun (t, i) => params i t)).map Param.type =
      ((ts.zipIdx j).flatMap (fun (t, i) => params i t)).map Param.type := by
  rw [types_flatMap same, types_flatMap same]

/-- A language that expresses a flat signature expresses it with a chain in front. -/
theorem Target.supportsSignature_chained {t : Target} (chain : t.supports .attributionChain = true)
    {a : Atom} {uid tag : AtomField} {rest : List AtomField} (flat : a.Flat uid tag rest)
    (h : t.supportsSignature a.signature = true) :
    t.supportsSignature a.chained.signature = true := by
  simp only [supportsSignature, flat.signature_types, List.all_cons, Bool.and_eq_true] at h
  simp only [supportsSignature, flat.chained_signature_types, List.all_cons, Bool.and_eq_true]
  exact ⟨chain, h.2.2⟩

section Languages

variable {ctx : Context} {a : Atom} {uid tag : AtomField} {rest : List AtomField}
  (flat : a.Flat uid tag rest)
include flat

/-! ### C++ -/

namespace Native

/-- The variables that a flat overload declares for the parts of a chain of one node. -/
def locals (ctx : Context) : List Param :=
  [⟨"const int32_t*", ctx.uidName⟩, ⟨"const size_t", ctx.uidName ++ "_length"⟩,
    ⟨"const std::vector<char const*>", ctx.tagName⟩]

/-- A parameter takes a variable of its own type, a size that is constant, and by reference a
variable of the type referred to. -/
def Accepts (argument parameter : String) : Prop :=
  argument = parameter ∨ (argument = "const size_t" ∧ parameter = "size_t") ∨
    parameter = argument ++ "&"

/-- The call of the flat overload for an atom. -/
def PassesChain (ctx : Context) (a : Atom) : Prop :=
  Passes Accepts (params ctx a.signature ++ locals ctx) (chainedArgs ctx a.signature)
    (params ctx a.chained.signature)

/-- The flat overload for an atom hands over to an overload that is there. -/
structure FlatCall (ctx : Context) (a : Atom) : Prop where
  defined : ∀ b, (a.signature, b) ∈ overloads ctx .writeNonChained →
    ∃ b', (a.chained.signature, b') ∈ overloads ctx .write
  declared : ∀ p ∈ locals ctx, ∃ value, "    " ++ paramText p ++ value ∈ wrapperBody ctx a.signature
  passes : PassesChain ctx a

omit flat in
theorem locals_declared (ctx : Context) (s : Signature) :
    ∀ p ∈ locals ctx, ∃ value, "    " ++ paramText p ++ value ∈ wrapperBody ctx s := by
  intro p hp
  simp only [locals, List.mem_cons, List.not_mem_nil, or_false] at hp
  rcases hp with rfl | rfl | rfl
  · refine ⟨" = &arg1;", List.mem_cons.2 (.inl ?_)⟩
    simp only [paramText, ← String.append_assoc]
    rfl
  · refine ⟨" = 1;", List.mem_cons_of_mem _ (List.mem_cons.2 (.inl ?_))⟩
    have hending : ∀ x : String, x ++ "_length" ++ " = 1;" = x ++ "_length = 1;" := by
      intro x
      rw [String.append_assoc]
      rfl
    simp only [paramText, ← String.append_assoc, hending]
    rfl
  · refine ⟨"(1, arg2);",
      List.mem_cons_of_mem _ (List.mem_cons_of_mem _ (List.mem_cons.2 (.inl ?_)))⟩
    simp only [paramText, ← String.append_assoc]
    rfl

omit flat in
theorem argParams_types (ctx : Context) (t : FieldType) (i j : Nat) :
    (argParams ctx i t).map Param.type = (argParams ctx j t).map Param.type := by
  unfold argParams
  split
  · rfl
  · split <;> rfl

theorem params_flat : params ctx a.signature =
    ⟨"int32_t", "code"⟩ :: ⟨"int32_t", "arg1"⟩ :: ⟨"char const*", "arg2"⟩ ::
      ((wireTypes rest).zipIdx 3).flatMap (fun (t, i) => argParams ctx i t) := by
  rw [params, flat.signature_types]
  rfl

theorem params_chained : params ctx a.chained.signature =
    ⟨"int32_t", "code"⟩ :: (chainParams ctx ++
      ((wireTypes rest).zipIdx 2).flatMap (fun (t, i) => argParams ctx i t)) := by
  rw [params, flat.chained_signature_types]
  rfl

theorem chainedArgs_flat : chainedArgs ctx a.signature =
    "code" :: (locals ctx).map Param.name ++
      (((wireTypes rest).zipIdx 3).flatMap
        (fun (t, i) => argParams ctx i t)).map Param.name := by
  have hnames : ∀ p ∈ (wireTypes rest).zipIdx 3,
      (s!"arg{p.2}" :: if p.1 == .boolArray then [s!"arg{p.2}_length"] else []) =
        (argParams ctx p.2 p.1).map Param.name := by
    intro p hp
    have hchain := flat.wire_unchained p.1 (List.fst_mem_of_mem_zipIdx hp)
    simp only [argParams, beq_iff_eq, hchain, if_false]
    split <;> rfl
  rw [chainedArgs, flat.signature_types, List.map_flatMap]
  exact congrArg (_ ++ ·) (List.flatMap_congr hnames)

omit flat in
/-- The parameters for a chain take a uid and a tag, and something for every other field of a
node. -/
theorem chainParams_node (node : Collation.isAttribution ctx.attribution = true) :
    ∃ between, chainParams ctx = ⟨"const int32_t*", ctx.uidName⟩ ::
        ⟨"size_t", ctx.uidName ++ "_length"⟩ ::
          (between ++ [⟨"const std::vector<char const*>&", ctx.tagName⟩]) ∧
      (between = [] ↔ ctx.attribution.fields.length = 2) := by
  obtain ⟨uid, mid, tag, hfields, huid, htag⟩ := Collation.fields_of_isAttribution node
  obtain ⟨huidName, htagName⟩ := ctx.names_of_fields hfields
  unfold chainParams
  rw [hfields, List.flatMap_cons, List.flatMap_append, List.flatMap_singleton, huid, htag, huidName,
    htagName]
  refine ⟨_, rfl, ?_⟩
  rw [List.flatMap_eq_nil_iff]
  constructor
  · intro h
    cases mid with
    | nil => rfl
    | cons f mid =>
      have hf := h f (by simp)
      split at hf <;> cases hf
  · intro h
    simp only [List.length_cons, List.length_append, List.length_nil] at h
    obtain rfl : mid = [] := List.eq_nil_of_length_eq_zero (by omega)
    simp

theorem passesChain_iff (node : Collation.isAttribution ctx.attribution = true) :
    PassesChain ctx a ↔ ctx.attribution.fields.length = 2 := by
  obtain ⟨between, hchain, hbetween⟩ := chainParams_node node
  have htypes := types_zipIdx (argParams_types ctx) (wireTypes rest) 3 2
  rw [← hbetween, PassesChain, chainedArgs_flat flat, params_chained flat, hchain]
  constructor
  · intro h
    have hlength := h.length_eq
    have hrest := congrArg List.length htypes
    simp only [List.length_map] at hrest
    simp only [locals, List.length_cons, List.length_append, List.length_map, List.length_nil,
      hrest] at hlength
    exact List.eq_nil_of_length_eq_zero (by omega)
  · intro h
    subst h
    have hlocals : ∀ p ∈ locals ctx, p ∈ params ctx a.signature ++ locals ctx :=
      fun p hp => List.mem_append_right _ hp
    have hrest : Passes Accepts (params ctx a.signature ++ locals ctx)
        ((((wireTypes rest).zipIdx 3).flatMap (fun (t, i) => argParams ctx i t)).map Param.name)
        (((wireTypes rest).zipIdx 2).flatMap (fun (t, i) => argParams ctx i t)) := by
      refine .of_types (fun _ => .inl rfl) ?_ htypes
      intro p hp
      rw [params_flat flat]
      simp [hp]
    refine .cons ⟨"int32_t", by simp [params], .inl rfl⟩ ?_
    refine .cons ⟨"const int32_t*", hlocals _ (by simp [locals]), .inl rfl⟩ ?_
    refine .cons ⟨"const size_t", hlocals _ (by simp [locals]), .inr (.inl ⟨rfl, rfl⟩)⟩ ?_
    refine .cons ⟨"const std::vector<char const*>", hlocals _ (by simp [locals]), ?_⟩ hrest
    exact .inr (.inr rfl)

end Native

/-! ### Java -/

namespace Java

/-- An array of one variable. -/
def arrayOf (p : Param) : Param := ⟨p.type ++ "[]", s!"new {p.type}[] \x7b{p.name}\x7d"⟩

/-- The call of the flat overload for an atom. -/
def PassesChain (ctx : Context) (a : Atom) : Prop :=
  Passes Eq (params ctx a.signature ++ (params ctx a.signature).map arrayOf)
    (chainedArgs a.signature) (params ctx a.chained.signature)

/-- The flat overload for an atom hands over to an overload that is there. -/
structure FlatCall (ctx : Context) (a : Atom) : Prop where
  defined : ∀ b, (a.signature, b) ∈ nonChained ctx →
    ∃ b', (a.chained.signature, b') ∈ overloads ctx .pushed
  passes : PassesChain ctx a

omit flat in
theorem argParams_types (ctx : Context) (t : FieldType) (i j : Nat) :
    (argParams ctx i t).map Param.type = (argParams ctx j t).map Param.type := by
  cases t <;> rfl

theorem params_flat : params ctx a.signature =
    ⟨"int", "code"⟩ :: ⟨"int", "arg1"⟩ :: ⟨"java.lang.String", "arg2"⟩ ::
      ((wireTypes rest).zipIdx 3).flatMap (fun (t, i) => argParams ctx i t) := by
  rw [params, flat.signature_types]
  rfl

theorem params_chained : params ctx a.chained.signature =
    ⟨"int", "code"⟩ :: ⟨"int[]", ctx.uidName⟩ :: ⟨"java.lang.String[]", ctx.tagName⟩ ::
      ((wireTypes rest).zipIdx 2).flatMap (fun (t, i) => argParams ctx i t) := by
  rw [params, flat.chained_signature_types]
  rfl

theorem chainedArgs_flat (ctx : Context) : chainedArgs a.signature =
    "code" :: (arrayOf ⟨"int", "arg1"⟩).name :: (arrayOf ⟨"java.lang.String", "arg2"⟩).name ::
      (((wireTypes rest).zipIdx 3).flatMap (fun (t, i) => argParams ctx i t)).map Param.name := by
  have hnames : ∀ p ∈ (wireTypes rest).zipIdx 3,
      (if p.1 == .keyValuePairs then pairMaps.map (fun pair => s!"arg{p.2}_{pair.2}")
        else [s!"arg{p.2}"]) = (argParams ctx p.2 p.1).map Param.name := by
    intro p hp
    have hchain := flat.wire_unchained p.1 (List.fst_mem_of_mem_zipIdx hp)
    obtain ⟨t, i⟩ := p
    cases t <;> first | rfl | exact absurd rfl hchain
  rw [chainedArgs, flat.signature_types, List.map_flatMap]
  exact congrArg (_ ++ ·) (List.flatMap_congr hnames)

theorem passesChain (ctx : Context) : PassesChain ctx a := by
  have htypes := types_zipIdx (argParams_types ctx) (wireTypes rest) 3 2
  rw [PassesChain, chainedArgs_flat flat ctx, params_chained flat, params_flat flat]
  refine .cons ⟨"int", by simp, rfl⟩ ?_
  refine .cons ⟨"int[]", by simp [arrayOf], rfl⟩ ?_
  refine .cons ⟨"java.lang.String[]", by simp [arrayOf], rfl⟩ ?_
  refine Passes.of_types (fun _ => rfl) ?_ htypes
  intro p hp
  simp [hp]

end Java

/-! ### Rust -/

namespace Rust

/-- A slice of one variable. -/
def sliceOf (p : Param) : Param := ⟨"&[" ++ p.type ++ "]", s!"&[{p.name}]"⟩

/-- The call of the flat function of an atom. -/
def PassesChain (ctx : Context) (a : Atom) : Prop :=
  Passes Eq ((flatFunction a).params ++ (flatFunction a).params.map sliceOf) (chainedArgs a)
    (atomFunction ctx a.chained).params

/-- The flat function of an atom hands over to a function that is there. -/
structure FlatCall (ctx : Context) (a : Atom) : Prop where
  defined : a ∈ supported ctx →
    flatFunction a ∈ functions ctx ∧ atomFunction ctx a.chained ∈ functions ctx
  body : (flatFunction a).body = .call (atomFunction ctx a.chained).name (chainedArgs a)
  passes : PassesChain ctx a

/-- The parameter of a field that is no chain. -/
def fieldParam (f : AtomField) : Param := ⟨argType f, argName f⟩

theorem params_flat : (flatFunction a).params =
    ⟨"i32", flatName uid⟩ :: ⟨"&str", flatName tag⟩ :: rest.map fieldParam := by
  have huid : argType uid = "i32" := by
    rw [argType, flat.uid_type]
    rfl
  have htag : argType tag = "&str" := by
    rw [argType, flat.tag_type]
    rfl
  change listParams a.kind ++ flatParams a = _
  rw [flat.pushed, flatParams, flat.fields]
  simp only [listParams, List.take_succ_cons, List.take_zero, List.drop_succ_cons, List.drop_zero,
    List.map_cons, List.map_nil, List.nil_append, List.cons_append, huid, htag]
  rfl

theorem params_chained : (atomFunction ctx a.chained).params =
    chainParams ctx ++ rest.map fieldParam := by
  have hrest : rest.flatMap (fieldParams ctx) = rest.map fieldParam := by
    rw [List.map_eq_flatMap]
    refine List.flatMap_congr ?_
    intro f hf
    simp only [fieldParams, beq_iff_eq, flat.unchained f hf, if_false]
    rfl
  simp only [atomFunction, Atom.chained_kind, flat.pushed, listParams, List.nil_append,
    flat.chained_fields, List.flatMap_cons, hrest]
  rfl

theorem functionName_chained : functionName a.chained = pushedName a := by
  unfold functionName
  rw [Atom.chained_kind, flat.pushed]
  exact congrArg ("stats_write_" ++ ·) a.chained_name

theorem chainedArgs_flat : chainedArgs a =
    (sliceOf ⟨"i32", flatName uid⟩).name :: (sliceOf ⟨"&str", flatName tag⟩).name ::
      (rest.map fieldParam).map Param.name := by
  simp only [chainedArgs, flat.fields, List.take_succ_cons, List.take_zero, List.drop_succ_cons,
    List.drop_zero, List.map_cons, List.map_nil, List.cons_append, List.nil_append, List.map_map]
  rfl

theorem passesChain_iff (node : Collation.isAttribution ctx.attribution = true) :
    PassesChain ctx a ↔ ctx.attribution.fields.length = 2 := by
  rw [PassesChain, chainedArgs_flat flat, params_chained flat, params_flat flat]
  constructor
  · intro h
    have hlength := h.length_eq
    simp only [List.length_cons, List.length_map, List.length_append, chainParams] at hlength
    omega
  · intro h
    obtain ⟨nodeUid, mid, nodeTag, hfields, huid, htag⟩ := Collation.fields_of_isAttribution node
    simp only [hfields, List.length_cons, List.length_append, List.length_nil] at h
    obtain rfl : mid = [] := List.eq_nil_of_length_eq_zero (by omega)
    simp only [chainParams, hfields, List.nil_append, List.map_cons, List.map_nil, huid, htag,
      List.cons_append]
    refine .cons ⟨"&[i32]", by simp [sliceOf], rfl⟩ ?_
    refine .cons ⟨"&[&str]", by simp [sliceOf], rfl⟩ ?_
    refine Passes.of_types (fun _ => rfl) ?_ rfl
    intro p hp
    simp [hp]

end Rust

/-! ### All languages -/

/-- Where a flat signature has functions of its own, so has the one with a chain. -/
theorem Target.mem_supported_chained {t : Target} (chain : t.supports .attributionChain = true)
    (describes : ctx.catalog.Describes ctx.catalog.get?) {code : Int}
    (found : ctx.catalog.get? code = some a) {m : Buckets} {b : Bucket}
    (h : (a.signature, b) ∈ t.supported m) :
    ∃ b', (a.chained.signature, b') ∈ t.supported ctx.catalog.pushed := by
  have hsupports := t.supportsSignature_chained chain flat (Target.mem_supported.1 h).2
  obtain ⟨b', hb', -⟩ := (describes.holds_ofKind_iff a.kind _ code).2 ⟨a, found, rfl, rfl⟩
  rw [flat.pushed] at hb'
  exact ⟨b', Target.mem_supported.2 ⟨hb', hsupports⟩⟩

theorem Native.flatCall_iff (node : Collation.isAttribution ctx.attribution = true)
    (describes : ctx.catalog.Describes ctx.catalog.get?) {code : Int}
    (found : ctx.catalog.get? code = some a) :
    FlatCall ctx a ↔ ctx.attribution.fields.length = 2 := by
  rw [← passesChain_iff flat node]
  constructor
  · exact FlatCall.passes
  · intro h
    exact ⟨fun _ => Target.mem_supported_chained flat rfl describes found, locals_declared ctx _, h⟩

theorem Java.flatCall (describes : ctx.catalog.Describes ctx.catalog.get?) {code : Int}
    (found : ctx.catalog.get? code = some a) : FlatCall ctx a :=
  ⟨fun _ => Target.mem_supported_chained flat rfl describes found, passesChain flat ctx⟩

theorem Rust.flatCall_iff (node : Collation.isAttribution ctx.attribution = true) :
    FlatCall ctx a ↔ ctx.attribution.fields.length = 2 := by
  rw [← passesChain_iff flat node]
  constructor
  · exact FlatCall.passes
  · intro h
    refine ⟨?_, ?_, h⟩
    · intro ha
      refine ⟨List.mem_append_right _ (List.mem_map_of_mem ?_),
        List.mem_append_left _ (List.mem_map.2 ⟨a, ha, rfl⟩)⟩
      exact List.mem_filter.2 ⟨ha, flat.nonChained⟩
    · change Body.call (pushedName a) (chainedArgs a) = .call (functionName a.chained) _
      rw [functionName_chained flat]

end Languages

/-- Among the selected atoms of a schema, an atom that is not chained has flat functions. What they
pass is what the functions with a chain declare: in Java always, in C++ and Rust just when a node
has a uid and a tag and no other field. -/
theorem flatCalls_iff {r : Registry} {s : Schema} {sel : Selection} {c : Catalog} {code : Int}
    {a : Atom} (selected : (Collation.collate r s).catalog.select sel = .ok c)
    (found : c.get? code = some a) (flat : a.nonChained = true) :
    let ctx : Context := ⟨c, (Collation.collate r s).attribution, sel⟩
    (Native.FlatCall ctx a ↔ ctx.attribution.fields.length = 2) ∧
    Java.FlatCall ctx a ∧
    (Rust.FlatCall ctx a ↔ ctx.attribution.fields.length = 2) := by
  intro ctx
  have describes : c.Describes c.get? := by
    obtain ⟨bs, rfl, -⟩ := Catalog.select_ofAtoms selected
    exact Catalog.describes_self bs
  obtain ⟨e, -, he⟩ := Collation.exists_entry_of_select selected found
  obtain ⟨uid, tag, rest, flat⟩ := Collation.collateEntry_flat he flat
  have node : Collation.isAttribution ctx.attribution = true := Collation.isAttribution_collate r s
  exact ⟨Native.flatCall_iff flat node describes found, Java.flatCall flat describes found,
    Rust.flatCall_iff flat node⟩

def sessionMessage : Message where
  name := "Session"
  fields :=
    [{ name := "uid", number := 1, kind := .int32, options := [⟨.number 50001, .bool true⟩] },
      { name := "tag", number := 2, kind := .string, options := [⟨.number 50016, .bool true⟩] },
      { name := "minutes", number := 3, kind := .int64 }]

def sessionEntry : Entry where
  name := "session"
  code := 12
  message := "Session"

def sessionSchema : Schema where
  container := "Atom"
  entries := [sessionEntry]
  messages := .ofList [("Session", sessionMessage)]

/-- A node that has a process beside the uid and the tag. -/
def processNode : Message where
  name := "AttributionNode"
  fields :=
    [{ name := "uid", number := 1, kind := .int32 },
      { name := "process", number := 2, kind := .int32 },
      { name := "tag", number := 3, kind := .string }]

def processNodeSchema : Schema := sessionSchema.addMessage processNode

theorem session_collated {s : Schema} (hentries : s.entries = [sessionEntry])
    (hm : s.message? sessionEntry.message = some sessionMessage) (hw : s.wellKnown = {})
    {node : Atom} (hnode : Collation.collateAttribution .standard s = .ok node) :
    (Collation.collate .standard s).errors = [] ∧
      ∃ a, (Collation.collate .standard s).catalog.get? 12 = some a ∧ a.nonChained = true := by
  have hflat : ∃ a ∈ (Collation.collateEntry .standard s sessionEntry).toOption,
      a.nonChained = true := by
    rw [Collation.collateEntry_of_sorted hm (by decide), hw]
    decide +kernel
  obtain ⟨a, ha, flat⟩ := hflat
  obtain ⟨clean, found⟩ :=
    Collation.collate_of_entry .standard s hentries (toOption_eq_some.1 ha) hnode
  exact ⟨clean, a, found, flat⟩

/-- With the node that stands in where a schema defines none, all flat functions pass a chain. -/
theorem flatCalls_session :
    ∃ a, (Collation.collate .standard sessionSchema).catalog.get? 12 = some a ∧
    let ctx : Context := ⟨(Collation.collate .standard sessionSchema).catalog,
      (Collation.collate .standard sessionSchema).attribution, .all⟩
    Native.FlatCall ctx a ∧ Java.FlatCall ctx a ∧ Rust.FlatCall ctx a := by
  have hm : sessionSchema.message? sessionEntry.message = some sessionMessage := by decide +kernel
  obtain ⟨-, a, found, flat⟩ := session_collated rfl hm rfl rfl
  have selected : (Collation.collate .standard sessionSchema).catalog.select .all =
      .ok (Collation.collate .standard sessionSchema).catalog := rfl
  obtain ⟨hnative, hjava, hrust⟩ := flatCalls_iff selected found flat
  exact ⟨a, found, hnative.2 rfl, hjava, hrust.2 rfl⟩

/-- A node with a third field is accepted, and then the calls in C++ and Rust do not pass it. -/
theorem not_flatCall_processNode : (Collation.collate .standard processNodeSchema).errors = [] ∧
    ∃ a, (Collation.collate .standard processNodeSchema).catalog.get? 12 = some a ∧
      a.nonChained = true ∧
      let ctx : Context := ⟨(Collation.collate .standard processNodeSchema).catalog,
        (Collation.collate .standard processNodeSchema).attribution, .all⟩
      ¬Native.FlatCall ctx a ∧ ¬Rust.FlatCall ctx a := by
  have hm : processNodeSchema.message? sessionEntry.message = some sessionMessage := by
    decide +kernel
  have hnode : ∃ n ∈ (Collation.collateAttribution .standard processNodeSchema).toOption,
      n.fields.length = 3 := by
    have hmessage : processNodeSchema.message? processNodeSchema.wellKnown.attributionNode =
        some processNode := by
      decide +kernel
    simp only [Collation.collateAttribution, hmessage, Collation.attributionOf,
      Collation.collateFields_of_sorted (m := processNode) (by decide)]
    decide +kernel
  obtain ⟨node, hnode, hlength⟩ := hnode
  have hnode := toOption_eq_some.1 hnode
  obtain ⟨clean, a, found, flat⟩ := session_collated rfl hm rfl hnode
  have hattribution : (Collation.collate .standard processNodeSchema).attribution = node := by
    simp only [Collation.collate, hnode]
    rfl
  have isNode := Collation.isAttribution_collate .standard processNodeSchema
  have describes : (Collation.collate .standard processNodeSchema).catalog.Describes _ :=
    Catalog.describes_self _
  obtain ⟨e, -, he⟩ := Collation.exists_entry_of_accepted _ _ (Catalog.mem_of_get?_ofAtoms found)
  obtain ⟨uid, tag, rest, hflat⟩ := Collation.collateEntry_flat he flat
  refine ⟨clean, a, found, flat, ?_, ?_⟩
  · rw [Native.flatCall_iff hflat isNode describes found, hattribution, hlength]
    decide
  · rw [Rust.flatCall_iff hflat isNode, hattribution, hlength]
    decide

end Emit

end AtomLog
