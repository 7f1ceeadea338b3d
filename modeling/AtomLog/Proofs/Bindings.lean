import AtomLog.Proofs.Columns
import AtomLog.Proofs.Events
import AtomLog.Proofs.Items
import Mathlib.Data.List.Nodup
import Mathlib.Data.List.Perm.Basic
/-!
The names that a function of the Rust module declares.

A parameter is a field with an underscore before it, and so is much of what the body binds: what
keeps an event from leaking, and the copies of strings. Main statement: the names are distinct just
when no field has a name that makes them meet, and just then each field that is written or tested is
the parameter of that field (`Emit.Rust.names_distinct_iff`).
-/
namespace AtomLog

namespace Atom

/-- The fields that a chain is passed for. -/
def chainFields (a : Atom) : List AtomField :=
  a.fields.filter (fun f => f.type == .attributionChain)

/-- The fields that are passed as they are. -/
def plainFields (a : Atom) : List AtomField :=
  a.fields.filter (fun f => !(f.type == .attributionChain))

variable {a : Atom} {f : AtomField}

theorem hasChain_iff : a.hasChain = true ↔ a.chainFields ≠ [] := by
  rw [hasChain, hasType, List.any_eq_true, chainFields, ne_eq, List.filter_eq_nil_iff]
  simp

theorem mem_plainFields : f ∈ a.plainFields ↔ f ∈ a.fields ∧ f.type ≠ .attributionChain := by
  simp [plainFields]

/-- The fields that stay as they are have the names they had. -/
theorem plainFields_distinct (distinct : (a.fields.map AtomField.name).Nodup) :
    (a.chained.plainFields.map AtomField.name).Nodup := by
  refine distinct.sublist (List.Sublist.map _ ?_)
  unfold chained plainFields
  split
  · rw [List.filter_cons_of_neg (by simp [chainField])]
    exact List.filter_sublist.trans (List.drop_sublist 2 _)
  · exact List.filter_sublist

end Atom

namespace Emit.Rust

/-- A name stands for one parameter in the whole of a function. -/
def Function.Keeps (f : Function) (p : Param) : Prop := p ∈ f.params ∧ f.names.count p.name = 1

instance (f : Function) (p : Param) : Decidable (f.Keeps p) := inferInstanceAs (Decidable (_ ∧ _))

/-- The name of the copy that is made of a string. -/
def copyName (f : AtomField) : String := argName f ++ "_cstr"

/-- What a function of a kind declares whatever the fields are. -/
def ownNames : AtomKind → List String
  | .pushed => ["event", "_dropper", "ret"]
  | .pulled => ["__pulled_data", "event"]

/-- What a function declares for a chain. -/
def chainNames (ctx : Context) : List String :=
  ctx.attribution.fields.map (fun n => chainName n.name) ++ ["uids", "str_arr", "ptr_arr"]

/-- What the function of an atom declares besides the parameters of its fields. -/
def otherNames (ctx : Context) (a : Atom) : List String :=
  ownNames a.kind ++ (a.chainFields.flatMap (fun _ => chainNames ctx) ++
    (a.plainFields.filter (fun f => f.type == .string)).map copyName)

/-- The name that a field of an atom of a kind must not have. -/
def ownField : AtomKind → String
  | .pushed => "dropper"
  | .pulled => "_pulled_data"

/-- No field has the name of something else in the function of an atom. -/
structure FieldsFree (ctx : Context) (a : Atom) : Prop where
  own : ∀ f ∈ a.plainFields, f.name ≠ ownField a.kind
  chain : a.hasChain = true → ∀ f ∈ a.plainFields, ∀ n ∈ ctx.attribution.fields,
    f.name ≠ "_chain_" ++ n.name
  copy : ∀ f ∈ a.plainFields, ∀ g ∈ a.plainFields, g.type = .string → f.name ≠ g.name ++ "_cstr"

/-- What the function of an atom has for a chain has names of its own. -/
structure ChainFree (ctx : Context) (a : Atom) : Prop where
  one : a.chainFields.length ≤ 1
  node : a.hasChain = true → (ctx.attribution.fields.map AtomField.name).Nodup
  copy : a.hasChain = true → ∀ f ∈ a.plainFields, f.type = .string →
    ∀ n ∈ ctx.attribution.fields, f.name ++ "_cstr" ≠ "_chain_" ++ n.name

/-! ### The names of a function -/

/-- The names that a function binds for a field. -/
def fieldLocals (f : AtomField) : List String :=
  match f.type with
  | .attributionChain => ["uids", "str_arr", "ptr_arr"]
  | .string => [copyName f]
  | _ => []

section Names

variable (ctx : Context) (a : Atom)

theorem boundNames_writeLines (f : AtomField) :
    (writeLines ctx (argName f) f.type.wire).filterMap Line.boundName? = fieldLocals f := by
  obtain ⟨name, type, values⟩ := f
  cases type <;> rfl

/-- Annotations and resets bind nothing. -/
theorem boundNames_fieldSteps {i : Nat} {f : AtomField} (h : a.field? i = some f) :
    ((fieldSteps a i f).flatMap (stepLines ctx a)).filterMap Line.boundName? = fieldLocals f := by
  have hrest : (((a.loggedAt i).map Step.annotate ++
      ((a.resetAt i).map (Step.resetWhen i)).toList).flatMap (stepLines ctx a)).filterMap
        Line.boundName? = [] := by
    rw [List.filterMap_flatMap, List.flatMap_eq_nil_iff]
    intro step hstep
    simp only [List.mem_append, List.mem_map, Option.mem_toList, Option.map_eq_some_iff] at hstep
    rcases hstep with ⟨n, -, rfl⟩ | ⟨r, -, rfl⟩ <;> rfl
  rw [fieldSteps, List.flatMap_cons, List.filterMap_append, hrest, List.append_nil, stepLines,
    argAt_eq h, boundNames_writeLines]

theorem boundNames_atomBody :
    ((atomBody a).flatMap (stepLines ctx a)).filterMap Line.boundName? =
      a.fields.flatMap fieldLocals := by
  have hatom : (((a.loggedAt atomNumber).map Step.annotate).flatMap
      (stepLines ctx a)).filterMap Line.boundName? = [] := by
    rw [List.filterMap_flatMap, List.flatMap_eq_nil_iff, List.forall_mem_map]
    exact fun n _ => rfl
  have hfields : (((a.fields.zipIdx 1).flatMap (fun p => fieldSteps a p.2 p.1)).flatMap
      (stepLines ctx a)).filterMap Line.boundName? = a.fields.flatMap fieldLocals := by
    rw [List.flatMap_assoc, List.filterMap_flatMap]
    have hlocals : ∀ p ∈ a.fields.zipIdx 1, ((fieldSteps a p.2 p.1).flatMap
        (stepLines ctx a)).filterMap Line.boundName? = fieldLocals p.1 :=
      fun p hp => boundNames_fieldSteps ctx a (mem_zipIdx_fields_iff.1 hp)
    rw [List.flatMap_congr hlocals, ← List.flatMap_map, List.zipIdx_map_fst]
  rw [atomBody_eq_event, event, List.flatMap_cons, List.filterMap_append, List.flatMap_append,
    List.filterMap_append, hatom, hfields]
  rfl

/-- What a function declares for a field: its parameters and what it binds. -/
def fieldNames (f : AtomField) : List String := (fieldParams ctx f).map Param.name ++ fieldLocals f

theorem names_perm_fieldNames : (atomFunction ctx a).names.Perm
    (ownNames a.kind ++ a.fields.flatMap (fieldNames ctx)) := by
  have hnames : (atomFunction ctx a).names = (listParams a.kind).map Param.name ++
      a.fields.flatMap (fun f => (fieldParams ctx f).map Param.name) ++
        ((openLines a.kind).filterMap Line.boundName? ++ a.fields.flatMap fieldLocals ++
          (closeLines a.kind).filterMap Line.boundName?) := by
    simp only [Function.names, atomFunction, Body.boundNames, List.map_append, List.map_flatMap,
      List.filterMap_append, boundNames_atomBody]
  have hown : ownNames a.kind = (listParams a.kind).map Param.name ++
      (openLines a.kind).filterMap Line.boundName? ++
        (closeLines a.kind).filterMap Line.boundName? := by
    cases a.kind <;> rfl
  have hfields := List.flatMap_append_perm a.fields (fun f => (fieldParams ctx f).map Param.name)
    fieldLocals
  refine .trans ?_ (hfields.append_left (ownNames a.kind))
  rw [hnames, hown, List.perm_iff_count]
  intro name
  simp only [List.count_append]
  omega

theorem flatMap_chainFields : a.chainFields.flatMap (fieldNames ctx) =
    a.chainFields.flatMap (fun _ => chainNames ctx) := by
  refine List.flatMap_congr ?_
  intro f hf
  have htype : f.type = .attributionChain := by simpa using (List.mem_filter.1 hf).2
  simp [fieldNames, fieldLocals, htype, fieldParams, chainParams, chainNames, Function.comp_def]

theorem flatMap_plainFields : (a.plainFields.flatMap (fieldNames ctx)).Perm
    (a.plainFields.map argName ++
      (a.plainFields.filter (fun f => f.type == .string)).map copyName) := by
  have hnames : ∀ f ∈ a.plainFields, fieldNames ctx f =
      [argName f] ++ if f.type == .string then [copyName f] else [] := by
    intro f hf
    have htype := (Atom.mem_plainFields.1 hf).2
    cases h : f.type <;> simp_all [fieldNames, fieldParams, fieldLocals]
  have hcopies : ∀ fs : List AtomField,
      fs.flatMap (fun f => if f.type == .string then [copyName f] else []) =
        (fs.filter (fun f => f.type == .string)).map copyName := by
    intro fs
    induction fs with
    | nil => rfl
    | cons f fs ih =>
      rw [List.flatMap_cons, ih, List.filter_cons]
      split <;> rfl
  rw [List.flatMap_congr hnames, ← hcopies, List.map_eq_flatMap]
  exact (List.flatMap_append_perm _ _ _).symm

/-- Each field that is no chain has its parameter. -/
theorem names_perm :
    (atomFunction ctx a).names.Perm (a.plainFields.map argName ++ otherNames ctx a) := by
  have hsplit : (a.chainFields ++ a.plainFields).Perm a.fields := List.filter_append_perm _ _
  have hfields := hsplit.symm.flatMap_right (fieldNames ctx)
  rw [List.flatMap_append, flatMap_chainFields] at hfields
  have hall := hfields.trans ((flatMap_plainFields ctx a).append_left _)
  refine (names_perm_fieldNames ctx a).trans ((hall.append_left _).trans ?_)
  rw [otherNames, List.perm_iff_count]
  intro name
  simp only [List.count_append]
  omega

end Names

/-! ### Where names meet -/

section Meet

variable {ctx : Context} {a : Atom} {kind : AtomKind} {f : AtomField}

theorem ownNames_nodup (kind : AtomKind) : (ownNames kind).Nodup := by
  cases kind <;> decide

/-- Two names with an underscore before them are the same just when the names are. -/
theorem underscore_eq {name other whole : String} (h : whole = "_" ++ other) :
    "_" ++ name = whole ↔ name = other := by
  rw [h, String.append_right_inj]

theorem underscore_ne {name other : String} (h : other.toList.head? ≠ some '_') :
    "_" ++ name ≠ other := by
  rintro rfl
  exact h (by simp)

/-- What is bound for a chain has no underscore before it. -/
theorem underscore_ne_chainLocal {name other : String}
    (h : other ∈ ["uids", "str_arr", "ptr_arr"]) : "_" ++ name ≠ other := by
  have hhead : ∀ x ∈ ["uids", "str_arr", "ptr_arr"], x.toList.head? ≠ some '_' := by decide
  exact underscore_ne (hhead other h)

theorem chainName_eq (node : String) : chainName node = "_" ++ ("_chain_" ++ node) := by
  rw [← String.append_assoc]
  rfl

theorem copyName_eq (f : AtomField) : copyName f = "_" ++ (f.name ++ "_cstr") :=
  String.append_assoc

theorem underscore_mem_ownNames {name : String} :
    "_" ++ name ∈ ownNames kind ↔ name = ownField kind := by
  have hdropper : "_" ++ name = "_dropper" ↔ name = "dropper" := underscore_eq rfl
  have hdata : "_" ++ name = "__pulled_data" ↔ name = "_pulled_data" := underscore_eq rfl
  have hevent : "_" ++ name ≠ "event" := underscore_ne (by decide)
  have hret : "_" ++ name ≠ "ret" := underscore_ne (by decide)
  cases kind with
  | pushed => simp only [ownNames, ownField, List.mem_cons, hevent, hdropper, hret,
      List.not_mem_nil, or_false, false_or]
  | pulled => simp only [ownNames, ownField, List.mem_cons, hevent, hdata, List.not_mem_nil,
      or_false]

theorem underscore_mem_chainNames {name : String} :
    "_" ++ name ∈ chainNames ctx ↔ ∃ n ∈ ctx.attribution.fields, name = "_chain_" ++ n.name := by
  have hlocals : "_" ++ name ∉ ["uids", "str_arr", "ptr_arr"] :=
    fun h => underscore_ne_chainLocal h rfl
  simp only [chainNames, List.mem_append, hlocals, or_false, List.mem_map, chainName_eq,
    String.append_right_inj, eq_comm]

/-- What a function declares whatever the fields are is not declared for a chain. -/
theorem ownNames_disjoint_chainNames {name : String} (h : name ∈ ownNames kind) :
    name ∉ chainNames ctx := by
  have hlocals : ∀ kind, ∀ name ∈ ownNames kind, name ∉ ["uids", "str_arr", "ptr_arr"] := by
    intro kind
    cases kind <;> decide
  have hchain : ∀ kind, ∀ name ∈ ownNames kind,
      "__chain_".toList.isPrefixOf name.toList = false := by
    intro kind
    cases kind <;> decide
  intro hname
  rcases List.mem_append.1 hname with hname | hname
  · obtain ⟨n, -, rfl⟩ := List.mem_map.1 hname
    have hbegins := hchain kind _ h
    simp [chainName] at hbegins
  · exact hlocals kind _ h hname

theorem chainNames_nodup :
    (chainNames ctx).Nodup ↔ (ctx.attribution.fields.map AtomField.name).Nodup := by
  have hlocals : ["uids", "str_arr", "ptr_arr"].Nodup := by decide
  have hparams : (ctx.attribution.fields.map (fun n => chainName n.name)).Nodup ↔
      (ctx.attribution.fields.map AtomField.name).Nodup := by
    simp only [List.Nodup, List.pairwise_map, ne_eq, chainName_eq, String.append_right_inj]
  rw [chainNames, List.nodup_append, hparams]
  refine and_iff_left ⟨hlocals, ?_⟩
  intro name hname other hother heq
  obtain ⟨n, -, rfl⟩ := List.mem_map.1 hname
  rw [chainName_eq] at heq
  exact underscore_ne_chainLocal hother heq

/-- A second chain would bind the names of the first one again. -/
theorem chains_nodup : (a.chainFields.flatMap (fun _ => chainNames ctx)).Nodup ↔
    a.chainFields.length ≤ 1 ∧
      (a.hasChain = true → (ctx.attribution.fields.map AtomField.name).Nodup) := by
  rw [Atom.hasChain_iff]
  rcases a.chainFields with _ | ⟨c, _ | ⟨d, cs⟩⟩
  · simp
  · simp [chainNames_nodup]
  · have huids : "uids" ∈ chainNames ctx := by simp [chainNames]
    have htwice : ¬(chainNames ctx ++
        (chainNames ctx ++ cs.flatMap (fun _ => chainNames ctx))).Nodup := by
      intro h
      exact (List.nodup_append.1 h).2.2 _ huids _ (List.mem_append_left _ huids) rfl
    simp [htwice]

theorem mem_chains {name : String} : name ∈ a.chainFields.flatMap (fun _ => chainNames ctx) ↔
    a.hasChain = true ∧ name ∈ chainNames ctx := by
  rw [Atom.hasChain_iff, List.mem_flatMap, ← List.isEmpty_eq_false_iff,
    List.isEmpty_eq_false_iff_exists_mem]
  simp

theorem mem_copies {name : String} :
    "_" ++ name ∈ (a.plainFields.filter (fun f => f.type == .string)).map copyName ↔
      ∃ g ∈ a.plainFields, g.type = .string ∧ name = g.name ++ "_cstr" := by
  simp only [List.mem_map, List.mem_filter, beq_iff_eq, copyName_eq, String.append_right_inj,
    and_assoc, @eq_comm _ _ name]

/-- No string has a copy with the name that a field must not have. -/
theorem copy_ne_ownField (name : String) : name ++ "_cstr" ≠ ownField kind := by
  intro h
  have hends : "_cstr".toList <:+ (ownField kind).toList := by
    rw [← h, String.toList_append]
    exact List.suffix_append _ _
  cases kind <;> exact absurd hends (by decide)

/-- What a name of a field can meet. -/
theorem underscore_mem_otherNames {name : String} : "_" ++ name ∈ otherNames ctx a ↔
    name = ownField a.kind ∨
    (a.hasChain = true ∧ ∃ n ∈ ctx.attribution.fields, name = "_chain_" ++ n.name) ∨
    ∃ g ∈ a.plainFields, g.type = .string ∧ name = g.name ++ "_cstr" := by
  rw [otherNames, List.mem_append, List.mem_append, underscore_mem_ownNames, mem_chains,
    underscore_mem_chainNames, mem_copies]

theorem fieldsFree_iff :
    FieldsFree ctx a ↔ ∀ f ∈ a.plainFields, argName f ∉ otherNames ctx a := by
  simp only [argName, underscore_mem_otherNames, not_or, not_and, not_exists]
  constructor
  · intro h f hf
    exact ⟨h.own f hf, fun chain => h.chain chain f hf, h.copy f hf⟩
  · intro h
    exact ⟨fun f hf => (h f hf).1, fun chain f hf => (h f hf).2.1 chain, fun f hf => (h f hf).2.2⟩

end Meet

/-! ### Distinct names -/

section Distinct

variable {ctx : Context} {a : Atom} (distinct : (a.plainFields.map AtomField.name).Nodup)
include distinct

theorem args_nodup : (a.plainFields.map argName).Nodup := by
  simp only [List.Nodup, List.pairwise_map, argName, ne_eq, String.append_right_inj] at distinct ⊢
  exact distinct

theorem copies_nodup :
    ((a.plainFields.filter (fun f => f.type == .string)).map copyName).Nodup := by
  simp only [List.Nodup, List.pairwise_map, copyName_eq, ne_eq, String.append_right_inj,
    String.append_left_inj] at distinct ⊢
  exact distinct.filter _

theorem otherNames_nodup : (otherNames ctx a).Nodup ↔ ChainFree ctx a := by
  have own_chains : (ownNames a.kind).Disjoint (a.chainFields.flatMap (fun _ => chainNames ctx)) :=
    fun _ hown hchain => ownNames_disjoint_chainNames hown (mem_chains.1 hchain).2
  have own_copies : (ownNames a.kind).Disjoint
      ((a.plainFields.filter (fun f => f.type == .string)).map copyName) := by
    intro name hown hcopy
    obtain ⟨f, -, rfl⟩ := List.mem_map.1 hcopy
    rw [copyName_eq, underscore_mem_ownNames] at hown
    exact copy_ne_ownField f.name hown
  have chains_copies : (a.chainFields.flatMap (fun _ => chainNames ctx)).Disjoint
      ((a.plainFields.filter (fun f => f.type == .string)).map copyName) ↔
        (a.hasChain = true → ∀ f ∈ a.plainFields, f.type = .string →
          ∀ n ∈ ctx.attribution.fields, f.name ++ "_cstr" ≠ "_chain_" ++ n.name) := by
    simp only [List.disjoint_right, List.forall_mem_map, copyName_eq, mem_chains,
      underscore_mem_chainNames, List.mem_filter, beq_iff_eq, and_imp, not_and, not_exists]
    exact ⟨fun h chain f hf ht => h f hf ht chain, fun h f hf ht chain => h chain f hf ht⟩
  rw [otherNames, List.nodup_append', List.nodup_append', List.disjoint_append_right, chains_nodup,
    chains_copies]
  constructor
  · intro h
    obtain ⟨-, ⟨⟨one, node⟩, -, copy⟩, -⟩ := h
    exact ⟨one, node, copy⟩
  · intro h
    exact ⟨ownNames_nodup _, ⟨⟨h.one, h.node⟩, copies_nodup distinct, h.copy⟩, own_chains,
      own_copies⟩

/-- The names of a function are distinct just when what is for fields and what is not do not meet,
and each of them is distinct. -/
theorem names_nodup_iff :
    (atomFunction ctx a).names.Nodup ↔ FieldsFree ctx a ∧ ChainFree ctx a := by
  have hdisjoint : (a.plainFields.map argName).Disjoint (otherNames ctx a) ↔
      ∀ f ∈ a.plainFields, argName f ∉ otherNames ctx a := by
    simp only [List.disjoint_left, List.forall_mem_map]
  rw [(names_perm ctx a).nodup_iff, List.nodup_append', otherNames_nodup distinct, hdisjoint,
    fieldsFree_iff, and_iff_right (args_nodup distinct), and_comm]

/-- The parameter of a field is kept just when nothing else has its name. -/
theorem keeps_iff {f : AtomField} (hf : f ∈ a.plainFields) :
    (atomFunction ctx a).Keeps ⟨argType f, argName f⟩ ↔ argName f ∉ otherNames ctx a := by
  have hparam : (⟨argType f, argName f⟩ : Param) ∈ (atomFunction ctx a).params := by
    obtain ⟨hmem, htype⟩ := Atom.mem_plainFields.1 hf
    refine List.mem_append_right _ (List.mem_flatMap.2 ⟨f, hmem, ?_⟩)
    simp [fieldParams, htype]
  have harg : (a.plainFields.map argName).count (argName f) = 1 :=
    List.count_eq_one_of_mem (args_nodup distinct) (List.mem_map_of_mem hf)
  rw [Function.Keeps, and_iff_right hparam, (names_perm ctx a).count_eq, List.count_append, harg,
    ← List.count_eq_zero, Nat.add_eq_left]

end Distinct

/-- A chain has its parameters once, if all names are distinct. -/
theorem keeps_chain {ctx : Context} {a : Atom} (nodup : (atomFunction ctx a).names.Nodup)
    (chain : a.hasChain = true) {p : Param} (hp : p ∈ chainParams ctx) :
    (atomFunction ctx a).Keeps p := by
  obtain ⟨f, hf⟩ := List.exists_mem_of_ne_nil _ (Atom.hasChain_iff.1 chain)
  obtain ⟨hmem, htype⟩ := List.mem_filter.1 hf
  have hparam : p ∈ (atomFunction ctx a).params := by
    refine List.mem_append_right _ (List.mem_flatMap.2 ⟨f, hmem, ?_⟩)
    rw [fieldParams, if_pos htype]
    exact hp
  exact ⟨hparam, List.count_eq_one_of_mem nodup
    (List.mem_append_left _ (List.mem_map_of_mem hparam))⟩

/-- The names by which a chain is written are those of its parameters. -/
theorem exists_chainParam {ctx : Context} (node : ctx.attribution.fields ≠ []) {name : String}
    (hname : name ∈ [ctx.uidName, ctx.tagName]) :
    ∃ p ∈ chainParams ctx, p.name = chainName name := by
  have hfield : ∃ n ∈ ctx.attribution.fields, n.name = name := by
    have hhead := List.head?_eq_some_head node
    have hlast := List.getLast?_eq_some_getLast node
    simp only [Context.uidName, Context.tagName, hhead, hlast, Option.map_some, Option.getD_some,
      List.mem_cons, List.not_mem_nil, or_false] at hname
    rcases hname with rfl | rfl
    · exact ⟨_, List.head_mem node, rfl⟩
    · exact ⟨_, List.getLast_mem node, rfl⟩
  obtain ⟨n, hn, rfl⟩ := hfield
  exact ⟨_, List.mem_map_of_mem hn, rfl⟩

/-- For an atom whose fields have names of their own, the names in its function are distinct just
when no field has a name that is taken there and its chain has names of its own. Each field that is
written or tested as it is goes by the name of its parameter, and that name stands for nothing else
just when no field has a name that is taken; a chain goes by the names of its parameters. -/
theorem names_distinct_iff (ctx : Context) {a : Atom}
    (distinct : (a.fields.map AtomField.name).Nodup) :
    ((atomFunction ctx a.chained).names.Nodup ↔
      FieldsFree ctx a.chained ∧ ChainFree ctx a.chained) ∧
    ((∀ (i : Nat) f, a.chained.field? i = some f → f.type ≠ .attributionChain →
        (atomFunction ctx a.chained).Keeps ⟨argType f, argAt a.chained i⟩) ↔
      FieldsFree ctx a.chained) ∧
    ((atomFunction ctx a.chained).names.Nodup → a.chained.hasChain = true →
      ctx.attribution.fields ≠ [] → ∀ name ∈ [ctx.uidName, ctx.tagName],
        ∃ p, p.name = chainName name ∧ (atomFunction ctx a.chained).Keeps p) := by
  have plain := Atom.plainFields_distinct distinct
  refine ⟨names_nodup_iff plain, ?_, ?_⟩
  · rw [fieldsFree_iff]
    constructor
    · intro h f hf
      obtain ⟨hmem, htype⟩ := Atom.mem_plainFields.1 hf
      obtain ⟨i, hi⟩ := List.getElem?_of_mem hmem
      have hfield : a.chained.field? (i + 1 : Nat) = some f :=
        Atom.field?_eq_some.2 ⟨i, by simp, hi⟩
      have hkeeps := h (i + 1) f hfield htype
      rw [argAt_eq hfield] at hkeeps
      exact (keeps_iff plain hf).1 hkeeps
    · intro h i f hfield htype
      obtain ⟨j, -, hj⟩ := Atom.field?_eq_some.1 hfield
      have hf : f ∈ a.chained.plainFields := Atom.mem_plainFields.2 ⟨List.mem_of_getElem? hj, htype⟩
      rw [argAt_eq hfield]
      exact (keeps_iff plain hf).2 (h f hf)
  · intro nodup chain node name hname
    obtain ⟨p, hp, hpname⟩ := exists_chainParam node hname
    exact ⟨p, hpname, keeps_chain nodup chain hp⟩

def noticeContext : Context := ⟨default, Collation.builtinAttribution, .all⟩

/-- A pushed atom with a text and one more field after a chain. -/
def noticeAtom (name : String) (type : FieldType) : Atom where
  code := 30
  name := "notice"
  fields := [⟨"owner", .attributionChain, ∅⟩, ⟨"text", .string, ∅⟩, ⟨name, type, ∅⟩]

theorem names_distinct_iff_notice :
    let a := noticeAtom "text_size" .int32
    (a.fields.map AtomField.name).Nodup ∧
    (atomFunction noticeContext a.chained).names.Nodup ∧
    (atomFunction noticeContext a.chained).Keeps ⟨"i32", argAt a.chained 3⟩ := by
  intro a
  have distinct : (a.fields.map AtomField.name).Nodup := by decide
  obtain ⟨nodup, keeps, -⟩ := names_distinct_iff noticeContext distinct
  have fields : FieldsFree noticeContext a.chained := ⟨by decide, by decide, by decide⟩
  have chain : ChainFree noticeContext a.chained := ⟨by decide, by decide, by decide⟩
  exact ⟨distinct, nodup.2 ⟨fields, chain⟩, keeps.2 fields 3 _ rfl (by decide)⟩

/-- The guard of an event hides a field called `dropper`, and the copy of a text one called so. -/
theorem not_names_distinct :
    (let a := noticeAtom "dropper" .int32;
      (a.fields.map AtomField.name).Nodup ∧
      (∀ f ∈ a.fields, Naming.isSnake f.name = true) ∧ target.supportsAtom a = true ∧
      ¬(atomFunction noticeContext a.chained).names.Nodup ∧
      ¬(atomFunction noticeContext a.chained).Keeps ⟨"i32", argAt a.chained 3⟩) ∧
    (let a := noticeAtom "text_cstr" .string;
      (a.fields.map AtomField.name).Nodup ∧
      (∀ f ∈ a.fields, Naming.isSnake f.name = true) ∧ target.supportsAtom a = true ∧
      ¬(atomFunction noticeContext a.chained).names.Nodup ∧
      ¬(atomFunction noticeContext a.chained).Keeps ⟨"&str", argAt a.chained 3⟩) := by
  decide +kernel

end Emit.Rust

end AtomLog
