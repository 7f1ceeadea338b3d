import AtomLog.Generate.Render
import AtomLog.Proofs.Meanings
import AtomLog.Proofs.Outcomes
import Mathlib.Data.List.Nodup
import Mathlib.Data.List.Perm.Basic
/-!
Schemas that differ only in the order of what they declare.

Entries, fields, options and enum values may each stand in any order. Main statement: if a plan
renders one such schema, it renders the other to the same files (`Plan.render_rearranged`), because
the two are collated alike (`Collation.collate_rearranged`).
-/
namespace AtomLog

/-- Lists whose elements are related one by one, once the first list is put into some order. -/
def UpToOrder {α : Type} (R : α → α → Prop) (xs ys : List α) : Prop :=
  ∃ zs, xs.Perm zs ∧ List.Forall₂ R zs ys

namespace UpToOrder

variable {α β : Type} {R : α → α → Prop} {xs ys : List α}

theorem exists_left (h : UpToOrder R xs ys) {y : α} (hy : y ∈ ys) : ∃ x ∈ xs, R x y := by
  obtain ⟨zs, hperm, hzs⟩ := h
  simp only [hperm.mem_iff]
  clear hperm
  induction hzs with
  | nil => cases hy
  | cons hxy _ ih =>
    rcases List.mem_cons.1 hy with rfl | hy
    · exact ⟨_, by simp, hxy⟩
    · obtain ⟨x, hx, hxy⟩ := ih hy
      exact ⟨x, by simp [hx], hxy⟩

theorem exists_right (h : UpToOrder R xs ys) {x : α} (hx : x ∈ xs) : ∃ y ∈ ys, R x y := by
  obtain ⟨zs, hperm, hzs⟩ := h
  rw [hperm.mem_iff] at hx
  clear hperm
  induction hzs with
  | nil => cases hx
  | cons hxy _ ih =>
    rcases List.mem_cons.1 hx with rfl | hx
    · exact ⟨_, by simp, hxy⟩
    · obtain ⟨y, hy, hxy⟩ := ih hx
      exact ⟨y, by simp [hy], hxy⟩

/-- A key that related elements share is in both lists, in some order. -/
theorem map_perm (h : UpToOrder R xs ys) (key : α → β) (same : ∀ x y, R x y → key x = key y) :
    (xs.map key).Perm (ys.map key) := by
  obtain ⟨zs, hperm, hzs⟩ := h
  have heq : zs.map key = ys.map key := by
    rw [← List.forall₂_eq_eq_eq, List.forall₂_map_left_iff, List.forall₂_map_right_iff]
    exact hzs.imp same
  rw [← heq]
  exact hperm.map key

end UpToOrder

/-- The log modes that options set, one after the other. -/
def logModes (r : Registry) (os : List RawOption) : List Int :=
  (os.filterMap (r.meaning? .field)).filterMap (fun
    | .logMode mode => some mode
    | _ => none)

/-- A field whose options and enum values stand in another order. Of two log modes the later counts,
and so does the later name of an enum value, so these have to be single where the order changes. -/
structure SchemaField.Rearranged (r : Registry) (f g : SchemaField) : Prop where
  same : g = { f with options := g.options, enumValues := g.enumValues }
  options : f.options.Perm g.options
  one_mode : f.options = g.options ∨ (logModes r f.options).length ≤ 1
  values : f.enumValues.Perm g.enumValues
  one_name : f.enumValues = g.enumValues ∨
    f.enumValues.Pairwise (fun v w => v.number ≠ w.number)

structure Message.Rearranged (r : Registry) (m n : Message) : Prop where
  same : n = { m with fields := n.fields }
  fields : UpToOrder (SchemaField.Rearranged r) m.fields n.fields

structure Entry.Rearranged (e f : Entry) : Prop where
  same : f = { e with options := f.options }
  options : e.options.Perm f.options

structure Schema.Rearranged (r : Registry) (s t : Schema) : Prop where
  same : t = { s with entries := t.entries, messages := t.messages }
  entries : UpToOrder Entry.Rearranged s.entries t.entries
  messages : List.Forall₂ (fun a b => a.1 = b.1 ∧ a.2.Rearranged r b.2)
    s.messages.entries t.messages.entries

/-! ### Options and enum values -/

theorem AtomOptions.add_comm (o : AtomOptions) (m n : Meaning) :
    (o.add m).add n = (o.add n).add m := by
  cases m <;> cases n <;> simp [add, SortedSet.insert_comm]

theorem AtomOptions.read_perm (r : Registry) {os os' : List RawOption} (hperm : os.Perm os') :
    read r os = read r os' :=
  (hperm.filterMap _).foldl_eq' (fun m _ n _ o => add_comm o m n) _

/-- What a later option means for the log mode replaces what the earlier ones mean. -/
theorem FieldOptions.logMode_foldl (r : Registry) (os : List RawOption) (o : FieldOptions) :
    ((os.filterMap (r.meaning? .field)).foldl add o).logMode =
      (logModes r os).getLast?.or o.logMode := by
  refine foldl_last logMode _ ?_ _ o
  intro o m
  cases m <;> rfl

theorem FieldOptions.attributionTag_foldl (ms : List Meaning) (o : FieldOptions) :
    (ms.foldl add o).attributionTag = true ↔
      o.attributionTag = true ∨ Meaning.attributionTag ∈ ms := by
  have hadd : ∀ (o : FieldOptions) (m : Meaning),
      (o.add m).attributionTag = true ↔ o.attributionTag = true ∨ Meaning.attributionTag = m := by
    intro o m
    cases m <;> simp [add]
  refine (foldl_gathers (fun o => o.attributionTag = true) hadd ms o).trans ?_
  simp

/-- Options in another order say the same of a field, as long as the log modes keep their order. -/
theorem FieldOptions.read_congr {r : Registry} {os os' : List RawOption} (hperm : os.Perm os')
    (modes : logModes r os = logModes r os') : read r os = read r os' := by
  have hannotations : (read r os).annotations = (read r os').annotations := by
    refine SortedSet.ext_mem (fun n => ?_)
    simp only [mem_read, hperm.mem_iff]
  have htag : (read r os).attributionTag = (read r os').attributionTag := by
    rw [Bool.eq_iff_iff, read, read, attributionTag_foldl, attributionTag_foldl,
      (hperm.filterMap _).mem_iff]
  have hmode : (read r os).logMode = (read r os').logMode := by
    rw [read, read, logMode_foldl, logMode_foldl, modes]
  generalize read r os = o at *
  generalize read r os' = o' at *
  cases o
  cases o'
  simp_all

/-- Options in another order say the same of a field, if no more than one sets a log mode. -/
theorem FieldOptions.read_perm (r : Registry) {os os' : List RawOption} (hperm : os.Perm os')
    (one_mode : (logModes r os).length ≤ 1) : read r os = read r os' := by
  apply read_congr hperm
  have hmodes : (logModes r os).Perm (logModes r os') := (hperm.filterMap _).filterMap _
  cases hos : logModes r os with
  | nil =>
    rw [hos] at hmodes
    exact hmodes.nil_eq
  | cons mode modes =>
    obtain rfl : modes = [] := by simpa [hos] using one_mode
    rw [hos] at hmodes
    exact hmodes.singleton_eq

namespace SchemaField.Rearranged

variable {r : Registry} {f g : SchemaField}

theorem name_eq (h : f.Rearranged r g) : g.name = f.name := by rw [h.same]

theorem number_eq (h : f.Rearranged r g) : g.number = f.number := by rw [h.same]

theorem fieldType_eq (h : f.Rearranged r g) (w : WellKnown) (asBytes : Bool) :
    g.fieldType w asBytes = f.fieldType w asBytes := by
  rw [h.same]
  rfl

theorem read_eq (h : f.Rearranged r g) : FieldOptions.read r g.options = .read r f.options := by
  rcases h.one_mode with hsame | hone
  · rw [hsame]
  · exact (FieldOptions.read_perm r h.options hone).symm

theorem enumNames_eq (h : f.Rearranged r g) (t : FieldType) :
    Collation.enumNames t g.enumValues = Collation.enumNames t f.enumValues := by
  rcases h.one_name with hsame | hdistinct
  · rw [hsame]
  · unfold Collation.enumNames
    rw [SortedMap.ofList_perm (h.values.map _) (List.pairwise_map.2 hdistinct)]

end SchemaField.Rearranged

/-! ### Fields -/

namespace Collation

variable {r : Registry} {w : WellKnown}

/-- A rearranged field is read and admitted like the one that it comes from, and adds the same. -/
theorem addField_rearranged {count index : Nat} {f f' : SchemaField} {d d' : Draft}
    (h : f.Rearranged r f') (hf : addField r w count index f d = .ok d') :
    addField r w count index f' d = .ok d' := by
  obtain ⟨g, rfl, hg, hadmits, rfl⟩ := addField_eq_ok.1 hf
  refine addField_eq_ok.2 ⟨{ g with field := f' }, rfl, ⟨?_, ?_⟩, ⟨?_, hadmits.placed, ?_⟩, ?_⟩
  · exact hg.options_eq.trans h.read_eq.symm
  · exact (h.fieldType_eq w _).trans hg.type_eq
  · exact h.number_eq.trans hadmits.numbered
  · rw [h.number_eq]
    exact hadmits.allowed
  · simp only [takeField, appendField, h.name_eq, h.number_eq, h.enumNames_eq]

theorem addFields_rearranged {count : Nat} {fs fs' : List SchemaField} {d' : Draft}
    (h : List.Forall₂ (SchemaField.Rearranged r) fs fs') (index : Nat) (d : Draft)
    (hfs : addFields r w count index fs d = .ok d') :
    addFields r w count index fs' d = .ok d' := by
  induction h generalizing index d with
  | nil => exact hfs
  | cons hf _ ih =>
    simp only [addFields, bind_eq_ok] at hfs ⊢
    obtain ⟨e, he, hrest⟩ := hfs
    exact ⟨e, addField_rearranged hf he, ih (index + 1) e hrest⟩

/-- Fields that are added without an error have ascending numbers. -/
theorem numbers_ascending_of_addFields {count index : Nat} {fs : List SchemaField} {d d' : Draft}
    (h : addFields r w count index fs d = .ok d') :
    fs.Pairwise (fun f g => f.number < g.number) := by
  obtain ⟨gs, rfl, -, hadmits, -⟩ := addFields_eq_ok.1 h
  rw [List.pairwise_map, List.pairwise_iff_getElem]
  intro i j hi hj hlt
  have hi' := (hadmits i hi).numbered
  have hj' := (hadmits j hj).numbered
  omega

theorem sortFields_pairwise (fs : List SchemaField) :
    (sortFields fs).Pairwise (fun f g => f.number ≤ g.number) := by
  have h : (sortFields fs).Pairwise (fun f g => decide (f.number ≤ g.number) = true) := by
    apply List.pairwise_mergeSort
    · intro f g h hfg hgh
      simp only [decide_eq_true_eq] at hfg hgh ⊢
      omega
    · intro f g
      simp only [Bool.or_eq_true, decide_eq_true_eq]
      omega
  exact h.imp (fun hfg => by simpa only [decide_eq_true_eq] using hfg)

/-- Under distinct numbers, sorting undoes every change of the order of fields. -/
theorem sortFields_rearranged {fs fs' : List SchemaField}
    (h : UpToOrder (SchemaField.Rearranged r) fs fs')
    (ascending : (sortFields fs).Pairwise (fun f g => f.number < g.number)) :
    List.Forall₂ (SchemaField.Rearranged r) (sortFields fs) (sortFields fs') := by
  obtain ⟨zs, hperm, hzs⟩ := h
  obtain ⟨ys, hys, hsorted⟩ : ∃ ys, zs.Perm ys ∧
      List.Forall₂ (SchemaField.Rearranged r) ys (sortFields fs') := by
    have hcomp : Relation.Comp (List.Forall₂ (SchemaField.Rearranged r)) List.Perm zs
        (sortFields fs') := ⟨fs', hzs, (sortFields_perm fs').symm⟩
    rw [List.forall₂_comp_perm_eq_perm_comp_forall₂] at hcomp
    exact hcomp
  have hnumbers : ys.map SchemaField.number = (sortFields fs').map SchemaField.number := by
    rw [← List.forall₂_eq_eq_eq, List.forall₂_map_left_iff, List.forall₂_map_right_iff]
    exact hsorted.imp (fun _ _ hfg => hfg.number_eq.symm)
  have hle : ys.Pairwise (fun f g => f.number ≤ g.number) := by
    have hle' := List.pairwise_map.2 (sortFields_pairwise fs')
    rw [← hnumbers, List.pairwise_map] at hle'
    exact hle'
  have hsame : (sortFields fs).Perm ys := (sortFields_perm fs).trans (hperm.trans hys)
  have heq : sortFields fs = ys := by
    refine hsame.eq_of_pairwise ?_ (ascending.imp Int.le_of_lt) hle
    intro f g hf hg hfg hgf
    -- two fields with one number are the same field
    have hdistinct : ((sortFields fs).map SchemaField.number).Nodup :=
      List.pairwise_map.2 (ascending.imp Int.ne_of_lt)
    exact List.inj_on_of_nodup_map hdistinct hf (hsame.mem_iff.2 hg) (Int.le_antisymm hfg hgf)
  rw [heq]
  exact hsorted

theorem collateFields_rearranged {m n : Message} {a : Atom} {d : Draft}
    (h : m.Rearranged r n) (hm : collateFields r w m a = .ok d) :
    collateFields r w n a = .ok d := by
  have hlength : m.fields.length = n.fields.length := by
    have hnumbers := h.fields.map_perm SchemaField.number (fun _ _ hfg => hfg.number_eq.symm)
    simpa using hnumbers.length_eq
  simp only [collateFields, bind_eq_ok] at hm ⊢
  obtain ⟨e, he, hstate⟩ := hm
  have hsorted := sortFields_rearranged h.fields (numbers_ascending_of_addFields he)
  rw [← hlength]
  exact ⟨e, addFields_rearranged hsorted 0 _ he, hstate⟩

end Collation

/-! ### Messages and entries -/

section Schemas

variable {r : Registry} {s t : Schema}

theorem SortedMap.findEntry_forall₂ {κ α : Type} [Ord κ] {R : α → α → Prop}
    {xs ys : List (κ × α)} (h : List.Forall₂ (fun a b => a.1 = b.1 ∧ R a.2 b.2) xs ys) (k : κ) :
    Option.Rel R (findEntry k xs) (findEntry k ys) := by
  induction h with
  | nil => exact .none
  | cons hab _ ih =>
    obtain ⟨hkey, hvalue⟩ := hab
    simp only [findEntry, hkey]
    split
    · exact .some hvalue
    · exact ih

/-- A name stands for the same message in another order. -/
theorem Schema.Rearranged.message? (h : s.Rearranged r t) (name : String) :
    Option.Rel (Message.Rearranged r) (s.message? name) (t.message? name) := by
  have hget := SortedMap.findEntry_forall₂ h.messages (TypeName.undotted name)
  have hfind : ∀ {xs ys : List (String × Message)},
      List.Forall₂ (fun a b => a.1 = b.1 ∧ a.2.Rearranged r b.2) xs ys →
      Option.Rel (Message.Rearranged r)
        ((xs.find? (fun e => related e.1 (TypeName.undotted name))).map Prod.snd)
        ((ys.find? (fun e => related e.1 (TypeName.undotted name))).map Prod.snd) := by
    intro xs ys hxy
    induction hxy with
    | nil => exact .none
    | cons hab _ ih =>
      obtain ⟨hkey, hvalue⟩ := hab
      simp only [List.find?_cons, hkey]
      split
      · exact .some hvalue
      · exact ih
  simp only [Schema.message?, SortedMap.get?]
  revert hget
  generalize SortedMap.findEntry _ s.messages.entries = m,
    SortedMap.findEntry _ t.messages.entries = n
  intro hget
  cases hget with
  | none => exact hfind h.messages
  | some hmessage => exact .some hmessage

namespace Collation

theorem startAtom_rearranged {e f : Entry} {m n : Message} (hentry : e.Rearranged f)
    (hmessage : m.Rearranged r n) : startAtom r f n = startAtom r e m := by
  rw [hentry.same, hmessage.same]
  simp only [startAtom, AtomOptions.read_perm r hentry.options]

theorem collateEntry_rearranged {e f : Entry} {a : Atom} (h : s.Rearranged r t)
    (hentry : e.Rearranged f) (he : collateEntry r s e = .ok a) : collateEntry r t f = .ok a := by
  have hname : f.message = e.message := by rw [hentry.same]
  have hknown : t.wellKnown = s.wellKnown := by rw [h.same]
  have hrel := h.message? e.message
  unfold collateEntry at he ⊢
  rw [hname, hknown]
  cases hm : s.message? e.message with
  | none => simp [hm] at he
  | some m =>
    cases hn : t.message? e.message with
    | none => simp [hm, hn] at hrel
    | some n =>
      have hmessage : m.Rearranged r n := by simpa [hm, hn] using hrel
      simp only [hm, bind_eq_ok] at he
      simp only [bind_eq_ok, startAtom_rearranged hentry hmessage]
      obtain ⟨d, hd, ha⟩ := he
      exact ⟨d, collateFields_rearranged hmessage hd, ha⟩

theorem collateAttribution_rearranged {a : Atom} (h : s.Rearranged r t)
    (ha : collateAttribution r s = .ok a) : collateAttribution r t = .ok a := by
  have hknown : t.wellKnown = s.wellKnown := by rw [h.same]
  have hrel := h.message? s.wellKnown.attributionNode
  unfold collateAttribution at ha ⊢
  rw [hknown]
  revert ha hrel
  generalize s.message? s.wellKnown.attributionNode = m, t.message? s.wellKnown.attributionNode = n
  intro ha hrel
  cases hrel with
  | none => exact ha
  | @some m n hmessage =>
    have hname : n.name = m.name := by rw [hmessage.same]
    simp only [mapError_eq_ok, attributionOf, bind_eq_ok, hname] at ha ⊢
    obtain ⟨d, hd, hnode⟩ := ha
    exact ⟨d, collateFields_rearranged hmessage hd, hnode⟩

/-- A schema without errors is collated alike in every order of its declarations. -/
theorem collate_rearranged (h : s.Rearranged r t) (clean : (collate r s).errors = []) :
    collate r t = collate r s := by
  obtain ⟨distinct, haccepted, n, hn⟩ := (errors_eq_nil_iff r s).1 clean
  have hn' := collateAttribution_rearranged h hn
  have distinct' : t.entries.Pairwise (fun e f => e.code ≠ f.code) := by
    have hcodes := h.entries.map_perm Entry.code (fun e f hef => by rw [hef.same])
    exact List.pairwise_map.1 (hcodes.pairwise (List.pairwise_map.2 distinct) (fun h => h.symm))
  have haccepted' : ∀ f ∈ t.entries, ∃ a, collateEntry r t f = .ok a := by
    intro f hf
    obtain ⟨e, he, hef⟩ := h.entries.exists_left hf
    obtain ⟨a, ha⟩ := haccepted e he
    exact ⟨a, collateEntry_rearranged h hef ha⟩
  have clean' : (collate r t).errors = [] :=
    (errors_eq_nil_iff r t).2 ⟨distinct', haccepted', n, hn'⟩
  have hcatalog : (collate r t).catalog = (collate r s).catalog := by
    refine Catalog.ofAtoms_ext ?_
    intro code
    change (collate r t).catalog.get? code = (collate r s).catalog.get? code
    ext a
    rw [get?_collate_eq_some r t distinct', get?_collate_eq_some r s distinct]
    constructor
    · intro hf
      obtain ⟨f, hf, rfl, ha⟩ := hf
      obtain ⟨e, he, hef⟩ := h.entries.exists_left hf
      obtain ⟨b, hb⟩ := haccepted e he
      obtain rfl := Except.ok.inj ((collateEntry_rearranged h hef hb).symm.trans ha)
      exact ⟨e, he, by rw [hef.same], hb⟩
    · intro he
      obtain ⟨e, he, rfl, ha⟩ := he
      obtain ⟨f, hf, hef⟩ := h.entries.exists_right he
      exact ⟨f, hf, by rw [hef.same], collateEntry_rearranged h hef ha⟩
  have hattribution : (collate r t).attribution = (collate r s).attribution := by
    simp only [collate, hn, hn']
  calc collate r t = ⟨(collate r t).catalog, (collate r t).attribution, (collate r t).errors⟩ := rfl
    _ = collate r s := by rw [hcatalog, hattribution, clean', ← clean]

end Collation

end Schemas

/-- The emitters read the selected atoms of a schema that is collated without errors. -/
theorem Plan.context_eq_ok {p : Plan} {s : Schema} {ctx : Emit.Context} :
    p.context s = .ok ctx ↔ (Collation.collate .standard s).errors = [] ∧
      ∃ c, (Collation.collate .standard s).catalog.select p.selection = .ok c ∧
        ctx = ⟨c, (Collation.collate .standard s).attribution, p.selection⟩ := by
  cases herrors : (Collation.collate .standard s).errors with
  | nil => simp [context, herrors, bind_eq_ok, pure_eq_ok, mapError_eq_ok, -bind_pure_comp]
  | cons e es =>
    simp [context, herrors, bind, Except.bind, throw, throwThe, MonadExceptOf.throw]

/-- A plan that renders a schema renders it to the same files in every order of its entries, of the
fields of its messages, and of the options and the enum values of both. -/
theorem Plan.render_rearranged {p : Plan} {s t : Schema} {files : List (String × String)}
    (h : s.Rearranged .standard t) (hs : p.render s = .ok files) : p.render t = .ok files := by
  simp only [render, bind_eq_ok] at hs ⊢
  obtain ⟨ctx, hctx, hfiles⟩ := hs
  refine ⟨ctx, ?_, hfiles⟩
  obtain ⟨clean, -⟩ := context_eq_ok.1 hctx
  have hsame := Collation.collate_rearranged h clean
  rw [context_eq_ok] at hctx ⊢
  rw [hsame]
  exact hctx

/-- A lamp's level and state, each declared in one order. -/
def lampMessage : Message where
  name := "Lamp"
  fields :=
    [{ name := "level", number := 1, kind := .int32 },
      { name := "state", number := 2, kind := .enum, enumValues := [⟨0, "OFF"⟩, ⟨1, "ON"⟩],
        options := [⟨.number 50011, .bool true⟩, ⟨.number 50013, .int 0⟩] }]

def lampSchema : Schema where
  container := "Atom"
  entries :=
    [{ name := "lamp", code := 7, message := "Lamp",
        options := [⟨.name "module", .str "home"⟩, ⟨.name "truncate_timestamp", .bool true⟩] },
      { name := "porch_lamp", code := 5, message := "Lamp", oneof := Entry.pulledGroup }]
  messages := ⟨[("Lamp", lampMessage)], by simp⟩

/-- The same atoms with everything declared the other way round. -/
def lampSchemaReversed : Schema where
  container := "Atom"
  entries :=
    [{ name := "porch_lamp", code := 5, message := "Lamp", oneof := Entry.pulledGroup },
      { name := "lamp", code := 7, message := "Lamp",
        options := [⟨.name "truncate_timestamp", .bool true⟩, ⟨.name "module", .str "home"⟩] }]
  messages :=
    ⟨[("Lamp", { lampMessage with
        fields :=
          [{ name := "state", number := 2, kind := .enum, enumValues := [⟨1, "ON"⟩, ⟨0, "OFF"⟩],
              options := [⟨.number 50013, .int 0⟩, ⟨.number 50011, .bool true⟩] },
            { name := "level", number := 1, kind := .int32 }] })], by simp⟩

def lampPlan : Plan where
  source := .schema "atoms.toml"
  selection := .all
  outputs := { header := some "lamp.h", java := some "Lamp.java", rust := some "lamp.rs" }
  cppNamespace := "home"
  importHeader := "lamp.h"
  javaPackage := "home"
  javaClass := "Lamp"

theorem lampSchema_rearranged : lampSchema.Rearranged .standard lampSchemaReversed where
  same := rfl
  entries := ⟨_, List.Perm.swap _ _ _, .cons ⟨rfl, by decide⟩ (.cons ⟨rfl, by decide⟩ .nil)⟩
  messages := by
    refine .cons ⟨rfl, rfl, _, List.Perm.swap _ _ _, .cons ?_ (.cons ?_ .nil)⟩ .nil
    · exact ⟨rfl, by decide, .inr (by decide), by decide, .inr (by decide)⟩
    · exact ⟨rfl, by decide, .inl rfl, by decide, .inl rfl⟩

theorem lampSchema_errors : (Collation.collate .standard lampSchema).errors = [] := by
  refine (Collation.errors_eq_nil_iff _ _).2 ⟨by decide, ?_, _, rfl⟩
  have hentry : ∀ e ∈ lampSchema.entries,
      (Collation.collateEntry .standard lampSchema e).toOption.isSome = true := by
    intro e he
    have hm : lampSchema.message? e.message = some lampMessage := by
      revert e
      decide +kernel
    rw [Collation.collateEntry_of_sorted hm (by decide)]
    revert e
    decide +kernel
  intro e he
  exact toOption_isSome.1 (hentry e he)

theorem Plan.render_rearranged_lamp :
    ∃ files, lampPlan.render lampSchema = .ok files ∧
      lampPlan.render lampSchemaReversed = .ok files := by
  have hctx : lampPlan.context lampSchema = .ok _ :=
    Plan.context_eq_ok.2 ⟨lampSchema_errors, _, rfl, rfl⟩
  obtain ⟨files, hs⟩ : ∃ files, lampPlan.render lampSchema = .ok files := by
    simp only [Plan.render, bind_eq_ok]
    exact ⟨_, _, hctx, rfl⟩
  exact ⟨files, hs, Plan.render_rearranged lampSchema_rearranged hs⟩

end AtomLog
