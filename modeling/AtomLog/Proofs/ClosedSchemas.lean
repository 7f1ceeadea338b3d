import AtomLog.Descriptor.Schema
import AtomLog.Proofs.FieldDefects
import Mathlib.Data.List.Forall2
/-!
Schemas that are translated from descriptors.

Main statement: a pool gives a schema just for the containers all of whose fields are messages, and
that schema is closed: entries, and the fields of their messages, refer to messages by the exact
names they stand under, each message is the translation of the descriptor of its name, and collating
the schema finds them all (`Descriptor.Pool.schema_closed`).
-/
namespace AtomLog

/-- Entries, and the fields of the messages of entries, refer to messages by their keys. -/
structure Schema.Closed (s : Schema) : Prop where
  entries : ∀ e ∈ s.entries, s.messages.contains e.message
  fields : ∀ e ∈ s.entries, ∀ m, s.messages.get? e.message = some m →
    ∀ f ∈ m.fields, ∀ type ∈ f.messageType, s.messages.contains type

/-- Whether a name begins with a component, not with a dot. -/
def TypeName.IsPlain (name : String) : Prop := name.toList.head? ≠ some '.'

instance (name : String) : Decidable (TypeName.IsPlain name) := inferInstanceAs (Decidable (_ ≠ _))

theorem TypeName.undotted_of_plain {name : String} (plain : IsPlain name) :
    undotted name = name := by
  have hundot : undot name.toList = name.toList := by
    unfold IsPlain at plain
    cases hcs : name.toList with
    | nil => rfl
    | cons c cs =>
      rw [hcs] at plain
      have hc : (c == '.') = false := beq_false_of_ne (fun heq => plain (by rw [heq]; rfl))
      exact List.dropWhile_cons_of_neg (by simp [hc])
  rw [undotted, hundot, String.ofList_toList]

/-- A plain name that is a key stands for the message under it. -/
theorem Schema.message?_of_get? {s : Schema} {name : String} {m : Message}
    (plain : TypeName.IsPlain name) (hm : s.messages.get? name = some m) :
    s.message? name = some m := by
  rw [message?, TypeName.undotted_of_plain plain, hm]

/-! ### Loops that can fail -/

theorem mapM_eq_ok {ε α β : Type} {f : α → Except ε β} {xs : List α} {ys : List β} :
    xs.mapM f = .ok ys ↔ List.Forall₂ (fun x y => f x = .ok y) xs ys := by
  induction xs generalizing ys with
  | nil => simp [pure_eq_ok]
  | cons x xs ih =>
    simp only [List.mapM_cons, bind_eq_ok, pure_eq_ok, ih, List.forall₂_cons_left_iff]
    constructor
    · rintro ⟨y, hy, zs, hzs, rfl⟩
      exact ⟨y, zs, hy, hzs, rfl⟩
    · rintro ⟨y, zs, hy, hzs, rfl⟩
      exact ⟨y, hy, zs, hzs, rfl⟩

namespace Descriptor

/-- The word that schema files have for what a field holds. -/
def PoolKind.keyword (isGroup : Bool) : PoolKind → String
  | .double => "double"
  | .float => "float"
  | .int32 => "int32"
  | .int64 => "int64"
  | .uint32 => "uint32"
  | .uint64 => "uint64"
  | .sint32 => "sint32"
  | .sint64 => "sint64"
  | .fixed32 => "fixed32"
  | .fixed64 => "fixed64"
  | .sfixed32 => "sfixed32"
  | .sfixed64 => "sfixed64"
  | .bool => "bool"
  | .string => "string"
  | .bytes => "bytes"
  | .message _ => if isGroup then "group" else "message"
  | .enum _ => "enum"

/-- The group that a container field puts its entry in. A oneof of which all fields track their own
presence stands for no choice between them. -/
inductive PoolField.InGroup (f : PoolField) : String → Prop
  | alone (none : f.oneof = none) : InGroup f Entry.pushedGroup
  | tracked {o : PoolOneof} (some : f.oneof = some o) (all : ∀ t ∈ o.tracked, t = true) :
      InGroup f Entry.pushedGroup
  | oneof {o : PoolOneof} (some : f.oneof = some o) (choice : false ∈ o.tracked) :
      InGroup f o.name

/-- An entry that stands for a container field, under its number and for the message that is the
type of the field. -/
structure PoolField.Gives (f : PoolField) (e : Entry) : Prop where
  message : f.kind = .message e.message
  code : e.code = f.number
  name : e.name = f.name
  oneof : f.InGroup e.oneof
  options : e.options = rawOptions f.options

/-- A schema field that says what a field of a pool says. -/
structure PoolField.Becomes (f : PoolField) (g : SchemaField) : Prop where
  name : g.name = f.name
  number : g.number = f.number
  kind : g.kind.keyword = f.kind.keyword f.isGroup
  repeated : g.repeated = f.repeated
  messageType : ∀ type, g.messageType = some type ↔ f.kind = .message type
  enumValues : ∀ values, f.kind = .enum values → g.enumValues = values
  noValues : (∀ values, f.kind ≠ .enum values) → g.enumValues = []
  options : g.options = rawOptions f.options

structure PoolMessage.Becomes (d : PoolMessage) (m : Message) : Prop where
  name : m.name = d.name
  doc : m.doc = d.comment
  fields : List.Forall₂ PoolField.Becomes d.fields m.fields

/-- A schema that translates a container message of a pool: a message stands under the name of the
one that it translates, and entries resolve to the translations of their own messages. -/
structure Pool.Translates (p : Pool) (m : PoolMessage) (s : Schema) : Prop where
  container : s.container = m.name
  entries : List.Forall₂ PoolField.Gives m.fields s.entries
  messages : ∀ key n, s.messages.get? key = some n →
    n.name = key ∧ ∃ d, p.message? key = some d ∧ d.Becomes n
  resolves : ∀ e ∈ s.entries, ∃ d n, p.message? e.message = some d ∧
    s.message? e.message = some n ∧ d.Becomes n

/-! ### Fields -/

@[simp] theorem PoolKind.messageType?_eq_some {k : PoolKind} {type : String} :
    k.messageType? = some type ↔ k = .message type := by
  cases k <;> simp [messageType?]

theorem PoolKind.messageType?_eq_none {k : PoolKind} :
    k.messageType? = none ↔ ∀ type, k ≠ .message type := by
  cases k <;> simp [messageType?]

namespace PoolField

variable {f : PoolField}

/-- Numbers of fields are so small that they are the same in a schema. -/
theorem schemaNumber_eq (small : f.number < Bits.values 29) : f.schemaNumber = f.number := by
  have h29 : Bits.values 29 = 536870912 := rfl
  have h31 : Bits.values 31 = 2147483648 := rfl
  rw [schemaNumber, if_pos]
  simp only [Bits.isSigned, Bool.and_eq_true, decide_eq_true_eq, Nat.add_one_sub_one, h31]
  omega

theorem keyword_schemaKind : f.schemaKind.keyword = f.kind.keyword f.isGroup := by
  unfold schemaKind
  cases f.kind with
  | message type => cases f.isGroup <;> rfl
  | _ => rfl

theorem inGroup_entry (type : String) : f.InGroup (f.entry type).oneof := by
  have hgroup : (f.entry type).oneof = (f.realOneof?.map PoolOneof.name).getD Entry.pushedGroup :=
    rfl
  rw [hgroup, realOneof?]
  cases ho : f.oneof with
  | none => exact .alone ho
  | some o =>
    cases hall : o.tracked.all id with
    | true =>
      rw [Option.filter_some_neg (by simp [hall])]
      exact .tracked ho (by simpa using hall)
    | false =>
      rw [Option.filter_some_pos (by simp [hall])]
      exact .oneof ho (by simpa using hall)

theorem becomes_toSchemaField (small : f.number < Bits.values 29) : f.Becomes f.toSchemaField where
  name := rfl
  number := by rw [← schemaNumber_eq small, toSchemaField]
  kind := by rw [← keyword_schemaKind, toSchemaField]
  repeated := rfl
  messageType := fun _ => PoolKind.messageType?_eq_some
  enumValues := by
    intro values hk
    simp only [toSchemaField, hk]
  noValues := by
    intro plain
    unfold toSchemaField
    cases hk : f.kind with
    | enum values => exact absurd hk (plain values)
    | _ => rfl
  options := rfl

end PoolField

theorem PoolMessage.becomes_toMessage {d : PoolMessage}
    (small : ∀ f ∈ d.fields, f.number < Bits.values 29) : d.Becomes d.toMessage where
  name := rfl
  doc := rfl
  fields := by
    rw [toMessage, List.forall₂_map_right_iff, List.forall₂_same]
    exact fun f hf => PoolField.becomes_toSchemaField (small f hf)

/-! ### Entries of a container -/

section Entries

variable {container : String} {fs : List PoolField} {es : List Entry}

theorem gives_of_entryOf {f : PoolField} {e : Entry} (small : f.number < Bits.values 29)
    (h : entryOf container f = .ok e) : f.Gives e := by
  unfold entryOf at h
  split at h
  · rename_i type hkind
    cases h
    exact
      { message := hkind
        code := by rw [← f.schemaNumber_eq small, PoolField.entry]
        name := rfl
        oneof := f.inGroup_entry type
        options := rfl }
  · cases h

theorem gives_of_mapM (small : ∀ f ∈ fs, f.number < Bits.values 29)
    (h : fs.mapM (entryOf container) = .ok es) : List.Forall₂ PoolField.Gives fs es := by
  have hes := mapM_eq_ok.1 h
  clear h
  induction hes with
  | nil => exact .nil
  | cons hfe _ ih =>
    obtain ⟨hf, hfs⟩ := List.forall_mem_cons.1 small
    exact .cons (gives_of_entryOf hf hfe) (ih hfs)

/-- The entries are refused just when some field is no message, and the first such field is named. -/
theorem mapM_entryOf_eq_error {x : ContainerError} :
    fs.mapM (entryOf container) = .error x ↔
      ∃ f, fs.find? (·.kind.messageType?.isNone) = some f ∧
        x = .nonMessageAtom container f.name := by
  induction fs with
  | nil => simp [pure, Except.pure]
  | cons f fs ih =>
    rw [List.mapM_cons]
    cases hf : f.kind with
    | message type =>
      simp [entryOf, hf, PoolKind.messageType?, bind_eq_error, ih, pure, Except.pure]
    | _ => simp [entryOf, hf, PoolKind.messageType?, bind, Except.bind, eq_comm]

/-- What a field and its entry share is the same for all of them, in order. -/
theorem map_eq_of_gives {α : Type} {ofField : PoolField → α} {ofEntry : Entry → α}
    (same : ∀ f e, f.Gives e → ofEntry e = ofField f) (hes : List.Forall₂ PoolField.Gives fs es) :
    es.map ofEntry = fs.map ofField := by
  rw [← List.forall₂_eq_eq_eq, List.forall₂_map_left_iff, List.forall₂_map_right_iff]
  exact hes.flip.imp (fun e f hfe => same f e hfe)

end Entries

/-! ### Adding messages -/

/-- A translation that has added the messages of a pool with some names, and no others. -/
structure Translation.Holds (p : Pool) (names : List String) (t : Translation) : Prop where
  translated : ∀ key, key ∈ t.translated ↔ key ∈ names
  messages : ∀ key n, t.schema.messages.get? key = some n ↔
    key ∈ names ∧ ∃ d, p.message? key = some d ∧ n = d.toMessage

namespace Translation

variable {p : Pool} {t : Translation} {names : List String}

theorem holds_start (p : Pool) (s : Schema) (h : s.messages = ∅) : Holds p [] ⟨s, ∅⟩ where
  translated := fun _ => iff_of_false List.not_mem_nil List.not_mem_nil
  messages := by
    intro key n
    simp [h]

/-- A message that has been translated is passed over, and any other one is added. -/
theorem Holds.add (h : t.Holds p names) {d : PoolMessage} (hd : p.message? d.name = some d) :
    (t.add d).Holds p (names ++ [d.name]) := by
  unfold Translation.add
  split
  · rename_i hold
    have hname : d.name ∈ names := (h.translated d.name).1 hold
    have hnames : ∀ key, key ∈ names ++ [d.name] ↔ key ∈ names := by
      intro key
      rw [List.mem_append, List.mem_singleton, or_iff_left_iff_imp]
      rintro rfl
      exact hname
    exact
      { translated := fun key => (h.translated key).trans (hnames key).symm
        messages := fun key n => by rw [h.messages, hnames] }
  · refine { translated := ?_, messages := ?_ }
    · intro key
      rw [SortedSet.mem_insert, h.translated, List.mem_append, List.mem_singleton, or_comm]
    · intro key n
      have hget : (t.schema.addMessage d.toMessage).messages.get? key =
          if key = d.name then some d.toMessage else t.schema.messages.get? key :=
        SortedMap.get?_insert _ _ _ _
      rw [hget, List.mem_append, List.mem_singleton]
      by_cases hkey : key = d.name
      · subst hkey
        simp [hd, eq_comm]
      · simp [hkey, h.messages]

theorem Holds.foldl (h : t.Holds p names) {ds : List PoolMessage}
    (known : ∀ d ∈ ds, p.message? d.name = some d) :
    (ds.foldl Translation.add t).Holds p (names ++ ds.map PoolMessage.name) := by
  induction ds generalizing t names with
  | nil => simpa using h
  | cons d ds ih =>
    obtain ⟨hd, hds⟩ := List.forall_mem_cons.1 known
    simpa using ih (h.add hd) hds

theorem schema_add (t : Translation) (d : PoolMessage) :
    (t.add d).schema.container = t.schema.container ∧
      (t.add d).schema.entries = t.schema.entries := by
  unfold Translation.add
  split <;> exact ⟨rfl, rfl⟩

/-- Nothing but messages is added. -/
theorem schema_foldl (t : Translation) (ds : List PoolMessage) :
    (ds.foldl add t).schema.container = t.schema.container ∧
      (ds.foldl add t).schema.entries = t.schema.entries := by
  induction ds generalizing t with
  | nil => exact ⟨rfl, rfl⟩
  | cons d ds ih =>
    obtain ⟨hcontainer, hentries⟩ := ih (t.add d)
    obtain ⟨hc, he⟩ := t.schema_add d
    exact ⟨hcontainer.trans hc, hentries.trans he⟩

end Translation

/-! ### Messages of a schema -/

namespace Pool

variable (p : Pool)

theorem name_eq {name : String} {d : PoolMessage} (h : p.message? name = some d) : d.name = name :=
  p.sound.named (name, d) ((SortedMap.mem_entries_iff _ _ _).2 h)

theorem closed {name type : String} {d : PoolMessage} (h : p.message? name = some d) {f : PoolField}
    (hf : f ∈ d.fields) (htype : f.kind = .message type) : ∃ c, p.message? type = some c :=
  Option.isSome_iff_exists.1
    (p.sound.closed (name, d) ((SortedMap.mem_entries_iff _ _ _).2 h) f hf type
      (PoolKind.messageType?_eq_some.2 htype))

theorem small {name : String} {d : PoolMessage} (h : p.message? name = some d) :
    ∀ f ∈ d.fields, f.number < Bits.values 29 :=
  p.sound.small (name, d) ((SortedMap.mem_entries_iff _ _ _).2 h)

/-- The messages of entries. -/
def atomsOf (es : List Entry) : List PoolMessage := es.filterMap (fun e => p.message? e.message)

theorem mem_referenced {ds : List PoolMessage} {c : PoolMessage} : c ∈ p.referenced ds ↔
    ∃ d ∈ ds, ∃ f ∈ d.fields, ∃ type, f.kind = .message type ∧ p.message? type = some c := by
  simp only [referenced, List.mem_flatMap, List.mem_filterMap, Option.bind_eq_some_iff,
    PoolKind.messageType?_eq_some]

/-! ### Schemas of a container -/

/-- The schema with these entries, after both passes over messages. -/
def schemaOf (m : PoolMessage) (es : List Entry) : Schema :=
  let start : Translation := ⟨{ container := m.name, entries := es }, ∅⟩
  ((p.referenced (p.atomsOf es)).foldl .add ((p.atomsOf es).foldl .add start)).schema

section Schemas

variable {p} {name : String} {m : PoolMessage} {es : List Entry}

theorem container_schemaOf : (p.schemaOf m es).container = m.name :=
  ((Translation.schema_foldl _ _).1).trans (Translation.schema_foldl _ _).1

theorem entries_schemaOf : (p.schemaOf m es).entries = es :=
  ((Translation.schema_foldl _ _).2).trans (Translation.schema_foldl _ _).2

/-- Atoms, and what their fields refer to, are messages of the pool. -/
theorem message?_name {d : PoolMessage}
    (h : d ∈ p.atomsOf es ++ p.referenced (p.atomsOf es)) : p.message? d.name = some d := by
  rcases List.mem_append.1 h with hd | hd
  · obtain ⟨e, -, he⟩ := List.mem_filterMap.1 hd
    rw [p.name_eq he, he]
  · obtain ⟨-, -, -, -, type, -, htype⟩ := p.mem_referenced.1 hd
    rw [p.name_eq htype, htype]

/-- The messages of a schema are the translations of the atoms and of what their fields refer to. -/
theorem get?_schemaOf {key : String} {n : Message} :
    (p.schemaOf m es).messages.get? key = some n ↔
      ∃ d ∈ p.atomsOf es ++ p.referenced (p.atomsOf es), d.name = key ∧ n = d.toMessage := by
  have start := Translation.holds_start p { container := m.name, entries := es } rfl
  have atoms : ∀ d ∈ p.atomsOf es, p.message? d.name = some d :=
    fun _ hd => message?_name (List.mem_append_left _ hd)
  have referenced : ∀ d ∈ p.referenced (p.atomsOf es), p.message? d.name = some d :=
    fun _ hd => message?_name (List.mem_append_right _ hd)
  have holds := (start.foldl atoms).foldl referenced
  rw [List.nil_append, ← List.map_append] at holds
  refine (holds.messages key n).trans ?_
  rw [List.mem_map]
  constructor
  · rintro ⟨⟨d, hd, rfl⟩, d', hd', rfl⟩
    obtain rfl := Option.some.inj ((message?_name hd).symm.trans hd')
    exact ⟨d, hd, rfl, rfl⟩
  · rintro ⟨d, hd, rfl, rfl⟩
    exact ⟨⟨d, hd, rfl⟩, d, message?_name hd, rfl⟩

theorem contains_schemaOf {d : PoolMessage}
    (h : d ∈ p.atomsOf es ++ p.referenced (p.atomsOf es)) :
    (p.schemaOf m es).messages.contains d.name = true :=
  Option.isSome_iff_exists.2 ⟨_, get?_schemaOf.2 ⟨d, h, rfl, rfl⟩⟩

theorem schema_of_message? {container : String}
    (hm : p.message? (TypeName.undotted container) = some m) :
    p.schema container = (m.fields.mapM (entryOf m.name)).map (p.schemaOf m) := by
  simp only [schema, hm]
  cases m.fields.mapM (entryOf m.name) <;> rfl

theorem schema_eq_notFound (p : Pool) (container : String) :
    p.schema container = .error (.notFound (TypeName.undotted container)) ↔
      p.message? (TypeName.undotted container) = none := by
  cases hm : p.message? (TypeName.undotted container) with
  | none => simp [schema, hm]
  | some m =>
    rw [schema_of_message? hm, map_eq_error, mapM_entryOf_eq_error]
    simp

theorem schema_eq_nonMessageAtom {container : String}
    (hm : p.message? (TypeName.undotted container) = some m) :
    (∃ field, p.schema container = .error (.nonMessageAtom m.name field)) ↔
      ∃ f ∈ m.fields, ∀ type, f.kind ≠ .message type := by
  simp only [schema_of_message? hm, map_eq_error, mapM_entryOf_eq_error,
    ← PoolKind.messageType?_eq_none]
  constructor
  · rintro ⟨_, f, hf, -⟩
    exact ⟨f, List.mem_of_find?_eq_some hf, by simpa using List.find?_some hf⟩
  · rintro ⟨f, hf, hnone⟩
    have hsome : (m.fields.find? (·.kind.messageType?.isNone)).isSome :=
      List.find?_isSome.2 ⟨f, hf, by simp [hnone]⟩
    obtain ⟨g, hg⟩ := Option.isSome_iff_exists.1 hsome
    exact ⟨g.name, g, hg, rfl⟩

/-- Where all fields are messages, no field stops the translation. -/
theorem exists_entries (container : String) {fs : List PoolField}
    (typed : ∀ f ∈ fs, ∃ type, f.kind = .message type) :
    ∃ es, fs.mapM (entryOf container) = .ok es := by
  cases hes : fs.mapM (entryOf container) with
  | ok es => exact ⟨es, rfl⟩
  | error x =>
    obtain ⟨f, hf, -⟩ := mapM_entryOf_eq_error.1 hes
    have hnone : f.kind.messageType? = none := by simpa using List.find?_some hf
    obtain ⟨type, htype⟩ := typed f (List.mem_of_find?_eq_some hf)
    exact absurd htype (PoolKind.messageType?_eq_none.1 hnone type)

section Entries

variable (hm : p.message? name = some m) (hes : List.Forall₂ PoolField.Gives m.fields es)

include hm hes

/-- The message of an entry is in the pool, as the type of a container field. -/
theorem exists_message_of_entry {e : Entry} (he : e ∈ es) : ∃ d, p.message? e.message = some d := by
  have hkinds : es.map (fun e => PoolKind.message e.message) = m.fields.map PoolField.kind :=
    map_eq_of_gives (fun f e hfe => hfe.message.symm) hes
  have hkind : PoolKind.message e.message ∈ m.fields.map PoolField.kind :=
    hkinds ▸ List.mem_map_of_mem he
  obtain ⟨f, hf, hfkind⟩ := List.mem_map.1 hkind
  exact p.closed hm hf hfkind

theorem mem_atoms_of_entry {e : Entry} (he : e ∈ es) : ∃ d ∈ p.atomsOf es,
    p.message? e.message = some d ∧ d.name = e.message := by
  obtain ⟨d, hd⟩ := exists_message_of_entry hm hes he
  exact ⟨d, List.mem_filterMap.2 ⟨e, he, hd⟩, hd, p.name_eq hd⟩

theorem translates_schemaOf (plain : ∀ e ∈ p.messages.entries, TypeName.IsPlain e.1) :
    p.Translates m (p.schemaOf m es) where
  container := container_schemaOf
  entries := entries_schemaOf.symm ▸ hes
  messages := by
    intro key n hn
    obtain ⟨d, hd, rfl, rfl⟩ := get?_schemaOf.1 hn
    have hmessage := message?_name hd
    exact ⟨rfl, d, hmessage, PoolMessage.becomes_toMessage (p.small hmessage)⟩
  resolves := by
    rw [entries_schemaOf]
    intro e he
    obtain ⟨d, hatom, hd, hname⟩ := mem_atoms_of_entry hm hes he
    have hkey : (p.schemaOf m es).messages.get? e.message = some d.toMessage :=
      get?_schemaOf.2 ⟨d, List.mem_append_left _ hatom, hname, rfl⟩
    have hplain := plain (e.message, d) ((SortedMap.mem_entries_iff _ _ _).2 hd)
    exact ⟨d, _, hd, Schema.message?_of_get? hplain hkey,
      PoolMessage.becomes_toMessage (p.small hd)⟩

theorem closed_schemaOf : (p.schemaOf m es).Closed where
  entries := by
    rw [entries_schemaOf]
    intro e he
    obtain ⟨d, hatom, -, hname⟩ := mem_atoms_of_entry hm hes he
    rw [← hname]
    exact contains_schemaOf (List.mem_append_left _ hatom)
  fields := by
    rw [entries_schemaOf]
    intro e he n hn f hf type htype
    obtain ⟨d, hatom, hd, hname⟩ := mem_atoms_of_entry hm hes he
    obtain ⟨d', hd', hname', rfl⟩ := get?_schemaOf.1 hn
    have heq := message?_name hd'
    rw [hname', hd] at heq
    obtain rfl := Option.some.inj heq
    obtain ⟨g, hg, rfl⟩ := List.mem_map.1 hf
    have hkind : g.kind = .message type := PoolKind.messageType?_eq_some.1 htype
    obtain ⟨c, hc⟩ := p.closed hd hg hkind
    rw [← p.name_eq hc]
    refine contains_schemaOf (List.mem_append_right _ ?_)
    exact p.mem_referenced.2 ⟨d, hatom, g, hg, type, hkind, hc⟩

/-- Container fields have different numbers, so entries have different codes. -/
theorem distinct_codes : es.Pairwise (fun e f => e.code ≠ f.code) := by
  have hcodes : es.map Entry.code = m.fields.map (fun f => (f.number : Int)) :=
    map_eq_of_gives (fun f e hfe => hfe.code) hes
  have hnumbers := p.sound.ascending (name, m) ((SortedMap.mem_entries_iff _ _ _).2 hm)
  rw [List.pairwise_map] at hnumbers
  have hdistinct : (es.map Entry.code).Pairwise (· ≠ ·) := by
    rw [hcodes, List.pairwise_map]
    exact hnumbers.imp (fun hlt heq => by omega)
  exact List.pairwise_map.1 hdistinct

end Entries

end Schemas

/-- A pool has a schema for a container just when it has the container and all of its fields are
messages. The schema translates the container and the messages it needs, refers to each by its exact
name, and holds no entry that collating could miss or confuse with another one. -/
theorem schema_closed (p : Pool) (plain : ∀ e ∈ p.messages.entries, TypeName.IsPlain e.1)
    (container : String) :
    (p.schema container = .error (.notFound (TypeName.undotted container)) ↔
      p.message? (TypeName.undotted container) = none) ∧
    ∀ m, p.message? (TypeName.undotted container) = some m →
      ((∃ field, p.schema container = .error (.nonMessageAtom m.name field)) ↔
        ∃ f ∈ m.fields, ∀ type, f.kind ≠ .message type) ∧
      ((∀ f ∈ m.fields, ∃ type, f.kind = .message type) → ∃ s, p.schema container = .ok s ∧
        p.Translates m s ∧ s.Closed ∧
        ∀ r, ∀ x ∈ (Collation.collate r s).errors, x.defect.OfFields) := by
  refine ⟨schema_eq_notFound p container, fun m hm => ⟨schema_eq_nonMessageAtom hm, ?_⟩⟩
  intro typed
  obtain ⟨es, hok⟩ := exists_entries m.name typed
  have hes := gives_of_mapM (p.small hm) hok
  have htranslates := translates_schemaOf hm hes plain
  refine ⟨p.schemaOf m es, ?_, htranslates, closed_schemaOf hm hes, ?_⟩
  · rw [schema_of_message? hm, hok]
    rfl
  · intro r
    refine Collation.errors_ofFields ?_ ?_
    · rw [entries_schemaOf]
      exact distinct_codes hm hes
    · intro e he
      obtain ⟨d, n, -, hn, -⟩ := htranslates.resolves e he
      exact ⟨n, hn⟩

def sampleContainer : PoolMessage where
  name := "log.Atom"
  comment := ""
  fields :=
    [{ name := "visit", number := 10, kind := .message "log.Visit",
        oneof := some ⟨"_visit", [true]⟩ },
      { name := "roll", number := 11, kind := .message "log.Roll",
        oneof := some ⟨"pulled", [false, false]⟩ }]

/-- Two atoms, of which one refers to the other and to itself. -/
def samplePool : Pool where
  messages := .ofList
    [("log.Visit",
        { name := "log.Visit"
          comment := ""
          fields :=
            [{ name := "uid", number := 1, kind := .int32 },
              { name := "next", number := 2, kind := .message "log.Visit", isGroup := true },
              { name := "roll", number := 3, kind := .message "log.Roll" }] }),
      ("log.Roll", { name := "log.Roll", comment := "", fields := [] }),
      ("log.Atom", sampleContainer)]
  sound := by decide

theorem schema_closed_samplePool :
    (∀ e ∈ samplePool.messages.entries, TypeName.IsPlain e.1) ∧
      samplePool.message? "log.Atom" = some sampleContainer ∧
      ∃ s, samplePool.schema ".log.Atom" = .ok s ∧ samplePool.Translates sampleContainer s ∧
        s.Closed ∧ ∀ r, ∀ x ∈ (Collation.collate r s).errors, x.defect.OfFields := by
  have hplain : ∀ e ∈ samplePool.messages.entries, TypeName.IsPlain e.1 := by decide
  have hm : samplePool.message? (TypeName.undotted ".log.Atom") = some sampleContainer := by rfl
  have hclosed := schema_closed samplePool hplain ".log.Atom"
  have typed : ∀ f ∈ sampleContainer.fields, ∃ type, f.kind = .message type := by
    simp [sampleContainer]
  exact ⟨hplain, hm, (hclosed.2 sampleContainer hm).2 typed⟩

end Pool

end Descriptor

end AtomLog
