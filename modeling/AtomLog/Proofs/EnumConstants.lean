import AtomLog.Proofs.Columns
import AtomLog.Proofs.HeaderSource
/-!
The constants of enum values.

A collated field holds its values by number, so of values with one number the last is held. Main
statement: the constants that the outputs define are those of the last values of each number among
the enum fields of the selected entries (`Emit.enumConstants_collated`).
-/
namespace AtomLog

/-- A field of enum values in the message of an entry. -/
structure Schema.HasEnum (s : Schema) (e : Entry) (f : SchemaField) : Prop where
  entry : e ∈ s.entries
  field : ∃ m, s.message? e.message = some m ∧ f ∈ m.fields
  kind : f.kind = .enum

/-- The constant of a value, with the number. -/
def EnumValue.constant (e : Entry) (f : SchemaField) (v : EnumValue) : String × Int :=
  (Naming.enumConstant e.name f.name v.name, v.number)

/-- A value after which no value of a list has its number. -/
def EnumValue.LastIn (v : EnumValue) (vs : List EnumValue) : Prop :=
  ∃ before after, vs = before ++ v :: after ∧ ∀ w ∈ after, w.number ≠ v.number

namespace EnumValue

variable {v : EnumValue} {vs : List EnumValue}

/-- Where no two values have one number, each is the last of its number. -/
theorem lastIn_of_distinct (distinct : vs.Pairwise (fun v w => v.number ≠ w.number))
    (hv : v ∈ vs) : v.LastIn vs := by
  obtain ⟨before, after, rfl⟩ := List.append_of_mem hv
  obtain ⟨-, hafter, -⟩ := List.pairwise_append.1 distinct
  refine ⟨before, after, rfl, ?_⟩
  intro w hw
  exact ((List.pairwise_cons.1 hafter).1 w hw).symm

/-- Each number is held with the name of the last value that has it. -/
theorem get?_enumNames {t : FieldType} (ht : t.isEnum = true) {number : Int} {name : String} :
    (Collation.enumNames t vs).get? number = some name ↔
      ∃ v : EnumValue, v.LastIn vs ∧ v.number = number ∧ v.name = name := by
  rw [Collation.enumNames, if_pos ht, SortedMap.get?_ofList, ← List.map_reverse, List.find?_map,
    Option.map_map, Option.map_eq_some_iff]
  simp only [List.find?_eq_some_iff_append, Function.comp_apply, decide_eq_true_eq,
    Bool.not_eq_true', decide_eq_false_iff_not]
  constructor
  · rintro ⟨v, ⟨rfl, after, before, hvs, hafter⟩, rfl⟩
    refine ⟨v, ⟨before.reverse, after.reverse, ?_, ?_⟩, rfl, rfl⟩
    · rw [← List.reverse_reverse vs, hvs]
      simp
    · intro w hw
      exact hafter w (List.mem_reverse.1 hw)
  · rintro ⟨v, ⟨before, after, rfl, hafter⟩, rfl, rfl⟩
    refine ⟨v, ⟨rfl, after.reverse, before.reverse, by simp, ?_⟩, rfl⟩
    intro w hw
    exact hafter w (List.mem_reverse.1 hw)

end EnumValue

/-! ### The values of a collated field -/

/-- The logged type has named values just when the field is an enum, repeated or not. -/
theorem SchemaField.isEnum_iff {f : SchemaField} {w : WellKnown} {asBytes : Bool} {t : FieldType}
    (h : f.fieldType w asBytes = .ok t) : t.isEnum = true ↔ f.kind = .enum := by
  unfold fieldType at h
  cases hkind : f.kind with
  | message =>
    simp only [hkind, if_true, messageFieldType] at h
    repeat' split at h
    all_goals cases h <;> simp [FieldType.isEnum]
  | _ => cases hrepeated : f.repeated <;>
      simp [hkind, hrepeated, FieldKind.scalar?, FieldType.array?] at h <;> subst h <;>
      simp [FieldType.isEnum]

namespace Collation

theorem note_name (number : Int) (a : Atom) (n : Annotation) : (note number a n).name = a.name := by
  unfold note
  split <;> rfl

/-- The constants of an atom are those of the last values of each number in its message. -/
theorem mem_enumConstantsOf {r : Registry} {s : Schema} {e : Entry} {a : Atom}
    (he : e ∈ s.entries) (h : collateEntry r s e = .ok a) {c : String × Int} :
    c ∈ Emit.Context.enumConstantsOf a ↔
      ∃ f, s.HasEnum e f ∧ ∃ v : EnumValue, v.LastIn f.enumValues ∧ c = v.constant e f := by
  obtain ⟨m, gs, hm, hmap, hgs, -, -, rfl⟩ := collateEntry_eq_ok.1 h
  have hname : (draftOf r e m gs).atom.name = e.name :=
    takeFields_frame Atom.name note_name gs (fun _ _ _ => rfl) _
  have hfield : ∀ f, f ∈ m.fields ↔ ∃ g ∈ gs, g.field = f := by
    intro f
    rw [← (sortFields_perm m.fields).mem_iff, ← hmap, List.mem_map]
  simp only [Emit.Context.enumConstantsOf, draftOf_fields, hname, List.mem_flatMap, List.mem_filter,
    List.mem_map, Prod.exists, SortedMap.mem_entries_iff]
  constructor
  · rintro ⟨_, ⟨⟨g, hg, rfl⟩, isEnum⟩, number, name, hget, rfl⟩
    have hkind := (SchemaField.isEnum_iff (hgs g hg).type_eq).1 isEnum
    obtain ⟨v, hlast, rfl, rfl⟩ := (EnumValue.get?_enumNames isEnum).1 hget
    exact ⟨g.field, ⟨he, ⟨m, hm, (hfield _).2 ⟨g, hg, rfl⟩⟩, hkind⟩, v, hlast, rfl⟩
  · rintro ⟨f, ⟨-, ⟨m', hm', hf⟩, hkind⟩, v, hlast, rfl⟩
    rw [hm] at hm'
    cases hm'
    obtain ⟨g, hg, rfl⟩ := (hfield f).1 hf
    have isEnum := (SchemaField.isEnum_iff (hgs g hg).type_eq).2 hkind
    exact ⟨_, ⟨⟨g, hg, rfl⟩, isEnum⟩, v.number, v.name,
      (EnumValue.get?_enumNames isEnum).2 ⟨v, hlast, rfl, rfl⟩, rfl⟩

/-- The selected atoms are those of the entries that they are selected with. -/
theorem mem_selected_iff {r : Registry} {s : Schema} {sels : List Selection} {c : Catalog}
    (clean : (collate r s).errors = [])
    (selected : sels.foldlM Catalog.select (collate r s).catalog = .ok c) {a : Atom} :
    a ∈ c.toList ↔ ∃ e ∈ s.entries, (c.get? e.code).isSome = true ∧ collateEntry r s e = .ok a := by
  have keyed : Catalog.Keyed (collate r s).catalog.atoms := Catalog.keyed_ofAtoms _
  have hget := (keyed.selectAll selected).2
  have hcollated : ∀ code a, (collate r s).catalog.get? code = some a ↔
      ∃ e ∈ s.entries, e.code = code ∧ collateEntry r s e = .ok a :=
    fun _ _ => get?_collate_eq_some r s ((errors_eq_nil_iff r s).1 clean).1
  constructor
  · intro h
    obtain ⟨code, found⟩ := SortedMap.mem_values.1 h
    obtain ⟨e, he, rfl, ha⟩ := (hcollated code a).1 ((hget code a).1 found).1
    exact ⟨e, he, Option.isSome_iff_exists.2 ⟨a, found⟩, ha⟩
  · rintro ⟨e, he, hsome, ha⟩
    obtain ⟨a', found⟩ := Option.isSome_iff_exists.1 hsome
    have hfirst := ((hget e.code a').1 found).1
    rw [(hcollated e.code a).2 ⟨e, he, rfl, ha⟩] at hfirst
    cases hfirst
    exact SortedMap.mem_values.2 ⟨e.code, found⟩

end Collation

namespace Emit

namespace Native

/-- Whether a line starts like the definition of a number. -/
def defines (line : String) : Bool := starts "const int32_t " line

def constantLine (c : String × Int) : String := s!"const int32_t {c.1} = {c.2};"

@[simp] theorem defines_append {c : Char} {cs : List Char} (l : String) (hc : c ≠ 'c') :
    defines (no_index (String.ofList (c :: cs)) ++ l) = false := by
  simp [toList_literal, defines, starts, List.isPrefixOf, hc.symm]

@[simp] theorem defines_literal {c : Char} {cs : List Char} (hc : c ≠ 'c') :
    defines (no_index (String.ofList (c :: cs))) = false := by
  simpa using @defines_append c cs "" hc

@[simp] theorem defines_empty : defines "" = false := by
  simp [toList_literal, defines, starts]

variable (ctx : Context) (o : Options)

theorem filter_headerLines_defines :
    (headerLines ctx o).filter defines = ctx.enumConstants.map constantLine := by
  have hpull : ∀ l ∈ pullInclude ctx, defines l = false := by
    unfold pullInclude
    split <;> simp
  have hopen : ∀ l ∈ openNamespaces o, defines l = false := by
    simp [openNamespaces, String.append_assoc, toString]
  have hclose : ∀ l ∈ closeNamespaces o, defines l = false := by
    simp [closeNamespaces, toString]
  have hatoms : ∀ l ∈ atomConstants ctx, defines l = false := by
    simp only [atomConstants, docComment, List.forall_mem_append, List.forall_mem_cons,
      List.forall_mem_map, List.forall_mem_flatMap]
    simp [String.append_assoc, toString]
  have hannotations : ∀ l ∈ annotationConstants, defines l = false := by
    simp only [annotationConstants, List.forall_mem_append, List.forall_mem_cons,
      List.forall_mem_map]
    simp [String.append_assoc, toString, toList_literal, defines, starts, List.isPrefixOf]
  have hbytes : ∀ l ∈ bytesField, defines l = false := by
    simp [bytesField]
  have hinfo : ∀ l ∈ infoDeclarations ctx, defines l = false := by
    unfold infoDeclarations
    split
    · simp [String.append_assoc, toString, toList_literal, defines, starts, List.isPrefixOf]
    · simp
  have hdeclared : ∀ title m, ∀ l ∈ declarations ctx title m, defines l = false := by
    intro title m
    simp only [declarations, declared, List.forall_mem_append, List.forall_mem_cons,
      List.forall_mem_map, methodSignature]
    cases m <;> simp [String.append_assoc, Family.opening]
  have hvalues : (enumConstants ctx).filter defines = ctx.enumConstants.map constantLine := by
    have hline : ∀ l ∈ ctx.enumConstants.map constantLine, defines l = true := by
      rw [List.forall_mem_map]
      intro c _
      have hstart : starts "const int32_t " "const int32_t " = true := by decide
      exact starts_append (starts_append (starts_append (starts_append hstart _) _) _) _
    change (_ :: (ctx.enumConstants.map constantLine ++ [""])).filter defines = _
    rw [List.filter_cons_of_neg (by simp), List.filter_append, List.filter_eq_self.2 hline]
    simp
  simp only [headerLines, List.filter_append, filter_eq_nil hpull,
    filter_eq_nil hopen, filter_eq_nil hatoms, hvalues,
    filter_eq_nil hannotations, filter_eq_nil hbytes,
    filter_eq_nil hinfo, filter_eq_nil (hdeclared _ _),
    filter_eq_nil hclose]
  simp [banner]

end Native

namespace Java

def constantLine (c : String × Int) : String := s!"    public static final int {c.1} = {c.2};"

/-- The class has a block of the constants. -/
theorem constantLines_infix (ctx : Context) (o : Options) :
    ctx.enumConstants.map constantLine <:+: classLines ctx o := by
  have hblock : ctx.enumConstants.map constantLine <:+: constantLines ctx :=
    List.infix_append_of_infix_left (List.infix_append _ _ _)
  have hclass : constantLines ctx <:+: classLines ctx o := by
    unfold classLines
    iterate 4 apply List.infix_append_of_infix_left
    exact List.infix_append _ _ _
  exact hblock.trans hclass

end Java

/-- What is selected from a collation without errors defines a constant for the last value of each
number that an enum field of a selected entry declares, and for no other value: in the header these
are all constants that are int32s, in the class they stand in one block. So where the numbers in a
field are distinct, no value of it is lost. -/
theorem enumConstants_collated {r : Registry} {s : Schema} {sels : List Selection} {ctx : Context}
    (clean : (Collation.collate r s).errors = [])
    (selected : sels.foldlM Catalog.select (Collation.collate r s).catalog = .ok ctx.catalog)
    (native : Native.Options) (java : Java.Options) :
    (Native.headerLines ctx native).filter Native.defines =
      ctx.enumConstants.map Native.constantLine ∧
    ctx.enumConstants.map Java.constantLine <:+: Java.classLines ctx java ∧
    (∀ c, c ∈ ctx.enumConstants ↔ ∃ e f, s.HasEnum e f ∧ (ctx.catalog.get? e.code).isSome = true ∧
      ∃ v : EnumValue, v.LastIn f.enumValues ∧ c = v.constant e f) ∧
    ∀ e f, s.HasEnum e f → (ctx.catalog.get? e.code).isSome = true →
      f.enumValues.Pairwise (fun v w => v.number ≠ w.number) →
        ∀ v ∈ f.enumValues, v.constant e f ∈ ctx.enumConstants := by
  have hmem : ∀ c, c ∈ ctx.enumConstants ↔ ∃ e f, s.HasEnum e f ∧
      (ctx.catalog.get? e.code).isSome = true ∧
        ∃ v : EnumValue, v.LastIn f.enumValues ∧ c = v.constant e f := by
    intro c
    rw [Context.enumConstants, List.mem_flatMap]
    constructor
    · rintro ⟨a, ha, hc⟩
      obtain ⟨e, he, hsome, hcollated⟩ := (Collation.mem_selected_iff clean selected).1 ha
      obtain ⟨f, hf, v, hlast, rfl⟩ := (Collation.mem_enumConstantsOf he hcollated).1 hc
      exact ⟨e, f, hf, hsome, v, hlast, rfl⟩
    · rintro ⟨e, f, hf, hsome, v, hlast, rfl⟩
      obtain ⟨a, ha⟩ := ((Collation.errors_eq_nil_iff r s).1 clean).2.1 e hf.entry
      exact ⟨a, (Collation.mem_selected_iff clean selected).2 ⟨e, hf.entry, hsome, ha⟩,
        (Collation.mem_enumConstantsOf hf.entry ha).2 ⟨f, hf, v, hlast, rfl⟩⟩
  refine ⟨Native.filter_headerLines_defines ctx native, Java.constantLines_infix ctx java, hmem, ?_⟩
  intro e f hf hsome distinct v hv
  exact (hmem _).2 ⟨e, f, hf, hsome, v, EnumValue.lastIn_of_distinct distinct hv, rfl⟩

def lightEntry : Entry where
  name := "light"
  code := 90
  message := "Light"

def stateField (values : List EnumValue) : SchemaField where
  name := "state"
  number := 1
  kind := .enum
  enumValues := values

def lightMessage (values : List EnumValue) : Message where
  name := "Light"
  fields := [stateField values]

def lightSchema (values : List EnumValue) : Schema where
  container := "Atom"
  entries := [lightEntry]
  messages := .ofList [("Light", lightMessage values)]

def lightContext (values : List EnumValue) : Context :=
  let c := Collation.collate .standard (lightSchema values)
  ⟨c.catalog, c.attribution, .all⟩

def lightOptions : Native.Options := ⟨"android,util", "statslog.h"⟩

theorem enumConstants_collated_light :
    let values : List EnumValue := [⟨0, "OFF"⟩, ⟨1, "ON"⟩]
    (Collation.collate .standard (lightSchema values)).errors = [] ∧
    [].foldlM Catalog.select (Collation.collate .standard (lightSchema values)).catalog =
      .ok (lightContext values).catalog ∧
    (lightSchema values).HasEnum lightEntry (stateField values) ∧
    ∀ v ∈ values,
      v.constant lightEntry (stateField values) ∈ (lightContext values).enumConstants := by
  intro values
  have clean : (Collation.collate .standard (lightSchema values)).errors = [] := by decide +kernel
  have selected : [].foldlM Catalog.select
      (Collation.collate .standard (lightSchema values)).catalog =
        .ok (lightContext values).catalog := rfl
  have hasEnum : (lightSchema values).HasEnum lightEntry (stateField values) :=
    ⟨List.mem_singleton_self _, ⟨lightMessage values, by decide +kernel,
      List.mem_singleton_self _⟩, rfl⟩
  obtain ⟨-, -, -, kept⟩ := enumConstants_collated clean selected lightOptions ⟨"log", "Log"⟩
  exact ⟨clean, selected, hasEnum, kept lightEntry _ hasEnum (by decide +kernel) (by decide)⟩

/-- A value with a second name is accepted, and then neither output defines its first name. -/
theorem not_enumConstants_collated :
    let values : List EnumValue := [⟨0, "OFF"⟩, ⟨1, "ON"⟩, ⟨1, "ENABLED"⟩]
    let ctx := lightContext values
    (Collation.collate .standard (lightSchema values)).errors = [] ∧
    (lightSchema values).HasEnum lightEntry (stateField values) ∧ ⟨1, "ON"⟩ ∈ values ∧
    (⟨1, "ON"⟩ : EnumValue).constant lightEntry (stateField values) = ("LIGHT__STATE__ON", 1) ∧
    Native.constantLine ("LIGHT__STATE__ON", 1) ∉ Native.headerLines ctx lightOptions ∧
    Java.constantLine ("LIGHT__STATE__ON", 1) ∉ Java.classLines ctx ⟨"log", "Log"⟩ := by
  intro values ctx
  have hasEnum : (lightSchema values).HasEnum lightEntry (stateField values) :=
    ⟨List.mem_singleton_self _, ⟨lightMessage values, by decide +kernel,
      List.mem_singleton_self _⟩, rfl⟩
  exact ⟨by decide +kernel, hasEnum, by decide, by decide +kernel, by decide +kernel,
    by decide +kernel⟩

end Emit

end AtomLog
