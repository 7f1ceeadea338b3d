import AtomLog.Proofs.Columns
import AtomLog.Proofs.Outcomes
/-!
Which atoms are not chained.

Such an atom begins with a uid and a tag, which stand for a chain. Main statement: a collated atom is
not chained just when it is pushed, begins so, and has no other tag behind
(`Collation.collateEntry_nonChained_iff`).
-/
namespace AtomLog

/-- Whether a field is a string that is marked as an attribution tag. -/
def SchemaField.IsTag (f : SchemaField) (w : WellKnown) : Prop :=
  f.Logs w .string ∧ (FieldOptions.read .standard f.options).attributionTag = true

/-- Whether fields begin with a uid and a tag. -/
def LeadingTag (w : WellKnown) (fs : List SchemaField) : Prop :=
  ∃ uid tag rest, fs = uid :: tag :: rest ∧ uid.Logs w .int32 ∧ uid.Carries .isUid ∧ tag.IsTag w

/-- The number of a field that is a tag. -/
def ReadField.tag? (g : ReadField) : Option Int :=
  if g.options.attributionTag && g.type == .string then some g.field.number else none

theorem ReadField.IsReading.isTag_iff {w : WellKnown} {g : ReadField}
    (h : g.IsReading .standard w) : g.field.IsTag w ↔ g.tag? = some g.field.number := by
  rw [SchemaField.IsTag, h.logs_iff, ← h.options_eq, ReadField.tag?]
  simp [and_comm]

theorem ReadField.tag?_eq_some {g : ReadField} {k : Int} (h : g.tag? = some k) :
    k = g.field.number ∧ g.type = .string := by
  unfold tag? at h
  split at h
  · rename_i hmarked
    simp only [Bool.and_eq_true, beq_iff_eq] at hmarked
    exact ⟨(Option.some.inj h).symm, hmarked.2⟩
  · cases h

namespace Collation

/-- Of several tags the last is kept. -/
theorem takeFields_tagField (gs : List ReadField) (d : Draft) :
    (gs.foldl takeField d).tagField = (gs.filterMap ReadField.tag?).getLast?.or d.tagField := by
  refine foldl_last Draft.tagField ReadField.tag? ?_ gs d
  intro d g
  rw [takeField, ReadField.tag?]
  split <;> rfl

section Entries

variable {e : Entry} {m : Message} {uid tag : ReadField} {rest : List ReadField}

/-- The second field is the last tag when it is a tag and none is behind it. -/
theorem draftOf_tagField_eq_two (wf : WellFormed (uid :: tag :: rest)) :
    (draftOf .standard e m (uid :: tag :: rest)).tagField = some 2 ↔
      tag.tag? = some tag.field.number ∧ ∀ g ∈ rest, g.tag? = none := by
  have htag : tag.field.number = 2 := wf.numbered 1 (by simp)
  rw [draftOf, takeFields_tagField, Option.or_none, getLast?_filterMap_eq_some]
  constructor
  · intro h
    obtain ⟨ys, x, zs, hsplit, hx, hzs⟩ := h
    have hlt : ys.length < (uid :: tag :: rest).length := by simp [hsplit]
    have hx' : (uid :: tag :: rest)[ys.length] = x := by simp [hsplit]
    have hnumber := wf.numbered ys.length hlt
    rw [hx', ← (ReadField.tag?_eq_some hx).1] at hnumber
    obtain ⟨y, rfl⟩ := List.length_eq_one_iff.1 (show ys.length = 1 by omega)
    obtain ⟨-, htail⟩ := List.cons.inj hsplit
    obtain ⟨rfl, rfl⟩ := List.cons.inj htail
    exact ⟨by rw [hx, htag], hzs⟩
  · intro h
    obtain ⟨hmarked, hrest⟩ := h
    exact ⟨[uid], tag, rest, rfl, by rw [hmarked, htag], hrest⟩

theorem draftOf_uidField_eq_one (wf : WellFormed (uid :: tag :: rest)) :
    (draftOf .standard e m (uid :: tag :: rest)).atom.uidField = some 1 ↔ uid.Has .isUid := by
  have huid : uid.field.number = 1 := wf.numbered 0 (by simp)
  rw [draftOf_uidField wf, draftOf_has wf (by decide)]
  constructor
  · intro h
    obtain ⟨g, hg, hnumber, hhas⟩ := h
    obtain ⟨i, hi, rfl⟩ := List.getElem_of_mem hg
    have hi' := wf.numbered i hi
    obtain rfl : i = 0 := by omega
    exact hhas
  · intro h
    exact ⟨uid, by simp, huid, h⟩

/-- A draft is not chained when it is pushed and its fields begin with a uid and the last tag. -/
theorem isNonChained_draftOf_iff {gs : List ReadField} (wf : WellFormed gs) :
    isNonChained (draftOf .standard e m gs) = true ↔
      (draftOf .standard e m gs).atom.kind = .pushed ∧ ∃ uid tag rest, gs = uid :: tag :: rest ∧
        uid.type = .int32 ∧ uid.Has .isUid ∧ tag.tag? = some tag.field.number ∧
        ∀ g ∈ rest, g.tag? = none := by
  simp only [isNonChained, Bool.and_eq_true, beq_iff_eq, and_assoc]
  refine and_congr_right (fun _ => ?_)
  cases gs with
  | nil => simp [Atom.field?, draftOf_fields]
  | cons uid gs =>
    cases gs with
    | nil => simp [Atom.field?, draftOf_fields]
    | cons tag rest =>
      rw [draftOf_uidField_eq_one wf, draftOf_tagField_eq_two wf]
      simp only [Atom.field?, draftOf_fields]
      constructor
      · intro h
        obtain ⟨hhas, ⟨htag, hrest⟩, htype, -⟩ := h
        exact ⟨uid, tag, rest, rfl, by simpa using htype, hhas, htag, hrest⟩
      · intro h
        obtain ⟨_, _, _, hsplit, htype, hhas, htag, hrest⟩ := h
        obtain ⟨rfl, htail⟩ := List.cons.inj hsplit
        obtain ⟨rfl, rfl⟩ := List.cons.inj htail
        have hstring := (ReadField.tag?_eq_some htag).2
        exact ⟨hhas, ⟨htag, hrest⟩, by simpa using htype, by simpa using hstring⟩

variable {s : Schema}

/-- A collated atom is not chained just when it is pushed, its first field is an int32 uid and its
second a string tag, and no string behind them is a tag. -/
theorem collateEntry_nonChained_iff {a : Atom} (h : collateEntry .standard s e = .ok a) :
    ∃ m, s.message? e.message = some m ∧ (a.nonChained = true ↔
      a.kind = .pushed ∧ LeadingTag s.wellKnown (sortFields m.fields) ∧
        ∀ f ∈ (sortFields m.fields).drop 2, ¬f.IsTag s.wellKnown) := by
  obtain ⟨m, gs, hm, hmap, hgs, wf, rfl⟩ := wellFormed_of_collateEntry h
  refine ⟨m, hm, (isNonChained_draftOf_iff wf).trans (and_congr_right fun _ => ?_)⟩
  rw [← hmap]
  have htag : ∀ g ∈ gs, (g.tag? = some g.field.number ↔ g.field.IsTag s.wellKnown) :=
    fun g hg => (hgs g hg).isTag_iff.symm
  have hnone : ∀ g ∈ gs, (g.tag? = none ↔ ¬g.field.IsTag s.wellKnown) := by
    intro g hg
    rw [← htag g hg, ReadField.tag?]
    split <;> simp
  constructor
  · intro h
    obtain ⟨uid, tag, rest, rfl, htype, hhas, hmarked, hrest⟩ := h
    refine ⟨⟨uid.field, tag.field, rest.map ReadField.field, rfl, ?_, ?_, ?_⟩, ?_⟩
    · exact ((hgs uid (by simp)).logs_iff _).2 htype
    · exact ((hgs uid (by simp)).carries_iff _).2 hhas
    · exact (htag tag (by simp)).1 hmarked
    · intro f hf
      obtain ⟨g, hg, rfl⟩ := List.mem_map.1 (show f ∈ rest.map ReadField.field from hf)
      exact (hnone g (by simp [hg])).1 (hrest g hg)
  · intro h
    obtain ⟨⟨_, _, _, hsplit, htype, hhas, hmarked⟩, hrest⟩ := h
    obtain ⟨uid, _, rfl, rfl, htail⟩ := List.map_eq_cons_iff.1 hsplit
    obtain ⟨tag, rest, rfl, rfl, rfl⟩ := List.map_eq_cons_iff.1 htail
    refine ⟨uid, tag, rest, rfl, ?_, ?_, (htag tag (by simp)).2 hmarked, ?_⟩
    · exact ((hgs uid (by simp)).logs_iff _).1 htype
    · exact ((hgs uid (by simp)).carries_iff _).1 hhas
    · intro g hg
      exact (hnone g (by simp [hg])).2 (hrest g.field (List.mem_map_of_mem hg))

end Entries

/-- A transfer to a peer, which may be marked as a tag as well. -/
def transferMessage (marked : Bool) : Message where
  name := "Transfer"
  fields :=
    let mark : List RawOption := [⟨.name "attribution_tag", .bool true⟩]
    [{ name := "uid", number := 1, kind := .int32, options := [⟨.name "is_uid", .bool true⟩] },
      { name := "tag", number := 2, kind := .string, options := mark },
      { name := "peer", number := 3, kind := .string, options := if marked then mark else [] }]

def transferEntry : Entry where
  name := "transfer"
  code := 90
  message := "Transfer"

def transferSchema (marked : Bool) : Schema where
  container := "Atom"
  entries := [transferEntry]
  messages := .ofList [("Transfer", transferMessage marked)]

theorem transfer_leadingTag (marked : Bool) :
    LeadingTag (transferSchema marked).wellKnown (sortFields (transferMessage marked).fields) := by
  have hsort : sortFields (transferMessage marked).fields = (transferMessage marked).fields := by
    cases marked <;> exact sortFields_of_sorted (by decide)
  rw [hsort]
  refine ⟨_, _, _, rfl, rfl, ⟨⟨.isUid, .bool true⟩, ?_, rfl⟩, rfl, ?_⟩
  · decide +kernel
  · decide +kernel

theorem transfer_collated (marked : Bool) :
    (transferSchema marked).message? transferEntry.message = some (transferMessage marked) ∧
    (collate .standard (transferSchema marked)).errors = [] ∧
      ∃ a, collateEntry .standard (transferSchema marked) transferEntry = .ok a ∧
        a.kind = .pushed ∧ a.nonChained = !marked := by
  have hm : (transferSchema marked).message? transferEntry.message =
      some (transferMessage marked) := by
    cases marked <;> decide +kernel
  have hcolumns : ∃ a ∈ (collateEntry .standard (transferSchema marked) transferEntry).toOption,
      a.kind = .pushed ∧ a.nonChained = !marked := by
    rw [collateEntry_of_sorted hm (by cases marked <;> decide)]
    cases marked <;> decide +kernel
  obtain ⟨a, ha, hcolumns⟩ := hcolumns
  have ha := toOption_eq_some.1 ha
  have hnode : collateAttribution .standard (transferSchema marked) = .ok builtinAttribution := by
    cases marked <;> rfl
  exact ⟨hm, (collate_of_entry _ _ rfl ha hnode).1, a, ha, hcolumns⟩

theorem collateEntry_nonChained_transfer :
    ∃ a m, collateEntry .standard (transferSchema false) transferEntry = .ok a ∧
      (transferSchema false).message? transferEntry.message = some m ∧ a.nonChained = true ∧
      a.kind = .pushed ∧ LeadingTag (transferSchema false).wellKnown (sortFields m.fields) ∧
      ∀ f ∈ (sortFields m.fields).drop 2, ¬f.IsTag (transferSchema false).wellKnown := by
  obtain ⟨-, -, a, ha, hkind, hflat⟩ := transfer_collated false
  obtain ⟨m, hm, hiff⟩ := collateEntry_nonChained_iff ha
  exact ⟨a, m, ha, hm, hflat, hiff.1 hflat⟩

/-- A transfer to a peer that is marked begins with a uid and a tag, but does not count as not
chained. -/
theorem not_nonChained_of_leadingTag :
    (collate .standard (transferSchema true)).errors = [] ∧
    ¬∀ e a m, collateEntry .standard (transferSchema true) e = .ok a →
      (transferSchema true).message? e.message = some m →
      (a.nonChained = true ↔
        a.kind = .pushed ∧ LeadingTag (transferSchema true).wellKnown (sortFields m.fields)) := by
  obtain ⟨hm, clean, a, ha, hkind, hflat⟩ := transfer_collated true
  refine ⟨clean, ?_⟩
  intro h
  have flat := (h _ a _ ha hm).2 ⟨hkind, transfer_leadingTag true⟩
  rw [hflat] at flat
  cases flat

end Collation

end AtomLog
