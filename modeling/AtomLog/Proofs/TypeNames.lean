import AtomLog.Proofs.Lookups
import AtomLog.Schema.Basic
import AtomLog.Text.Bytes
import AtomLog.Text.Split
import Mathlib.Data.List.Basic
import Mathlib.Data.List.DropRight
/-!
References to message types, component by component.

A name is cut at its dots. Main statement: a reference stands for the names whose last components it
has, and a schema finds under a name the message with that name, else the first one that the name is
short for or that is short for the name (`TypeName.refers_by_components`).
-/
namespace AtomLog

/-! ### Names as components -/

theorem Text.splitChars_eq_splitOn (sep : Char) (cs : List Char) :
    splitChars sep cs = cs.splitOn sep := by
  induction cs with
  | nil => rfl
  | cons c cs ih =>
    have hcons : (c :: cs).splitOn sep =
        if c == sep then [] :: cs.splitOn sep else (cs.splitOn sep).modifyHead (List.cons c) :=
      List.splitOnP_cons_eq_if_modifyHead c cs
    rw [splitChars, ih, hcons]
    cases hsplit : cs.splitOn sep with
    | nil => exact absurd hsplit (List.splitOnP_ne_nil _ _)
    | cons p ps => rfl

section Lists

variable {α : Type} [BEq α] [LawfulBEq α] {sep : α} {xs ys : List α}

theorem splitOn_injective (h : xs.splitOn sep = ys.splitOn sep) : xs = ys := by
  have hjoined := congrArg [sep].intercalate h
  rwa [List.intercalate_splitOn, List.intercalate_splitOn] at hjoined

theorem splitOn_append_cons (xs ys : List α) :
    (xs ++ sep :: ys).splitOn sep = xs.splitOn sep ++ ys.splitOn sep :=
  List.splitOnP_append_cons xs ys (beq_self_eq_true sep)

omit [BEq α] [LawfulBEq α] in
theorem exists_intercalate_append {ps qs : List (List α)} (hp : ps ≠ []) (hq : qs ≠ []) :
    ∃ zs, [sep].intercalate (ps ++ qs) = zs ++ sep :: [sep].intercalate qs := by
  induction ps with
  | nil => exact absurd rfl hp
  | cons p ps ih =>
    cases ps with
    | nil =>
      refine ⟨p, ?_⟩
      rw [List.singleton_append, List.intercalate_cons_of_ne_nil hq]
      simp
    | cons p' ps =>
      obtain ⟨zs, hzs⟩ := ih (by simp)
      refine ⟨p ++ sep :: zs, ?_⟩
      rw [List.cons_append, List.intercalate_cons_of_ne_nil (by simp), hzs]
      simp

/-- The last pieces of a list are those of the list itself or of what follows a separator in it. -/
theorem splitOn_suffix_iff :
    ys.splitOn sep <:+ xs.splitOn sep ↔ xs = ys ∨ (sep :: ys) <:+ xs := by
  constructor
  · intro h
    obtain ⟨ps, hps⟩ := h
    by_cases hnil : ps = []
    · subst hnil
      exact .inl (splitOn_injective hps).symm
    · have hys : ys.splitOn sep ≠ [] := List.splitOnP_ne_nil _ _
      obtain ⟨zs, hzs⟩ : ∃ zs, [sep].intercalate (ps ++ ys.splitOn sep) =
          zs ++ sep :: [sep].intercalate (ys.splitOn sep) := exists_intercalate_append hnil hys
      rw [hps, List.intercalate_splitOn, List.intercalate_splitOn] at hzs
      exact .inr ⟨zs, hzs.symm⟩
  · intro h
    rcases h with rfl | ⟨zs, rfl⟩
    · exact List.suffix_rfl
    · rw [splitOn_append_cons]
      exact List.suffix_append _ _

end Lists

namespace TypeName

/-- The parts of a name between its dots, leading dots left out. -/
def components (name : String) : List String := Text.split '.' (undotted name)

/-- Whether the components of one of two names are the last components of the other. -/
def Akin (key name : String) : Prop :=
  components name <:+ components key ∨ components key <:+ components name

theorem components_eq (name : String) :
    components name = ((undot name.toList).splitOn '.').map String.ofList := by
  rw [components, Text.split, Text.splitChars_eq_splitOn, undotted, String.toList_ofList]

theorem components_suffix_iff {name short : String} : components short <:+ components name ↔
    (undot short.toList).splitOn '.' <:+ (undot name.toList).splitOn '.' := by
  rw [components_eq, components_eq]
  constructor
  · intro h
    obtain ⟨ps, hps, heq⟩ := List.suffix_map_iff.1 h
    obtain rfl := List.map_injective_iff.2 (fun _ _ h => String.ofList_injective h) heq
    exact hps
  · intro h
    exact h.map String.ofList

theorem components_undotted (name : String) : components (undotted name) = components name := by
  have hundot : undot (undot name.toList) = undot name.toList := List.dropWhile_idempotent _ _
  rw [components_eq, components_eq, undotted, String.toList_ofList, hundot]

/-! ### What a reference stands for -/

theorem refersTo_eq_true {name short : String} : refersTo name short = true ↔
    undot name.toList = undot short.toList ∨ ('.' :: undot short.toList) <:+ undot name.toList := by
  simp [refersTo]

theorem refersTo_iff {name short : String} :
    refersTo name short = true ↔ components short <:+ components name := by
  rw [refersTo_eq_true, components_suffix_iff, splitOn_suffix_iff]

/-- A name that ends in the text of a reference is referred to only where that text begins it or
stands behind a dot. -/
theorem refersTo_of_ends {name short : String} {front : List Char}
    (h : undot name.toList = front ++ undot short.toList) :
    refersTo name short = true ↔ front = [] ∨ front.getLast? = some '.' := by
  rw [refersTo_eq_true, h]
  constructor
  · intro h
    rcases h with h | ⟨zs, h⟩
    · exact .inl (List.self_eq_append_left.1 h.symm)
    · have hfront : zs ++ ['.'] = front := by
        have hsame : zs ++ ['.'] ++ undot short.toList = front ++ undot short.toList := by
          simpa using h
        exact List.append_cancel_right hsame
      exact .inr (by simp [← hfront])
  · intro h
    rcases h with rfl | h
    · exact .inl rfl
    · obtain ⟨zs, rfl⟩ := List.getLast?_eq_some_iff.1 h
      exact .inr ⟨zs, by simp⟩

end TypeName

/-! ### What a schema finds under a name -/

namespace SortedMap

variable {κ α : Type} [Ord κ] [Std.TransOrd κ] [Std.LawfulEqOrd κ]

/-- The first entry of a map that passes a test is the one with the least key of those that do. -/
theorem find?_entries_eq_some {m : SortedMap κ α} {p : κ × α → Bool} {e : κ × α} :
    m.entries.find? p = some e ↔ e ∈ m.entries ∧ p e = true ∧
      ∀ d ∈ m.entries, p d = true → compare d.1 e.1 ≠ .lt := by
  rw [List.find?_eq_some_iff_append]
  constructor
  · intro h
    obtain ⟨hp, before, after, hentries, hbefore⟩ := h
    have ascending := m.ascending
    rw [hentries] at ascending
    refine ⟨by simp [hentries], hp, ?_⟩
    intro d hd hpd hlt
    rw [hentries, List.mem_append, List.mem_cons] at hd
    rcases hd with hd | rfl | hd
    · simpa [hpd] using hbefore d hd
    · simp at hlt
    · have hgt := (List.pairwise_cons.1 (List.pairwise_append.1 ascending).2.1).1 d hd
      exact absurd (Std.TransCmp.lt_trans hgt hlt) (by simp)
  · intro h
    obtain ⟨he, hp, least⟩ := h
    obtain ⟨before, after, hentries⟩ := List.append_of_mem he
    have ascending := m.ascending
    rw [hentries] at ascending
    refine ⟨hp, before, after, hentries, ?_⟩
    intro d hd
    have hlt := (List.pairwise_append.1 ascending).2.2 d hd e (by simp)
    have hnot := least d (by simp [hentries, hd])
    cases hpd : p d with
    | false => rfl
    | true => exact absurd hlt (hnot hpd)

end SortedMap

namespace Schema

theorem related_iff {key name : String} :
    related key (TypeName.undotted name) = true ↔ TypeName.Akin key name := by
  rw [related, Bool.or_eq_true, TypeName.refersTo_iff, TypeName.refersTo_iff,
    TypeName.components_undotted, TypeName.Akin]

variable {s : Schema} {name : String}

theorem message?_of_exact {m : Message} (h : s.messages.get? (TypeName.undotted name) = some m) :
    s.message? name = some m := by
  simp only [message?, h]

/-- Without a message of the very name, the akin one with the least key is found. -/
theorem message?_eq_some_of_akin (h : s.messages.get? (TypeName.undotted name) = none)
    {m : Message} : s.message? name = some m ↔
      ∃ key, s.messages.get? key = some m ∧ TypeName.Akin key name ∧
        ∀ key' m', s.messages.get? key' = some m' → TypeName.Akin key' name →
          Text.bytes key ≤ Text.bytes key' := by
  simp only [message?, h, Option.map_eq_some_iff, SortedMap.find?_entries_eq_some, related_iff,
    Prod.exists, Prod.forall, SortedMap.mem_entries_iff, Text.bytes_le_iff]
  constructor
  · intro h
    obtain ⟨key, _, ⟨hkey, hakin, least⟩, rfl⟩ := h
    exact ⟨key, hkey, hakin, least⟩
  · intro h
    obtain ⟨key, hkey, hakin, least⟩ := h
    exact ⟨key, m, ⟨hkey, hakin, least⟩, rfl⟩

theorem message?_eq_none_iff : s.message? name = none ↔
    ∀ key m, s.messages.get? key = some m → ¬TypeName.Akin key name := by
  cases hexact : s.messages.get? (TypeName.undotted name) with
  | some m =>
    rw [message?_of_exact hexact]
    have hakin : TypeName.Akin (TypeName.undotted name) name :=
      .inl (by simp only [TypeName.components_undotted, List.suffix_rfl])
    constructor
    · intro h
      cases h
    · intro h
      exact absurd hakin (h _ m hexact)
  | none =>
    simp only [message?, hexact, Option.map_eq_none_iff, List.find?_eq_none, related_iff,
      Prod.forall, SortedMap.mem_entries_iff]

end Schema

namespace TypeName

/-- A reference stands for the names whose last components it has: for a name itself, for what a
name that it stands for stands for, and never for a name that has it inside a component. Under a
name a schema finds the message of that name without leading dots, else of those whose keys are
short for it or that it is short for the one whose key has the least bytes, and nothing only if
there are none. -/
theorem refers_by_components :
    (∀ name short, refersTo name short = true ↔ components short <:+ components name) ∧
    (∀ name, refersTo name name = true) ∧
    (∀ a b c, refersTo a b = true → refersTo b c = true → refersTo a c = true) ∧
    (∀ name short front, undot name.toList = front ++ undot short.toList →
      (refersTo name short = true ↔ front = [] ∨ front.getLast? = some '.')) ∧
    ∀ (s : Schema) (name : String),
      (∀ m, s.messages.get? (undotted name) = some m → s.message? name = some m) ∧
      (s.messages.get? (undotted name) = none → ∀ m, s.message? name = some m ↔
        ∃ key, s.messages.get? key = some m ∧ Akin key name ∧
          ∀ key' m', s.messages.get? key' = some m' → Akin key' name →
            Text.bytes key ≤ Text.bytes key') ∧
      (s.message? name = none ↔ ∀ key m, s.messages.get? key = some m → ¬Akin key name) := by
  refine ⟨fun _ _ => refersTo_iff, ?_, ?_, fun _ _ _ => refersTo_of_ends, ?_⟩
  · intro name
    exact refersTo_iff.2 List.suffix_rfl
  · intro a b c hab hbc
    exact refersTo_iff.2 ((refersTo_iff.1 hbc).trans (refersTo_iff.1 hab))
  · intro s name
    exact ⟨fun _ => Schema.message?_of_exact, fun h _ => Schema.message?_eq_some_of_akin h,
      Schema.message?_eq_none_iff⟩

/-- Two messages that a door may stand for, and one whose name only begins like it. -/
def doorSchema : Schema where
  container := "Atom"
  messages := .ofList
    [("log.Door", { name := "log.Door" }), ("Doorbell", { name := "Doorbell" }),
      ("app.Door", { name := "app.Door" })]

theorem refers_by_components_door :
    refersTo "app.log.Door" "Door" = true ∧ refersTo "app.Trapdoor" "door" = false ∧
    doorSchema.messages.get? (undotted ".Door") = none ∧
    doorSchema.message? ".Door" = some { name := "app.Door" } ∧
    ∃ key, Akin key ".Door" ∧ Text.bytes key ≤ Text.bytes "log.Door" := by
  obtain ⟨-, -, trans, inside, finds⟩ := refers_by_components
  have hnone : doorSchema.messages.get? (undotted ".Door") = none := by decide +kernel
  have hfound : doorSchema.message? ".Door" = some { name := "app.Door" } := by decide +kernel
  have htrapdoor : ¬refersTo "app.Trapdoor" "door" = true := by
    rw [inside "app.Trapdoor" "door" "app.Trap".toList (by decide +kernel)]
    decide +kernel
  refine ⟨trans _ "log.Door" _ (by decide +kernel) (by decide +kernel),
    Bool.eq_false_iff.2 htrapdoor, hnone, hfound, ?_⟩
  obtain ⟨-, akin, -⟩ := finds doorSchema ".Door"
  obtain ⟨key, -, hakin, least⟩ := (akin hnone _).1 hfound
  have hlog : Akin "log.Door" ".Door" := .inl (refersTo_iff.1 (by decide +kernel))
  exact ⟨key, hakin, least "log.Door" { name := "log.Door" } (by decide +kernel) hlog⟩

end TypeName

end AtomLog
