import AtomLog.Proofs.Constants
import AtomLog.Signature
/-!
Names of signatures.

The name of a signature joins the names of its types by double underscores. No name of a type holds
one or ends in an underscore, though some hold single ones and some begin others, so each ends where
the next double underscore begins. Main statement: different signatures have different names
(`Signature.mangledName_injective`).
-/
namespace AtomLog

namespace Naming

variable {a : String}

/-- A name that can be told from a double underscore after it holds none. -/
theorem Separable.ne_append (ha : Separable a) (b v : String) : a ≠ b ++ ("__" ++ v) := by
  rintro rfl
  exact ha.single ⟨b.toList, v.toList, by simp⟩

/-- Names are read back from the text that joins them. -/
theorem intercalate_injOn {ns ms : List String} (hns : ∀ n ∈ ns, Separable n)
    (hms : ∀ m ∈ ms, Separable m) (nonempty : ns ≠ []) (nonempty' : ms ≠ [])
    (h : String.intercalate "__" ns = String.intercalate "__" ms) : ns = ms := by
  induction ns generalizing ms with
  | nil => exact absurd rfl nonempty
  | cons n ns ih =>
    obtain ⟨hn, hns'⟩ := List.forall_mem_cons.1 hns
    cases ms with
    | nil => exact absurd rfl nonempty'
    | cons m ms =>
      obtain ⟨hm, hms'⟩ := List.forall_mem_cons.1 hms
      by_cases hrest : ns = [] <;> by_cases hrest' : ms = []
      · subst hrest hrest'
        rw [String.intercalate_singleton, String.intercalate_singleton] at h
        rw [h]
      · subst hrest
        rw [String.intercalate_singleton, String.intercalate_cons_of_ne_nil hrest',
          String.append_assoc] at h
        exact absurd h (hn.ne_append _ _)
      · subst hrest'
        rw [String.intercalate_singleton, String.intercalate_cons_of_ne_nil hrest,
          String.append_assoc] at h
        exact absurd h.symm (hm.ne_append _ _)
      · rw [String.intercalate_cons_of_ne_nil hrest, String.intercalate_cons_of_ne_nil hrest',
          String.append_assoc, String.append_assoc] at h
        obtain ⟨rfl, htail⟩ := hn.append_inj hm h
        rw [ih hns' hms' hrest hrest' htail]

end Naming

open Naming (Separable)

namespace FieldType

theorem separable_name (t : FieldType) : Separable t.name := by
  revert t
  decide +kernel

theorem name_injective : Function.Injective name := by
  unfold Function.Injective
  decide +kernel

theorem name_ne_void (t : FieldType) : t.name ≠ "void" := by
  revert t
  decide +kernel

end FieldType

namespace Signature

/-- The names that the name of a signature joins. -/
def parts (s : Signature) : List String :=
  if s.types.isEmpty then ["void"] else s.types.map FieldType.name

theorem mangledName_eq (s : Signature) : s.mangledName = String.intercalate "__" s.parts := by
  unfold mangledName parts
  split
  · rw [String.intercalate_singleton]
  · rfl

theorem parts_ne_nil (s : Signature) : s.parts ≠ [] := by
  unfold parts
  split
  · simp
  · next h => simpa using h

theorem separable_of_mem_parts {s : Signature} {n : String} (h : n ∈ s.parts) : Separable n := by
  unfold parts at h
  split at h
  · obtain rfl := List.mem_singleton.1 h
    decide +kernel
  · obtain ⟨t, -, rfl⟩ := List.mem_map.1 h
    exact t.separable_name

theorem parts_nil : parts ⟨[]⟩ = ["void"] := rfl

theorem parts_cons (t : FieldType) (ts : List FieldType) :
    parts ⟨t :: ts⟩ = t.name :: ts.map FieldType.name := rfl

/-- No type is named as the signature without types is. -/
theorem parts_injective : Function.Injective parts := by
  rintro ⟨ss⟩ ⟨ts⟩ h
  cases ss with
  | nil =>
    cases ts with
    | nil => rfl
    | cons t ts =>
      rw [parts_nil, parts_cons, List.cons.injEq] at h
      exact absurd h.1.symm t.name_ne_void
  | cons s ss =>
    cases ts with
    | nil =>
      rw [parts_nil, parts_cons, List.cons.injEq] at h
      exact absurd h.1 s.name_ne_void
    | cons t ts => exact congrArg mk (List.map_injective_iff.2 FieldType.name_injective h)

/-- Different signatures have different names, and none of those with types is named `void`. -/
theorem mangledName_injective : Function.Injective mangledName := by
  intro s t h
  rw [mangledName_eq, mangledName_eq] at h
  have hparts : s.parts = t.parts :=
    Naming.intercalate_injOn (fun _ => separable_of_mem_parts) (fun _ => separable_of_mem_parts)
      s.parts_ne_nil t.parts_ne_nil h
  exact parts_injective hparts

example : (ofTypes [.enum, .int32Array]).mangledName = "int32__int32_array" := by decide +kernel

end Signature

end AtomLog
