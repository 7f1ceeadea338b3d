/-!
Texts as bytes.

`ofBytes?_bytes`: the bytes of a text read back as the text. `bytes_lt_iff`: texts are ordered as
their bytes are.
-/
namespace AtomLog.Text

/-- The bytes of a text in UTF-8. -/
def bytes (s : String) : List UInt8 := s.toUTF8.data.toList

/-- The text that bytes are in UTF-8, where they are one. -/
def ofBytes? (bs : List UInt8) : Option String := String.fromUTF8? ⟨bs.toArray⟩

theorem ofBytes?_bytes (s : String) : ofBytes? (bytes s) = some s := by
  unfold ofBytes? bytes String.fromUTF8?
  rw [Array.toArray_toList, String.toUTF8_eq_toByteArray, dif_pos s.isValidUTF8]
  rfl

theorem bytes_eq (s : String) : bytes s = s.toList.flatMap String.utf8EncodeChar := by
  conv => lhs; rw [← String.ofList_toList (s := s)]
  rw [bytes, String.toUTF8_eq_toByteArray, String.toByteArray_ofList, List.utf8Encode,
    List.toList_data_toByteArray]

/-- The bytes of two characters differ, and the first ones that do are ordered as the characters. -/
theorem utf8EncodeChar_lt {c d : Char} (h : c < d) (xs ys : List UInt8) :
    String.utf8EncodeChar c ++ xs < String.utf8EncodeChar d ++ ys := by
  have hlt : c.toNat < d.toNat := h
  have hd : d.toNat < 0x110000 := by
    rcases d.valid with hd | hd
    · exact Nat.lt_trans hd (by decide)
    · exact hd.2
  simp only [String.utf8EncodeChar, Char.toNat_val]
  generalize c.toNat = m at hlt
  generalize d.toNat = n at hlt hd
  -- every byte but the first holds six bits
  have hm : m / 4096 = m / 64 / 64 ∧ m / 262144 = m / 4096 / 64 := by omega
  have hn : n / 4096 = n / 64 / 64 ∧ n / 262144 = n / 4096 / 64 := by omega
  repeat' split
  all_goals
    simp only [List.cons_append, List.nil_append, List.cons_lt_cons_iff, UInt8.lt_iff_toNat_lt,
      ← UInt8.toNat_inj, UInt8.toNat_ofNat']
    simp (disch := omega) only [Nat.mod_eq_of_lt]
    omega

theorem flatMap_utf8EncodeChar_lt {cs ds : List Char} (h : cs < ds) :
    cs.flatMap String.utf8EncodeChar < ds.flatMap String.utf8EncodeChar := by
  induction h with
  | @nil d ds =>
    obtain ⟨b, bs, hb⟩ := List.exists_cons_of_ne_nil (String.utf8EncodeChar_ne_nil (c := d))
    simp [hb]
  | cons _ ih =>
    rw [List.flatMap_cons, List.flatMap_cons]
    exact List.append_left_lt ih
  | rel h =>
    rw [List.flatMap_cons, List.flatMap_cons]
    exact utf8EncodeChar_lt h _ _

theorem bytes_lt_of_lt {s t : String} (h : s < t) : bytes s < bytes t := by
  rw [bytes_eq, bytes_eq]
  exact flatMap_utf8EncodeChar_lt h

theorem bytes_lt_iff {s t : String} : bytes s < bytes t ↔ s < t := by
  refine ⟨?_, bytes_lt_of_lt⟩
  intro h
  refine Decidable.byContradiction (fun hle => ?_)
  by_cases heq : s = t
  · subst heq
    exact List.lt_irrefl _ h
  · have hlt : t < s := Decidable.byContradiction (fun hge => heq (String.le_antisymm hge hle))
    exact List.lt_asymm h (bytes_lt_of_lt hlt)

theorem bytes_le_iff {s t : String} : bytes s ≤ bytes t ↔ compare t s ≠ .lt := by
  have hlt : compare t s = .lt ↔ t < s := compareOfLessAndEq_eq_lt
  rw [Ne, hlt, ← bytes_lt_iff, List.not_lt]

end AtomLog.Text
