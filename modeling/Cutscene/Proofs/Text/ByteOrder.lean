import Mathlib.Data.String.Basic

/-!
# Texts in the order of their bytes

Texts are compared character by character, their encodings byte by byte. The encoding of a character
begins with a greater byte the longer it is, and encodings of one length are ordered as the digits
of the characters, so both orders are the same (`bytes_lt_iff`).
-/

namespace Cutscene.Text

/-- The bytes of a text. -/
def bytes (s : String) : List UInt8 := s.toUTF8.data.toList

theorem bytes_eq_flatMap (s : String) : bytes s = s.toList.flatMap String.utf8EncodeChar := by
  rw [bytes, String.toUTF8, ← String.utf8Encode_toList, List.utf8Encode, List.data_toByteArray]

theorem val_lt (c : Char) : c.val.toNat < 1114112 := by
  rcases c.valid with h | h
  · have : c.val.toNat < 55296 := h
    omega
  · exact h.2

/-- The encoding of a lesser character is less, whatever follows: neither of two encodings begins
the other. -/
theorem encodeChar_lt {c d : Char} (h : c < d) (r r' : List UInt8) :
    String.utf8EncodeChar c ++ r < String.utf8EncodeChar d ++ r' := by
  have hlt : c.val.toNat < d.val.toNat := h
  have hd := val_lt d
  have hbyte {k : Nat} (hk : k < 256) : (UInt8.ofNat k).toNat = k := UInt8.toNat_ofNat_of_lt hk
  unfold String.utf8EncodeChar
  generalize c.val.toNat = m at hlt
  generalize d.val.toNat = n at hlt hd
  -- Divided by 64 again and again, the digits are each bounded by the one before.
  have hthird (k : Nat) : k / 4096 = k / 64 / 64 := by omega
  have hfourth (k : Nat) : k / 262144 = k / 64 / 64 / 64 := by omega
  simp only [hthird, hfourth]
  split_ifs <;> simp only [List.cons_append, List.nil_append, List.cons_lt_cons_iff,
    UInt8.lt_iff_toNat_lt, ← UInt8.toNat_inj] <;>
    simp (disch := omega) only [hbyte] <;> omega

theorem bytes_lt_of_lt {s t : String} (h : s < t) : bytes s < bytes t := by
  rw [String.lt_iff_toList_lt] at h
  rw [bytes_eq_flatMap, bytes_eq_flatMap]
  generalize s.toList = cs at h
  generalize t.toList = ds at h
  induction cs generalizing ds with
  | nil =>
      cases ds with
      | nil => exact absurd h (lt_irrefl _)
      | cons d ds =>
          have hne : String.utf8EncodeChar d ≠ [] := by
            unfold String.utf8EncodeChar
            simp only
            split_ifs <;> simp
          rw [List.flatMap_nil, List.flatMap_cons]
          obtain ⟨b, bs, hbs⟩ := List.exists_cons_of_ne_nil hne
          rw [hbs]
          exact List.nil_lt_cons _ _
  | cons c cs ih =>
      cases ds with
      | nil => exact absurd h (List.not_lt_nil _)
      | cons d ds =>
          rw [List.flatMap_cons, List.flatMap_cons]
          rcases List.cons_lt_cons_iff.1 h with hlt | ⟨rfl, hrest⟩
          · exact encodeChar_lt hlt _ _
          · exact List.append_left_lt (ih ds hrest)

/-- Texts are in the order of their bytes. -/
theorem bytes_lt_iff {s t : String} : bytes s < bytes t ↔ s < t := by
  refine ⟨fun h => ?_, bytes_lt_of_lt⟩
  rcases lt_trichotomy s t with hlt | rfl | hgt
  · exact hlt
  · exact absurd h (List.lt_irrefl _)
  · exact absurd (List.lt_trans h (bytes_lt_of_lt hgt)) (List.lt_irrefl _)

end Cutscene.Text
