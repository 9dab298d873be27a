import Mathlib.Data.String.Basic
import Mathlib.Tactic.SplitIfs

/-!
The order of strings. Strings are compared character by character. That is the same as to compare
the bytes of their UTF-8 encodings one by one.
-/
namespace SubscriptionGateway.Text

def bytes (s : String) : List UInt8 := s.toUTF8.data.toList

theorem bytes_eq (s : String) : bytes s = s.toList.flatMap String.utf8EncodeChar := by
  obtain ⟨cs, rfl⟩ : ∃ cs, String.ofList cs = s := ⟨s.toList, String.ofList_toList⟩
  simp [bytes, List.utf8Encode]

/-- The encoding of the lower character is the lower one, whatever comes after the two. -/
theorem encode_lt {c d : Char} (less : c < d) (more rest : List UInt8) :
    String.utf8EncodeChar c ++ more < String.utf8EncodeChar d ++ rest := by
  have below : c.val.toNat < d.val.toNat := less
  have high : d.val.toNat < 0x110000 := by
    have valid := d.valid
    simp only [UInt32.isValidChar, Nat.isValidChar] at valid
    omega
  simp only [String.utf8EncodeChar]
  generalize c.val.toNat = v at below ⊢
  generalize d.val.toNat = w at below high ⊢
  have upper (n : Nat) : n / 4096 = n / 64 / 64 := by omega
  have top (n : Nat) : n / 262144 = n / 64 / 64 / 64 := by omega
  -- The first byte tells how many there are, so encodings of two lengths differ in it.
  split_ifs <;>
    simp only [List.cons_append, List.nil_append, List.cons_lt_cons_iff, UInt8.lt_iff_toNat_lt,
      ← UInt8.toNat_inj, UInt8.toNat_ofNat', upper, top] <;>
    simp (disch := omega) only [Nat.mod_eq_of_lt] <;>
    omega

theorem flatMap_encode_lt {cs ds : List Char} (less : cs < ds) :
    cs.flatMap String.utf8EncodeChar < ds.flatMap String.utf8EncodeChar := by
  induction less with
  | @nil d ds =>
    obtain ⟨byte, more, shape⟩ := List.exists_cons_of_ne_nil (String.utf8EncodeChar_ne_nil (c := d))
    rw [List.flatMap_nil, List.flatMap_cons, shape]
    exact List.Lex.nil
  | cons _ ih => exact List.append_left_lt ih
  | rel less => exact encode_lt less _ _

theorem bytes_lt_iff {s t : String} : bytes s < bytes t ↔ s < t := by
  have mono {s t : String} (less : s < t) : bytes s < bytes t := by
    rw [bytes_eq, bytes_eq]
    exact flatMap_encode_lt less
  refine ⟨fun less => ?_, mono⟩
  rcases lt_trichotomy s t with below | rfl | above
  · exact below
  · exact absurd less (List.lt_irrefl _)
  · exact absurd less (List.lt_asymm (mono above))

end SubscriptionGateway.Text
