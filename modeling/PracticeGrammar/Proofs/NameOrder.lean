import Mathlib.Data.List.Lex
import PracticeGrammar.NameMap

/-! The order of names is the order of their octets in UTF-8. A character with a larger number
has larger octets, because each longer form begins with a larger octet. -/

namespace PracticeGrammar.Names

/-- The octets of a name in UTF-8. -/
def octets (name : String) : List UInt8 := name.toByteArray.data.toList

theorem octets_eq (name : String) : octets name = name.toList.flatMap String.utf8EncodeChar := by
  have written : name.toByteArray = name.toList.utf8Encode := by
    rw [← String.toByteArray_ofList, String.ofList_toList]
  rw [octets, written, List.utf8Encode, List.toList_data_toByteArray]

private theorem number_bound (char : Char) : char.val.toNat < 0x110000 := by
  have valid := char.valid
  simp only [UInt32.isValidChar, Nat.isValidChar] at valid
  omega

/-- Octets of characters compare like the characters, whatever follows them. -/
theorem encoded_lt {first second : Char} (below : first < second) (left right : List UInt8) :
    String.utf8EncodeChar first ++ left < String.utf8EncodeChar second ++ right := by
  have order : first.val.toNat < second.val.toNat := by
    simpa only [Char.lt_def, UInt32.lt_iff_toNat_lt] using below
  have bound := number_bound second
  unfold String.utf8EncodeChar
  dsimp only
  generalize first.val.toNat = m at *
  generalize second.val.toNat = n at *
  have leading : m / 262144 % 8 = m / 262144 ∧ n / 262144 % 8 = n / 262144 := by omega
  have upper : m / 262144 < n / 262144 ∨ m / 262144 = n / 262144 := by omega
  have middle : m / 4096 < n / 4096 ∨ m / 4096 = n / 4096 := by omega
  split_ifs <;> simp only [List.cons_append, List.nil_append, List.cons_lt_cons_iff,
    UInt8.lt_iff_toNat_lt, ← UInt8.toNat_inj, UInt8.toNat_ofNat']
  all_goals simp (disch := omega) only [Nat.mod_eq_of_lt (b := 2 ^ 8), leading]
  -- The first digits of the four-octet form are compared ahead: omega does not find them itself.
  all_goals rcases upper with upper | upper <;> rcases middle with middle | middle <;> omega

private theorem flatMap_lt {left right : List Char} (below : left < right) :
    left.flatMap String.utf8EncodeChar < right.flatMap String.utf8EncodeChar := by
  induction below with
  | @nil char rest =>
    have nonempty : (char :: rest).flatMap String.utf8EncodeChar ≠ [] := by
      simp [String.utf8EncodeChar_ne_nil]
    obtain ⟨octet, octets, same⟩ := List.exists_cons_of_ne_nil nonempty
    rw [same]
    exact List.Lex.nil
  | rel below => exact encoded_lt below _ _
  | cons below ih => exact List.append_left_lt ih

theorem lt_iff_octets_lt {left right : String} : left < right ↔ octets left < octets right := by
  have increasing {left right : String} (below : left < right) : octets left < octets right := by
    rw [octets_eq, octets_eq]
    exact flatMap_lt (String.lt_iff.mp below)
  refine ⟨increasing, fun below => ?_⟩
  by_contra notSmaller
  by_cases larger : right < left
  · exact List.lt_irrefl _ (List.lt_trans below (increasing larger))
  · cases Entries.eq_of_not_lt notSmaller larger
    exact List.lt_irrefl _ below

theorem le_iff_octets_le {left right : String} : left ≤ right ↔ octets left ≤ octets right := by
  rw [← String.not_lt, ← List.not_lt, lt_iff_octets_lt]

end PracticeGrammar.Names
