/-
The classes of the ASCII characters, by their code points, and what lowering
does to them.
-/

namespace AgentPlatform

namespace Ascii

theorem isUpper_iff {c : Char} : c.isUpper = true ↔ 65 ≤ c.toNat ∧ c.toNat ≤ 90 := decide_eq_true_iff

theorem isLower_iff {c : Char} : c.isLower = true ↔ 97 ≤ c.toNat ∧ c.toNat ≤ 122 :=
  Bool.and_eq_true_iff.trans (and_congr decide_eq_true_iff decide_eq_true_iff)

theorem isDigit_iff {c : Char} : c.isDigit = true ↔ 48 ≤ c.toNat ∧ c.toNat ≤ 57 :=
  Bool.and_eq_true_iff.trans (and_congr decide_eq_true_iff decide_eq_true_iff)

theorem isAlphanum_iff {c : Char} :
    c.isAlphanum = true ↔ (c.isUpper = true ∨ c.isLower = true) ∨ c.isDigit = true :=
  (Bool.or_eq_true_iff (x := c.isUpper || c.isLower)).trans (or_congr_left Bool.or_eq_true_iff)

theorem toLower_of_not_isUpper {c : Char} (h : ¬ c.isUpper = true) : c.toLower = c :=
  dif_neg fun hc => h (decide_eq_true hc)

theorem toNat_toLower {c : Char} (h : c.isUpper = true) : c.toLower.toNat = c.toNat + 32 := by
  have hrange := isUpper_iff.1 h
  have hlower : c.toLower.val = c.val + ('a'.val - 'A'.val) := congrArg Char.val (dif_pos (of_decide_eq_true h))
  rw [Char.toNat, hlower, UInt32.toNat_add]
  exact Nat.mod_eq_of_lt (show c.toNat + 32 < 2 ^ 32 by omega)

theorem isAlphanum_of_toLower {c : Char} (h : c.toLower.isAlphanum = true) : c.isAlphanum = true := by
  by_cases hupper : c.isUpper = true
  · exact isAlphanum_iff.2 (.inl (.inl hupper))
  · rwa [toLower_of_not_isUpper hupper] at h

theorem isAlphanum_range {c : Char} (h : c.isAlphanum = true) : 32 < c.toNat ∧ c.toNat < 127 := by
  rw [isAlphanum_iff, isUpper_iff, isLower_iff, isDigit_iff] at h
  omega

theorem isAlphanum_toLower {c : Char} (h : c.isAlphanum = true) : c.toLower.isAlphanum = true := by
  by_cases hupper : c.isUpper = true
  · have hrange := isUpper_iff.1 hupper
    have hval := toNat_toLower hupper
    exact isAlphanum_iff.2 (.inl (.inr (isLower_iff.2 (by omega))))
  · rwa [toLower_of_not_isUpper hupper]

end Ascii

end AgentPlatform
