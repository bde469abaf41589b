import Mathlib.Algebra.Group.Nat.Defs
import Mathlib.Data.Nat.Basic

/-!
# Digits of a fixed width

Texts of a number to a base of at most 16, padded with zeros in front: the number can be read
off again, and if it fits, the text has the width.
-/

namespace RustyAnt.Lib.Radix

variable {b n : Nat}

def digitValue (c : Char) : Nat := (List.range 16).findIdx fun d => d.digitChar = c

theorem digitValue_digitChar {d : Nat} (h : d < 16) : digitValue d.digitChar = d := by
  revert d
  decide

/-- The number that stands behind `init` and these digits. -/
def value (b init : Nat) (cs : List Char) : Nat :=
  cs.foldl (fun n c => b * n + digitValue c) init

theorem value_append (b init : Nat) (cs ds : List Char) :
    value b init (cs ++ ds) = value b (value b init cs) ds := List.foldl_append

theorem value_zeros (b k : Nat) : value b 0 (List.replicate k '0') = 0 := by
  induction k with
  | zero => rfl
  | succ k ih => exact ih

theorem value_toDigits (hb : 1 < b) (hhex : b ≤ 16) (n : Nat) : value b 0 (Nat.toDigits b n) = n := by
  induction n using Nat.strongRecOn with
  | ind n ih =>
      rw [Nat.toDigits_eq_if hb]
      by_cases hn : n < b
      · rw [if_pos hn]
        show b * 0 + digitValue n.digitChar = n
        rw [digitValue_digitChar (by omega), Nat.mul_zero, Nat.zero_add]
      · have hless : n / b < n := Nat.div_lt_self (by omega) hb
        have hdigit : n % b < b := Nat.mod_lt n (by omega)
        rw [if_neg hn, value_append, ih _ hless]
        show b * (n / b) + digitValue (n % b).digitChar = n
        rw [digitValue_digitChar (by omega)]
        exact Nat.div_add_mod n b

/-- The digits of a number with zeros in front. -/
def padded (b width n : Nat) : List Char :=
  List.replicate (width - (Nat.toDigits b n).length) '0' ++ Nat.toDigits b n

theorem value_padded (hb : 1 < b) (hhex : b ≤ 16) (width n : Nat) :
    value b 0 (padded b width n) = n := by
  rw [padded, value_append, value_zeros, value_toDigits hb hhex]

theorem padded_injective (hb : 1 < b) (hhex : b ≤ 16) (width : Nat) :
    Function.Injective (padded b width) :=
  Function.LeftInverse.injective (g := value b 0) (value_padded hb hhex width)

theorem length_padded (hb : 1 < b) {width : Nat} (hwidth : 0 < width) (hn : n < b ^ width) :
    (padded b width n).length = width := by
  have hfits := (Nat.length_toDigits_le_iff hb hwidth).mpr hn
  rw [padded, List.length_append, List.length_replicate]
  omega

end RustyAnt.Lib.Radix
