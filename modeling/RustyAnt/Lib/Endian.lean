import Mathlib.Data.List.Basic
import Mathlib.Data.Nat.Notation
import Mathlib.Algebra.Order.Ring.Nat
import Mathlib.Algebra.Order.Ring.Int
import Mathlib.Tactic.Ring
import Mathlib.Tactic.Positivity
import Mathlib.Tactic.Zify

/-!
# Fixed-width integers as bytes

`to_le_bytes`, `to_be_bytes` and their inverses for integers of `k` bytes, and the
two's complement reading of an unsigned field.
-/

namespace RustyAnt.Lib.Endian

/-- The `k` low bytes of `n`, least significant first. -/
def leBytes : (k n : Nat) → List UInt8
  | 0, _ => []
  | k + 1, n => UInt8.ofNat (n % 256) :: leBytes k (n / 256)

/-- Value of a little-endian field. -/
def leNat : List UInt8 → Nat
  | [] => 0
  | b :: bs => b.toNat + 256 * leNat bs

def beBytes (k n : Nat) : List UInt8 := (leBytes k n).reverse

def beNat (bs : List UInt8) : Nat := leNat bs.reverse

@[simp] theorem length_leBytes (k n : Nat) : (leBytes k n).length = k := by
  induction k generalizing n with
  | zero => rfl
  | succ k ih => simp [leBytes, ih]

@[simp] theorem length_beBytes (k n : Nat) : (beBytes k n).length = k := by
  simp [beBytes]

theorem leNat_leBytes (k n : Nat) : leNat (leBytes k n) = n % 256 ^ k := by
  induction k generalizing n with
  | zero => simp [leBytes, leNat, Nat.mod_one]
  | succ k ih =>
      have hb : (UInt8.ofNat (n % 256)).toNat = n % 256 := by
        rw [UInt8.toNat_ofNat']
        omega
      have hpow : 256 ^ (k + 1) = 256 * 256 ^ k := by ring
      rw [leBytes, leNat, ih, hb, hpow, Nat.mod_mul]

theorem beNat_beBytes (k n : Nat) : beNat (beBytes k n) = n % 256 ^ k := by
  rw [beNat, beBytes, List.reverse_reverse, leNat_leBytes]

theorem leNat_lt (bs : List UInt8) : leNat bs < 256 ^ bs.length := by
  induction bs with
  | nil => simp [leNat]
  | cons b bs ih =>
      have hb := b.toNat_lt
      have hpow : 256 ^ (b :: bs).length = 256 * 256 ^ bs.length := by
        rw [List.length_cons]
        ring
      rw [leNat, hpow]
      omega

/-! ## Two's complement -/

/-- The unsigned field of `w` bits that holds `n`: `n as uW`. -/
def wrapBits (w : Nat) (n : Int) : Nat := (n % 2 ^ w).toNat

/-- The signed reading of a field of `w` bits. -/
def signed (w v : Nat) : Int := if v < 2 ^ (w - 1) then v else v - 2 ^ w

theorem wrapBits_lt (w : Nat) (n : Int) : wrapBits w n < 2 ^ w := by
  unfold wrapBits
  have hpos : (0 : Int) < 2 ^ w := by positivity
  have hlt := Int.emod_lt_of_pos n hpos
  have hnonneg := Int.emod_nonneg n hpos.ne'
  zify
  rw [Int.toNat_of_nonneg hnonneg]
  exact hlt

theorem signed_wrapBits {w : Nat} (hw : 0 < w) {n : Int} (hmin : -2 ^ (w - 1) ≤ n)
    (hmax : n < 2 ^ (w - 1)) : signed w (wrapBits w n) = n := by
  obtain ⟨k, rfl⟩ : ∃ k, w = k + 1 := ⟨w - 1, by omega⟩
  simp only [Nat.add_sub_cancel] at hmin hmax
  have hpow : (2 : Int) ^ (k + 1) = 2 * 2 ^ k := by ring
  have hpos : (0 : Int) < 2 ^ k := by positivity
  unfold signed wrapBits
  rw [hpow, Nat.add_sub_cancel]
  by_cases hn : 0 ≤ n
  · have hmod : n % (2 * 2 ^ k) = n := Int.emod_eq_of_lt hn (by omega)
    rw [hmod]
    have hlt : n.toNat < 2 ^ k := by
      zify
      rw [Int.toNat_of_nonneg hn]
      exact hmax
    rw [if_pos hlt, Int.toNat_of_nonneg hn]
  · have hmod : n % (2 * 2 ^ k) = n + 2 * 2 ^ k := by
      rw [← Int.add_emod_right, Int.emod_eq_of_lt (by omega) (by omega)]
    have hnonneg : 0 ≤ n + 2 * 2 ^ k := by omega
    rw [hmod]
    have hge : ¬ (n + 2 * 2 ^ k).toNat < 2 ^ k := by
      intro hlt
      zify at hlt
      rw [Int.toNat_of_nonneg hnonneg] at hlt
      omega
    rw [if_neg hge, Int.toNat_of_nonneg hnonneg]
    ring

end RustyAnt.Lib.Endian
