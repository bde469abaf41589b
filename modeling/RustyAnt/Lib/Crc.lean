import RustyAnt.Lib.Endian
import Mathlib.Data.BitVec
import Mathlib.Logic.Function.Iterate

/-!
# Reflected cyclic redundancy checks

A register of `w` bits takes the message in byte by byte, low bit first.  With the top bit of
the polynomial set no step loses anything: the register after a message tells the register
before it, and two messages of at most `w` bits that lead one register to the same end are
the same message.
-/

namespace RustyAnt.Lib.Crc

open Endian

variable {w : Nat} (poly : BitVec w)

/-- One bit leaves the register. -/
def shift (c : BitVec w) : BitVec w :=
  if c.getLsbD 0 then (c >>> 1) ^^^ poly else c >>> 1

def byte (c : BitVec w) (b : UInt8) : BitVec w :=
  (shift poly)^[8] (c ^^^ b.toBitVec.setWidth w)

/-- The register after a message. -/
def crc (c : BitVec w) (data : List UInt8) : BitVec w :=
  data.foldl (byte poly) c

theorem crc_append (c : BitVec w) (data rest : List UInt8) :
    crc poly c (data ++ rest) = crc poly (crc poly c data) rest := by
  unfold crc
  rw [List.foldl_append]

/-! ## What is above the bits that leave -/

theorem shiftLeft_shiftRight {y : BitVec w} {n : Nat} (hy : y.toNat * 2 ^ n < 2 ^ w) :
    (y <<< n) >>> n = y := by
  apply BitVec.eq_of_toNat_eq
  rw [BitVec.toNat_ushiftRight, BitVec.toNat_shiftLeft, Nat.shiftLeft_eq,
    Nat.mod_eq_of_lt hy, Nat.shiftRight_eq_div_pow]
  exact Nat.mul_div_cancel _ (Nat.two_pow_pos n)

theorem shift_above {y : BitVec w} (x : BitVec w) (hy : y.toNat * 2 < 2 ^ w) :
    shift poly (x ^^^ (y <<< 1)) = shift poly x ^^^ y := by
  have hlow : (x ^^^ (y <<< 1)).getLsbD 0 = x.getLsbD 0 := by
    rw [BitVec.getLsbD_xor, BitVec.getLsbD_shiftLeft]
    simp
  have hshift : (x ^^^ (y <<< 1)) >>> 1 = (x >>> 1) ^^^ y := by
    rw [BitVec.ushiftRight_xor_distrib, shiftLeft_shiftRight (by omega)]
  unfold shift
  rw [hlow, hshift]
  by_cases hx : x.getLsbD 0 = true
  · rw [if_pos hx, if_pos hx, BitVec.xor_assoc, BitVec.xor_comm y, BitVec.xor_assoc]
  · rw [if_neg hx, if_neg hx]

/-- Bits from position `n` on move down through `n` shifts as they are. -/
theorem shifts_above {y : BitVec w} (n : Nat) (x : BitVec w) (hy : y.toNat * 2 ^ n < 2 ^ w) :
    (shift poly)^[n] (x ^^^ (y <<< n)) = (shift poly)^[n] x ^^^ y := by
  induction n generalizing x with
  | zero => rw [BitVec.shiftLeft_zero, Function.iterate_zero_apply, Function.iterate_zero_apply]
  | succ n ih =>
      have hpow : y.toNat * 2 ^ (n + 1) = y.toNat * 2 ^ n * 2 := by ring
      have hlt : y.toNat * 2 ^ n < 2 ^ w := by omega
      have htop : (y <<< n).toNat = y.toNat * 2 ^ n := by
        rw [BitVec.toNat_shiftLeft, Nat.shiftLeft_eq, Nat.mod_eq_of_lt hlt]
      rw [BitVec.shiftLeft_add, Function.iterate_succ_apply, Function.iterate_succ_apply,
        shift_above poly x (by omega), ih _ hlt]

/-! ## No step loses anything -/

section Injective

variable {poly}

theorem shift_msb (hpoly : poly.msb = true) (c : BitVec w) :
    (shift poly c).msb = c.getLsbD 0 := by
  have htop : (c >>> 1).msb = false := by
    rw [BitVec.msb_ushiftRight]
    rfl
  unfold shift
  by_cases hc : c.getLsbD 0 = true
  · rw [if_pos hc, BitVec.msb_xor, htop, hpoly, hc]
    rfl
  · rw [if_neg hc, htop]
    exact (Bool.not_eq_true _ ▸ hc).symm

theorem shift_injective (hpoly : poly.msb = true) : Function.Injective (shift poly) := by
  intro a b h
  have hlow : a.getLsbD 0 = b.getLsbD 0 := by
    rw [← shift_msb hpoly a, ← shift_msb hpoly b, h]
  have hhigh : a >>> 1 = b >>> 1 := by
    unfold shift at h
    rw [hlow] at h
    by_cases hb : b.getLsbD 0 = true
    · rw [if_pos hb, if_pos hb] at h
      exact (BitVec.xor_left_inj poly).mp h
    · rwa [if_neg hb, if_neg hb] at h
  apply BitVec.eq_of_getLsbD_eq
  intro i _
  cases i with
  | zero => exact hlow
  | succ i =>
      have hbit := congrArg (fun c => c.getLsbD i) hhigh
      simp only [BitVec.getLsbD_ushiftRight] at hbit
      rwa [Nat.add_comm i 1]

theorem byte_injective (hpoly : poly.msb = true) (b : UInt8) :
    Function.Injective fun c => byte poly c b := by
  intro a c h
  have hxor := (shift_injective hpoly).iterate 8 h
  exact (BitVec.xor_left_inj _).mp hxor

/-- The register after a message tells the register before it. -/
theorem crc_injective (hpoly : poly.msb = true) (data : List UInt8) :
    Function.Injective fun c => crc poly c data := by
  induction data with
  | nil => exact Function.injective_id
  | cons b data ih => exact ih.comp (byte_injective hpoly b)

end Injective

/-! ## A message as long as the register -/

/-- The message as one word, first byte lowest. -/
def word (w : Nat) (data : List UInt8) : BitVec w := BitVec.ofNat w (leNat data)

theorem leNat_lt_two_pow {data : List UInt8} (hlen : 8 * data.length ≤ w) :
    leNat data < 2 ^ w := by
  calc leNat data < 256 ^ data.length := leNat_lt data
    _ = 2 ^ (8 * data.length) := by rw [Nat.pow_mul]
    _ ≤ 2 ^ w := Nat.pow_le_pow_right Nat.two_pos hlen

theorem toNat_word {data : List UInt8} (hlen : 8 * data.length ≤ w) :
    (word w data).toNat = leNat data := by
  unfold word
  rw [BitVec.toNat_ofNat, Nat.mod_eq_of_lt (leNat_lt_two_pow hlen)]

theorem word_cons (b : UInt8) (data : List UInt8) :
    word w (b :: data) = b.toBitVec.setWidth w ^^^ (word w data <<< 8) := by
  have hb : b.toNat < 2 ^ 8 := b.toNat_lt
  have hcons : leNat (b :: data) = 2 ^ 8 * leNat data + b.toNat := by
    rw [leNat]
    omega
  apply BitVec.eq_of_getLsbD_eq
  intro i hi
  have hlow : ¬ i < 8 → b.toNat.testBit i = false := by
    intro h
    apply Nat.testBit_lt_two_pow
    exact hb.trans_le (Nat.pow_le_pow_right Nat.two_pos (by omega))
  unfold word
  rw [BitVec.getLsbD_xor, BitVec.getLsbD_setWidth, BitVec.getLsbD_shiftLeft, BitVec.getLsbD_ofNat,
    BitVec.getLsbD_ofNat, hcons, Nat.testBit_two_pow_mul_add _ hb, decide_eq_true hi,
    Bool.true_and, Bool.true_and, Bool.true_and]
  show _ = (b.toNat.testBit i ^^ _)
  by_cases h : i < 8
  · rw [if_pos h, decide_eq_true h]
    simp
  · rw [if_neg h, hlow h, decide_eq_false h, decide_eq_true (by omega : i - 8 < w)]
    simp

/-- A message no longer than the register goes in as one word. -/
theorem crc_eq_shifts (c : BitVec w) {data : List UInt8} (hlen : 8 * data.length ≤ w) :
    crc poly c data = (shift poly)^[8 * data.length] (c ^^^ word w data) := by
  induction data generalizing c with
  | nil =>
      have hzero : word w [] = 0#w := rfl
      rw [hzero, BitVec.xor_zero]
      rfl
  | cons b data ih =>
      rw [List.length_cons] at hlen
      have hrest : (word w data).toNat * 2 ^ 8 < 2 ^ w := by
        have hpow : 2 ^ w = 2 ^ (w - 8) * 2 ^ 8 := by
          rw [← Nat.pow_add, Nat.sub_add_cancel (by omega)]
        rw [toNat_word (by omega), hpow]
        exact Nat.mul_lt_mul_of_pos_right (leNat_lt_two_pow (by omega)) (Nat.two_pow_pos 8)
      have hbyte : byte poly c b ^^^ word w data =
          (shift poly)^[8] (c ^^^ word w (b :: data)) := by
        unfold byte
        rw [word_cons b data, ← BitVec.xor_assoc, shifts_above poly 8 _ hrest]
      calc crc poly c (b :: data)
          = crc poly (byte poly c b) data := rfl
        _ = (shift poly)^[8 * data.length] (byte poly c b ^^^ word w data) := ih _ (by omega)
        _ = (shift poly)^[8 * data.length] ((shift poly)^[8] (c ^^^ word w (b :: data))) := by
            rw [hbyte]
        _ = (shift poly)^[8 * (data.length + 1)] (c ^^^ word w (b :: data)) := by
            rw [← Function.iterate_add_apply, Nat.mul_succ]

theorem leNat_injective {a b : List UInt8} (hlen : a.length = b.length)
    (h : leNat a = leNat b) : a = b := by
  induction a generalizing b with
  | nil =>
      rw [List.length_nil] at hlen
      exact (List.length_eq_zero_iff.mp hlen.symm).symm
  | cons x a ih =>
      cases b with
      | nil => cases hlen
      | cons y b =>
          have hx := x.toNat_lt
          have hy := y.toNat_lt
          rw [leNat, leNat] at h
          have hhead : x = y := by
            apply UInt8.toNat_inj.mp
            omega
          rw [hhead, ih (Nat.succ.inj hlen) (by omega)]

section Detection

variable {poly}

/-- Two messages no longer than the register that lead it to the same end are the same. -/
theorem crc_message_injective (hpoly : poly.msb = true) {c : BitVec w} {a b : List UInt8}
    (hlen : a.length = b.length) (hwindow : 8 * a.length ≤ w)
    (h : crc poly c a = crc poly c b) : a = b := by
  have hb : 8 * b.length ≤ w := by omega
  rw [crc_eq_shifts poly c hwindow, crc_eq_shifts poly c hb, hlen] at h
  have hxor := (shift_injective hpoly).iterate _ h
  have hword : word w a = word w b := (BitVec.xor_right_inj c).mp hxor
  apply leNat_injective hlen
  rw [← toNat_word hwindow, ← toNat_word hb, hword]

/-- A burst no longer than the register changes the register's end. -/
theorem crc_burst (hpoly : poly.msb = true) {c : BitVec w} {pre a b post : List UInt8}
    (hlen : a.length = b.length) (hwindow : 8 * a.length ≤ w)
    (h : crc poly c (pre ++ a ++ post) = crc poly c (pre ++ b ++ post)) : a = b := by
  rw [crc_append, crc_append, crc_append, crc_append] at h
  exact crc_message_injective hpoly hlen hwindow (crc_injective hpoly post h)

theorem shifts_zero (n : Nat) : (shift poly)^[n] 0#w = 0#w := by
  induction n with
  | zero => rfl
  | succ n ih =>
      have hstep : shift poly 0#w = 0#w := by
        unfold shift
        simp
      rw [Function.iterate_succ_apply, hstep, ih]

/-- A message with its own check behind it leaves the register empty, and no other check does. -/
theorem crc_check_iff (hpoly : poly.msb = true) (c : BitVec w) (data : List UInt8)
    {check : List UInt8} (hlen : 8 * check.length = w) :
    crc poly c (data ++ check) = 0#w ↔ leNat check = (crc poly c data).toNat := by
  rw [crc_append, crc_eq_shifts poly _ hlen.le, ← toNat_word hlen.le]
  constructor
  · intro h
    have hzero := (shift_injective hpoly).iterate _ (h.trans (shifts_zero (8 * check.length)).symm)
    rw [BitVec.xor_eq_zero_iff.mp hzero]
  · intro h
    rw [BitVec.eq_of_toNat_eq h, BitVec.xor_self, shifts_zero]

end Detection

end RustyAnt.Lib.Crc
