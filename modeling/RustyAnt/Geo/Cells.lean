import RustyAnt.Geo
import RustyAnt.Lib.Interleave

/-!
# Cells and scores

The bits of a cell spread over every second place and gathered from there; the score of a pair
of cells, latitude on the even places and longitude on the odd ones, and as a double.
-/

namespace RustyAnt

open Lib.Interleave

namespace Geo

variable {v : UInt32} {s : UInt64} {p i : Nat}

/-! ## Spreading and gathering -/

theorem mask_one : Mask 1 (0x5555555555555555 : UInt64).toBitVec := by decide
theorem mask_two : Mask 2 (0x3333333333333333 : UInt64).toBitVec := by decide
theorem mask_four : Mask 4 (0x0f0f0f0f0f0f0f0f : UInt64).toBitVec := by decide
theorem mask_eight : Mask 8 (0x00ff00ff00ff00ff : UInt64).toBitVec := by decide
theorem mask_sixteen : Mask 16 (0x0000ffff0000ffff : UInt64).toBitVec := by decide
theorem mask_thirtyTwo : Mask 32 (0x00000000ffffffff : UInt64).toBitVec := by decide

def cellBit (v : UInt32) (i : Nat) : Bool := decide (i < geoBits) && v.toNat.testBit i

/-- Every second bit. -/
def evenBit (s : UInt64) (i : Nat) : Bool := s.toNat.testBit (2 * i)

theorem testBit_of_ge_64 (s : UInt64) (hp : 64 ≤ p) : s.toNat.testBit p = false :=
  BitVec.getLsbD_of_ge s.toBitVec p hp

theorem spaced_cell (v : UInt32) :
    Spaced 32 (cellBit v) (v.toUInt64 &&& 0x0000000003ffffff).toBitVec := by
  intro p hp
  have hlow : (v.toUInt64 &&& 0x0000000003ffffff).toNat = v.toNat % 2 ^ geoBits := by
    rw [UInt64.toNat_and]
    exact Nat.and_two_pow_sub_one_eq_mod v.toNat geoBits
  have hbit : (v.toUInt64 &&& 0x0000000003ffffff).toBitVec.getLsbD p = cellBit v p := by
    rw [cellBit, ← Nat.testBit_mod_two_pow, ← hlow]
    rfl
  have hmod : p % (2 * 32) = p := Nat.mod_eq_of_lt hp
  have hdiv : p / (2 * 32) = 0 := Nat.div_eq_of_lt hp
  rw [hbit, hmod, hdiv, Nat.zero_mul, Nat.zero_add]
  by_cases hin : p < geoBits
  · have hblock : p < 32 := Nat.lt_trans hin (by decide)
    rw [decide_eq_true hblock, Bool.true_and]
  · rw [cellBit, decide_eq_false hin, Bool.false_and, Bool.and_false]

/-- Bit `i` of the cell is bit `2 * i`. -/
theorem testBit_spreadBits (v : UInt32) (p : Nat) :
    (spreadBits v).toNat.testBit p = (decide (p % 2 < 1) && cellBit v (p / 2)) := by
  have hspaced : Spaced 1 (cellBit v) (spreadBits v).toBitVec :=
    (((((spaced_cell v).spread mask_sixteen).spread mask_eight).spread mask_four).spread
      mask_two).spread mask_one
  by_cases hp : p < 64
  · have hbit := hspaced p hp
    by_cases heven : p % 2 < 1
    · have hindex : p / (2 * 1) * 1 + p % (2 * 1) = p / 2 := by omega
      rw [hindex] at hbit
      exact hbit
    · rw [decide_eq_false heven, Bool.false_and] at hbit ⊢
      exact hbit
  · have hout : ¬ p / 2 < geoBits := by
      unfold geoBits
      omega
    rw [testBit_of_ge_64 _ (Nat.le_of_not_lt hp), cellBit, decide_eq_false hout, Bool.false_and,
      Bool.and_false]

theorem spaced_even (s : UInt64) : Spaced 1 (evenBit s) (s &&& 0x5555555555555555).toBitVec := by
  refine spaced_and mask_one fun q r hr hlt => ?_
  obtain rfl : r = 0 := by omega
  have hindex : 2 * 1 * q + 0 = 2 * (q * 1 + 0) := by omega
  rw [hindex]
  rfl

/-- Bit `2 * i` becomes bit `i`. -/
theorem testBit_gatherBits (s : UInt64) (i : Nat) :
    (gatherBits s).toNat.testBit i = s.toNat.testBit (2 * i) := by
  obtain ⟨x, hx, hspaced⟩ : ∃ x : UInt64, gatherBits s = (x &&& 0xffffffff).toUInt32 ∧
      Spaced 32 (evenBit s) x.toBitVec :=
    ⟨_, rfl, (((((spaced_even s).gather mask_two (by decide)).gather mask_four
      (by decide)).gather mask_eight (by decide)).gather mask_sixteen (by decide)).gather
      mask_thirtyTwo (by decide)⟩
  have hword : (gatherBits s).toNat = x.toNat % 2 ^ 32 := by
    have hlow : (x &&& 0xffffffff).toNat = x.toNat % 2 ^ 32 := by
      rw [UInt64.toNat_and]
      exact Nat.and_two_pow_sub_one_eq_mod x.toNat 32
    rw [hx, UInt64.toNat_toUInt32, hlow]
    exact Nat.mod_mod _ _
  rw [hword, Nat.testBit_mod_two_pow]
  by_cases hi : i < 32
  · have hbit := hspaced i (by omega)
    have hmod : i % (2 * 32) = i := Nat.mod_eq_of_lt (by omega)
    have hdiv : i / (2 * 32) = 0 := Nat.div_eq_of_lt (by omega)
    rw [hmod, hdiv, decide_eq_true hi, Nat.zero_mul, Nat.zero_add] at hbit
    rw [decide_eq_true hi, Bool.true_and]
    exact hbit
  · rw [decide_eq_false hi, Bool.false_and, testBit_of_ge_64 s (by omega)]

/-! ## Scores -/

/-- A cell of 26 bits. -/
structure Cell where
  index : UInt32
  index_lt : index.toNat < 2 ^ geoBits

namespace Cell

variable {c c' lon lat : Cell}

theorem ext_index (h : c.index = c'.index) : c = c' := by
  cases c
  cases c'
  cases h
  rfl

theorem testBit_of_ge (c : Cell) (hi : geoBits ≤ i) : c.index.toNat.testBit i = false :=
  Nat.testBit_lt_two_pow (c.index_lt.trans_le (Nat.pow_le_pow_right (by decide) hi))

theorem cellBit_eq (c : Cell) (i : Nat) : cellBit c.index i = c.index.toNat.testBit i := by
  unfold cellBit
  by_cases hi : i < geoBits
  · rw [decide_eq_true hi, Bool.true_and]
  · rw [decide_eq_false hi, Bool.false_and, c.testBit_of_ge (Nat.le_of_not_lt hi)]

end Cell

/-- The score of a pair of cells. -/
def scoreOf (lon lat : Cell) : UInt64 := spreadBits lat.index ||| (spreadBits lon.index <<< 1)

theorem testBit_shiftLeft_one (x : UInt64) (p : Nat) : (x <<< 1).toNat.testBit p =
    (decide (p < 64) && (decide (1 ≤ p) && x.toNat.testBit (p - 1))) := by
  rw [UInt64.toNat_shiftLeft, Nat.testBit_mod_two_pow, show (1 : UInt64).toNat % 64 = 1 from rfl,
    Nat.testBit_shiftLeft]

theorem testBit_shiftRight_one (x : UInt64) (p : Nat) :
    (x >>> 1).toNat.testBit p = x.toNat.testBit (p + 1) := by
  rw [UInt64.toNat_shiftRight, show (1 : UInt64).toNat % 64 = 1 from rfl, Nat.testBit_shiftRight,
    Nat.add_comm]

section Score

variable (lon lat : Cell)

theorem testBit_scoreOf_even (i : Nat) :
    (scoreOf lon lat).toNat.testBit (2 * i) = lat.index.toNat.testBit i := by
  have hplace : 2 * i % 2 < 1 := by omega
  have hhalf : 2 * i / 2 = i := by omega
  have hlon : (spreadBits lon.index <<< 1).toNat.testBit (2 * i) = false := by
    rw [testBit_shiftLeft_one, testBit_spreadBits]
    by_cases hpos : 1 ≤ 2 * i
    · have hodd : ¬ (2 * i - 1) % 2 < 1 := by omega
      rw [decide_eq_false hodd, Bool.false_and, Bool.and_false, Bool.and_false]
    · rw [decide_eq_false hpos, Bool.false_and, Bool.and_false]
  rw [scoreOf, UInt64.toNat_or, Nat.testBit_or, hlon, testBit_spreadBits, decide_eq_true hplace,
    hhalf, lat.cellBit_eq, Bool.or_false, Bool.true_and]

theorem testBit_scoreOf_odd (i : Nat) :
    (scoreOf lon lat).toNat.testBit (2 * i + 1) = lon.index.toNat.testBit i := by
  have hplace : ¬ (2 * i + 1) % 2 < 1 := by omega
  have heven : 2 * i % 2 < 1 := by omega
  have hhalf : 2 * i / 2 = i := by omega
  have hpos : 1 ≤ 2 * i + 1 := by omega
  rw [scoreOf, UInt64.toNat_or, Nat.testBit_or, testBit_spreadBits, decide_eq_false hplace,
    testBit_shiftLeft_one, testBit_spreadBits, decide_eq_true hpos, Nat.add_sub_cancel,
    decide_eq_true heven, hhalf, lon.cellBit_eq, Bool.false_and, Bool.false_or, Bool.true_and,
    Bool.true_and]
  by_cases hin : 2 * i + 1 < 64
  · rw [decide_eq_true hin, Bool.true_and]
  · have hhigh := lon.testBit_of_ge (show geoBits ≤ i by unfold geoBits; omega)
    rw [hhigh, Bool.and_false]

theorem scoreOf_lt : (scoreOf lon lat).toNat < 2 ^ 52 := by
  apply Nat.lt_pow_two_of_testBit
  intro p hp
  have hbits : geoBits = 26 := rfl
  obtain ⟨i, rfl | rfl⟩ := Nat.even_or_odd' p
  · rw [testBit_scoreOf_even, lat.testBit_of_ge (by omega)]
  · rw [testBit_scoreOf_odd, lon.testBit_of_ge (by omega)]

theorem gatherBits_scoreOf : gatherBits (scoreOf lon lat) = lat.index := by
  apply UInt32.toNat_inj.mp
  apply Nat.eq_of_testBit_eq
  intro i
  rw [testBit_gatherBits, testBit_scoreOf_even]

theorem gatherBits_scoreOf_shift : gatherBits (scoreOf lon lat >>> 1) = lon.index := by
  apply UInt32.toNat_inj.mp
  apply Nat.eq_of_testBit_eq
  intro i
  rw [testBit_gatherBits, testBit_shiftRight_one, testBit_scoreOf_odd]

theorem scoreOf_lt_of_lon {lon lon' : Cell} (h : lon.index < lon'.index) :
    scoreOf lon lat < scoreOf lon' lat := by
  obtain ⟨i, hless, hmore, habove⟩ := exists_top_bit (UInt32.lt_iff_toNat_lt.mp h)
  apply UInt64.lt_iff_toNat_lt.mpr
  apply Nat.lt_of_testBit (2 * i + 1)
  · rw [testBit_scoreOf_odd, hless]
  · rw [testBit_scoreOf_odd, hmore]
  · intro p hp
    obtain ⟨j, rfl | rfl⟩ := Nat.even_or_odd' p
    · rw [testBit_scoreOf_even, testBit_scoreOf_even]
    · rw [testBit_scoreOf_odd, testBit_scoreOf_odd, habove j (by omega)]

theorem scoreOf_lt_of_lat {lat lat' : Cell} (h : lat.index < lat'.index) :
    scoreOf lon lat < scoreOf lon lat' := by
  obtain ⟨i, hless, hmore, habove⟩ := exists_top_bit (UInt32.lt_iff_toNat_lt.mp h)
  apply UInt64.lt_iff_toNat_lt.mpr
  apply Nat.lt_of_testBit (2 * i)
  · rw [testBit_scoreOf_even, hless]
  · rw [testBit_scoreOf_even, hmore]
  · intro p hp
    obtain ⟨j, rfl | rfl⟩ := Nat.even_or_odd' p
    · rw [testBit_scoreOf_even, testBit_scoreOf_even, habove j (by omega)]
    · rw [testBit_scoreOf_odd, testBit_scoreOf_odd]

end Score

/-! ## The cells of a score -/

theorem gatherBits_lt (h : s.toNat < 2 ^ 52) : (gatherBits s).toNat < 2 ^ geoBits := by
  apply Nat.lt_pow_two_of_testBit
  intro i hi
  have hbits : geoBits = 26 := rfl
  have hhigh : s.toNat < 2 ^ (2 * i) :=
    h.trans_le (Nat.pow_le_pow_right (by decide) (by omega))
  rw [testBit_gatherBits, Nat.testBit_lt_two_pow hhigh]

theorem shiftRight_one_lt (h : s.toNat < 2 ^ 52) : (s >>> 1).toNat < 2 ^ 52 := by
  rw [UInt64.toNat_shiftRight]
  exact (Nat.div_le_self _ _).trans_lt h

def latCell (s : UInt64) (h : s.toNat < 2 ^ 52) : Cell := ⟨gatherBits s, gatherBits_lt h⟩

def lonCell (s : UInt64) (h : s.toNat < 2 ^ 52) : Cell :=
  ⟨gatherBits (s >>> 1), gatherBits_lt (shiftRight_one_lt h)⟩

theorem scoreOf_cells (h : s.toNat < 2 ^ 52) : scoreOf (lonCell s h) (latCell s h) = s := by
  apply UInt64.toNat_inj.mp
  apply Nat.eq_of_testBit_eq
  intro p
  obtain ⟨i, rfl | rfl⟩ := Nat.even_or_odd' p
  · rw [testBit_scoreOf_even, latCell, testBit_gatherBits]
  · rw [testBit_scoreOf_odd, lonCell, testBit_gatherBits, testBit_shiftRight_one]

theorem eq_of_scoreOf_eq {lon lat lon' lat' : Cell} (h : scoreOf lon lat = scoreOf lon' lat') :
    lon = lon' ∧ lat = lat' := by
  constructor
  · apply Cell.ext_index
    rw [← gatherBits_scoreOf_shift lon lat, h, gatherBits_scoreOf_shift]
  · apply Cell.ext_index
    rw [← gatherBits_scoreOf lon lat, h, gatherBits_scoreOf]

end Geo

/-! ## Integers as doubles -/

namespace F64

/-- A double that stands for a natural number. -/
def Holds (x : F64) (n : Nat) : Prop := x.isFinite = true ∧ x.toRat = n

variable {x : F64} {n : Nat}

theorem Holds.value (h : x.Holds n) :
    (if x.negative then -(x.scaled : ℚ) else x.scaled) = ((n * 2 ^ 1074 : Nat) : ℚ) := by
  have hunit : (2 : ℚ) ^ 1074 ≠ 0 := pow_ne_zero _ (by decide)
  rw [Nat.cast_mul, Nat.cast_pow, Nat.cast_ofNat]
  exact (div_eq_iff hunit).mp h.2

/-- Of the negative doubles only one is a natural number. -/
theorem Holds.eq_zero_of_negative (h : x.Holds n) (hneg : x.negative = true) : n = 0 := by
  have hvalue := h.value
  rw [if_pos hneg] at hvalue
  have hsum : ((x.scaled + n * 2 ^ 1074 : Nat) : ℚ) = 0 := by
    rw [Nat.cast_add, ← hvalue, add_neg_cancel]
  have hzero := (Nat.add_eq_zero_iff.mp (Nat.cast_eq_zero.mp hsum)).2
  exact (Nat.mul_eq_zero.mp hzero).resolve_right (pow_ne_zero _ two_ne_zero)

theorem Holds.scaled_eq (h : x.Holds n) (hneg : ¬ x.negative = true) : x.scaled = n * 2 ^ 1074 := by
  have hvalue := h.value
  rwa [if_neg hneg, Nat.cast_inj] at hvalue

theorem Holds.truncNat_eq {max : Nat} (h : x.Holds n) (hn : n ≤ max) : x.truncNat max = n := by
  obtain ⟨hnan, hinf⟩ := (isFinite_iff x).mp h.1
  unfold truncNat
  rw [hnan, hinf, Bool.false_or]
  by_cases hneg : x.negative = true
  · rw [if_pos hneg, h.eq_zero_of_negative hneg]
  · rw [if_neg hneg, if_neg Bool.false_ne_true, h.scaled_eq hneg, Nat.mul_div_cancel _ (Nat.two_pow_pos _),
      Nat.min_eq_right hn]

end F64

namespace FloatOps

theorem bits_ofInt {n : Nat} (hpos : n ≠ 0) (hn : n < 2 ^ 53) : ∃ f < 2 ^ 52,
    (ofInt n).bits.toNat = (1023 + n.log2) * 2 ^ 52 + f ∧ 2 ^ 52 + f = n * 2 ^ (52 - n.log2) := by
  have hlog : n.log2 < 53 := (Nat.log2_lt hpos).mpr hn
  have hle : 2 ^ n.log2 ≤ n := Nat.log2_self_le hpos
  have hlt : n < 2 ^ (n.log2 + 1) := Nat.lt_log2_self
  have hlow : 2 ^ 52 ≤ n * 2 ^ (52 - n.log2) := by
    have hsplit : 2 ^ n.log2 * 2 ^ (52 - n.log2) = 2 ^ 52 := by
      rw [← Nat.pow_add, Nat.add_sub_cancel' (by omega)]
    rw [← hsplit]
    exact Nat.mul_le_mul_right _ hle
  have hhigh : n * 2 ^ (52 - n.log2) < 2 ^ 53 := by
    have hsplit : 2 ^ (n.log2 + 1) * 2 ^ (52 - n.log2) = 2 ^ 53 := by
      rw [← Nat.pow_add]
      congr 1
      omega
    rw [← hsplit]
    exact Nat.mul_lt_mul_of_pos_right hlt (Nat.two_pow_pos _)
  refine ⟨n * 2 ^ (52 - n.log2) - 2 ^ 52, by omega, ?_, by omega⟩
  have hbits : (ofInt n).bits =
      UInt64.ofNat (0 + ((1022 + n.log2) * 2 ^ 52 + n * 2 ^ (52 - n.log2))) := by
    unfold ofInt
    rw [Int.natAbs_natCast, if_neg hpos, if_neg (by omega)]
  rw [hbits, UInt64.toNat_ofNat', Nat.mod_eq_of_lt (by omega)]
  omega

/-- Integers below `2^53` are doubles. -/
theorem holds_ofInt {n : Nat} (hn : n < 2 ^ 53) : (ofInt n).Holds n := by
  by_cases hpos : n = 0
  · rw [hpos]
    exact ⟨by decide, zero_div _⟩
  · obtain ⟨f, hf, hbits, hfraction⟩ := bits_ofInt hpos hn
    have hlog : n.log2 < 53 := (Nat.log2_lt hpos).mpr hn
    have hmagnitude : (ofInt n).magnitude = (1023 + n.log2) * 2 ^ 52 + f := by
      unfold F64.magnitude
      rw [hbits]
      omega
    have hexponent : (ofInt n).exponent = 1023 + n.log2 := by
      unfold F64.exponent
      rw [hmagnitude]
      omega
    have hfrac : (ofInt n).fraction = f := by
      unfold F64.fraction
      rw [hmagnitude]
      omega
    have hnegative : (ofInt n).negative = false := by
      unfold F64.negative
      rw [hbits, decide_eq_false (by omega)]
    have hscaled : (ofInt n).scaled = n * 2 ^ 1074 := by
      have hexp : 52 - n.log2 + (1023 + n.log2 - 1) = 1074 := by omega
      unfold F64.scaled
      rw [hexponent, hfrac, if_neg (by omega), hfraction, Nat.mul_assoc, ← Nat.pow_add]
      exact congrArg (fun k => n * 2 ^ k) hexp
    have hunit : (2 : ℚ) ^ 1074 ≠ 0 := pow_ne_zero _ (by decide)
    refine ⟨?_, ?_⟩
    · unfold F64.isFinite
      rw [hexponent, decide_eq_true (by omega)]
    · unfold F64.toRat
      rw [hnegative, if_neg Bool.false_ne_true, hscaled, Nat.cast_mul, Nat.cast_pow,
        Nat.cast_ofNat, mul_div_cancel_right₀ _ hunit]

end FloatOps

namespace Geo

theorem scoreToU64_of_holds {x : F64} {s : UInt64} (h : x.Holds s.toNat) : scoreToU64 x = s := by
  have hmax : s.toNat ≤ 2 ^ 64 - 1 := Nat.le_sub_one_of_lt s.toNat_lt
  unfold scoreToU64
  rw [h.truncNat_eq hmax, UInt64.ofNat_toNat]

/-- Pairs of cells and the numbers below `2^52` are in bijection, a score is a double and read
back from it, and each of the two cells alone keeps its order. -/
theorem scoreOf_bijective :
    (∀ lon lat : Cell,
      (scoreOf lon lat).toNat < 2 ^ 52 ∧
      (∃ x : F64, x.Holds (scoreOf lon lat).toNat) ∧
      (∀ x : F64, x.Holds (scoreOf lon lat).toNat → scoreToU64 x = scoreOf lon lat) ∧
      gatherBits (scoreOf lon lat) = lat.index ∧
      gatherBits (scoreOf lon lat >>> 1) = lon.index) ∧
    (∀ (s : UInt64) (h : s.toNat < 2 ^ 52) (lon lat : Cell),
      scoreOf lon lat = s ↔ lon = lonCell s h ∧ lat = latCell s h) ∧
    (∀ lat lon lon' : Cell, lon.index < lon'.index → scoreOf lon lat < scoreOf lon' lat) ∧
    ∀ lon lat lat' : Cell, lat.index < lat'.index → scoreOf lon lat < scoreOf lon lat' := by
  refine ⟨fun lon lat => ?_, fun s h lon lat => ⟨fun hscore => ?_, ?_⟩,
    fun lat lon lon' => scoreOf_lt_of_lon lat, fun lon lat lat' => scoreOf_lt_of_lat lon⟩
  · have hlt := scoreOf_lt lon lat
    exact ⟨hlt, ⟨_, FloatOps.holds_ofInt (hlt.trans (by decide))⟩, fun x => scoreToU64_of_holds,
      gatherBits_scoreOf lon lat, gatherBits_scoreOf_shift lon lat⟩
  · exact eq_of_scoreOf_eq (hscore.trans (scoreOf_cells h).symm)
  · rintro ⟨rfl, rfl⟩
    exact scoreOf_cells h

/-- The greatest score is that of the last cells. -/
theorem scoreOf_bijective_at_last :
    scoreOf (lonCell 0xfffffffffffff (by decide)) (latCell 0xfffffffffffff (by decide)) =
      0xfffffffffffff :=
  (scoreOf_bijective.2.1 0xfffffffffffff (by decide) _ _).mpr ⟨rfl, rfl⟩

/-! ## Places -/

section Places

variable (fo : FloatOps) (lm : Libm)

theorem quantize_lt (value min max : F64) :
    (quantize fo value min max geoBits).toNat < 2 ^ geoBits := by
  have hclamp : ∀ n, Nat.min n (2 ^ geoBits - 1) < 2 ^ geoBits := by
    intro n
    have hle := Nat.min_le_right n (2 ^ geoBits - 1)
    exact hle.trans_lt (by decide)
  exact (Nat.mod_le _ _).trans_lt (hclamp _)

def cellOf (value min max : F64) : Cell :=
  ⟨quantize fo value min max geoBits, quantize_lt fo value min max⟩

theorem encodeInterleaved_eq (lon lat lonMin lonMax latMin latMax : F64) :
    encodeInterleaved fo lon lat lonMin lonMax latMin latMax =
      scoreOf (cellOf fo lon lonMin lonMax) (cellOf fo lat latMin latMax) := rfl

/-- Decoding returns the centres of the cells that were encoded. -/
theorem decodeInterleaved_encodeInterleaved (lon lat lonMin lonMax latMin latMax : F64) :
    decodeInterleaved fo lm (encodeInterleaved fo lon lat lonMin lonMax latMin latMax)
        lonMin lonMax latMin latMax =
      (dequantize fo lm (quantize fo lon lonMin lonMax geoBits) lonMin lonMax geoBits,
        dequantize fo lm (quantize fo lat latMin latMax geoBits) latMin latMax geoBits) := by
  rw [encodeInterleaved_eq, decodeInterleaved, gatherBits_scoreOf, gatherBits_scoreOf_shift]
  rfl

end Places

end Geo

end RustyAnt
