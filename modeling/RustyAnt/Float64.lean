import Mathlib.Data.Rat.Defs
import Mathlib.Algebra.Order.Ring.Rat
import RustyAnt.Lib.Decimal

/-!
# Scores: `f64` as bit patterns

Sorted-set scores are IEEE-754 doubles.  A double is modelled by its bits, so
classification, comparison, `fract`, `abs` and the cast to `i64` are computed
here.  Rounded arithmetic and the conversions from and to text belong to the
Rust standard library; they are the fields of `FloatOps`, and each result that
depends on one of their documented properties names it as a hypothesis.
-/

namespace RustyAnt

/-- A double, by its IEEE-754 bits. -/
structure F64 where
  bits : UInt64
  deriving DecidableEq, Repr

namespace F64

/-- Sign bit. -/
def negative (x : F64) : Bool := decide (2 ^ 63 ≤ x.bits.toNat)

/-- Exponent and fraction fields: the bits without the sign. -/
def magnitude (x : F64) : Nat := x.bits.toNat % 2 ^ 63

/-- Biased exponent. -/
def exponent (x : F64) : Nat := x.magnitude / 2 ^ 52

/-- Fraction field. -/
def fraction (x : F64) : Nat := x.magnitude % 2 ^ 52

/-- `f64::is_nan`. -/
def isNan (x : F64) : Bool := decide (x.exponent = 2047 ∧ x.fraction ≠ 0)

/-- `f64::is_infinite`. -/
def isInfinite (x : F64) : Bool := decide (x.exponent = 2047 ∧ x.fraction = 0)

/-- `f64::is_finite`. -/
def isFinite (x : F64) : Bool := decide (x.exponent ≠ 2047)

def zero : F64 := ⟨0⟩
def one : F64 := ⟨0x3ff0000000000000⟩
def infinity : F64 := ⟨0x7ff0000000000000⟩
def negInfinity : F64 := ⟨0xfff0000000000000⟩
def nan : F64 := ⟨0x7ff8000000000000⟩

theorem isFinite_iff (x : F64) :
    x.isFinite = true ↔ x.isNan = false ∧ x.isInfinite = false := by
  simp only [isFinite, isNan, isInfinite, decide_eq_true_eq, decide_eq_false_iff_not]
  constructor
  · intro h
    exact ⟨fun hn => h hn.1, fun hi => h hi.1⟩
  · rintro ⟨hn, hi⟩ he
    by_cases hf : x.fraction = 0
    · exact hi ⟨he, hf⟩
    · exact hn ⟨he, hf⟩

/-! ## Numeric value and comparison -/

/-- Magnitude of a finite double in units of `2^-1074`. -/
def scaled (x : F64) : Nat :=
  if x.exponent = 0 then x.fraction
  else (2 ^ 52 + x.fraction) * 2 ^ (x.exponent - 1)

/-- The number a finite double denotes; both zeros denote `0`. -/
def toRat (x : F64) : ℚ :=
  (if x.negative then -(x.scaled : ℚ) else x.scaled) / 2 ^ 1074

/-- Position of a double in the order of the extended numbers: the magnitude
field is monotone in the magnitude. -/
def rank (x : F64) : Int := if x.negative then -(x.magnitude : Int) else x.magnitude

/-- `a < b` on doubles; false when either is NaN. -/
def lt (a b : F64) : Bool := !a.isNan && !b.isNan && decide (a.rank < b.rank)

/-- `a <= b` on doubles. -/
def le (a b : F64) : Bool := !a.isNan && !b.isNan && decide (a.rank ≤ b.rank)

/-- `a == b` on doubles: equal as numbers, so the two zeros agree. -/
def numEq (a b : F64) : Bool := !a.isNan && !b.isNan && decide (a.rank = b.rank)

/-- `s.fract() == 0.0` of a finite double. -/
def isIntegral (x : F64) : Bool := decide (x.scaled % 2 ^ 1074 = 0)

/-- `s as i64` for an integral double within range. -/
def toInt (x : F64) : Int :=
  let n : Int := (x.scaled / 2 ^ 1074 : Nat)
  if x.negative then -n else n

/-- `-a`. -/
def neg (x : F64) : F64 := ⟨x.bits ^^^ 0x8000000000000000⟩

/-- `2.0.powi(-r)` for a register value `r`. -/
def powNeg (r : UInt8) : F64 := ⟨(1023 - r.toUInt64) <<< 52⟩

/-- `s.abs() < 9.007_199_254_740_992e15`. -/
def absBelowExact (x : F64) : Bool := decide (x.scaled < 2 ^ 53 * 2 ^ 1074)

end F64

/-- Rounded arithmetic and text conversion of doubles, as the Rust standard
library provides them. -/
structure FloatOps where
  /-- `a + b` -/
  add : F64 → F64 → F64
  /-- `a - b` -/
  sub : F64 → F64 → F64
  /-- `a * b` -/
  mul : F64 → F64 → F64
  /-- `a / b` -/
  div : F64 → F64 → F64
  /-- `a.ln()` -/
  ln : F64 → F64
  /-- `n as f64` -/
  ofU64 : UInt64 → F64
  /-- `a.round() as u64` -/
  roundU64 : F64 → UInt64
  /-- `s.parse::<f64>()` on the bytes of a UTF-8 string -/
  parse : List UInt8 → Option F64
  /-- `format!("{s}")` -/
  display : F64 → List UInt8
  /-- length of the text `serde_json` writes for a finite double -/
  jsonLen : F64 → Nat

namespace FloatOps

/-- The double of an integer of magnitude below `2^53`. -/
def ofInt (n : Int) : F64 :=
  let m := n.natAbs
  let sign := if n < 0 then 2 ^ 63 else 0
  if m = 0 then .zero
  else ⟨UInt64.ofNat (sign + ((1022 + m.log2) * 2 ^ 52 + m * 2 ^ (52 - m.log2)))⟩

/-- The operations restricted to integers below `2^53`, on which they are exact,
and to the words for infinity and NaN; enough to run the model on concrete
inputs. -/
def integral : FloatOps where
  add a b := ofInt (a.toInt + b.toInt)
  sub a b := ofInt (a.toInt - b.toInt)
  mul a b := ofInt (a.toInt * b.toInt)
  div a b := ofInt (a.toInt / b.toInt)
  ln _ := .zero
  ofU64 n := ofInt n.toNat
  roundU64 a := UInt64.ofNat a.toInt.toNat
  parse bs :=
    if bs = [105, 110, 102] ∨ bs = [43, 105, 110, 102] then some .infinity
    else if bs = [45, 105, 110, 102] then some .negInfinity
    else if bs = [110, 97, 110] then some .nan
    else (Lib.Decimal.parseInt bs).map ofInt
  display a := Lib.Decimal.intBytes a.toInt
  jsonLen a := (Lib.Decimal.intBytes a.toInt).length + 2

end FloatOps

end RustyAnt
