import Mathlib.Data.List.Basic
import Mathlib.Data.Nat.Notation

/-!
# Decimal integers as ASCII bytes

`natBytes` and `intBytes` write an integer the way Rust's `to_string` does;
`parseNat` and `parseInt` read what `str::parse` accepts, so a leading `+` and
leading zeros are read but never written.
-/

namespace RustyAnt.Lib.Decimal

/-- ASCII digits of `n`. -/
def natBytes (n : Nat) : List UInt8 :=
  (Nat.toDigits 10 n).map fun c => UInt8.ofNat c.toNat

/-- `i64::to_string`, for any integer. -/
def intBytes : Int → List UInt8
  | .ofNat n => natBytes n
  | .negSucc n => 45 :: natBytes (n + 1)

def isDigit (b : UInt8) : Bool := decide (48 ≤ b.toNat ∧ b.toNat ≤ 57)

def digitsVal (bs : List UInt8) : Nat := bs.foldl (fun n b => 10 * n + (b.toNat - 48)) 0

/-- A non-empty string of digits. -/
def parseNat (bs : List UInt8) : Option Nat :=
  if bs ≠ [] ∧ bs.all isDigit then some (digitsVal bs) else none

/-- An optional sign and a non-empty string of digits. -/
def parseInt : List UInt8 → Option Int
  | [] => none
  | b :: bs =>
      if b = 43 then (parseNat bs).map Int.ofNat
      else if b = 45 then (parseNat bs).map fun n => -Int.ofNat n
      else (parseNat (b :: bs)).map Int.ofNat

/-! ## Writing, then reading -/

theorem digit_toNat {c : Char} (h : c.isDigit) : (UInt8.ofNat c.toNat).toNat = c.toNat := by
  have hc : c.toNat ≤ 57 := by
    simp only [Char.isDigit, Bool.and_eq_true, decide_eq_true_eq] at h
    exact h.2
  rw [UInt8.toNat_ofNat']
  omega

theorem digit_bounds {c : Char} (h : c.isDigit) : 48 ≤ c.toNat ∧ c.toNat ≤ 57 := by
  simp only [Char.isDigit, Bool.and_eq_true, decide_eq_true_eq] at h
  exact h

theorem natBytes_ne_nil (n : Nat) : natBytes n ≠ [] := by
  unfold natBytes
  simp [Nat.toDigits_ne_nil]

theorem mem_natBytes {n : Nat} {b : UInt8} (hb : b ∈ natBytes n) :
    48 ≤ b.toNat ∧ b.toNat ≤ 57 := by
  unfold natBytes at hb
  obtain ⟨c, hc, rfl⟩ := List.mem_map.mp hb
  have hdigit := Nat.isDigit_of_mem_toDigits (by decide) (by decide) hc
  rw [digit_toNat hdigit]
  exact digit_bounds hdigit

theorem natBytes_all_isDigit (n : Nat) : (natBytes n).all isDigit := by
  rw [List.all_eq_true]
  intro b hb
  simpa [isDigit] using mem_natBytes hb

/-- Reading digit bytes is reading the digit characters they came from. -/
theorem foldl_digits {cs : List Char} (h : ∀ c ∈ cs, c.isDigit) (n : Nat) :
    (cs.map fun c => UInt8.ofNat c.toNat).foldl (fun n b => 10 * n + (b.toNat - 48)) n =
      Nat.ofDigitChars 10 cs n := by
  induction cs generalizing n with
  | nil => rfl
  | cons c cs ih =>
      rw [List.map_cons, List.foldl_cons, ih fun d hd => h d (List.mem_cons_of_mem c hd),
        digit_toNat (h c List.mem_cons_self), Nat.ofDigitChars_cons]
      rfl

theorem digitsVal_natBytes (n : Nat) : digitsVal (natBytes n) = n := by
  unfold digitsVal natBytes
  have hdigit : ∀ c ∈ Nat.toDigits 10 n, c.isDigit :=
    fun c hc => Nat.isDigit_of_mem_toDigits (by decide) (by decide) hc
  rw [foldl_digits hdigit, Nat.ofDigitChars_ten_toDigits]

theorem parseNat_natBytes (n : Nat) : parseNat (natBytes n) = some n := by
  unfold parseNat
  rw [if_pos ⟨natBytes_ne_nil n, natBytes_all_isDigit n⟩, digitsVal_natBytes]

theorem natBytes_ascii (n : Nat) : ∀ b ∈ natBytes n, b.toNat < 128 := by
  intro b hb
  have hle := (mem_natBytes hb).2
  omega

theorem intBytes_ascii (n : Int) : ∀ b ∈ intBytes n, b.toNat < 128 := by
  intro b hb
  cases n with
  | ofNat n => exact natBytes_ascii n b hb
  | negSucc n =>
      rcases List.mem_cons.mp hb with rfl | hb
      · decide
      · exact natBytes_ascii _ b hb

theorem parseInt_intBytes (n : Int) : parseInt (intBytes n) = some n := by
  cases n with
  | ofNat n =>
      have hnat := parseNat_natBytes n
      simp only [intBytes]
      cases hbs : natBytes n with
      | nil => exact absurd hbs (natBytes_ne_nil n)
      | cons b bs =>
          have hb : 48 ≤ b.toNat := (mem_natBytes (by rw [hbs]; exact List.mem_cons_self)).1
          have hplus : b ≠ 43 := by rintro rfl; exact absurd hb (by decide)
          have hminus : b ≠ 45 := by rintro rfl; exact absurd hb (by decide)
          rw [parseInt, if_neg hplus, if_neg hminus, ← hbs, hnat]
          rfl
  | negSucc n =>
      rw [intBytes, parseInt, if_neg (by decide), if_pos rfl, parseNat_natBytes]
      rfl

end RustyAnt.Lib.Decimal
