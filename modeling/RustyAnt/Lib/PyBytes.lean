import RustyAnt.Lib.Decimal

/-!
# Python's bytes

`int` and `find` on `bytes`, as the Python language documents them.
-/

namespace RustyAnt.Lib.PyBytes

open Decimal (isDigit)

/-- White space around a number: space, `\t`, `\n`, `\v`, `\f` and `\r`. -/
def isSpace (b : UInt8) : Bool := b = 32 || decide (9 ≤ b.toNat ∧ b.toNat ≤ 13)

def strip (bs : List UInt8) : List UInt8 :=
  ((bs.dropWhile isSpace).reverse.dropWhile isSpace).reverse

/-- The digits behind the first one, where a single `_` may stand between two of them. -/
def digitsFrom (n : Nat) (underscore : Bool) : List UInt8 → Option Nat
  | [] => if underscore then none else some n
  | b :: bs =>
      if b = 95 then if underscore then none else digitsFrom n true bs
      else if isDigit b then digitsFrom (10 * n + (b.toNat - 48)) false bs
      else none

def digits : List UInt8 → Option Nat
  | [] => none
  | b :: bs => if isDigit b then digitsFrom (b.toNat - 48) false bs else none

/-- `int(bs)`; none is a `ValueError`. -/
def int (bs : List UInt8) : Option Int :=
  match strip bs with
  | [] => none
  | b :: bs =>
      if b = 43 then (digits bs).map Int.ofNat
      else if b = 45 then (digits bs).map fun n => -Int.ofNat n
      else (digits (b :: bs)).map Int.ofNat

/-- `bs.find(b"\r\n")` -/
def findCrlf : List UInt8 → Option Nat
  | [] => none
  | b :: bs => if b = 13 ∧ bs.head? = some 10 then some 0 else (findCrlf bs).map (· + 1)

/-- `bs.find(b"\r\n", start)` -/
def findCrlfFrom (bs : List UInt8) (start : Nat) : Option Nat :=
  (findCrlf (bs.drop start)).map (start + ·)

/-! ## Numbers as they are written -/

theorem digitsFrom_of_digits {bs : List UInt8} (h : ∀ b ∈ bs, isDigit b = true) (n : Nat) :
    digitsFrom n false bs = some (bs.foldl (fun n b => 10 * n + (b.toNat - 48)) n) := by
  induction bs generalizing n with
  | nil => rfl
  | cons b bs ih =>
      have hb := h b List.mem_cons_self
      have hne : b ≠ 95 := by
        rintro rfl
        cases hb
      rw [digitsFrom, if_neg hne, if_pos hb, ih fun d hd => h d (List.mem_cons_of_mem b hd)]
      rfl

theorem digits_natBytes (n : Nat) : digits (Decimal.natBytes n) = some n := by
  have hall := List.all_eq_true.mp (Decimal.natBytes_all_isDigit n)
  have hval := Decimal.digitsVal_natBytes n
  cases hbs : Decimal.natBytes n with
  | nil => exact absurd hbs (Decimal.natBytes_ne_nil n)
  | cons b bs =>
      rw [hbs] at hall hval
      rw [digits, if_pos (hall b List.mem_cons_self),
        digitsFrom_of_digits fun d hd => hall d (List.mem_cons_of_mem b hd)]
      rw [← hval, Decimal.digitsVal, List.foldl_cons, Nat.mul_zero, Nat.zero_add]

theorem strip_of_not_space {bs : List UInt8} (h : ∀ b ∈ bs, isSpace b = false) : strip bs = bs := by
  have hkeep : ∀ l : List UInt8, (∀ b ∈ l, isSpace b = false) → l.dropWhile isSpace = l := by
    intro l hl
    cases l with
    | nil => rfl
    | cons b l => rw [List.dropWhile_cons_of_neg (by simp [hl b List.mem_cons_self])]
  unfold strip
  rw [hkeep bs h, hkeep bs.reverse fun b hb => h b (List.mem_reverse.mp hb), List.reverse_reverse]

theorem not_space_of_digit {b : UInt8} (h : 48 ≤ b.toNat ∧ b.toNat ≤ 57) : isSpace b = false := by
  have hne : b ≠ 32 := by
    rintro rfl
    exact absurd h.1 (by decide)
  unfold isSpace
  simp only [hne, decide_false, Bool.false_or, decide_eq_false_iff_not]
  omega

theorem int_natBytes (n : Nat) : int (Decimal.natBytes n) = some (n : Int) := by
  have hmem : ∀ b ∈ Decimal.natBytes n, 48 ≤ b.toNat ∧ b.toNat ≤ 57 := fun b hb =>
    Decimal.mem_natBytes hb
  have hdigits := digits_natBytes n
  unfold int
  rw [strip_of_not_space fun b hb => not_space_of_digit (hmem b hb)]
  cases hbs : Decimal.natBytes n with
  | nil => exact absurd hbs (Decimal.natBytes_ne_nil n)
  | cons b bs =>
      rw [hbs] at hmem hdigits
      have hb := (hmem b List.mem_cons_self).1
      have hplus : b ≠ 43 := by
        rintro rfl
        exact absurd hb (by decide)
      have hminus : b ≠ 45 := by
        rintro rfl
        exact absurd hb (by decide)
      dsimp only
      rw [if_neg hplus, if_neg hminus, hdigits]
      rfl

/-! ## Lines -/

variable {text : List UInt8}

theorem findCrlf_line (h : (13 : UInt8) ∉ text) (rest : List UInt8) :
    findCrlf (text ++ 13 :: 10 :: rest) = some text.length := by
  induction text with
  | nil => rfl
  | cons b text ih =>
      rw [List.mem_cons, not_or] at h
      rw [List.cons_append, findCrlf, if_neg fun hb => h.1 hb.1.symm, ih h.2]
      rfl

theorem findCrlf_cut (h : (13 : UInt8) ∉ text) : findCrlf text = none := by
  induction text with
  | nil => rfl
  | cons b text ih =>
      rw [List.mem_cons, not_or] at h
      rw [findCrlf, if_neg fun hb => h.1 hb.1.symm, ih h.2]
      rfl

theorem findCrlf_half (h : (13 : UInt8) ∉ text) : findCrlf (text ++ [13]) = none := by
  induction text with
  | nil => rfl
  | cons b text ih =>
      rw [List.mem_cons, not_or] at h
      rw [List.cons_append, findCrlf, if_neg fun hb => h.1 hb.1.symm, ih h.2]
      rfl

/-- The front of a text behind a line ends within the line, or has all of it. -/
theorem cut_of_line {p rest : List UInt8} (h : (13 : UInt8) ∉ text)
    (hp : p <+: text ++ 13 :: 10 :: rest) :
    findCrlf p = none ∨ ∃ q, p = text ++ 13 :: 10 :: q ∧ q <+: rest := by
  obtain ⟨t, ht⟩ := hp
  rcases List.append_eq_append_iff.mp ht with ⟨more, hmore, -⟩ | ⟨q, hq, hrest⟩
  · left
    apply findCrlf_cut
    intro hmem
    exact h (by rw [hmore]; exact List.mem_append_left _ hmem)
  · match q, hrest with
    | [], _ =>
        left
        rw [hq, List.append_nil]
        exact findCrlf_cut h
    | [b], hrest =>
        left
        have hcr := (List.cons.inj hrest).1
        rw [hq, ← hcr]
        exact findCrlf_half h
    | b :: b' :: q, hrest =>
        right
        have hcr := (List.cons.inj hrest).1
        have hlf := List.cons.inj (List.cons.inj hrest).2
        rw [← hcr, ← hlf.1] at hq
        exact ⟨q, hq, t, hlf.2.symm⟩

end RustyAnt.Lib.PyBytes
