import RustyAnt.Commands.Strings
import RustyAnt.Lib.Outcome
import RustyAnt.Lib.Subsequence
import Mathlib.Data.List.GetD

/-!
# The table of LCS

Entry `(i, j)` of the table is the greatest length of a common subsequence of the first `i`
bytes of one string and the first `j` of the other.  The table is filled row by row; filled
in place, entry by entry, as the source does it, it is the same and no index leaves it.
-/

namespace RustyAnt

open Lib

namespace Commands

variable {a b : Bytes} {i j : Nat}

/-- The recurrence of the table. -/
def lcsLen (a b : Bytes) : (i j : Nat) → Nat
  | 0, _ => 0
  | _ + 1, 0 => 0
  | i + 1, j + 1 =>
      if a.getD i 0 = b.getD j 0 then lcsLen a b i j + 1
      else max (lcsLen a b i (j + 1)) (lcsLen a b (i + 1) j)
  termination_by i j => i + j

theorem lcsLen_zero_left (a b : Bytes) (j : Nat) : lcsLen a b 0 j = 0 := by
  rw [lcsLen]

theorem lcsLen_zero_right (a b : Bytes) (i : Nat) : lcsLen a b i 0 = 0 := by
  cases i with
  | zero => rw [lcsLen]
  | succ i => rw [lcsLen]

theorem lcsLen_of_eq (h : a.getD i 0 = b.getD j 0) :
    lcsLen a b (i + 1) (j + 1) = lcsLen a b i j + 1 := by
  rw [lcsLen, if_pos h]

theorem lcsLen_of_ne (h : a.getD i 0 ≠ b.getD j 0) :
    lcsLen a b (i + 1) (j + 1) = max (lcsLen a b i (j + 1)) (lcsLen a b (i + 1) j) := by
  rw [lcsLen, if_neg h]

theorem take_succ_getD (h : i < a.length) : a.take (i + 1) = a.take i ++ [a.getD i 0] := by
  rw [List.take_succ_eq_append_getElem h, List.getD_eq_getElem a 0 h]

/-- The recurrence is that of the longest common subsequences. -/
theorem isLongest_lcsLen (hi : i ≤ a.length) (hj : j ≤ b.length) :
    IsLongest (lcsLen a b i j) (a.take i) (b.take j) := by
  fun_induction lcsLen a b i j with
  | case1 j => exact isLongest_nil_left _
  | case2 i => exact isLongest_nil_right _
  | case3 i j heq ih =>
      rw [take_succ_getD hi, take_succ_getD hj, ← heq]
      exact (ih (by omega) (by omega)).concat (a.getD i 0)
  | case4 i j hne ihleft ihright =>
      have hleft := ihleft (by omega) hj
      have hright := ihright hi (by omega)
      rw [take_succ_getD hj] at hleft
      rw [take_succ_getD hi] at hright
      rw [take_succ_getD hi, take_succ_getD hj]
      exact hleft.concat_of_ne hne hright

theorem lcsLen_le_left (hi : i ≤ a.length) (hj : j ≤ b.length) : lcsLen a b i j ≤ i := by
  obtain ⟨c, hc, hlen⟩ := (isLongest_lcsLen hi hj).reached
  have hle := hc.left.length_le
  rw [List.length_take] at hle
  omega

/-! ## Row by row -/

def rowFrom (a b : Bytes) (i j n : Nat) : List Nat := (List.range' j n).map (lcsLen a b i)

theorem rowFrom_succ (a b : Bytes) (i j n : Nat) :
    rowFrom a b i j (n + 1) = lcsLen a b i j :: rowFrom a b i (j + 1) n := rfl

theorem drop_getD (h : j < b.length) : b.drop j = b.getD j 0 :: b.drop (j + 1) := by
  rw [List.drop_eq_getElem_cons h, List.getD_eq_getElem b 0 h]

theorem lcsRow_rowFrom {n : Nat} (h : j + n = b.length) :
    lcsRow (a.getD i 0) (lcsLen a b (i + 1) j) (rowFrom a b i j (n + 1)) (b.drop j) =
      rowFrom a b (i + 1) (j + 1) n := by
  induction n generalizing j with
  | zero =>
      have hend : b.drop j = [] := List.drop_eq_nil_of_le (by omega)
      rw [hend]
      rfl
  | succ n ih =>
      have hlt : j < b.length := by omega
      have hrest := ih (j := j + 1) (by omega)
      rw [drop_getD hlt, rowFrom_succ, rowFrom_succ, lcsRow]
      have hentry : (if a.getD i 0 = b.getD j 0 then lcsLen a b i j + 1
          else max (lcsLen a b i (j + 1)) (lcsLen a b (i + 1) j)) =
          lcsLen a b (i + 1) (j + 1) := by
        rw [lcsLen]
      rw [hentry, ← rowFrom_succ, hrest, rowFrom_succ]

/-- Folding a step that takes each value of `f` to the next lists the values. -/
theorem scanl_range' {α β : Type} {step : β → α → β} {f : Nat → β} {xs : List α} {k : Nat}
    (hstep : ∀ i (hi : i < xs.length), step (f (k + i)) (xs.get ⟨i, hi⟩) = f (k + i + 1)) :
    List.scanl step (f k) xs = (List.range' k (xs.length + 1)).map f := by
  induction xs generalizing k with
  | nil => rfl
  | cons x xs ih =>
      have hhead : step (f k) x = f (k + 1) := hstep 0 (Nat.succ_pos _)
      have htail : List.scanl step (f (k + 1)) xs =
          (List.range' (k + 1) (xs.length + 1)).map f := by
        apply ih
        intro i hi
        have hnext := hstep (i + 1) (Nat.succ_lt_succ hi)
        rw [show k + 1 + i = k + (i + 1) by omega]
        exact hnext
      calc List.scanl step (f k) (x :: xs)
          = f k :: List.scanl step (f (k + 1)) xs := by rw [List.scanl_cons, hhead]
        _ = f k :: (List.range' (k + 1) (xs.length + 1)).map f := by rw [htail]
        _ = (List.range' k ((x :: xs).length + 1)).map f := rfl

theorem rowFrom_top (a b : Bytes) (n : Nat) : rowFrom a b 0 0 n = List.replicate n 0 := by
  have hzero : ∀ v ∈ rowFrom a b 0 0 n, v = 0 := by
    intro v hv
    obtain ⟨j, -, hj⟩ := List.mem_map.mp hv
    rw [← hj, lcsLen_zero_left]
  have hlen : (rowFrom a b 0 0 n).length = n := by
    rw [rowFrom, List.length_map, List.length_range']
  calc rowFrom a b 0 0 n
      = List.replicate (rowFrom a b 0 0 n).length 0 := List.eq_replicate_of_mem hzero
    _ = List.replicate n 0 := by rw [hlen]

theorem lcsDpTable_eq (a b : Bytes) :
    lcsDpTable a b =
      (List.range' 0 (a.length + 1)).map fun i => rowFrom a b i 0 (b.length + 1) := by
  unfold lcsDpTable
  rw [← rowFrom_top a b]
  apply scanl_range' (f := fun i => rowFrom a b i 0 (b.length + 1))
  intro i hi
  have hrow : lcsRow (a.getD i 0) (lcsLen a b (i + 1) 0) (rowFrom a b i 0 (b.length + 1))
      (b.drop 0) = rowFrom a b (i + 1) (0 + 1) b.length := lcsRow_rowFrom (by omega)
  rw [lcsLen_zero_right, List.getD_eq_getElem a 0 hi, List.drop_zero] at hrow
  have hfirst : rowFrom a b (i + 1) 0 (b.length + 1) =
      lcsLen a b (i + 1) 0 :: rowFrom a b (i + 1) (0 + 1) b.length := rowFrom_succ _ _ _ _ _
  rw [Nat.zero_add, hfirst, lcsLen_zero_right, ← hrow]
  rfl

theorem lcsAt_lcsDpTable (hi : i ≤ a.length) (hj : j ≤ b.length) :
    lcsAt (lcsDpTable a b) i j = lcsLen a b i j := by
  have hrow : (lcsDpTable a b)[i]? = some (rowFrom a b i 0 (b.length + 1)) := by
    rw [lcsDpTable_eq, List.getElem?_map, List.getElem?_range' (by omega), Option.map_some,
      Nat.zero_add, Nat.one_mul]
  have hentry : (rowFrom a b i 0 (b.length + 1))[j]? = some (lcsLen a b i j) := by
    rw [rowFrom, List.getElem?_map, List.getElem?_range' (by omega), Option.map_some,
      Nat.zero_add, Nat.one_mul]
  rw [lcsAt, List.getD_eq_getElem?_getD, List.getD_eq_getElem?_getD, hrow, Option.getD_some,
    hentry, Option.getD_some]

/-! ## In place -/

open Outcome (index store forUpTo index_eq_ok store_eq_ok ok_bind forUpTo_invariant)

variable {ε : Type} {dp dp' : List (List Nat)}

theorem index_getD {α : Type} {xs : List α} (h : i < xs.length) (d : α) :
    (index xs i : Outcome ε α) = .ok (xs.getD i d) := by
  rw [index_eq_ok h, List.getD_eq_getElem xs d h, List.get_eq_getElem]

/-- `dp[i][j]` -/
def cell (dp : List (List Nat)) (i j : Nat) : Outcome ε Nat := do
  let row ← index dp i
  index row j

/-- `dp[i][j] = v` -/
def storeCell (dp : List (List Nat)) (i j v : Nat) : Outcome ε (List (List Nat)) := do
  let row ← index dp i
  let row ← store row j v
  store dp i row

/-- One round of the two loops of `lcs_dp_table`. -/
def lcsRound (a b : Bytes) (i j : Nat) (dp : List (List Nat)) : Outcome ε (List (List Nat)) := do
  let x ← index a i
  let y ← index b j
  if x = y then
    let diag ← cell dp i j
    storeCell dp (i + 1) (j + 1) (diag + 1)
  else
    let up ← cell dp i (j + 1)
    let left ← cell dp (i + 1) j
    storeCell dp (i + 1) (j + 1) (max up left)

/-- `lcs_dp_table`, by its indices. -/
def lcsDpTableAt (a b : Bytes) : Outcome ε (List (List Nat)) :=
  forUpTo (fun i => forUpTo (lcsRound a b i) b.length) a.length
    (List.replicate (a.length + 1) (List.replicate (b.length + 1) 0))

/-- The table has a row for each prefix of `a`, with an entry for each prefix of `b`. -/
structure Sized (a b : Bytes) (dp : List (List Nat)) : Prop where
  rows : dp.length = a.length + 1
  row : ∀ r ∈ dp, r.length = b.length + 1

theorem Sized.cell_eq (h : Sized a b dp) (hi : i ≤ a.length) (hj : j ≤ b.length) :
    (cell dp i j : Outcome ε Nat) = .ok (lcsAt dp i j) := by
  have hrows := h.rows
  have hlt : i < dp.length := by omega
  have hrow := h.row _ (List.getElem_mem hlt)
  rw [← List.getD_eq_getElem dp [] hlt] at hrow
  unfold cell
  rw [index_getD hlt [], ok_bind, index_getD (by omega) 0, lcsAt]

theorem Sized.storeCell_eq (h : Sized a b dp) (hi : i ≤ a.length) (hj : j ≤ b.length) (v : Nat) :
    ∃ dp', (storeCell dp i j v : Outcome ε (List (List Nat))) = .ok dp' ∧ Sized a b dp' ∧
      lcsAt dp' i j = v ∧
      ∀ i' j', (i' ≠ i ∨ j' ≠ j) → lcsAt dp' i' j' = lcsAt dp i' j' := by
  have hrows := h.rows
  have hlt : i < dp.length := by omega
  have hrow := h.row _ (List.get_mem dp ⟨i, hlt⟩)
  have hlt' : j < (dp.get ⟨i, hlt⟩).length := by omega
  refine ⟨dp.set i ((dp.get ⟨i, hlt⟩).set j v), ?_, ⟨?_, ?_⟩, ?_, ?_⟩
  · rw [storeCell, index_eq_ok hlt, ok_bind, store_eq_ok hlt', ok_bind, store_eq_ok hlt]
  · rw [List.length_set, hrows]
  · intro r hr
    rcases List.mem_or_eq_of_mem_set hr with hold | hnew
    · exact h.row r hold
    · rw [hnew, List.length_set, hrow]
  · unfold lcsAt
    rw [List.getD_eq_getElem?_getD, List.getD_eq_getElem?_getD, List.getElem?_set_self hlt,
      Option.getD_some, List.getElem?_set_self hlt', Option.getD_some]
  · intro i' j' hne
    by_cases hi' : i' = i
    · have hj' : j' ≠ j := by omega
      subst hi'
      unfold lcsAt
      rw [List.getD_eq_getElem?_getD, List.getD_eq_getElem?_getD, List.getElem?_set_self hlt,
        Option.getD_some, List.getElem?_set_ne hj'.symm, List.getD_eq_getElem dp [] hlt,
        List.getD_eq_getElem?_getD]
      rfl
    · unfold lcsAt
      rw [List.getD_eq_getElem?_getD (l := dp.set i _), List.getElem?_set_ne (Ne.symm hi'),
        ← List.getD_eq_getElem?_getD]

/-- Rows up to `i` are filled, the next one up to `j`, and every row starts with zero. -/
structure Filled (a b : Bytes) (i j : Nat) (dp : List (List Nat)) : Prop where
  sized : Sized a b dp
  entry : ∀ i' ≤ a.length, ∀ j' ≤ b.length, j' = 0 ∨ i' ≤ i ∨ i' = i + 1 ∧ j' ≤ j →
    lcsAt dp i' j' = lcsLen a b i' j'

theorem filled_zero (a b : Bytes) :
    Filled a b 0 0 (List.replicate (a.length + 1) (List.replicate (b.length + 1) 0)) := by
  constructor
  · constructor
    · exact List.length_replicate
    · intro r hr
      rw [List.eq_of_mem_replicate hr, List.length_replicate]
  · intro i hi j hj hdone
    have hlen : lcsLen a b i j = 0 := by
      rcases hdone with hj | hi | ⟨-, hj⟩
      · rw [hj, lcsLen_zero_right]
      · rw [Nat.le_zero.mp hi, lcsLen_zero_left]
      · rw [Nat.le_zero.mp hj, lcsLen_zero_right]
    have hentry :
        lcsAt (List.replicate (a.length + 1) (List.replicate (b.length + 1) 0)) i j = 0 := by
      unfold lcsAt
      rw [List.getD_replicate _ (by omega), List.getD_replicate _ (by omega)]
    rw [hlen, hentry]

theorem Filled.round (h : Filled a b i j dp) (hi : i < a.length) (hj : j < b.length) :
    ∃ dp', (lcsRound a b i j dp : Outcome ε (List (List Nat))) = .ok dp' ∧
      Filled a b i (j + 1) dp' := by
  have hdiag := h.entry i (by omega) j (by omega) (by omega)
  have hup := h.entry i (by omega) (j + 1) (by omega) (by omega)
  have hleft := h.entry (i + 1) (by omega) j (by omega) (by omega)
  obtain ⟨dp', hstore, hsized, hnew, hframe⟩ := h.sized.storeCell_eq (ε := ε) (i := i + 1)
    (j := j + 1) (by omega) (by omega) (lcsLen a b (i + 1) (j + 1))
  refine ⟨dp', ?_, hsized, ?_⟩
  · unfold lcsRound
    rw [index_getD hi 0, ok_bind, index_getD hj 0, ok_bind]
    by_cases heq : a.getD i 0 = b.getD j 0
    · rw [if_pos heq, h.sized.cell_eq (by omega) (by omega), ok_bind, hdiag, ← lcsLen_of_eq heq,
        hstore]
    · rw [if_neg heq, h.sized.cell_eq (by omega) (by omega), ok_bind,
        h.sized.cell_eq (by omega) (by omega), ok_bind, hup, hleft, ← lcsLen_of_ne heq, hstore]
  · intro i' hi' j' hj' hdone
    by_cases hsame : i' = i + 1 ∧ j' = j + 1
    · rw [hsame.1, hsame.2, hnew]
    · rw [hframe i' j' (by omega)]
      exact h.entry i' hi' j' hj' (by omega)

theorem Filled.next_row (h : Filled a b i b.length dp) : Filled a b (i + 1) 0 dp := by
  constructor
  · exact h.sized
  · intro i' hi' j' hj' hdone
    exact h.entry i' hi' j' hj' (by omega)

theorem Sized.ext (h : Sized a b dp) (h' : Sized a b dp')
    (hentry : ∀ i ≤ a.length, ∀ j ≤ b.length, lcsAt dp i j = lcsAt dp' i j) : dp = dp' := by
  have hrows := h.rows
  have hrows' := h'.rows
  apply List.ext_getElem (by omega)
  intro i hi hi'
  have hrow := h.row _ (List.getElem_mem hi)
  have hrow' := h'.row _ (List.getElem_mem hi')
  apply List.ext_getElem (by omega)
  intro j hj hj'
  have hij := hentry i (by omega) j (by omega)
  unfold lcsAt at hij
  rwa [List.getD_eq_getElem dp [] hi, List.getD_eq_getElem dp' [] hi',
    List.getD_eq_getElem _ 0 hj, List.getD_eq_getElem _ 0 hj'] at hij

theorem sized_lcsDpTable (a b : Bytes) : Sized a b (lcsDpTable a b) := by
  constructor
  · rw [lcsDpTable_eq, List.length_map, List.length_range']
  · intro r hr
    rw [lcsDpTable_eq] at hr
    obtain ⟨i, -, hi⟩ := List.mem_map.mp hr
    rw [← hi, rowFrom, List.length_map, List.length_range']

/-- Filled in place, the table is the same, and no index leaves it. -/
theorem lcsDpTableAt_eq (a b : Bytes) :
    (lcsDpTableAt a b : Outcome ε (List (List Nat))) = .ok (lcsDpTable a b) := by
  have hrow : ∀ i < a.length, ∀ dp, Filled a b i 0 dp →
      ∃ dp', (forUpTo (lcsRound a b i) b.length dp : Outcome ε (List (List Nat))) = .ok dp' ∧
        Filled a b (i + 1) 0 dp' := by
    intro i hi dp hdp
    have hround : ∀ j < b.length, ∀ dp, Filled a b i j dp →
        ∃ dp', (lcsRound a b i j dp : Outcome ε (List (List Nat))) = .ok dp' ∧
          Filled a b i (j + 1) dp' :=
      fun j hj dp hdp => hdp.round hi hj
    obtain ⟨dp', hrun, hfilled⟩ := forUpTo_invariant (P := fun j => Filled a b i j) hround hdp
    exact ⟨dp', hrun, hfilled.next_row⟩
  obtain ⟨dp, hrun, hfilled⟩ := forUpTo_invariant (P := fun i => Filled a b i 0)
    hrow (filled_zero a b)
  have hsame : dp = lcsDpTable a b := by
    apply hfilled.sized.ext (sized_lcsDpTable a b)
    intro i hi j hj
    rw [hfilled.entry i hi j hj (by omega), lcsAt_lcsDpTable hi hj]
  rw [lcsDpTableAt, hrun, hsame]

end Commands
end RustyAnt
