import RustyAnt.Commands.Following
import RustyAnt.Commands.LcsTable
import RustyAnt.Commands.Windows
import RustyAnt.Storage.Solo

/-!
# Walking back through the table

The subsequence and the matches of `LCS` are read off the table by two walks from its last
entry.  Both take the same path: over a run of equal bytes, and otherwise to the greater
neighbour.  A match is a whole run, so the matches hold the subsequence in pieces, the last
one first.
-/

namespace RustyAnt

open Lib

namespace Commands

variable {a b : Bytes} {i j fuel : Nat}

/-! ## The subsequence -/

theorem lcsSequence_of_eq (dp : List (List Nat)) (h : a.getD i 0 = b.getD j 0) :
    lcsSequence a b dp (fuel + 1) (i + 1) (j + 1) =
      lcsSequence a b dp fuel i j ++ [a.getD i 0] := by
  rw [lcsSequence, if_pos h]

theorem lcsSequence_zero_left (dp : List (List Nat)) : lcsSequence a b dp fuel 0 j = [] := by
  cases fuel <;> rfl

theorem lcsSequence_zero_right (dp : List (List Nat)) : lcsSequence a b dp fuel i 0 = [] := by
  cases fuel with
  | zero => rfl
  | succ fuel => cases i <;> rfl

/-- The walk takes at most `i + j` steps. -/
theorem lcsSequence_fuel (dp : List (List Nat)) {fuel' : Nat} (h : i + j ≤ fuel)
    (h' : i + j ≤ fuel') : lcsSequence a b dp fuel i j = lcsSequence a b dp fuel' i j := by
  induction fuel generalizing fuel' i j with
  | zero =>
      have hi : i = 0 := by omega
      subst hi
      rw [lcsSequence_zero_left, lcsSequence_zero_left]
  | succ fuel ih =>
      cases i with
      | zero => rw [lcsSequence_zero_left, lcsSequence_zero_left]
      | succ i =>
        cases j with
        | zero => rw [lcsSequence_zero_right, lcsSequence_zero_right]
        | succ j =>
          cases fuel' with
          | zero => omega
          | succ fuel' =>
            have hdiag : lcsSequence a b dp fuel i j = lcsSequence a b dp fuel' i j :=
              ih (by omega) (by omega)
            have hup : lcsSequence a b dp fuel i (j + 1) = lcsSequence a b dp fuel' i (j + 1) :=
              ih (by omega) (by omega)
            have hleft : lcsSequence a b dp fuel (i + 1) j = lcsSequence a b dp fuel' (i + 1) j :=
              ih (by omega) (by omega)
            rw [lcsSequence, lcsSequence, hdiag, hup, hleft]

theorem lcsSequence_spec (hi : i ≤ a.length) (hj : j ≤ b.length) (hfuel : i + j ≤ fuel) :
    IsCommon (lcsSequence a b (lcsDpTable a b) fuel i j) (a.take i) (b.take j) ∧
      (lcsSequence a b (lcsDpTable a b) fuel i j).length = lcsLen a b i j := by
  induction fuel generalizing i j with
  | zero =>
      have hi : i = 0 := by omega
      subst hi
      exact ⟨isCommon_nil _ _, (lcsLen_zero_left a b j).symm⟩
  | succ fuel ih =>
      cases i with
      | zero =>
          rw [lcsSequence_zero_left, lcsLen_zero_left]
          exact ⟨isCommon_nil _ _, rfl⟩
      | succ i =>
        cases j with
        | zero =>
            rw [lcsSequence_zero_right, lcsLen_zero_right]
            exact ⟨isCommon_nil _ _, rfl⟩
        | succ j =>
          by_cases heq : a.getD i 0 = b.getD j 0
          · obtain ⟨hcommon, hlen⟩ := ih (i := i) (j := j) (by omega) (by omega) (by omega)
            rw [lcsSequence_of_eq _ heq, lcsLen_of_eq heq, List.length_append, hlen,
              take_succ_getD hi, take_succ_getD hj, ← heq]
            exact ⟨hcommon.concat _, rfl⟩
          · have hup := lcsAt_lcsDpTable (a := a) (b := b) (i := i) (j := j + 1) (by omega) hj
            have hleft := lcsAt_lcsDpTable (a := a) (b := b) (i := i + 1) (j := j) hi (by omega)
            rw [lcsSequence, if_neg heq, lcsLen_of_ne heq, hup, hleft]
            by_cases hle : lcsLen a b (i + 1) j ≤ lcsLen a b i (j + 1)
            · obtain ⟨hcommon, hlen⟩ := ih (i := i) (j := j + 1) (by omega) hj (by omega)
              rw [if_pos hle, max_eq_left hle, take_succ_getD hi]
              exact ⟨hcommon.concat_left _, hlen⟩
            · obtain ⟨hcommon, hlen⟩ := ih (i := i + 1) (j := j) hi (by omega) (by omega)
              rw [if_neg hle, max_eq_right (by omega), take_succ_getD hj]
              exact ⟨hcommon.concat_right _, hlen⟩

/-! ## Runs -/

theorem matchRun_of_eq (h : a.getD i 0 = b.getD j 0) :
    matchRun a b (i + 1) (j + 1) = matchRun a b i j + 1 := by
  rw [matchRun, if_pos h]

theorem matchRun_le (a b : Bytes) (i j : Nat) : matchRun a b i j ≤ i ∧ matchRun a b i j ≤ j := by
  fun_induction matchRun a b i j with
  | case1 i j heq ih => omega
  | case2 i j hne => omega
  | case3 i j hend => omega

theorem matchRun_bytes (hi : i ≤ a.length) (hj : j ≤ b.length) :
    (a.take i).drop (i - matchRun a b i j) = (b.take j).drop (j - matchRun a b i j) := by
  fun_induction matchRun a b i j with
  | case1 i j heq ih =>
      have hrest := ih (by omega) (by omega)
      have hle := matchRun_le a b i j
      have hlen := List.length_take (i := i) (l := a)
      have hlen' := List.length_take (i := j) (l := b)
      rw [take_succ_getD hi, take_succ_getD hj, Nat.succ_sub_succ, Nat.succ_sub_succ,
        List.drop_append_of_le_length (by omega), List.drop_append_of_le_length (by omega),
        hrest, heq]
  | case2 i j hne =>
      rw [Nat.sub_zero, Nat.sub_zero, List.drop_eq_nil_of_le (List.length_take_le _ _),
        List.drop_eq_nil_of_le (List.length_take_le _ _)]
  | case3 i j hend =>
      rw [Nat.sub_zero, Nat.sub_zero, List.drop_eq_nil_of_le (List.length_take_le _ _),
        List.drop_eq_nil_of_le (List.length_take_le _ _)]

theorem lcsSequence_run (dp : List (List Nat)) {fuel' : Nat} (hi : i ≤ a.length)
    (h : i + j ≤ fuel) (h' : i - matchRun a b i j + (j - matchRun a b i j) ≤ fuel') :
    lcsSequence a b dp fuel i j =
      lcsSequence a b dp fuel' (i - matchRun a b i j) (j - matchRun a b i j) ++
        (a.take i).drop (i - matchRun a b i j) := by
  induction i generalizing j fuel with
  | zero =>
      rw [Nat.zero_sub, lcsSequence_zero_left, lcsSequence_zero_left]
      rfl
  | succ i ih =>
      have hstay : matchRun a b (i + 1) j = 0 → lcsSequence a b dp fuel (i + 1) j =
          lcsSequence a b dp fuel' (i + 1 - matchRun a b (i + 1) j)
            (j - matchRun a b (i + 1) j) ++
          (a.take (i + 1)).drop (i + 1 - matchRun a b (i + 1) j) := by
        intro hzero
        rw [hzero, Nat.sub_zero] at h'
        rw [hzero, Nat.sub_zero, Nat.sub_zero, lcsSequence_fuel dp h h',
          List.drop_eq_nil_of_le (List.length_take_le _ _), List.append_nil]
      cases j with
      | zero => exact hstay rfl
      | succ j =>
        by_cases heq : a.getD i 0 = b.getD j 0
        · cases fuel with
          | zero => omega
          | succ fuel =>
            have hrun := matchRun_of_eq heq
            rw [hrun, Nat.add_sub_add_right, Nat.add_sub_add_right] at h'
            have hrest := @ih j fuel (by omega) (by omega) h'
            have hlen := List.length_take (i := i) (l := a)
            rw [lcsSequence_of_eq dp heq, hrest, hrun, Nat.add_sub_add_right,
              Nat.add_sub_add_right, take_succ_getD hi,
              List.drop_append_of_le_length (by omega), List.append_assoc]
        · exact hstay (by rw [matchRun, if_neg heq])

/-! ## The matches -/

/-- A match as the source has it: the first and last index in `a` and in `b`. -/
abbrev LcsMatch := Nat × Nat × Nat × Nat

namespace LcsMatch

def aLo (m : LcsMatch) : Nat := m.1
def aHi (m : LcsMatch) : Nat := m.2.1
def bLo (m : LcsMatch) : Nat := m.2.2.1
def bHi (m : LcsMatch) : Nat := m.2.2.2

/-- `a_hi - a_lo + 1` -/
def length (m : LcsMatch) : Nat := m.aHi - m.aLo + 1

/-- `xs[lo..=hi]` -/
def range (xs : Bytes) (lo hi : Nat) : Bytes := (xs.take (hi + 1)).drop lo

def content (a : Bytes) (m : LcsMatch) : Bytes := range a m.aLo m.aHi

/-- Two ranges inside the strings, of the same bytes. -/
structure Is (a b : Bytes) (m : LcsMatch) : Prop where
  a_le : m.aLo ≤ m.aHi
  a_lt : m.aHi < a.length
  b_le : m.bLo ≤ m.bHi
  b_lt : m.bHi < b.length
  length : m.bHi - m.bLo = m.aHi - m.aLo
  content : range a m.aLo m.aHi = range b m.bLo m.bHi

/-- The second match lies before the first one in both strings. -/
def After (m m' : LcsMatch) : Prop := m'.aHi < m.aLo ∧ m'.bHi < m.bLo

theorem Is.length_content {m : LcsMatch} (h : m.Is a b) : (m.content a).length = m.length := by
  have hle := h.a_le
  have hlt := h.a_lt
  unfold LcsMatch.content range LcsMatch.length
  rw [List.length_drop, List.length_take]
  omega

end LcsMatch

/-- The match that ends before position `(i + 1, j + 1)`. -/
def runMatch (a b : Bytes) (i j : Nat) : LcsMatch :=
  (i + 1 - matchRun a b (i + 1) (j + 1), i, j + 1 - matchRun a b (i + 1) (j + 1), j)

section RunMatch

variable (heq : a.getD i 0 = b.getD j 0)

include heq

theorem runMatch_length : (runMatch a b i j).length = matchRun a b (i + 1) (j + 1) := by
  have hle := matchRun_le a b i j
  have hrun := matchRun_of_eq heq
  show i - (i + 1 - matchRun a b (i + 1) (j + 1)) + 1 = _
  omega

theorem runMatch_is (hi : i < a.length) (hj : j < b.length) : (runMatch a b i j).Is a b := by
  have hle := matchRun_le a b i j
  have hrun := matchRun_of_eq heq
  constructor
  · show i + 1 - matchRun a b (i + 1) (j + 1) ≤ i
    omega
  · exact hi
  · show j + 1 - matchRun a b (i + 1) (j + 1) ≤ j
    omega
  · exact hj
  · show j - (j + 1 - matchRun a b (i + 1) (j + 1)) = i - (i + 1 - matchRun a b (i + 1) (j + 1))
    omega
  · exact matchRun_bytes hi hj

theorem lcsMatches_of_eq (dp : List (List Nat)) (minLen : Nat) :
    lcsMatches a b dp minLen (fuel + 1) (i + 1) (j + 1) =
      (if minLen ≤ (runMatch a b i j).length then [runMatch a b i j] else []) ++
        lcsMatches a b dp minLen fuel (runMatch a b i j).aLo (runMatch a b i j).bLo := by
  rw [runMatch_length heq, lcsMatches, if_pos heq]
  dsimp only
  split <;> rfl

end RunMatch

/-- Every match lies before the position that the walk starts from. -/
theorem lcsMatches_is (dp : List (List Nat)) (minLen : Nat) (hi : i ≤ a.length)
    (hj : j ≤ b.length) {m : LcsMatch} (hm : m ∈ lcsMatches a b dp minLen fuel i j) :
    m.Is a b ∧ m.aHi < i ∧ m.bHi < j := by
  induction fuel generalizing i j with
  | zero => cases hm
  | succ fuel ih =>
      cases i with
      | zero => cases hm
      | succ i =>
        cases j with
        | zero => cases hm
        | succ j =>
          by_cases heq : a.getD i 0 = b.getD j 0
          · have hthis := runMatch_is heq hi hj
            have ha := hthis.a_le
            have hb := hthis.b_le
            have haHi : (runMatch a b i j).aHi = i := rfl
            have hbHi : (runMatch a b i j).bHi = j := rfl
            rw [lcsMatches_of_eq heq] at hm
            rcases List.mem_append.mp hm with hfirst | hrest
            · have hsame : m = runMatch a b i j := by
                split at hfirst
                · exact List.mem_singleton.mp hfirst
                · cases hfirst
              rw [hsame]
              exact ⟨hthis, by omega, by omega⟩
            · obtain ⟨his, hlt, hlt'⟩ := ih (by omega) (by omega) hrest
              exact ⟨his, by omega, by omega⟩
          · rw [lcsMatches, if_neg heq] at hm
            split at hm
            · obtain ⟨his, hlt, hlt'⟩ := ih (by omega) hj hm
              exact ⟨his, by omega, hlt'⟩
            · obtain ⟨his, hlt, hlt'⟩ := ih hi (by omega) hm
              exact ⟨his, hlt, by omega⟩

theorem lcsMatches_pairwise (dp : List (List Nat)) (minLen : Nat) (hi : i ≤ a.length)
    (hj : j ≤ b.length) : (lcsMatches a b dp minLen fuel i j).Pairwise LcsMatch.After := by
  induction fuel generalizing i j with
  | zero => exact List.Pairwise.nil
  | succ fuel ih =>
      cases i with
      | zero => exact List.Pairwise.nil
      | succ i =>
        cases j with
        | zero => exact List.Pairwise.nil
        | succ j =>
          by_cases heq : a.getD i 0 = b.getD j 0
          · have hthis := runMatch_is heq hi hj
            have ha : (runMatch a b i j).aLo ≤ i := hthis.a_le
            have hb : (runMatch a b i j).bLo ≤ j := hthis.b_le
            have hrest : (lcsMatches a b dp minLen fuel (runMatch a b i j).aLo
                (runMatch a b i j).bLo).Pairwise LcsMatch.After := ih (by omega) (by omega)
            rw [lcsMatches_of_eq heq]
            split
            · refine List.pairwise_cons.mpr ⟨?_, hrest⟩
              intro m hm
              exact (lcsMatches_is dp minLen (by omega) (by omega) hm).2
            · exact hrest
          · rw [lcsMatches, if_neg heq]
            split
            · exact ih (by omega) hj
            · exact ih hi (by omega)

/-- A least length leaves short matches out, and nothing else. -/
theorem lcsMatches_minLen (dp : List (List Nat)) (minLen : Nat) :
    lcsMatches a b dp minLen fuel i j =
      (lcsMatches a b dp 0 fuel i j).filter fun m => decide (minLen ≤ LcsMatch.length m) := by
  induction fuel generalizing i j with
  | zero => rfl
  | succ fuel ih =>
      cases i with
      | zero => rfl
      | succ i =>
        cases j with
        | zero => rfl
        | succ j =>
          by_cases heq : a.getD i 0 = b.getD j 0
          · rw [lcsMatches_of_eq heq, lcsMatches_of_eq heq, if_pos (Nat.zero_le _),
              List.filter_append, ← ih, List.filter_singleton]
            by_cases hle : minLen ≤ (runMatch a b i j).length
            · rw [if_pos hle, decide_eq_true hle]
              rfl
            · rw [if_neg hle, decide_eq_false hle]
              rfl
          · rw [lcsMatches, lcsMatches, if_neg heq, if_neg heq, ih, ih]
            split <;> rfl

theorem lcsMatches_content (dp : List (List Nat)) (hi : i ≤ a.length) (hj : j ≤ b.length)
    (hfuel : i + j ≤ fuel) :
    (lcsMatches a b dp 0 fuel i j).reverse.flatMap (LcsMatch.content a) =
      lcsSequence a b dp fuel i j := by
  induction fuel generalizing i j with
  | zero => rfl
  | succ fuel ih =>
      cases i with
      | zero => rfl
      | succ i =>
        cases j with
        | zero => rfl
        | succ j =>
          by_cases heq : a.getD i 0 = b.getD j 0
          · have hthis := runMatch_is heq hi hj
            have ha : (runMatch a b i j).aLo ≤ i := hthis.a_le
            have hb : (runMatch a b i j).bLo ≤ j := hthis.b_le
            have hrest := ih (i := (runMatch a b i j).aLo) (j := (runMatch a b i j).bLo)
              (by omega) (by omega) (by omega)
            rw [lcsMatches_of_eq heq, if_pos (Nat.zero_le _), List.singleton_append,
              List.reverse_cons, List.flatMap_append, hrest, List.flatMap_singleton]
            symm
            apply lcsSequence_run dp hi hfuel
            show (runMatch a b i j).aLo + (runMatch a b i j).bLo ≤ fuel
            omega
          · rw [lcsMatches, lcsSequence, if_neg heq, if_neg heq]
            split
            · exact ih (by omega) hj (by omega)
            · exact ih hi (by omega) (by omega)

theorem lcsMatches_total (hi : i ≤ a.length) (hj : j ≤ b.length) (hfuel : i + j ≤ fuel) :
    ((lcsMatches a b (lcsDpTable a b) 0 fuel i j).map LcsMatch.length).sum = lcsLen a b i j := by
  have hlengths : (lcsMatches a b (lcsDpTable a b) 0 fuel i j).map LcsMatch.length =
      (lcsMatches a b (lcsDpTable a b) 0 fuel i j).map
        (List.length ∘ LcsMatch.content a) := by
    apply List.map_congr_left
    intro m hm
    exact (lcsMatches_is _ 0 hi hj hm).1.length_content.symm
  calc ((lcsMatches a b (lcsDpTable a b) 0 fuel i j).map LcsMatch.length).sum
      = ((lcsMatches a b (lcsDpTable a b) 0 fuel i j).reverse.flatMap
          (LcsMatch.content a)).length := by
        rw [hlengths, List.length_flatMap, List.map_reverse, List.sum_reverse]
        rfl
    _ = (lcsSequence a b (lcsDpTable a b) fuel i j).length := by
        rw [lcsMatches_content _ hi hj hfuel]
    _ = lcsLen a b i j := (lcsSequence_spec hi hj hfuel).2

/-! ## By their indices -/

open Outcome (index forUpTo ok_bind)

variable {ε : Type}

/-- `lcs_sequence`, by its indices. -/
def lcsSequenceAt (a b : Bytes) (dp : List (List Nat)) : (fuel i j : Nat) → Outcome ε Bytes
  | fuel + 1, i + 1, j + 1 => do
      let x ← index a i
      let y ← index b j
      if x = y then
        let out ← lcsSequenceAt a b dp fuel i j
        return out ++ [x]
      else
        let up ← cell dp i (j + 1)
        let left ← cell dp (i + 1) j
        if left ≤ up then lcsSequenceAt a b dp fuel i (j + 1)
        else lcsSequenceAt a b dp fuel (i + 1) j
  | 0, _ + 1, _ + 1 => .panic
  | _, _, _ => return []

/-- The inner loop of `lcs_matches`, by its indices. -/
def matchRunAt (a b : Bytes) : (i j : Nat) → Outcome ε Nat
  | i + 1, j + 1 => do
      let x ← index a i
      let y ← index b j
      if x = y then
        let run ← matchRunAt a b i j
        return run + 1
      else return 0
  | _, _ => return 0

/-- `lcs_matches`, by its indices. -/
def lcsMatchesAt (a b : Bytes) (dp : List (List Nat)) (minLen : Nat) :
    (fuel i j : Nat) → Outcome ε (List LcsMatch)
  | fuel + 1, i + 1, j + 1 => do
      let x ← index a i
      let y ← index b j
      if x = y then
        let run ← matchRunAt a b (i + 1) (j + 1)
        let rest ← lcsMatchesAt a b dp minLen fuel (i + 1 - run) (j + 1 - run)
        return if minLen ≤ run then (i + 1 - run, i, j + 1 - run, j) :: rest else rest
      else
        let up ← cell dp i (j + 1)
        let left ← cell dp (i + 1) j
        if left ≤ up then lcsMatchesAt a b dp minLen fuel i (j + 1)
        else lcsMatchesAt a b dp minLen fuel (i + 1) j
  | 0, _ + 1, _ + 1 => .panic
  | _, _, _ => return []

/-- What `handle_lcs` computes from the two strings, by its indices. -/
def lcsReplyAt (a b : Bytes) (opts : LcsOpts) : Outcome ε RespReply := do
  let dp ← lcsDpTableAt a b
  let len ← cell dp a.length b.length
  let fuel := a.length + b.length
  if opts.wantLen then return .integer (toI64 len)
  else if opts.wantIdx then
    let found ← lcsMatchesAt a b dp opts.minMatchLen fuel a.length b.length
    let total := (found.map LcsMatch.length).sum
    return .array [.text "matches", .array (found.map (lcsMatchReply opts.withMatchLen)),
      .text "len", .integer (toI64 total)]
  else
    let out ← lcsSequenceAt a b dp fuel a.length b.length
    return .bulkString (some out)

theorem matchRunAt_eq (hi : i ≤ a.length) (hj : j ≤ b.length) :
    (matchRunAt a b i j : Outcome ε Nat) = .ok (matchRun a b i j) := by
  fun_induction matchRun a b i j with
  | case1 i j heq ih =>
      have hrest := ih (by omega) (by omega)
      rw [matchRunAt, index_getD hi 0, ok_bind, index_getD hj 0, ok_bind, if_pos heq, hrest]
      rfl
  | case2 i j hne =>
      rw [matchRunAt, index_getD hi 0, ok_bind, index_getD hj 0, ok_bind, if_neg hne]
      rfl
  | case3 i j hend =>
      rw [matchRunAt]
      · rfl
      · exact hend

theorem lcsSequenceAt_eq (hi : i ≤ a.length) (hj : j ≤ b.length) (hfuel : i + j ≤ fuel) :
    (lcsSequenceAt a b (lcsDpTable a b) fuel i j : Outcome ε Bytes) =
      .ok (lcsSequence a b (lcsDpTable a b) fuel i j) := by
  induction fuel generalizing i j with
  | zero =>
      have hi : i = 0 := by omega
      subst hi
      rfl
  | succ fuel ih =>
      cases i with
      | zero => rfl
      | succ i =>
        cases j with
        | zero => rfl
        | succ j =>
          have hsized := sized_lcsDpTable a b
          rw [lcsSequenceAt, lcsSequence, index_getD hi 0, ok_bind, index_getD hj 0, ok_bind]
          by_cases heq : a.getD i 0 = b.getD j 0
          · rw [if_pos heq, if_pos heq, ih (by omega) (by omega) (by omega)]
            rfl
          · rw [if_neg heq, if_neg heq, hsized.cell_eq (by omega) hj, ok_bind,
              hsized.cell_eq hi (by omega), ok_bind]
            split
            · exact ih (by omega) hj (by omega)
            · exact ih hi (by omega) (by omega)

theorem lcsMatchesAt_eq (minLen : Nat) (hi : i ≤ a.length) (hj : j ≤ b.length)
    (hfuel : i + j ≤ fuel) :
    (lcsMatchesAt a b (lcsDpTable a b) minLen fuel i j : Outcome ε (List LcsMatch)) =
      .ok (lcsMatches a b (lcsDpTable a b) minLen fuel i j) := by
  induction fuel generalizing i j with
  | zero =>
      have hi : i = 0 := by omega
      subst hi
      rfl
  | succ fuel ih =>
      cases i with
      | zero => rfl
      | succ i =>
        cases j with
        | zero => rfl
        | succ j =>
          have hsized := sized_lcsDpTable a b
          rw [lcsMatchesAt, lcsMatches, index_getD hi 0, ok_bind, index_getD hj 0, ok_bind]
          by_cases heq : a.getD i 0 = b.getD j 0
          · have hrun := matchRun_of_eq heq
            rw [if_pos heq, if_pos heq, matchRunAt_eq hi hj, ok_bind,
              ih (by omega) (by omega) (by omega)]
            rfl
          · rw [if_neg heq, if_neg heq, hsized.cell_eq (by omega) hj, ok_bind,
              hsized.cell_eq hi (by omega), ok_bind]
            split
            · exact ih (by omega) hj (by omega)
            · exact ih hi (by omega) (by omega)

/-- No index of `LCS` is out of bounds. -/
theorem lcsReplyAt_eq (a b : Bytes) (opts : LcsOpts) :
    (lcsReplyAt a b opts : Outcome ε RespReply) = .ok (lcsReply a b opts) := by
  have hlen := (sized_lcsDpTable a b).cell_eq (ε := ε) (le_refl a.length) (le_refl b.length)
  unfold lcsReplyAt lcsReply
  rw [lcsDpTableAt_eq, ok_bind, hlen, ok_bind]
  dsimp only
  split
  · rfl
  split
  · rw [lcsMatchesAt_eq _ (le_refl _) (le_refl _) (le_refl _)]
    rfl
  · rw [lcsSequenceAt_eq (le_refl _) (le_refl _) (le_refl _)]
    rfl

/-! ## The command -/

/-- The key holds the string; a key that is missing or has expired counts as the empty one. -/
def HoldsString (env : Solo) (s : Keyspace) (key : String) (v : Bytes) : Prop :=
  (v = [] ∧ ∀ n, env.seen n s key = none) ∨
    ∃ exp token, s key = some (⟨exp, .string v⟩, token) ∧
      ∀ n, StoredValue.isExpired ⟨exp, .string v⟩ (env.now n) = false

variable {env : Solo} {s : Keyspace} {n : Nat} {key key' : String} {v : Bytes}

theorem HoldsString.seen_swept (h : HoldsString env s key v) (n : Nat) (key' : String) :
    HoldsString env (env.swept n s key') key v := by
  by_cases hkey : key = key'
  · subst hkey
    rcases h with ⟨hv, hmiss⟩ | ⟨exp, token, hs, hlive⟩
    · have hgone : env.swept n s key key = none := Solo.swept_self.trans (hmiss n)
      exact .inl ⟨hv, fun m => Solo.seen_of_none hgone⟩
    · rw [Solo.swept_of_seen (Solo.seen_of_live hs (hlive n))]
      exact .inr ⟨exp, token, hs, hlive⟩
  · have hsame : env.swept n s key' key = s key := Solo.swept_of_ne hkey
    unfold HoldsString Solo.seen
    rw [hsame]
    exact h

theorem getString_runs (h : env.Faultless) (hv : HoldsString env s key v) (n : Nat) :
    ∃ r, env.runFrom n (Storage.getString key) s = (.ok r, n + 1, env.swept n s key) ∧
      r.getD [] = v := by
  have hrun := Solo.read_runs h View.string n key none some s
  rcases hv with ⟨hnil, hmiss⟩ | ⟨exp, token, hs, hlive⟩
  · rw [hmiss n] at hrun
    exact ⟨none, hrun, hnil.symm⟩
  · rw [Solo.seen_of_live hs (hlive n)] at hrun
    exact ⟨some v, hrun, rfl⟩

/-- `LCS` answers from the two strings. -/
theorem handleLcs_runs (h : env.Faultless) {argA argB : Bytes} {keyA keyB : String}
    {opts : List Bytes} {o : LcsOpts} (hA : argAsStr argA = .ok keyA)
    (hB : argAsStr argB = .ok keyB) (hopts : parseLcsOpts opts {} = .ok o)
    (hcheck : o.check = .ok ()) (ha : HoldsString env s keyA a) (hb : HoldsString env s keyB b) :
    (env.run (handleLcs (argA :: argB :: opts)) s).1 = .ok (lcsReply a b o) := by
  have hb' := hb.seen_swept 0 keyA
  obtain ⟨ra, hreadA, hra⟩ := getString_runs h ha 0
  obtain ⟨rb, hreadB, hrb⟩ := getString_runs h hb' 1
  have hrun : env.runFrom 0 (handleLcs (argA :: argB :: opts)) s =
      env.runFrom 2 (.done (.ok (lcsReply (ra.getD []) (rb.getD []) o)))
        (env.swept 1 (env.swept 0 s keyA) keyB) := by
    refine (Solo.runFrom_parse hA).trans ?_
    refine (Solo.runFrom_parse hB).trans ?_
    refine (Solo.runFrom_parse hopts).trans ?_
    refine (Solo.runFrom_parse hcheck).trans ?_
    refine (Solo.runFrom_step hreadA).trans ?_
    exact Solo.runFrom_step hreadB
  unfold Solo.run
  rw [hrun, hra, hrb]
  rfl

/-! ## What it answers -/

/-- A longest common subsequence of the strings, its length, and its pieces from last to
first. -/
structure IsLcs (a b : Bytes) (n : Nat) (c : Bytes) (runs : List LcsMatch) : Prop where
  longest : IsLongest n a b
  common : IsCommon c a b
  length : c.length = n
  is : ∀ m ∈ runs, m.Is a b
  decreasing : runs.Pairwise LcsMatch.After
  total : (runs.map LcsMatch.length).sum = n
  content : runs.reverse.flatMap (LcsMatch.content a) = c

def longRuns (m : Nat) (runs : List LcsMatch) : List LcsMatch :=
  runs.filter fun r => decide (m ≤ r.length)

/-- The answer in each of the three modes. -/
def lcsAnswer (o : LcsOpts) (n : Nat) (c : Bytes) (runs : List LcsMatch) : RespReply :=
  if o.wantLen then .integer (toI64 n)
  else if o.wantIdx then
    .array [.text "matches",
      .array ((longRuns o.minMatchLen runs).map (lcsMatchReply o.withMatchLen)), .text "len",
      .integer (toI64 ((longRuns o.minMatchLen runs).map LcsMatch.length).sum)]
  else .bulkString (some c)

def lcsOf (a b : Bytes) : Bytes :=
  lcsSequence a b (lcsDpTable a b) (a.length + b.length) a.length b.length

def lcsRuns (a b : Bytes) : List LcsMatch :=
  lcsMatches a b (lcsDpTable a b) 0 (a.length + b.length) a.length b.length

theorem lcsReply_eq (a b : Bytes) (o : LcsOpts) :
    lcsReply a b o = lcsAnswer o (lcsLen a b a.length b.length) (lcsOf a b) (lcsRuns a b) := by
  unfold lcsReply lcsAnswer
  dsimp only
  rw [lcsAt_lcsDpTable (le_refl _) (le_refl _), lcsMatches_minLen]
  rfl

theorem isLcs (a b : Bytes) :
    IsLcs a b (lcsLen a b a.length b.length) (lcsOf a b) (lcsRuns a b) := by
  have hsequence := lcsSequence_spec (le_refl a.length) (le_refl b.length) (le_refl _)
  have hlongest := isLongest_lcsLen (le_refl a.length) (le_refl b.length)
  rw [List.take_length, List.take_length] at hsequence hlongest
  constructor
  · exact hlongest
  · exact hsequence.1
  · exact hsequence.2
  · intro m hm
    exact (lcsMatches_is _ 0 (le_refl _) (le_refl _) hm).1
  · exact lcsMatches_pairwise _ 0 (le_refl _) (le_refl _)
  · exact lcsMatches_total (le_refl _) (le_refl _) (le_refl _)
  · exact lcsMatches_content _ (le_refl _) (le_refl _) (le_refl _)

/-- `LCS` answers with a longest common subsequence in every mode, and no index leaves the
strings or the table. -/
theorem lcs_longest (h : env.Faultless) {argA argB : Bytes} {keyA keyB : String}
    (hA : argAsStr argA = .ok keyA) (hB : argAsStr argB = .ok keyB)
    (ha : HoldsString env s keyA a) (hb : HoldsString env s keyB b) :
    ∃ n c runs, IsLcs a b n c runs ∧
      ∀ opts o, parseLcsOpts opts {} = .ok o → o.check = .ok () →
        (env.run (handleLcs (argA :: argB :: opts)) s).1 = .ok (lcsAnswer o n c runs) ∧
        (lcsReplyAt a b o : Outcome RustyAntError RespReply) = .ok (lcsAnswer o n c runs) := by
  refine ⟨_, _, _, isLcs a b, ?_⟩
  intro opts o hopts hcheck
  have hreply := handleLcs_runs h hA hB hopts hcheck ha hb
  have hindex := lcsReplyAt_eq (ε := RustyAntError) a b o
  rw [lcsReply_eq] at hreply hindex
  exact ⟨hreply, hindex⟩

/-! ## Two strings -/

/-- `a` holds `axb` and `b` holds `ab`. -/
def twoStrings : Keyspace := fun key =>
  if key = "a" then some (⟨none, .string [97, 120, 98]⟩, "t")
  else if key = "b" then some (⟨none, .string [97, 98]⟩, "u")
  else none

theorem twoStrings_a : HoldsString (.still 0) twoStrings "a" [97, 120, 98] :=
  .inr ⟨none, "t", rfl, fun _ => rfl⟩

theorem twoStrings_b : HoldsString (.still 0) twoStrings "b" [97, 98] :=
  .inr ⟨none, "u", rfl, fun _ => rfl⟩

theorem lcs_longest_twoStrings :
    ∃ n c runs, IsLcs [97, 120, 98] [97, 98] n c runs ∧
      ∀ opts o, parseLcsOpts opts {} = .ok o → o.check = .ok () →
        ((Solo.still 0).run (handleLcs (Rdb.asBytes "a" :: Rdb.asBytes "b" :: opts))
            twoStrings).1 = .ok (lcsAnswer o n c runs) ∧
        (lcsReplyAt [97, 120, 98] [97, 98] o : Outcome RustyAntError RespReply) =
          .ok (lcsAnswer o n c runs) :=
  lcs_longest (Solo.still_faultless 0) (argAsStr_asBytes "a") (argAsStr_asBytes "b")
    twoStrings_a twoStrings_b

/-! ## The reported length -/

/-- The position from which the walk goes on. -/
def walkBack (a b : Bytes) : Nat × Nat → Nat × Nat
  | (i + 1, j + 1) =>
      if a.getD i 0 = b.getD j 0 then
        (i + 1 - matchRun a b (i + 1) (j + 1), j + 1 - matchRun a b (i + 1) (j + 1))
      else if lcsLen a b (i + 1) j ≤ lcsLen a b i (j + 1) then (i, j + 1)
      else (i + 1, j)
  | p => p

/-- Every run of equal bytes that the walk from a position meets has `m` bytes at least. -/
def LongRuns (a b : Bytes) (m : Nat) (p : Nat × Nat) : Prop :=
  ∀ k, let q := (walkBack a b)^[k] p
    0 < matchRun a b q.1 q.2 → m ≤ matchRun a b q.1 q.2

theorem longRuns_iff {m : Nat} {p : Nat × Nat} :
    LongRuns a b m p ↔
      (0 < matchRun a b p.1 p.2 → m ≤ matchRun a b p.1 p.2) ∧ LongRuns a b m (walkBack a b p) := by
  constructor
  · intro h
    exact ⟨h 0, fun k => h (k + 1)⟩
  · intro h k
    cases k with
    | zero => exact h.1
    | succ k => exact h.2 k

theorem longRuns_edge {m : Nat} {p : Nat × Nat} (hstay : walkBack a b p = p)
    (hrun : matchRun a b p.1 p.2 = 0) : LongRuns a b m p := by
  intro k
  have hsame : (walkBack a b)^[k] p = p := Function.iterate_fixed hstay k
  dsimp only
  rw [hsame]
  omega

theorem lcsMatches_long {m : Nat} (hi : i ≤ a.length) (hj : j ≤ b.length) (hfuel : i + j ≤ fuel) :
    (∀ r ∈ lcsMatches a b (lcsDpTable a b) 0 fuel i j, m ≤ LcsMatch.length r) ↔
      LongRuns a b m (i, j) := by
  induction fuel generalizing i j with
  | zero =>
      have hi : i = 0 := by omega
      subst hi
      exact iff_of_true nofun (longRuns_edge rfl rfl)
  | succ fuel ih =>
      cases i with
      | zero => exact iff_of_true nofun (longRuns_edge rfl rfl)
      | succ i =>
        cases j with
        | zero => exact iff_of_true nofun (longRuns_edge rfl rfl)
        | succ j =>
          rw [longRuns_iff]
          by_cases heq : a.getD i 0 = b.getD j 0
          · have hthis := runMatch_is heq hi hj
            have ha : (runMatch a b i j).aLo ≤ i := hthis.a_le
            have hb : (runMatch a b i j).bLo ≤ j := hthis.b_le
            have hrest := ih (i := (runMatch a b i j).aLo) (j := (runMatch a b i j).bLo)
              (by omega) (by omega) (by omega)
            have hpos : 0 < matchRun a b (i + 1) (j + 1) := by
              rw [matchRun_of_eq heq]
              omega
            rw [lcsMatches_of_eq heq, if_pos (Nat.zero_le _), List.singleton_append,
              List.forall_mem_cons, hrest, runMatch_length heq, walkBack, if_pos heq]
            exact and_congr_left' ⟨fun h _ => h, fun h => h hpos⟩
          · have hup := lcsAt_lcsDpTable (a := a) (b := b) (i := i) (j := j + 1) (by omega) hj
            have hleft := lcsAt_lcsDpTable (a := a) (b := b) (i := i + 1) (j := j) hi (by omega)
            have hnone : matchRun a b (i + 1) (j + 1) = 0 := by rw [matchRun, if_neg heq]
            rw [lcsMatches, if_neg heq, hup, hleft, walkBack, if_neg heq, hnone,
              and_iff_right (by omega)]
            split
            · exact ih (by omega) hj (by omega)
            · exact ih hi (by omega) (by omega)

theorem sum_longRuns {m : Nat} {runs : List LcsMatch} :
    ((longRuns m runs).map LcsMatch.length).sum ≤ (runs.map LcsMatch.length).sum ∧
      (((longRuns m runs).map LcsMatch.length).sum = (runs.map LcsMatch.length).sum ↔
        ∀ r ∈ runs, m ≤ r.length) := by
  unfold longRuns
  induction runs with
  | nil => exact ⟨le_refl _, iff_of_true rfl nofun⟩
  | cons r runs ih =>
      have hpos : 0 < r.length := Nat.succ_pos _
      have hbound := ih.1
      rw [List.filter_cons, List.forall_mem_cons, ← ih.2, List.map_cons, List.sum_cons]
      by_cases hle : m ≤ r.length
      · rw [decide_eq_true hle, if_pos rfl, List.map_cons, List.sum_cons]
        omega
      · rw [decide_eq_false hle, if_neg (by decide)]
        omega

/-- `LCS IDX` reports the length that `LCS LEN` answers exactly when no run that the walk
meets is left out. -/
theorem lcs_len_iff (h : env.Faultless) {argA argB word : Bytes} {keyA keyB : String}
    {opts : List Bytes} {o : LcsOpts} (hA : argAsStr argA = .ok keyA)
    (hB : argAsStr argB = .ok keyB) (hopts : parseLcsOpts opts {} = .ok o)
    (hcheck : o.check = .ok ()) (hidx : o.wantIdx = true) (hword : optionWord word = .ok "LEN")
    (ha : HoldsString env s keyA a) (hb : HoldsString env s keyB b)
    (hmax : (a.length : Int) ≤ i64Max) :
    ∃ found total len,
      (env.run (handleLcs (argA :: argB :: opts)) s).1 =
        .ok (.array [.text "matches", .array found, .text "len", .integer total]) ∧
      (env.run (handleLcs [argA, argB, word]) s).1 = .ok (.integer len) ∧
      (total = len ↔ LongRuns a b o.minMatchLen (a.length, b.length)) := by
  have hlen : o.wantLen = false := by
    cases hwant : o.wantLen with
    | false => rfl
    | true =>
        unfold LcsOpts.check at hcheck
        rw [hwant, hidx] at hcheck
        cases hcheck
  have hword' : parseLcsOpts [word] {} = .ok { wantLen := true } := by
    rw [parseLcsOpts, hword]
    rfl
  have hreply := handleLcs_runs h hA hB hopts hcheck ha hb
  have hreply' := handleLcs_runs h hA hB hword' rfl ha hb
  rw [lcsReply_eq, lcsAnswer, hlen, if_neg (by decide), hidx, if_pos rfl] at hreply
  rw [lcsReply_eq, lcsAnswer, if_pos rfl] at hreply'
  refine ⟨_, _, _, hreply, hreply', ?_⟩
  have htotal := (isLcs a b).total
  have hbound := lcsLen_le_left (le_refl a.length) (le_refl b.length)
  have hlong := lcsMatches_long (m := o.minMatchLen) (le_refl a.length) (le_refl b.length)
    (le_refl _)
  obtain ⟨hle, hiff⟩ := @sum_longRuns o.minMatchLen (lcsRuns a b)
  rw [← hlong, toI64_of_le (by omega), toI64_of_le (by omega), Nat.cast_inj, ← htotal]
  exact hiff

theorem word_len : optionWord (Rdb.asBytes "LEN") = .ok "LEN" := by
  rw [optionWord_asBytes]
  decide +kernel

/-- `IDX MINMATCHLEN 2` -/
theorem parseLcsOpts_two :
    parseLcsOpts [Rdb.asBytes "IDX", Rdb.asBytes "MINMATCHLEN", Decimal.natBytes 2] {} =
      .ok { wantIdx := true, minMatchLen := 2 } := by
  have hidx : optionWord (Rdb.asBytes "IDX") = .ok "IDX" := by
    rw [optionWord_asBytes]
    decide +kernel
  have hmin : optionWord (Rdb.asBytes "MINMATCHLEN") = .ok "MINMATCHLEN" := by
    rw [optionWord_asBytes]
    decide +kernel
  have hnum : parseI64 (Decimal.natBytes 2) "MINMATCHLEN" = .ok 2 :=
    parseI64_natBytes (by decide) "MINMATCHLEN"
  rw [parseLcsOpts, hidx]
  show parseLcsOpts _ _ = _
  rw [parseLcsOpts, hmin]
  show (parseI64 (Decimal.natBytes 2) "MINMATCHLEN" >>= fun n =>
    parseLcsOpts [] { wantIdx := true, minMatchLen := n.toNat }) = _
  rw [hnum]
  rfl

theorem lcs_len_iff_twoStrings :
    ∃ found total len,
      ((Solo.still 0).run (handleLcs [Rdb.asBytes "a", Rdb.asBytes "b", Rdb.asBytes "IDX",
          Rdb.asBytes "MINMATCHLEN", Decimal.natBytes 2]) twoStrings).1 =
        .ok (.array [.text "matches", .array found, .text "len", .integer total]) ∧
      ((Solo.still 0).run (handleLcs [Rdb.asBytes "a", Rdb.asBytes "b", Rdb.asBytes "LEN"])
          twoStrings).1 = .ok (.integer len) ∧
      (total = len ↔ LongRuns [97, 120, 98] [97, 98] 2 (3, 2)) :=
  lcs_len_iff (Solo.still_faultless 0) (argAsStr_asBytes "a") (argAsStr_asBytes "b")
    parseLcsOpts_two rfl rfl word_len twoStrings_a twoStrings_b (by decide)

/-- Both runs of `axb` and `ab` have one byte: `IDX MINMATCHLEN 2` reports length 0. -/
theorem lcs_len_short :
    ((Solo.still 0).run (handleLcs [Rdb.asBytes "a", Rdb.asBytes "b", Rdb.asBytes "IDX",
        Rdb.asBytes "MINMATCHLEN", Decimal.natBytes 2]) twoStrings).1 =
      .ok (.array [.text "matches", .array [], .text "len", .integer 0]) ∧
    ((Solo.still 0).run (handleLcs [Rdb.asBytes "a", Rdb.asBytes "b", Rdb.asBytes "LEN"])
        twoStrings).1 = .ok (.integer 2) := by
  have hword : parseLcsOpts [Rdb.asBytes "LEN"] {} = .ok { wantLen := true } := by
    rw [parseLcsOpts, word_len]
    rfl
  have hidx := handleLcs_runs (Solo.still_faultless 0) (argAsStr_asBytes "a")
    (argAsStr_asBytes "b") parseLcsOpts_two rfl twoStrings_a twoStrings_b
  have hlen := handleLcs_runs (Solo.still_faultless 0) (argAsStr_asBytes "a")
    (argAsStr_asBytes "b") hword rfl twoStrings_a twoStrings_b
  exact ⟨hidx, hlen⟩

end Commands
end RustyAnt
