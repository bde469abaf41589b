import Mathlib.Order.Lattice.Nat
import RustyAnt.Lib.Joins
import RustyAnt.Storage.Registers

/-!
# HyperLogLogs as a semilattice

A valid buffer has a header and 16384 registers.  `add` and `merge_into` join something into the
registers, and mark the cached cardinality in the header as stale exactly when they change.
-/

namespace RustyAnt.Hll

open Lib
open Lib.Joins (Joined joinAll)

/-- A buffer that `is_hll` accepts. -/
abbrev Sketch := {buf : Bytes // isHll buf = true}

/-! ## Valid buffers -/

theorem isHll_iff {buf : Bytes} :
    isHll buf = true ↔ buf.length = denseBytes ∧ buf.take 5 = magic ++ [0] := by
  unfold isHll
  simp only [Bool.and_eq_true, decide_eq_true_eq, beq_iff_eq]
  constructor
  · rintro ⟨⟨hlength, hmagic⟩, hdense⟩
    have hfour : 4 < buf.length := by
      rw [hlength]
      decide
    rw [List.getD_eq_getElem _ _ hfour] at hdense
    exact ⟨hlength, by rw [List.take_succ_eq_append_getElem hfour, hmagic, hdense]⟩
  · rintro ⟨hlength, hfront⟩
    have hmagic : buf.take 4 = (buf.take 5).take 4 := by rw [List.take_take]; rfl
    have hdense : buf.getD 4 0 = (buf.take 5).getD 4 0 := by
      rw [List.getD_eq_getElem?_getD, List.getD_eq_getElem?_getD, List.getElem?_take_of_lt (by decide)]
    rw [hmagic, hdense, hfront]
    exact ⟨⟨hlength, rfl⟩, rfl⟩

theorem isHll_emptyDense : isHll emptyDense = true := by
  rw [isHll_iff]
  constructor
  · unfold emptyDense
    rw [List.length_append, List.length_replicate]
    rfl
  · rfl

/-- `empty_dense` -/
def Sketch.empty : Sketch := ⟨emptyDense, isHll_emptyDense⟩

namespace Sketch

variable (s : Sketch)

theorem length : s.1.length = denseBytes := (isHll_iff.mp s.2).1

theorem length_registers : (s.1.drop headerBytes).length = 12288 := by
  rw [List.length_drop, s.length]
  rfl

def header : Bytes := s.1.take headerBytes

/-- The registers; there is nothing behind the last one. -/
def regs (i : Nat) : Nat :=
  if i < registerCount then (readRegister (s.1.drop headerBytes) i).toNat else 0

theorem regs_of_lt {i : Nat} (h : i < registerCount) :
    s.regs i = (readRegister (s.1.drop headerBytes) i).toNat := if_pos h

theorem body_eq {s s' : Sketch} (hregs : s.regs = s'.regs) :
    s.1.drop headerBytes = s'.1.drop headerBytes := by
  have hcount : 6 * registerCount = 8 * (s.1.drop headerBytes).length := by
    rw [s.length_registers]
    rfl
  apply ext_registers hcount
  · rw [s.length_registers, s'.length_registers]
  · intro i hi
    have hat := congrFun hregs i
    rwa [s.regs_of_lt hi, s'.regs_of_lt hi] at hat

theorem ext {s s' : Sketch} (hregs : s.regs = s'.regs) (hheader : s.header = s'.header) :
    s = s' := by
  apply Subtype.ext
  unfold header at hheader
  rw [← List.take_append_drop headerBytes s.1, body_eq hregs, hheader, List.take_append_drop]

end Sketch

/-! ## The two writes -/

theorem length_take_header (s : Sketch) : (s.1.take headerBytes).length = headerBytes := by
  rw [List.length_take, s.length]
  rfl

theorem exists_raised (s : Sketch) {i : Nat} (hi : i < registerCount) {v : UInt8}
    (hv : v.toNat < 64) :
    ∃ s' : Sketch, s'.1 = onRegisters s.1 (writeRegister · i v) ∧ s'.header = s.header ∧
      s'.regs = Function.update s.regs i v.toNat := by
  have hfront := length_take_header s
  have hvalid : isHll (onRegisters s.1 (writeRegister · i v)) = true := by
    have hs := isHll_iff.mp s.2
    rw [isHll_iff]
    unfold onRegisters
    constructor
    · rw [List.length_append, length_writeRegister, hfront, s.length_registers]
      rfl
    · rw [List.take_append_of_le_length (by rw [hfront]; decide), List.take_take]
      exact hs.2
  have hbody : (onRegisters s.1 (writeRegister · i v)).drop headerBytes =
      writeRegister (s.1.drop headerBytes) i v := List.drop_left' hfront
  refine ⟨⟨_, hvalid⟩, rfl, List.take_left' hfront, ?_⟩
  funext j
  have hbits : ∀ {i}, i < registerCount → 6 * i + 6 ≤ 8 * (s.1.drop headerBytes).length := by
    intro i hi
    rw [s.length_registers]
    unfold registerCount at hi
    omega
  by_cases hj : j < registerCount
  · rw [Sketch.regs_of_lt _ hj, hbody, readRegister_writeRegister (hbits hi) (hbits hj),
      Function.update_apply, s.regs_of_lt hj, Nat.mod_eq_of_lt hv]
  · have hne : j ≠ i := by
      rintro rfl
      exact hj hi
    rw [Function.update_of_ne hne]
    exact (if_neg hj).trans (if_neg hj).symm

/-- A header whose cached cardinality is stale. -/
def stale (header : Bytes) : Bytes := header.set 15 (header.getD 15 0 ||| 0x80)

theorem exists_invalidated (s : Sketch) :
    ∃ s' : Sketch, s'.1 = invalidateCache s.1 ∧ s'.header = stale s.header ∧
      s'.regs = s.regs := by
  have hbyte : s.header.getD 15 0 = s.1.getD 15 0 := by
    unfold Sketch.header
    rw [List.getD_eq_getElem?_getD, List.getD_eq_getElem?_getD,
      List.getElem?_take_of_lt (by decide)]
  have hvalid : isHll (invalidateCache s.1) = true := by
    have hs := isHll_iff.mp s.2
    rw [isHll_iff]
    unfold invalidateCache
    constructor
    · rw [List.length_set]
      exact hs.1
    · rw [List.take_set_of_le (by decide)]
      exact hs.2
  have hbody : (invalidateCache s.1).drop headerBytes = s.1.drop headerBytes := by
    unfold invalidateCache
    exact List.drop_set_of_lt (by decide)
  refine ⟨⟨_, hvalid⟩, rfl, ?_, ?_⟩
  · show (s.1.set 15 _).take headerBytes = (s.header).set 15 _
    rw [hbyte, List.take_set]
    rfl
  · funext i
    unfold Sketch.regs
    rw [hbody]

theorem stale_stale (header : Bytes) : stale (stale header) = stale header := by
  unfold stale
  by_cases h : 15 < header.length
  · have hbyte : (header.set 15 (header.getD 15 0 ||| 0x80)).getD 15 0 =
        header.getD 15 0 ||| 0x80 := by
      rw [List.getD_eq_getElem _ _ (by rwa [List.length_set]), List.getElem_set_self]
    rw [hbyte, List.set_set, UInt8.or_assoc, UInt8.or_self]
  · rw [List.set_eq_of_length_le (by rw [List.length_set]; omega)]

/-- An update of a HyperLogLog. -/
abbrev GoesUp : Sketch → (Nat → Nat) → Sketch → Prop := Joined Sketch.regs Sketch.header stale

/-! ## `add` -/

/-- What an element contributes: its value, in its bucket. -/
def spike (element : Bytes) : Nat → Nat :=
  Function.update ⊥ (hashElement element).1 (hashElement element).2.toNat

theorem hashElement_bounds (element : Bytes) :
    (hashElement element).1 < registerCount ∧ (hashElement element).2.toNat < 64 := by
  unfold hashElement
  dsimp only
  constructor
  · exact Nat.mod_lt _ (by decide)
  · rw [UInt8.toNat_ofNat']
    omega

theorem spike_le_iff {element : Bytes} {r : Nat → Nat} :
    spike element ≤ r ↔ (hashElement element).2.toNat ≤ r (hashElement element).1 := by
  unfold spike
  rw [update_le_iff]
  exact and_iff_left fun j _ => Nat.zero_le _

theorem sup_spike {element : Bytes} {r : Nat → Nat}
    (h : r (hashElement element).1 ≤ (hashElement element).2.toNat) :
    r ⊔ spike element =
      Function.update r (hashElement element).1 (hashElement element).2.toNat := by
  funext i
  unfold spike
  rw [Pi.sup_apply, Function.update_apply, Function.update_apply]
  by_cases hi : i = (hashElement element).1
  · rw [if_pos hi, if_pos hi, hi]
    exact sup_of_le_right h
  · rw [if_neg hi, if_neg hi]
    exact sup_bot_eq _

theorem add_goesUp (s : Sketch) (element : Bytes) :
    ∃ (s' : Sketch) (changed : Bool), add s.1 element = .ok (s'.1, changed) ∧
      (changed = true ↔ ¬ spike element ≤ s.regs) ∧ GoesUp s (spike element) s' := by
  obtain ⟨hbucket, hvalue⟩ := hashElement_bounds element
  have hlt : readRegister (s.1.drop headerBytes) (hashElement element).1 < (hashElement element).2 ↔
      ¬ spike element ≤ s.regs := by
    rw [spike_le_iff, UInt8.lt_iff_toNat_lt, s.regs_of_lt hbucket, Nat.not_le]
  unfold add
  rw [if_pos s.2]
  dsimp only
  by_cases hup : spike element ≤ s.regs
  · rw [if_neg (hlt.not.mpr (not_not.mpr hup))]
    exact ⟨s, false, rfl, by simp [hup], .of_le hup⟩
  · rw [if_pos (hlt.mpr hup)]
    obtain ⟨s₁, hraised, hheader, hregs⟩ := exists_raised s hbucket hvalue
    obtain ⟨s₂, hmarked, hstale, hsame⟩ := exists_invalidated s₁
    rw [spike_le_iff, Nat.not_le] at hup
    refine ⟨s₂, true, by rw [hmarked, hraised], by simp [spike_le_iff, hup], ?_, fun hle => ?_,
      fun _ => ?_⟩
    · rw [hsame, hregs, sup_spike hup.le]
    · rw [spike_le_iff] at hle
      omega
    · rw [hstale, hheader]

/-! ## `merge_into` -/

theorem mergeRegister_raises (s src : Sketch) {i : Nat} (hi : i < registerCount) (changed : Bool) :
    ∃ s' : Sketch, mergeRegister src.1 (s.1, changed) i =
        (s'.1, changed || decide (s.regs i < src.regs i)) ∧ s'.header = s.header ∧
      s'.regs = Function.update s.regs i (s.regs i ⊔ src.regs i) := by
  have hlt : readRegister (s.1.drop headerBytes) i < readRegister (src.1.drop headerBytes) i ↔
      s.regs i < src.regs i := by
    rw [UInt8.lt_iff_toNat_lt, s.regs_of_lt hi, src.regs_of_lt hi]
  unfold mergeRegister
  dsimp only
  by_cases hup : s.regs i < src.regs i
  · obtain ⟨s', hraised, hheader, hregs⟩ := exists_raised s hi
      (readRegister_lt (src.1.drop headerBytes) i)
    rw [if_pos (hlt.mpr hup), ← hraised]
    refine ⟨s', by simp [hup], hheader, ?_⟩
    rw [hregs, sup_of_le_right hup.le, src.regs_of_lt hi]
  · rw [if_neg (hlt.not.mpr hup)]
    refine ⟨s, by simp [hup], rfl, ?_⟩
    rw [sup_of_le_left (Nat.not_lt.mp hup), Function.update_eq_self]

/-- The loop over the registers below `n`. -/
theorem mergeRegisters_raise (s src : Sketch) {n : Nat} (hn : n ≤ registerCount) :
    ∃ (s' : Sketch) (changed : Bool),
      (List.range n).foldl (mergeRegister src.1) (s.1, false) = (s'.1, changed) ∧
      s'.header = s.header ∧
      (∀ i, s'.regs i = if i < n then s.regs i ⊔ src.regs i else s.regs i) ∧
      (changed = true ↔ ∃ i < n, s.regs i < src.regs i) := by
  induction n with
  | zero => exact ⟨s, false, rfl, rfl, fun i => rfl, by simp⟩
  | succ n ih =>
      obtain ⟨s₁, changed, hfold, hheader, hregs, hchanged⟩ := ih (by omega)
      obtain ⟨s₂, hround, hheader₂, hregs₂⟩ := mergeRegister_raises s₁ src (i := n) hn changed
      have hat : s₁.regs n = s.regs n := by rw [hregs, if_neg (Nat.lt_irrefl n)]
      refine ⟨s₂, changed || decide (s₁.regs n < src.regs n), ?_, hheader₂.trans hheader,
        fun i => ?_, ?_⟩
      · rw [List.range_succ, List.foldl_append, hfold]
        exact hround
      · rw [hregs₂, Function.update_apply]
        by_cases hi : i = n
        · rw [if_pos hi, if_pos (by omega), hat, hi]
        · rw [if_neg hi, hregs]
          by_cases hlt : i < n
          · rw [if_pos hlt, if_pos (by omega)]
          · rw [if_neg hlt, if_neg (by omega)]
      · rw [Bool.or_eq_true, decide_eq_true_eq, hchanged, hat]
        constructor
        · rintro (⟨i, hi, hlt⟩ | hlt)
          · exact ⟨i, by omega, hlt⟩
          · exact ⟨n, by omega, hlt⟩
        · rintro ⟨i, hi, hlt⟩
          by_cases hin : i = n
          · exact .inr (hin ▸ hlt)
          · exact .inl ⟨i, by omega, hlt⟩

theorem mergeInto_goesUp (s src : Sketch) :
    ∃ s' : Sketch, mergeInto s.1 src.1 = .ok s'.1 ∧ GoesUp s src.regs s' := by
  obtain ⟨s₁, changed, hfold, hheader, hregs, hchanged⟩ :=
    mergeRegisters_raise s src (Nat.le_refl registerCount)
  have hbeyond : ∀ (s : Sketch) {i}, ¬ i < registerCount → s.regs i = 0 := fun _ _ hi => if_neg hi
  have hsup : s₁.regs = s.regs ⊔ src.regs := by
    funext i
    rw [hregs, Pi.sup_apply]
    by_cases hi : i < registerCount
    · rw [if_pos hi]
    · rw [if_neg hi, hbeyond s hi, hbeyond src hi]
      rfl
  have hle : changed = true ↔ ¬ src.regs ≤ s.regs := by
    rw [hchanged, Pi.le_def, not_forall]
    constructor
    · rintro ⟨i, -, hlt⟩
      exact ⟨i, Nat.not_le.mpr hlt⟩
    · rintro ⟨i, hnot⟩
      refine ⟨i, ?_, Nat.not_le.mp hnot⟩
      by_contra hi
      rw [hbeyond s hi, hbeyond src hi] at hnot
      exact hnot (Nat.le_refl 0)
  unfold mergeInto
  rw [if_pos (by rw [s.2, src.2]; rfl), hfold]
  dsimp only
  by_cases hup : src.regs ≤ s.regs
  · rw [if_neg (hle.not.mpr (not_not.mpr hup))]
    exact ⟨s₁, rfl, hsup, fun _ => hheader, fun hnot => absurd hup hnot⟩
  · rw [if_pos (hle.mpr hup)]
    obtain ⟨s₂, hmarked, hstale, hsame⟩ := exists_invalidated s₁
    exact ⟨s₂, by rw [hmarked], hsame.trans hsup, fun h => absurd h hup,
      fun _ => by rw [hstale, hheader]⟩

end RustyAnt.Hll
