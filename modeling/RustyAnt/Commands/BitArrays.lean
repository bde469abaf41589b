import RustyAnt.Commands.SetRange
import RustyAnt.Commands.Windows
import RustyAnt.Lib.BitArray

/-!
# Strings as bit arrays

`GETBIT`, `SETBIT`, `BITCOUNT`, `BITPOS` and `BITOP` all read a string as one array of bits, with
zeros past its end.
-/

namespace RustyAnt

open Lib Lib.BitArray Lib.Window

namespace Storage

theorem toNat_place {j : Nat} (hj : j < 8) : (7 - UInt8.ofNat j).toNat = 7 - j := by
  revert j
  decide

theorem shifted_bit (b : UInt8) {j : Nat} (hj : j < 8) :
    (b >>> (7 - UInt8.ofNat j)) &&& 1 = if b.toNat.testBit (7 - j) then 1 else 0 := by
  apply UInt8.toNat_inj.mp
  rw [UInt8.toNat_and, UInt8.toNat_shiftRight, toNat_place hj, Nat.mod_eq_of_lt (by omega),
    UInt8.toNat_one, Nat.and_one_is_mod, Nat.testBit_eq_decide_div_mod_eq,
    Nat.shiftRight_eq_div_pow]
  rcases Nat.mod_two_eq_zero_or_one (b.toNat / 2 ^ (7 - j)) with hbit | hbit <;> rw [hbit] <;> rfl

theorem bitAt_eq (d : Bytes) (i : Nat) : bitAt d i = if bit d i then 1 else 0 := by
  unfold bitAt
  split
  · exact shifted_bit _ (Nat.mod_lt _ (by decide))
  · rw [bit_of_le (by omega)]
    rfl

theorem toNat_mask {j : Nat} (hj : j < 8) :
    ((1 : UInt8) <<< (7 - UInt8.ofNat j)).toNat = 2 ^ (7 - j) := by
  revert j
  decide

theorem masked_bit (b : UInt8) {j : Nat} (hj : j < 8) :
    (b &&& (1 <<< (7 - UInt8.ofNat j))) >>> (7 - UInt8.ofNat j) =
      if b.toNat.testBit (7 - j) then 1 else 0 := by
  rw [← shifted_bit b hj]
  apply UInt8.toNat_inj.mp
  rw [UInt8.toNat_shiftRight, UInt8.toNat_and, UInt8.toNat_and, UInt8.toNat_shiftRight,
    toNat_mask hj, toNat_place hj, Nat.mod_eq_of_lt (by omega), Nat.shiftRight_and_distrib,
    Nat.shiftRight_eq_div_pow (2 ^ (7 - j)), Nat.div_self (Nat.two_pow_pos _), UInt8.toNat_one]

theorem testBit_written (b : UInt8) (value : Bool) {j i : Nat} (hj : j < 8) (hi : i < 8) :
    (if value then b ||| (1 <<< (7 - UInt8.ofNat j))
      else b &&& ~~~(1 <<< (7 - UInt8.ofNat j))).toNat.testBit i =
      if i = 7 - j then value else b.toNat.testBit i := by
  have hmask : ((1 : UInt8) <<< (7 - UInt8.ofNat j)).toNat.testBit i = decide (7 - j = i) := by
    rw [toNat_mask hj, Nat.testBit_two_pow]
  cases value with
  | true =>
      rw [if_pos rfl, UInt8.toNat_or, Nat.testBit_or, hmask]
      by_cases hij : i = 7 - j
      · rw [if_pos hij, decide_eq_true hij.symm, Bool.or_true]
      · rw [if_neg hij, decide_eq_false (Ne.symm hij), Bool.or_false]
  | false =>
      have hlt := ((1 : UInt8) <<< (7 - UInt8.ofNat j)).toNat_lt
      rw [if_neg Bool.false_ne_true, UInt8.toNat_and, Nat.testBit_and, UInt8.toNat_not,
        show UInt8.size - 1 - (1 <<< (7 - UInt8.ofNat j) : UInt8).toNat =
          2 ^ 8 - ((1 <<< (7 - UInt8.ofNat j) : UInt8).toNat + 1) by
            show 256 - 1 - _ = _
            omega,
        Nat.testBit_two_pow_sub_succ hlt, hmask, decide_eq_true hi, Bool.true_and]
      by_cases hij : i = 7 - j
      · rw [if_pos hij, decide_eq_true hij.symm, Bool.not_true, Bool.and_false]
      · rw [if_neg hij, decide_eq_false (Ne.symm hij), Bool.not_false, Bool.and_true]

/-! ## One bit written -/

variable {d : Bytes} {o : Nat} {value : Bool}

theorem bit_padTo (d : Bytes) (n i : Nat) : bit (padTo d n) i = bit d i :=
  bit_append_zeros d _ i

theorem applySetbit_bit (d : Bytes) (o : Nat) (value : Bool) (i : Nat) :
    bit (applySetbit d o value).1 i = if i = o then value else bit d i := by
  have hin : o / 8 < (padTo d (o / 8 + 1)).length := by
    rw [length_padTo]
    omega
  have hplaces : o % 8 < 8 ∧ i % 8 < 8 := ⟨Nat.mod_lt _ (by decide), Nat.mod_lt _ (by decide)⟩
  unfold applySetbit
  dsimp only
  rw [bit_set hin]
  by_cases hbyte : i / 8 = o / 8
  · rw [if_pos hbyte, testBit_written _ _ hplaces.1 (by omega)]
    by_cases hio : i = o
    · rw [if_pos hio, if_pos (by omega)]
    · have hold := bit_padTo d (o / 8 + 1) i
      unfold bit at hold
      rw [if_neg hio, if_neg (by omega), bit, ← hold, hbyte]
  · rw [if_neg hbyte, if_neg fun h => hbyte (by rw [h]), bit_padTo]

theorem length_applySetbit (d : Bytes) (o : Nat) (value : Bool) :
    (applySetbit d o value).1.length = max d.length (o / 8 + 1) := by
  unfold applySetbit
  dsimp only
  rw [List.length_set, length_padTo]

theorem applySetbit_previous (d : Bytes) (o : Nat) (value : Bool) :
    (applySetbit d o value).2 = if bit d o then 1 else 0 := by
  have hold := bit_padTo d (o / 8 + 1) o
  unfold bit at hold
  unfold applySetbit bit
  dsimp only
  rw [masked_bit _ (Nat.mod_lt _ (by decide)), hold]

end Storage

namespace Commands

open Storage (bitAt_eq)

/-! ## Ones counted -/

section Count

variable {d : Bytes} {start stop : Int} {units s e : Nat}

/-- The ones at the offsets that are asked for. -/
def onesAt (d : Bytes) (P : Nat → Prop) [DecidablePred P] : Nat :=
  (List.range (8 * d.length)).countP fun i => decide (P i) && bit d i

theorem onesAt_congr {P Q : Nat → Prop} [DecidablePred P] [DecidablePred Q]
    (h : ∀ i, i < 8 * d.length → (P i ↔ Q i)) : onesAt d P = onesAt d Q := by
  apply List.countP_congr
  intro i hi
  rw [decide_eq_decide.mpr (h i (List.mem_range.mp hi))]

theorem onesAt_true (d : Bytes) :
    onesAt d (fun _ => True) = (List.range (8 * d.length)).countP (bit d) := by
  unfold onesAt
  simp

theorem countOnes_eq (hlen : d.length < 2 ^ 29) :
    countOnes d = (List.range (8 * d.length)).countP (bit d) := by
  have hsum : (d.map byteOnes).sum = (List.range (8 * d.length)).countP (bit d) := sum_ones d
  have hle : (List.range (8 * d.length)).countP (bit d) ≤ (List.range (8 * d.length)).length :=
    List.countP_le_length
  rw [List.length_range] at hle
  unfold countOnes
  rw [hsum, Nat.mod_eq_of_lt (by omega)]

theorem countBitsBitRange_eq (d : Bytes) (s e : Nat) :
    countBitsBitRange d s e = (List.range' s (e + 1 - s)).countP (bit d) := by
  have hfold : ∀ (l : List Nat) (n : Int),
      l.foldl (fun (count : Int) i => count + (Storage.bitAt d i).toNat) n = n + l.countP (bit d) := by
    intro l
    induction l with
    | nil => simp
    | cons i l ih =>
        intro n
        rw [List.foldl_cons, ih, bitAt_eq, List.countP_cons]
        cases bit d i
        · simp
        · simp only [if_true, UInt8.toNat_one]
          push_cast
          omega
  unfold countBitsBitRange
  rw [hfold, zero_add]

theorem countBitsByteRange_eq (hlen : d.length < 2 ^ 29) (hse : s ≤ e) (he : e < d.length) :
    countBitsByteRange d s e = (List.range' (8 * s) (8 * (e + 1 - s))).countP (bit d) := by
  have hlength : (Storage.sliceInclusive d s e).length = e + 1 - s := by
    unfold Storage.sliceInclusive
    rw [List.length_take, List.length_drop]
    omega
  have hbits : (List.range (8 * (e + 1 - s))).countP (bit (Storage.sliceInclusive d s e)) =
      (List.range' (8 * s) (8 * (e + 1 - s))).countP (bit d) := by
    rw [List.range'_eq_map_range, List.countP_map]
    apply List.countP_congr
    intro i hi
    unfold Storage.sliceInclusive
    rw [bit_slice d s _ (List.mem_range.mp hi)]
    rfl
  unfold countBitsByteRange
  rw [countOnes_eq (by omega), hlength, hbits]

theorem resolveInclusiveRange_le (h : resolveInclusiveRange start stop units = some (s, e)) :
    s ≤ e := by
  have hordered : ∀ {len a b : Int},
      (if len ≤ a ∨ b < 0 ∨ b < a then none else some (a.toNat, b.toNat)) = some (s, e) →
        s ≤ e := by
    intro len a b hab
    split at hab
    · cases hab
    · rename_i hin
      cases hab
      omega
  unfold resolveInclusiveRange at h
  split at h
  · cases h
  · exact hordered h

/-- The number that `BITCOUNT` replies, once its arguments are read. -/
def bitcountReply (d : Bytes) (start stop : Int) (inBits : Bool) : Int :=
  match resolveInclusiveRange start stop (if inBits then 8 * d.length else d.length) with
  | none => 0
  | some (s, e) => if inBits then countBitsBitRange d s e else countBitsByteRange d s e

theorem window_of_resolved (hmax : (units : Int) ≤ i64Max)
    (h : resolveInclusiveRange start stop units = some (s, e)) (i : Nat) :
    s ≤ i ∧ i ≤ e ↔ Window.Within units start stop i := by
  rw [← resolveInclusiveRange_window hmax, h, between_some]

theorem not_window_of_none (hmax : (units : Int) ≤ i64Max)
    (h : resolveInclusiveRange start stop units = none) (i : Nat) :
    ¬ Window.Within units start stop i := by
  rw [← resolveInclusiveRange_window hmax, h]
  exact not_between_none i

theorem onesAt_eq_zero {P : Nat → Prop} [DecidablePred P] (h : ∀ i, ¬ P i) : onesAt d P = 0 := by
  unfold onesAt
  rw [List.countP_eq_zero]
  intro i _
  simp [h i]

theorem bitcountReply_bits (hlen : d.length < 2 ^ 29) :
    bitcountReply d start stop true = onesAt d (Window.Within (8 * d.length) start stop) := by
  have hmax : ((8 * d.length : Nat) : Int) ≤ i64Max := by
    unfold i64Max
    omega
  unfold bitcountReply
  rw [if_pos rfl]
  cases hrange : resolveInclusiveRange start stop (8 * d.length) with
  | none => rw [onesAt_eq_zero (not_window_of_none hmax hrange)]; rfl
  | some p =>
      obtain ⟨s, e⟩ := p
      have hle := resolveInclusiveRange_le hrange
      have hwindow := window_of_resolved hmax hrange
      have hlast := ((hwindow e).mp ⟨hle, Nat.le_refl e⟩).1
      have hcount := @countP_range_window (bit d) s (e + 1 - s) (8 * d.length) (by omega)
      dsimp only
      rw [if_pos rfl, countBitsBitRange_eq, ← hcount]
      congr 1
      apply onesAt_congr
      intro i _
      rw [← hwindow i]
      omega

theorem bitcountReply_bytes (hlen : d.length < 2 ^ 29) :
    bitcountReply d start stop false =
      onesAt d fun i => Window.Within d.length start stop (i / 8) := by
  have hmax : (d.length : Int) ≤ i64Max := by
    unfold i64Max
    omega
  unfold bitcountReply
  rw [if_neg Bool.false_ne_true]
  cases hrange : resolveInclusiveRange start stop d.length with
  | none => rw [onesAt_eq_zero fun i => not_window_of_none hmax hrange (i / 8)]; rfl
  | some p =>
      obtain ⟨s, e⟩ := p
      have hle := resolveInclusiveRange_le hrange
      have hwindow := window_of_resolved hmax hrange
      have hlast := ((hwindow e).mp ⟨hle, Nat.le_refl e⟩).1
      have hcount := @countP_range_window (bit d) (8 * s) (8 * (e + 1 - s)) (8 * d.length) (by omega)
      dsimp only
      rw [if_neg Bool.false_ne_true, countBitsByteRange_eq hlen hle hlast, ← hcount]
      congr 1
      apply onesAt_congr
      intro i _
      rw [← hwindow (i / 8)]
      omega

theorem within_bits_of_bytes (len : Nat) (start stop : Int) (i : Nat) :
    Window.Within (8 * len) (8 * start) (8 * stop + 7) i ↔
      Window.Within len start stop (i / 8) := by
  unfold Window.Within fromEnd
  split <;> split <;> split <;> split <;> omega

end Count

/-! ## The first bit found -/

section Position

variable {d : Bytes} {target endExplicit : Bool} {n : Int}

/-- What a search over the offsets `P` answers: the least offset with the wanted bit, or else the
end of the string for a zero without explicit end, and `-1`. -/
structure BitposAnswer (d : Bytes) (P : Nat → Prop) (target endExplicit : Bool) (n : Int) :
    Prop where
  least : ∀ i, P i → bit d i = target → (∀ j, j < i → P j → bit d j ≠ target) → n = i
  past : (∀ i, P i → bit d i ≠ target) → target = false → endExplicit = false → (∃ i, P i) →
    n = (8 * d.length : Nat)
  missing : (∀ i, P i → bit d i ≠ target) →
    (target = true ∨ endExplicit = true ∨ ¬ ∃ i, P i) → n = -1

theorem bitAt_beq (d : Bytes) (i : Nat) (target : Bool) :
    (Storage.bitAt d i == if target then 1 else 0) = true ↔ bit d i = target := by
  rw [bitAt_eq]
  cases bit d i <;> cases target <;> decide

theorem findFirstBit_some {s e i : Nat}
    (h : findFirstBit d (if target then 1 else 0) s e = some i) :
    (s ≤ i ∧ i ≤ e) ∧ bit d i = target ∧ ∀ j, s ≤ j → j < i → bit d j ≠ target := by
  obtain ⟨hbit, hmem, hleast⟩ := List.find?_range'_eq_some.mp h
  rw [List.mem_range'_1] at hmem
  refine ⟨by omega, (bitAt_beq d i target).mp hbit, fun j hj hji hne => ?_⟩
  have hnot := hleast j hj hji
  rw [(bitAt_beq d j target).mpr hne] at hnot
  cases hnot

theorem findFirstBit_none {s e i : Nat} (h : findFirstBit d (if target then 1 else 0) s e = none)
    (hs : s ≤ i) (he : i ≤ e) : bit d i ≠ target := by
  unfold findFirstBit at h
  rw [List.find?_eq_none] at h
  intro hbit
  exact h i (List.mem_range'_1.mpr (by omega)) ((bitAt_beq d i target).mpr hbit)

theorem bitposReply_answer (hmax : ((8 * d.length : Nat) : Int) ≤ i64Max)
    (range : Option (Nat × Nat)) (hin : ∀ i, Between range i → i < 8 * d.length)
    (hnonempty : ∀ s e, range = some (s, e) → s ≤ e) :
    BitposAnswer d (Between range) target endExplicit (bitposReply d target endExplicit range) := by
  cases range with
  | none =>
      refine ⟨fun i hi => absurd hi (not_between_none i), fun _ _ _ h => ?_, fun _ _ => rfl⟩
      obtain ⟨i, hi⟩ := h
      exact absurd hi (not_between_none i)
  | some p =>
      obtain ⟨s, e⟩ := p
      have hP : Between (some (s, e)) = fun i => s ≤ i ∧ i ≤ e :=
        funext fun i => propext between_some
      simp only [between_some] at hin
      rw [hP]
      unfold bitposReply
      dsimp only
      cases hfind : findFirstBit d (if target then 1 else 0) s e with
      | some i =>
          obtain ⟨hwithin, hbit, hleast⟩ := findFirstBit_some hfind
          have hsize : toI64 i = i := by
            have hlt := hin i hwithin
            exact toI64_of_le (by omega)
          refine ⟨fun j hj hjbit hjleast => ?_, fun hnone => absurd hbit (hnone i hwithin),
            fun hnone => absurd hbit (hnone i hwithin)⟩
          have hij : i = j := by
            rcases Nat.lt_trichotomy i j with hlt | heq | hgt
            · exact absurd hbit (hjleast i hlt hwithin)
            · exact heq
            · exact absurd hjbit (hleast j hj.1 hgt)
          rw [← hij]
          exact hsize
      | none =>
          have hnone : ∀ i, s ≤ i ∧ i ≤ e → bit d i ≠ target :=
            fun i hi => findFirstBit_none hfind hi.1 hi.2
          refine ⟨fun i hi hbit => absurd hbit (hnone i hi), fun _ htarget hend _ => ?_,
            fun _ hwhy => ?_⟩
          · subst htarget hend
            exact toI64_of_le hmax
          · have hcond : ¬ (!target && !endExplicit) = true := by
              rcases hwhy with htarget | hend | hempty
              · simp [htarget]
              · simp [hend]
              · exact absurd ⟨s, Nat.le_refl s, hnonempty s e rfl⟩ hempty
            exact if_neg hcond

end Position

/-! ## Sources combined -/

section Combine

variable {op : BitOp} {src : Bytes} {rest sources : List Bytes} {len i : Nat}

/-- What an operation makes of the bits of its sources at one offset. -/
def BitOp.onBits : BitOp → List Bool → Bool
  | and, bits => bits.all id
  | or, bits => bits.any id
  | xor, bits => decide (bits.count true % 2 = 1)
  | not, bits => !bits.headD false

/-- As long as the longest source, and combined bit by bit. -/
structure BitopResult (op : BitOp) (sources : List Bytes) (r : Bytes) : Prop where
  bound : ∀ d ∈ sources, d.length ≤ r.length
  attained : ∃ d ∈ sources, d.length = r.length
  bits : ∀ i < 8 * r.length, bit r i = op.onBits (sources.map (bit · i))

/-- The operation on two bits; `NOT` has one source. -/
def BitOp.onTwo : BitOp → Bool → Bool → Bool
  | and, a, b => a && b
  | or, a, b => a || b
  | xor, a, b => a ^^ b
  | not, a, _ => a

theorem testBit_combine (op : BitOp) (a b : UInt8) (j : Nat) :
    (op.combine a b).toNat.testBit j = op.onTwo (a.toNat.testBit j) (b.toNat.testBit j) := by
  cases op with
  | and =>
      show (a &&& b).toNat.testBit j = _
      rw [UInt8.toNat_and, Nat.testBit_and]
      rfl
  | or =>
      show (a ||| b).toNat.testBit j = _
      rw [UInt8.toNat_or, Nat.testBit_or]
      rfl
  | xor =>
      show (a ^^^ b).toNat.testBit j = _
      rw [UInt8.toNat_xor, Nat.testBit_xor]
      rfl
  | not => rfl

/-- The fold over the padded sources is a fold at each offset. -/
theorem foldl_combine (hrest : ∀ s ∈ rest, s.length ≤ len) {acc : Bytes} (hacc : acc.length = len) :
    (rest.foldl (fun acc s => acc.zipWith op.combine (Storage.padTo s len)) acc).length = len ∧
      ∀ i < 8 * len,
        bit (rest.foldl (fun acc s => acc.zipWith op.combine (Storage.padTo s len)) acc) i =
          (rest.map (bit · i)).foldl op.onTwo (bit acc i) := by
  induction rest generalizing acc with
  | nil => exact ⟨hacc, fun _ _ => rfl⟩
  | cons s rest ih =>
      have hs := hrest s (List.mem_cons_self ..)
      have hpad : (Storage.padTo s len).length = len := by
        rw [Storage.length_padTo]
        omega
      have hnext : (acc.zipWith op.combine (Storage.padTo s len)).length = len := by
        rw [List.length_zipWith, hacc, hpad, Nat.min_self]
      obtain ⟨hlength, hbits⟩ := ih (fun s' hs' => hrest s' (List.mem_cons_of_mem _ hs')) hnext
      refine ⟨hlength, fun i hi => ?_⟩
      have hzip := bit_zipWith (testBit_combine op) (hacc.trans hpad.symm)
        (by rw [hacc]; exact hi)
      rw [List.foldl_cons, hbits i hi, hzip, Storage.bit_padTo, List.map_cons, List.foldl_cons]

theorem foldl_onTwo (hop : op ≠ .not) (b : Bool) (bits : List Bool) :
    bits.foldl op.onTwo b = op.onBits (b :: bits) := by
  induction bits generalizing b with
  | nil => cases op <;> cases b <;> first | rfl | exact absurd rfl hop
  | cons c bits ih =>
      rw [List.foldl_cons, ih]
      cases op with
      | and => simp [BitOp.onTwo, BitOp.onBits, Bool.and_assoc]
      | or => simp [BitOp.onTwo, BitOp.onBits, Bool.or_assoc]
      | xor =>
          cases b <;> cases c <;> simp [BitOp.onTwo, BitOp.onBits]
          omega
      | not => exact absurd rfl hop

theorem foldl_max_length (sources : List Bytes) (n : Nat) :
    n ≤ sources.foldl (fun n s => max n s.length) n ∧
      (∀ d ∈ sources, d.length ≤ sources.foldl (fun n s => max n s.length) n) ∧
      (sources.foldl (fun n s => max n s.length) n = n ∨
        ∃ d ∈ sources, d.length = sources.foldl (fun n s => max n s.length) n) := by
  induction sources generalizing n with
  | nil => exact ⟨Nat.le_refl n, List.forall_mem_nil _, .inl rfl⟩
  | cons s sources ih =>
      obtain ⟨hfirst, hall, hwho⟩ := ih (max n s.length)
      rw [List.foldl_cons]
      refine ⟨by omega, fun d hd => ?_, ?_⟩
      · rcases List.mem_cons.mp hd with rfl | hd
        · omega
        · exact hall d hd
      · rcases hwho with hsame | ⟨d, hd, hlength⟩
        · rw [hsame]
          rcases Nat.le_total s.length n with hle | hle
          · exact .inl (Nat.max_eq_left hle)
          · exact .inr ⟨s, List.mem_cons_self .., (Nat.max_eq_right hle).symm⟩
        · exact .inr ⟨d, List.mem_cons_of_mem _ hd, hlength⟩

theorem applyBitop_not (src : Bytes) : BitopResult .not [src] (applyBitop .not [src]) := by
  have hlength : (applyBitop .not [src]).length = src.length := List.length_map _
  refine ⟨fun d hd => ?_, ⟨src, List.mem_singleton_self _, hlength.symm⟩, fun i hi => ?_⟩
  · rw [List.mem_singleton.mp hd, hlength]
  · rw [hlength] at hi
    exact bit_map_not hi

theorem applyBitop_result (hsources : sources ≠ []) (hnot : op = .not → sources.length = 1) :
    BitopResult op sources (applyBitop op sources) := by
  obtain ⟨src, rest, rfl⟩ := List.exists_cons_of_ne_nil hsources
  by_cases hop : op = .not
  · subst hop
    have hone : rest = [] := by
      have := hnot rfl
      rw [List.length_cons] at this
      exact List.length_eq_zero_iff.mp (by omega)
    rw [hone]
    exact applyBitop_not src
  · obtain ⟨-, hall, hwho⟩ := foldl_max_length (src :: rest) 0
    generalize hlen : (src :: rest).foldl (fun n s => max n s.length) 0 = len at hall hwho
    have happly : applyBitop op (src :: rest) =
        rest.foldl (fun acc s => acc.zipWith op.combine (Storage.padTo s len))
          (Storage.padTo src len) := by
      rw [← hlen]
      cases op <;> first | rfl | exact absurd rfl hop
    have hsrc := hall src (List.mem_cons_self ..)
    have hpad : (Storage.padTo src len).length = len := by
      rw [Storage.length_padTo]
      omega
    obtain ⟨hlength, hbits⟩ := @foldl_combine op rest len
      (fun s hs => hall s (List.mem_cons_of_mem _ hs)) _ hpad
    rw [happly]
    refine ⟨fun d hd => by rw [hlength]; exact hall d hd, ?_, fun i hi => ?_⟩
    · rcases hwho with hzero | ⟨d, hd, hd'⟩
      · exact ⟨src, List.mem_cons_self .., by rw [hlength]; omega⟩
      · exact ⟨d, hd, by rw [hlength, hd']⟩
    · rw [hlength] at hi
      rw [hbits i hi, foldl_onTwo hop, Storage.bit_padTo]
      rfl

end Combine

/-! ## The commands -/

section Runs

variable {env : Solo} {s : Keyspace} {k : String} {found : Option (Bytes × Option Int)}

theorem handleGetbit_runs (h : env.Faultless) {n : Nat} (hsees : env.Sees n s k View.string found)
    {arg : Bytes} {o : Nat} (harg : parseOffset arg = .ok o) :
    (env.runFrom n (handleGetbit [Rdb.asBytes k, arg]) s).1 =
      .ok (.flag (bit (stringOf found) o)) := by
  have hread : env.runFrom n (Storage.getbit k o) s = _ :=
    hsees.read h 0 fun data => ((Storage.bitAt data o).toNat : Int)
  have hrun : env.runFrom n (handleGetbit [Rdb.asBytes k, arg]) s =
      env.runFrom n ((Storage.getbit k o).bind fun v => .done (.ok (.integer v))) s :=
    (Solo.runFrom_parse (argAsStr_asBytes k)).trans (Solo.runFrom_parse harg)
  rw [hrun, Solo.runFrom_step hread]
  cases found with
  | none =>
      rw [show stringOf none = [] from rfl, bit_nil]
      rfl
  | some p =>
      show Except.ok (RespReply.integer ((Storage.bitAt p.1 o).toNat : Int)) =
        .ok (.flag (bit p.1 o))
      rw [bitAt_eq]
      cases bit p.1 o <;> rfl

/-- `SETBIT` replies the bit that was there, and changes that bit only. -/
def SetbitExact (env : Solo) (s : Keyspace) (k : String) (found : Option (Bytes × Option Int)) :
    Prop :=
  ∀ (arg bitArg : Bytes) (o : Nat) (value : Bool), parseOffset arg = .ok o →
    parseBit bitArg "value" "bit value must be 0 or 1" = .ok value →
    let before i := bit (stringOf found) i
    let out := env.run (handleSetbit [Rdb.asBytes k, arg, bitArg]) s
    out.1 = .ok (.flag (before o)) ∧
    (env.run (handleGetbit [Rdb.asBytes k, arg]) s).1 = out.1 ∧
    ∃ (d' : Bytes) (token : String),
      out.2.2 = Function.update s k
        (View.string.holding (some (d', found.bind Prod.snd)) token) ∧
      d'.length = max (stringOf found).length (o / 8 + 1) ∧
      ∀ m, env.seen m out.2.2 k = out.2.2 k → ∀ arg' i, parseOffset arg' = .ok i →
        (env.runFrom m (handleGetbit [Rdb.asBytes k, arg']) out.2.2).1 =
          .ok (.flag (if i = o then value else before i))

theorem handleSetbit_runs (h : env.Faultless) (hsees : env.Sees 0 s k View.string found)
    {arg bitArg : Bytes} {o : Nat} {value : Bool} (harg : parseOffset arg = .ok o)
    (hbit : parseBit bitArg "value" "bit value must be 0 or 1" = .ok value) :
    let out := env.run (handleSetbit [Rdb.asBytes k, arg, bitArg]) s
    out.1 = .ok (.flag (bit (stringOf found) o)) ∧
      ∃ token, out.2.2 = Function.update s k (View.string.holding
        (some ((Storage.applySetbit (stringOf found) o value).1, found.bind Prod.snd)) token) := by
  have hrun : env.run (handleSetbit [Rdb.asBytes k, arg, bitArg]) s =
      env.runFrom 0 ((Storage.setbit k o value).bind fun prev => .done (.ok (.integer prev))) s :=
    calc
      env.run (handleSetbit [Rdb.asBytes k, arg, bitArg]) s = _ :=
        Solo.runFrom_parse (argAsStr_asBytes k)
      _ = _ := Solo.runFrom_parse harg
      _ = _ := Solo.runFrom_parse hbit
  have hcas : env.runFrom 0 (Storage.setbit k o value) s = env.casRuns 0 s k
      (.ok (View.string.write (found.bind Prod.snd)
        (Storage.applySetbit (stringOf found) o value).1
        ((Storage.applySetbit (stringOf found) o value).2.toNat : Int))) := by
    refine (hsees.cas h _).trans ?_
    rw [View.findOr_entry]
    cases found <;> rfl
  dsimp only
  rw [hrun, Solo.runFrom_bind, hcas, Storage.applySetbit_previous]
  refine ⟨?_, _, rfl⟩
  cases bit (stringOf found) o <;> rfl

theorem setbit_exact (h : env.Faultless) (hsees : env.Sees 0 s k View.string found) :
    SetbitExact env s k found := by
  intro arg bitArg o value harg hbit
  obtain ⟨hreply, token, hstate⟩ := handleSetbit_runs h hsees harg hbit
  refine ⟨hreply, ?_, _, token, hstate, Storage.length_applySetbit _ _ _, ?_⟩
  · rw [hreply]
    exact handleGetbit_runs h hsees harg
  · intro m hlive arg' i harg'
    have hkey : (env.run (handleSetbit [Rdb.asBytes k, arg, bitArg]) s).2.2 k =
        View.string.holding (some ((Storage.applySetbit (stringOf found) o value).1,
          found.bind Prod.snd)) token := by
      rw [hstate, Function.update_self]
    rw [handleGetbit_runs h (Solo.Sees.of_holding hkey hlive) harg']
    exact congrArg (fun b => Except.ok (RespReply.flag b)) (Storage.applySetbit_bit _ _ _ _)

theorem getString_sees (h : env.Faultless) {n : Nat} (hsees : env.Sees n s k View.string found) :
    env.runFrom n (Storage.getString k) s = (.ok (found.map Prod.fst), n + 1, env.swept n s k) := by
  have hread : env.runFrom n (Storage.getString k) s = _ := hsees.read h none some
  rw [hread]
  cases found <;> rfl

/-- `BITCOUNT` counts the ones of its range, in bytes or in bits, and both agree. -/
structure BitcountExact (env : Solo) (s : Keyspace) (k : String) (d : Bytes) : Prop where
  whole : (env.run (handleBitcount [Rdb.asBytes k]) s).1 =
    .ok (.integer (onesAt d fun _ => True))
  bytes : ∀ first last unit start stop, unit.length ≤ 1 → parseI64 first "start" = .ok start →
    parseI64 last "end" = .ok stop → parseRangeUnit unit.head? = .ok false →
    (env.run (handleBitcount (Rdb.asBytes k :: first :: last :: unit)) s).1 =
      .ok (.integer (onesAt d fun i => Window.Within d.length start stop (i / 8)))
  bits : ∀ first last unit start stop, unit.length ≤ 1 → parseI64 first "start" = .ok start →
    parseI64 last "end" = .ok stop → parseRangeUnit unit.head? = .ok true →
    (env.run (handleBitcount (Rdb.asBytes k :: first :: last :: unit)) s).1 =
      .ok (.integer (onesAt d (Window.Within (8 * d.length) start stop)))
  agree : ∀ first last unit first' last' unit' start stop, unit.length ≤ 1 → unit'.length ≤ 1 →
    parseI64 first "start" = .ok start → parseI64 last "end" = .ok stop →
    parseRangeUnit unit.head? = .ok false →
    parseI64 first' "start" = .ok (8 * start) → parseI64 last' "end" = .ok (8 * stop + 7) →
    parseRangeUnit unit'.head? = .ok true →
    (env.run (handleBitcount (Rdb.asBytes k :: first :: last :: unit)) s).1 =
      (env.run (handleBitcount (Rdb.asBytes k :: first' :: last' :: unit')) s).1

theorem handleBitcount_runs (h : env.Faultless) (hsees : env.Sees 0 s k View.string found)
    {first last : Bytes} {unit : List Bytes} {start stop : Int} {inBits : Bool}
    (hunit : unit.length ≤ 1) (hfirst : parseI64 first "start" = .ok start)
    (hlast : parseI64 last "end" = .ok stop) (hbits : parseRangeUnit unit.head? = .ok inBits) :
    env.run (handleBitcount (Rdb.asBytes k :: first :: last :: unit)) s =
      (.ok (.integer (bitcountReply (stringOf found) start stop inBits)), 1, env.swept 0 s k) := by
  have harity : ¬ 1 < unit.length := by omega
  unfold handleBitcount
  dsimp only
  rw [if_neg harity]
  refine (Solo.runFrom_parse (argAsStr_asBytes k)).trans ?_
  refine (Solo.runFrom_step (getString_sees h hsees)).trans ?_
  cases found with
  | none => cases inBits <;> rfl
  | some p =>
      refine (Solo.runFrom_parse hfirst).trans ?_
      refine (Solo.runFrom_parse hlast).trans ?_
      refine (Solo.runFrom_parse hbits).trans ?_
      unfold bitcountReply
      rw [show stringOf (some p) = p.1 from rfl]
      rcases resolveInclusiveRange start stop (if inBits then 8 * p.1.length else p.1.length) with
        - | ⟨s, e⟩ <;> rfl

theorem handleBitcount_whole (h : env.Faultless) (hsees : env.Sees 0 s k View.string found) :
    env.run (handleBitcount [Rdb.asBytes k]) s =
      (.ok (.integer (countOnes (stringOf found))), 1, env.swept 0 s k) := by
  refine (Solo.runFrom_parse (argAsStr_asBytes k)).trans ?_
  refine (Solo.runFrom_step (getString_sees h hsees)).trans ?_
  cases found <;> rfl

theorem bitcount_exact (h : env.Faultless) (hsees : env.Sees 0 s k View.string found)
    (hlen : (stringOf found).length < 2 ^ 29) : BitcountExact env s k (stringOf found) where
  whole := by rw [handleBitcount_whole h hsees, countOnes_eq hlen, onesAt_true]
  bytes first last unit start stop hunit hfirst hlast hbits := by
    rw [handleBitcount_runs h hsees hunit hfirst hlast hbits, bitcountReply_bytes hlen]
  bits first last unit start stop hunit hfirst hlast hbits := by
    rw [handleBitcount_runs h hsees hunit hfirst hlast hbits, bitcountReply_bits hlen]
  agree first last unit first' last' unit' start stop hunit hunit' hfirst hlast hbits hfirst'
      hlast' hbits' := by
    have hsame : onesAt (stringOf found) (fun i =>
        Window.Within (stringOf found).length start stop (i / 8)) =
        onesAt (stringOf found)
          (Window.Within (8 * (stringOf found).length) (8 * start) (8 * stop + 7)) :=
      onesAt_congr fun i _ => (within_bits_of_bytes _ start stop i).symm
    rw [handleBitcount_runs h hsees hunit hfirst hlast hbits, bitcountReply_bytes hlen,
      handleBitcount_runs h hsees hunit' hfirst' hlast' hbits', bitcountReply_bits hlen, hsame]

/-- The options of `BITPOS` as it reads them: the bounds and the unit. -/
structure BitposOpts (opts : List Bytes) (start stop : Option Int) (inBits : Bool) : Prop where
  few : opts.length ≤ 3
  start : opts[0]?.mapM (parseI64 · "start") = .ok start
  stop : opts[1]?.mapM (parseI64 · "end") = .ok stop
  unit : parseRangeUnit opts[2]? = .ok inBits

/-- The offsets that `BITPOS` searches: without an end up to the last one. -/
def Searched (d : Bytes) (start stop : Option Int) (inBits : Bool) (i : Nat) : Prop :=
  match start with
  | none => i < 8 * d.length
  | some start =>
      if inBits then Window.Within (8 * d.length) start (stop.getD i64Max) i
      else Window.Within d.length start (stop.getD i64Max) (i / 8)

/-- `BITPOS` on a string that is not empty answers the search of its range. -/
def BitposExact (env : Solo) (s : Keyspace) (k : String) (d : Bytes) : Prop :=
  ∀ (bitArg : Bytes) (opts : List Bytes) (target : Bool) (start stop : Option Int) (inBits : Bool),
    d ≠ [] → parseBit bitArg "bit" "bit must be 0 or 1" = .ok target →
    BitposOpts opts start stop inBits →
    ∃ n, (env.run (handleBitpos (Rdb.asBytes k :: bitArg :: opts)) s).1 = .ok (.integer n) ∧
      BitposAnswer d (Searched d start stop inBits) target stop.isSome n

theorem mapM_cases {α β : Type} {f : α → Result β} {o : Option α} {r : Option β}
    (h : o.mapM f = .ok r) :
    o = none ∧ r = none ∨ ∃ a b, o = some a ∧ f a = .ok b ∧ r = some b := by
  cases o with
  | none => exact .inl ⟨rfl, (Except.ok.inj h).symm⟩
  | some a =>
      right
      rw [Option.mapM_some] at h
      cases hf : f a with
      | error e =>
          rw [hf] at h
          cases h
      | ok b =>
          rw [hf] at h
          exact ⟨a, b, rfl, hf, (Except.ok.inj h).symm⟩

theorem bitposRange_searched {d : Bytes} (hd : d ≠ []) (hlen : d.length < 2 ^ 29)
    {opts : List Bytes} {start stop : Option Int} {inBits : Bool}
    (hopts : BitposOpts opts start stop inBits) :
    ∃ range, bitposRange d inBits opts[0]? opts[1]? = .ok range ∧
      Between range = Searched d start stop inBits ∧ ∀ s e, range = some (s, e) → s ≤ e := by
  have hpos : 0 < d.length := List.length_pos_iff.mpr hd
  have hmax : ((8 * d.length : Nat) : Int) ≤ i64Max ∧ (d.length : Int) ≤ i64Max := by
    unfold i64Max
    omega
  rcases mapM_cases hopts.start with ⟨hnone, rfl⟩ | ⟨first, a, hfirst, ha, rfl⟩
  · rw [hnone]
    refine ⟨_, rfl, funext fun i => propext ?_, fun s e hse => ?_⟩
    · show Between (some (0, 8 * d.length - 1)) i ↔ i < 8 * d.length
      rw [between_some]
      omega
    · cases hse
      omega
  · have hstop : (opts[1]?.elim (.ok i64Max) fun arg => parseI64 arg "end") =
        .ok (stop.getD i64Max) := by
      rcases mapM_cases hopts.stop with ⟨hnone, rfl⟩ | ⟨last, b, hlast, hb, rfl⟩
      · rw [hnone]
        rfl
      · rw [hlast]
        exact hb
    rw [hfirst]
    unfold bitposRange
    dsimp only
    rw [ha, hstop]
    refine ⟨_, rfl, ?_, ?_⟩
    · funext i
      apply propext
      unfold Searched
      dsimp only
      cases inBits with
      | true =>
          rw [if_pos rfl, if_pos rfl, ← resolveInclusiveRange_window hmax.1 i]
          rcases resolveInclusiveRange a (stop.getD i64Max) (8 * d.length) with - | ⟨s, e⟩ <;> rfl
      | false =>
          rw [if_neg Bool.false_ne_true, if_neg Bool.false_ne_true,
            ← resolveInclusiveRange_window hmax.2 (i / 8)]
          rcases resolveInclusiveRange a (stop.getD i64Max) d.length with - | ⟨s, e⟩
          · exact iff_of_false (not_between_none _) (not_between_none _)
          · show Between (some (8 * s, 8 * (e + 1) - 1)) i ↔ _
            rw [between_some, between_some]
            omega
    · intro s e hse
      obtain ⟨⟨s', e'⟩, hrange, hmap⟩ := Option.map_eq_some_iff.mp hse
      have hle := resolveInclusiveRange_le hrange
      cases inBits <;> cases hmap <;> omega

theorem bitpos_exact (h : env.Faultless) (hsees : env.Sees 0 s k View.string found)
    (hlen : (stringOf found).length < 2 ^ 29) : BitposExact env s k (stringOf found) := by
  intro bitArg opts target start stop inBits hd hbit hopts
  obtain ⟨range, hrange, hsearched, hordered⟩ := bitposRange_searched hd hlen hopts
  have hmax : ((8 * (stringOf found).length : Nat) : Int) ≤ i64Max := by
    unfold i64Max
    omega
  have hin : ∀ i, Between range i → i < 8 * (stringOf found).length := by
    intro i hi
    rw [hsearched] at hi
    unfold Searched at hi
    cases start with
    | none => exact hi
    | some start =>
        cases inBits with
        | true => exact hi.1
        | false =>
            have hlt := hi.1
            omega
  have hexplicit : opts[1]?.isSome = stop.isSome := by
    rcases mapM_cases hopts.stop with ⟨hnone, rfl⟩ | ⟨last, b, hlast, -, rfl⟩
    · rw [hnone]
      rfl
    · rw [hlast]
      rfl
  have hfew : ¬ 3 < opts.length := by
    have := hopts.few
    omega
  refine ⟨bitposReply (stringOf found) target stop.isSome range, ?_, ?_⟩
  · have hrun : env.run (handleBitpos (Rdb.asBytes k :: bitArg :: opts)) s =
        (.ok (.integer (bitposReply (stringOf found) target stop.isSome range)), 1,
          env.swept 0 s k) := by
      have hnil : ¬ (stringOf found).isEmpty = true := by
        rwa [List.isEmpty_iff]
      unfold handleBitpos
      dsimp only
      rw [if_neg hfew]
      refine (Solo.runFrom_parse (argAsStr_asBytes k)).trans ?_
      refine (Solo.runFrom_parse hbit).trans ?_
      refine (Solo.runFrom_step (getString_sees h hsees)).trans ?_
      dsimp only
      rw [getD_eq_stringOf, if_neg hnil]
      refine (Solo.runFrom_parse hopts.unit).trans ?_
      refine (Solo.runFrom_parse hrange).trans ?_
      rw [hexplicit]
      rfl
    rw [hrun]
  · rw [← hsearched]
    exact bitposReply_answer hmax range hin hordered

/-- `BITOP` stores the combination of its sources, or deletes its destination when that is empty.
The destination may be a source too. -/
def BitopExact (env : Solo) (s : Keyspace) : Prop :=
  ∀ (opArg : Bytes) (op : BitOp) (dest : String) (args : List Bytes) (keys : List String)
    (held : String → Option (Bytes × Option Int)),
    BitOp.parse opArg = .ok op → argsAsStrings args = .ok keys → keys ≠ [] →
    (op = .not → keys.length = 1) →
    (∀ k ∈ keys, ∀ n, env.Sees n s k View.string (held k)) →
    let out := env.run (handleBitop (opArg :: Rdb.asBytes dest :: args)) s
    ∃ (r : Bytes) (token : String),
      BitopResult op (keys.map fun k => stringOf (held k)) r ∧
      out.1 = .ok (.integer (toI64 r.length)) ∧
      out.2.2 dest =
        View.string.holding (if r = [] then none else some (r, none)) token ∧
      ∀ m arg i, parseOffset arg = .ok i →
        (env.runFrom m (handleGetbit [Rdb.asBytes dest, arg]) out.2.2).1 = .ok (.flag (bit r i))

theorem loadStrings_runs (h : env.Faultless) {held : String → Option (Bytes × Option Int)}
    {keys : List String} (hheld : ∀ k ∈ keys, ∀ n, env.Sees n s k View.string (held k)) (n : Nat) :
    ∃ w, env.runFrom n (loadStrings keys) s = (.ok (keys.map fun k => stringOf (held k)), w) := by
  induction keys generalizing s n with
  | nil => exact ⟨(n, s), rfl⟩
  | cons k keys ih =>
      have hk := hheld k (List.mem_cons_self ..)
      have hkeys : ∀ k' ∈ keys, ∀ m, env.Sees m (env.swept n s k) k' View.string (held k') := by
        intro k' hk' m
        by_cases hne : k' = k
        · rw [hne]
          exact Solo.sees_after_load hk m n
        · exact (hheld k' (List.mem_cons_of_mem _ hk') m).of_ne hne n
      obtain ⟨w, hrest⟩ := ih hkeys (n + 1)
      refine ⟨w, ?_⟩
      unfold loadStrings
      refine (Solo.runFrom_step (getString_sees h (hk n))).trans ?_
      refine (Solo.runFrom_step hrest).trans ?_
      rw [List.map_cons, ← getD_eq_stringOf]
      rfl

/-- What `BITOP` stores for the bytes it computed. -/
theorem handleBitop_runs (h : env.Faultless) {opArg : Bytes} {op : BitOp} {dest : String}
    {args : List Bytes} {keys : List String} {held : String → Option (Bytes × Option Int)}
    (hop : BitOp.parse opArg = .ok op) (hargs : argsAsStrings args = .ok keys) (hkeys : keys ≠ [])
    (hnot : op = .not → keys.length = 1)
    (hheld : ∀ k ∈ keys, ∀ n, env.Sees n s k View.string (held k)) :
    let r := applyBitop op (keys.map fun k => stringOf (held k))
    let out := env.run (handleBitop (opArg :: Rdb.asBytes dest :: args)) s
    out.1 = .ok (.integer (toI64 r.length)) ∧ ∃ token,
      out.2.2 dest = View.string.holding (if r = [] then none else some (r, none)) token := by
  obtain ⟨w, hload⟩ := loadStrings_runs h hheld 0
  have hone : ¬ (op = .not ∧ keys.length ≠ 1) := fun hboth => hboth.2 (hnot hboth.1)
  cases args with
  | nil => exact absurd (Except.ok.inj hargs).symm hkeys
  | cons k ks =>
      have hrun : env.run (handleBitop (opArg :: Rdb.asBytes dest :: k :: ks)) s =
          env.runFrom w.1 (let r := applyBitop op (keys.map fun k => stringOf (held k))
            if r.isEmpty then (Storage.delete dest).bind fun _ =>
              .done (.ok (.integer (toI64 r.length)))
            else (Storage.setString dest r none).bind fun _ =>
              .done (.ok (.integer (toI64 r.length)))) w.2 := by
        unfold handleBitop
        refine (Solo.runFrom_parse hop).trans ?_
        refine (Solo.runFrom_parse (argAsStr_asBytes dest)).trans ?_
        refine (Solo.runFrom_parse hargs).trans ?_
        rw [if_neg hone]
        exact Solo.runFrom_step hload
      dsimp only
      rw [hrun]
      generalize applyBitop op (keys.map fun k => stringOf (held k)) = r
      dsimp only
      by_cases hr : r = []
      · subst hr
        obtain ⟨b, w', hdelete, hgone⟩ := Solo.delete_leaves h w.1 dest w.2
        rw [if_pos List.isEmpty_nil, if_pos rfl, Solo.runFrom_step hdelete]
        exact ⟨rfl, "", hgone⟩
      · have hfull : ¬ r.isEmpty = true := by rwa [List.isEmpty_iff]
        have hsave : env.runFrom w.1 (Storage.setString dest r none) w.2 = _ :=
          Solo.save_runs h trivial
        rw [if_neg hfull, if_neg hr, Solo.runFrom_step hsave]
        exact ⟨rfl, _, Function.update_self _ _ _⟩

theorem bitop_exact (h : env.Faultless) : BitopExact env s := by
  intro opArg op dest args keys held hop hargs hkeys hnot hheld
  obtain ⟨hreply, token, hdest⟩ :=
    @handleBitop_runs env s h opArg op dest args keys held hop hargs hkeys hnot hheld
  refine ⟨_, token, ?_, hreply, hdest, fun m arg i harg => ?_⟩
  · apply applyBitop_result
    · rwa [Ne, List.map_eq_nil_iff]
    · intro h
      rw [List.length_map]
      exact hnot h
  · generalize applyBitop op (keys.map fun k => stringOf (held k)) = r at hdest ⊢
    by_cases hr : r = []
    · rw [if_pos hr] at hdest
      rw [hr]
      exact handleGetbit_runs h (Solo.Sees.of_none hdest) harg
    · rw [if_neg hr] at hdest
      have hsees : env.Sees m (env.run (handleBitop (opArg :: Rdb.asBytes dest :: args)) s).2.2
          dest View.string (some (r, none)) := Solo.Sees.of_live (V := View.string) hdest rfl
      exact handleGetbit_runs h hsees harg

/-- The four commands agree with one bit array: a string of fewer than `2^29` bytes followed by
zeros. -/
theorem string_is_bit_array (h : env.Faultless) (hsees : env.Sees 0 s k View.string found)
    (hlen : (stringOf found).length < 2 ^ 29) :
    SetbitExact env s k found ∧ BitcountExact env s k (stringOf found) ∧
      BitposExact env s k (stringOf found) ∧ BitopExact env s :=
  ⟨setbit_exact h hsees, bitcount_exact h hsees hlen, bitpos_exact h hsees hlen, bitop_exact h⟩

theorem abString_is_bit_array :
    SetbitExact (Solo.still 0) abString "k" (some ([97, 98], none)) ∧
      BitcountExact (Solo.still 0) abString "k" [97, 98] ∧
      BitposExact (Solo.still 0) abString "k" [97, 98] ∧ BitopExact (Solo.still 0) abString :=
  string_is_bit_array (Solo.still_faultless 0) abString_sees (by decide)

end Runs

end Commands
end RustyAnt
