import RustyAnt.Lib.Crc
import RustyAnt.Rdb.RoundTrip

/-!
# Altered payloads

The checksum at the end of a payload covers the body and the version tag, low byte first, so
the payload as a whole leaves the CRC register empty.  Bytes altered inside a window of eight
cannot leave it empty again.
-/

namespace RustyAnt.Rdb

open Lib Lib.Endian

theorem crc64Shift_toBitVec (c : UInt64) :
    (crc64Shift c).toBitVec = Crc.shift crc64ReflectedPoly.toBitVec c.toBitVec := by
  have hlow : c &&& 1 ≠ 0 ↔ c.toBitVec.getLsbD 0 = true := by
    rw [Ne, ← UInt64.toBitVec_inj, UInt64.toBitVec_and]
    show ¬ c.toBitVec &&& 1#64 = 0#64 ↔ _
    rw [BitVec.and_one_eq_setWidth_ofBool_getLsbD]
    cases c.toBitVec.getLsbD 0
    · decide
    · decide
  unfold crc64Shift Crc.shift
  by_cases h : c &&& 1 ≠ 0
  · rw [if_pos h, if_pos (hlow.mp h)]
    rfl
  · rw [if_neg h, if_neg (mt hlow.mpr h)]
    rfl

theorem crc64Table_toBitVec (i : UInt64) :
    (crc64Table i).toBitVec = (Crc.shift crc64ReflectedPoly.toBitVec)^[8] i.toBitVec :=
  Function.Semiconj.iterate_right (f := UInt64.toBitVec) crc64Shift_toBitVec 8 i

theorem toBitVec_shiftRight_eight (c : UInt64) : (c >>> 8).toBitVec = c.toBitVec >>> 8 := rfl

theorem low_xor_high (c : UInt64) (b : UInt8) :
    (c ^^^ b.toUInt64).toBitVec =
      ((c ^^^ b.toUInt64) &&& 0xff).toBitVec ^^^ ((c >>> 8).toBitVec <<< 8) := by
  have hmask (i : Nat) : ((255 : UInt64).toBitVec).getLsbD i = decide (i < 8) := by
    show (255#64).getLsbD i = _
    rw [BitVec.getLsbD_ofNat, show (255 : Nat) = 2 ^ 8 - 1 from rfl, Nat.testBit_two_pow_sub_one]
    by_cases h : i < 8
    · rw [decide_eq_true h, decide_eq_true (by omega : i < 64)]
      rfl
    · rw [decide_eq_false h, Bool.and_false]
  rw [UInt64.toBitVec_and, UInt64.toBitVec_xor, UInt8.toBitVec_toUInt64, toBitVec_shiftRight_eight]
  apply BitVec.eq_of_getLsbD_eq
  intro i hi
  rw [BitVec.getLsbD_xor, BitVec.getLsbD_xor, BitVec.getLsbD_and, BitVec.getLsbD_xor,
    BitVec.getLsbD_shiftLeft, BitVec.getLsbD_ushiftRight, hmask, BitVec.getLsbD_setWidth]
  by_cases h : i < 8
  · rw [decide_eq_true h]
    simp
  · rw [decide_eq_false h, decide_eq_true hi, BitVec.getLsbD_of_ge b.toBitVec i (by omega),
      show 8 + (i - 8) = i by omega]
    simp

/-- The table's entry for the low byte, and the rest moved down: eight shifts of the register. -/
theorem crc64_step (c : UInt64) (b : UInt8) :
    (crc64Table ((c ^^^ b.toUInt64) &&& 0xff) ^^^ (c >>> 8)).toBitVec =
      Crc.byte crc64ReflectedPoly.toBitVec c.toBitVec b := by
  have hhigh : (c >>> 8).toBitVec.toNat * 2 ^ 8 < 2 ^ 64 := by
    have hc := c.toBitVec.isLt
    rw [toBitVec_shiftRight_eight, BitVec.toNat_ushiftRight, Nat.shiftRight_eq_div_pow]
    omega
  calc (crc64Table ((c ^^^ b.toUInt64) &&& 0xff) ^^^ (c >>> 8)).toBitVec
      = (crc64Table ((c ^^^ b.toUInt64) &&& 0xff)).toBitVec ^^^ (c >>> 8).toBitVec := rfl
    _ = (Crc.shift crc64ReflectedPoly.toBitVec)^[8] ((c ^^^ b.toUInt64) &&& 0xff).toBitVec ^^^
          (c >>> 8).toBitVec := by rw [crc64Table_toBitVec]
    _ = (Crc.shift crc64ReflectedPoly.toBitVec)^[8] (c ^^^ b.toUInt64).toBitVec := by
        rw [low_xor_high, Crc.shifts_above _ 8 _ hhigh]

theorem crc64_toBitVec (seed : UInt64) (data : Bytes) :
    (crc64 seed data).toBitVec = Crc.crc crc64ReflectedPoly.toBitVec seed.toBitVec data := by
  unfold crc64 Crc.crc
  induction data generalizing seed with
  | nil => rfl
  | cons b data ih => rw [List.foldl_cons, List.foldl_cons, ih, crc64_step]

theorem crc64ReflectedPoly_msb : crc64ReflectedPoly.toBitVec.msb = true := by decide

/-- A payload is sealed when the register is empty behind it. -/
theorem sealed_iff {payload : Bytes} : Sealed payload ↔ 10 ≤ payload.length ∧
    leNat ((trailerOf payload).take 2) ≤ rdbMaxAcceptVersion ∧ crc64 0 payload = 0 := by
  have hcrc : 10 ≤ payload.length → (crc64 0 payload = 0 ↔ leNat ((trailerOf payload).drop 2) =
      (crc64 0 (bodyOf payload ++ (trailerOf payload).take 2)).toNat) := by
    intro hlen
    have hcheck : 8 * ((trailerOf payload).drop 2).length = 64 := by
      unfold trailerOf
      rw [List.length_drop, List.length_drop]
      omega
    have hwhole : payload =
        bodyOf payload ++ (trailerOf payload).take 2 ++ (trailerOf payload).drop 2 := by
      unfold bodyOf trailerOf
      rw [List.append_assoc, List.take_append_drop, List.take_append_drop]
    have hcover := Crc.crc_check_iff crc64ReflectedPoly_msb 0
      (bodyOf payload ++ (trailerOf payload).take 2) hcheck
    rw [← hwhole] at hcover
    rw [← UInt64.toBitVec_inj, crc64_toBitVec, ← UInt64.toNat_toBitVec, crc64_toBitVec]
    exact hcover
  constructor
  · intro h
    exact ⟨h.length, h.version, (hcrc h.length).mpr h.crc⟩
  · intro ⟨hlen, hversion, hzero⟩
    exact ⟨hlen, hversion, (hcrc hlen).mp hzero⟩

/-- Another byte string of the same length that differs only within some `n` consecutive bytes. -/
structure AlteredWithin (n : Nat) (payload altered : Bytes) : Prop where
  length : altered.length = payload.length
  ne : altered ≠ payload
  window : ∃ i, ∀ j, ¬ (i ≤ j ∧ j < i + n) → altered[j]? = payload[j]?

theorem AlteredWithin.crc64_ne {payload altered : Bytes} (h : AlteredWithin 8 payload altered) :
    crc64 0 altered ≠ crc64 0 payload := by
  obtain ⟨i, hwindow⟩ := h.window
  have hfront : altered.take i = payload.take i := by
    apply List.ext_getElem?
    intro j
    rw [List.getElem?_take, List.getElem?_take]
    by_cases hj : j < i
    · rw [if_pos hj, if_pos hj, hwindow j (by omega)]
    · rw [if_neg hj, if_neg hj]
  have hback : (altered.drop i).drop 8 = (payload.drop i).drop 8 := by
    apply List.ext_getElem?
    intro j
    rw [List.drop_drop, List.drop_drop, List.getElem?_drop, List.getElem?_drop,
      hwindow _ (by omega)]
  have hsplit (l : Bytes) : l = l.take i ++ (l.drop i).take 8 ++ (l.drop i).drop 8 := by
    rw [List.append_assoc, List.take_append_drop, List.take_append_drop]
  have hlen : ((altered.drop i).take 8).length = ((payload.drop i).take 8).length := by
    rw [List.length_take, List.length_take, List.length_drop, List.length_drop, h.length]
  have hshort : 8 * ((altered.drop i).take 8).length ≤ 64 := by
    rw [List.length_take]
    omega
  intro hcrc
  rw [← UInt64.toBitVec_inj, crc64_toBitVec, crc64_toBitVec, hsplit altered, hsplit payload,
    hfront, hback] at hcrc
  have hsame := Crc.crc_burst crc64ReflectedPoly_msb hlen hshort hcrc
  apply h.ne
  rw [hsplit altered, hsplit payload, hfront, hback, hsame]

/-- A payload that was altered inside a window of eight bytes is not restored. -/
theorem restoreValue_altered (fo : FloatOps) {payload altered : Bytes} {v : Value}
    (haccepted : restoreValue fo payload = .ok v) (h : AlteredWithin 8 payload altered) :
    restoreValue fo altered = .err badPayload := by
  have hsealed : Sealed payload := by
    by_contra hnot
    rw [restoreValue_of_not_sealed fo hnot] at haccepted
    cases haccepted
  apply restoreValue_of_not_sealed
  intro hagain
  apply h.crc64_ne
  rw [(sealed_iff.mp hagain).2.2, (sealed_iff.mp hsealed).2.2]

namespace OneLetter

/-- The payload of the string `a`. -/
def payload : Bytes := withTrailer (rdbTypeString :: writeRdbString [97])

/-- The letter and the first byte of the version tag behind it are other ones. -/
def altered : Bytes := (payload.set 2 98).set 3 10

end OneLetter

open OneLetter in
theorem restoreValue_altered_on_oneLetter :
    restoreValue FloatOps.integral altered = .err badPayload := by
  have haccepted : restoreValue FloatOps.integral payload = .ok (.string [97]) :=
    dump_restore_string (by decide)
  apply restoreValue_altered FloatOps.integral haccepted
  refine ⟨by decide +kernel, by decide +kernel, 2, ?_⟩
  intro j hj
  show ((payload.set 2 98).set 3 10)[j]? = _
  rw [List.getElem?_set_ne (by omega), List.getElem?_set_ne (by omega)]

end RustyAnt.Rdb
