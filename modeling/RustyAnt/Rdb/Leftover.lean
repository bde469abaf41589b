import RustyAnt.Lib.Stable
import RustyAnt.Rdb.Corruption

/-!
# Bytes behind the value

`restore_value` never asks whether its reader has come to the end of the body.  Every decoder
reads on from its position, so bytes put behind a value change nothing.
-/

namespace RustyAnt.Rdb

open Lib Lib.Outcome Lib.Endian

namespace Reader

/-- The reader of a longer buffer. -/
def more (extra : Bytes) (r : Reader) : Reader := { r with buf := r.buf ++ extra }

end Reader

variable {extra : Bytes}

theorem readU8_stable : Stable (Reader.more extra) Reader.readU8 := by
  intro r b r' h
  unfold Reader.readU8 at h ⊢
  split at h
  · cases h
  · rename_i hpos
    obtain ⟨b', hb, h⟩ := bind_eq_ok.mp h
    obtain ⟨pos, hadd, h⟩ := bind_eq_ok.mp h
    cases h
    have hlt : r.pos < r.buf.length := by omega
    have hindex : (index (r.buf ++ extra) r.pos : Decoded UInt8) = index r.buf r.pos := by
      unfold index
      rw [List.getElem?_append_left hlt]
    rw [if_neg (by simp only [Reader.more, List.length_append]; omega)]
    show (index (r.buf ++ extra) r.pos >>= fun b => _) = _
    rw [hindex, hb, ok_bind]
    show (add r.pos 1 >>= fun pos => _) = _
    rw [hadd]
    rfl

theorem readSlice_stable (n : Nat) : Stable (Reader.more extra) fun r => r.readSlice n := by
  intro r s r' h
  dsimp only at h ⊢
  unfold Reader.readSlice at h ⊢
  obtain ⟨stop, hadd, h⟩ := bind_eq_ok.mp h
  have hstop := add_eq_of_ok hadd
  show (add r.pos n >>= fun stop => _) = _
  rw [hadd, ok_bind]
  split at h
  · cases h
  · rename_i hle
    rw [slice_eq_ok (by omega) (by omega), ok_bind] at h
    cases h
    rw [if_neg (by simp only [Reader.more, List.length_append]; omega)]
    have hslice : ((r.buf ++ extra).drop r.pos).take (stop - r.pos) =
        (r.buf.drop r.pos).take (stop - r.pos) := by
      rw [List.drop_append_of_le_length (by omega), List.take_append_of_le_length]
      rw [List.length_drop]
      omega
    show (slice (r.buf ++ extra) r.pos stop >>= fun s => _) = _
    rw [slice_eq_ok (by omega) (by rw [List.length_append]; omega), ok_bind, hslice]
    rfl

/-! ## Lengths -/

/-- A field of fixed width and what is made of its bytes. -/
theorem readField_stable {α : Type} (k : Nat) (f : Bytes → α) :
    Stable (Reader.more extra) fun r => (do
      let (bs, r) ← r.readSlice k
      let word ← gather bs 0 k
      return (f word, r) : Decoded (α × Reader)) :=
  (readSlice_stable k).bind fun _ => .lift fun _ => .pure _

theorem readWideLength_stable (b : UInt8) : Stable (Reader.more extra) (readWideLength b) :=
  .ite (readField_stable 4 _) (.ite (readField_stable 8 _) (.err _))

theorem readRdbLength_stable : Stable (Reader.more extra) readRdbLength := by
  refine readU8_stable.bind fun b => ?_
  dsimp only
  generalize b.toNat / 64 = form
  match form with
  | 0 => exact .pure _
  | 1 => exact readU8_stable.bind fun b2 => .pure (b.toNat % 64 * 256 + b2.toNat)
  | 2 => exact readWideLength_stable b
  | _ + 3 => exact .err _

theorem readSpecialLen_stable (b : UInt8) : Stable (Reader.more extra) (readSpecialLen b) :=
  .ite (readU8_stable.bind fun _ => .pure _)
    (.ite (readField_stable 2 _) (.ite (readField_stable 4 _) (.ite (.pure _) (.err _))))

theorem readRdbStrLen_stable : Stable (Reader.more extra) readRdbStrLen := by
  refine readU8_stable.bind fun b => ?_
  dsimp only
  generalize b.toNat / 64 = form
  match form with
  | 0 => exact .pure _
  | 1 => exact readU8_stable.bind fun b2 => .pure (RdbStrLen.normal (b.toNat % 64 * 256 + b2.toNat))
  | 2 => exact (readWideLength_stable b).bind fun n => .pure (RdbStrLen.normal n)
  | _ + 3 => exact readSpecialLen_stable b

/-! ## Strings and members -/

theorem readLzfString_stable : Stable (Reader.more extra) readLzfString :=
  readRdbLength_stable.bind fun _ => readRdbLength_stable.bind fun _ =>
    (readSlice_stable _).bind fun _ => .lift fun _ => .pure _

theorem readRdbString_stable : Stable (Reader.more extra) readRdbString := by
  refine readRdbStrLen_stable.bind fun len => ?_
  cases len with
  | normal n => exact readSlice_stable n
  | intStr n => exact .pure _
  | lzf => exact readLzfString_stable

theorem readNode_stable (items : List Bytes) :
    Stable (Reader.more extra) fun r => readNode (items, r) :=
  readRdbLength_stable.bind fun _ =>
    .ite (readRdbString_stable.bind fun _ => .lift fun _ => .pure _)
      (.ite (readRdbString_stable.bind fun _ => .pure _) (.err _))

theorem readMember_stable (set : BTreeSet String) :
    Stable (Reader.more extra) fun r => readMember (set, r) := by
  show Stable (Reader.more extra) fun r => (do
    let (m, r) ← readRdbString r
    let member ← fromUtf8 m
    return (set.insert member, r) : Decoded _)
  exact readRdbString_stable.bind fun _ => .lift fun _ => .pure _

theorem readScored_stable (map : BTreeMap String F64) :
    Stable (Reader.more extra) fun r => readScored (map, r) := by
  show Stable (Reader.more extra) fun r => (do
    let (m, r) ← readRdbString r
    let member ← fromUtf8 m
    let (scoreBytes, r) ← r.readSlice 8
    let word ← gather scoreBytes 0 8
    return (map.insert member ⟨UInt64.ofNat (leNat word)⟩, r) : Decoded _)
  exact readRdbString_stable.bind fun _ => .lift fun _ =>
    (readSlice_stable 8).bind fun _ => .lift fun _ => .pure _

/-! ## Bodies -/

theorem readOne_settled {α : Type} (f : Bytes × Reader → Decoded α)
    (hf : ∀ data, Settled (Reader.more extra) fun r => f (data, r)) :
    Settled (Reader.more extra) fun r => readRdbString r >>= f := .bind readRdbString_stable hf

/-- A count, that many rounds, and then nothing of the body. -/
theorem readCounted_settled {σ α : Type} {body : σ × Reader → Decoded (σ × Reader)}
    (hbody : ∀ s, Stable (Reader.more extra) fun r => body (s, r)) (start : σ) (f : σ → α) :
    Settled (Reader.more extra) fun r => (do
      let (count, r) ← readRdbLength r
      let (s, _) ← times body count (start, r)
      return f s : Decoded α) :=
  .bind readRdbLength_stable fun count => .bind (.times hbody count start) fun _ => .const _

theorem readKind_settled (fo : FloatOps) (t : UInt8) :
    Settled (Reader.more extra) (readKind fo t) := by
  refine .ite (readOne_settled _ fun _ => .const _) (.ite (readOne_settled _ fun _ => .const _)
    (.ite (readCounted_settled readNode_stable [] Value.list)
    (.ite (readOne_settled _ fun _ => .const _)
    (.ite (readCounted_settled readMember_stable ∅ Value.set)
    (.ite (readOne_settled _ fun _ => .const _) (.ite (readOne_settled _ fun _ => .const _)
    (.ite (readCounted_settled readScored_stable ∅ Value.zset) (.ite (.const _) (.const _)))))))))

theorem readBody_append (fo : FloatOps) {body : Bytes} {v : Value} (h : readBody fo body = .ok v)
    (extra : Bytes) : readBody fo (body ++ extra) = .ok v := by
  have hsettled : Settled (Reader.more extra) fun r =>
      r.readU8 >>= fun p => readKind fo p.1 p.2 := .bind readU8_stable (readKind_settled fo)
  exact hsettled (Reader.new body) v h

/-! ## Payloads -/

/-- The payload with bytes put behind its body, and the checksum made right again. -/
def extended (payload extra : Bytes) : Bytes :=
  let body := bodyOf payload ++ extra ++ (trailerOf payload).take 2
  body ++ leBytes 8 (crc64 0 body).toNat

/-- Whatever bytes are put behind its body, the longer payload is refused. -/
def RefusesLonger (fo : FloatOps) (payload : Bytes) : Prop :=
  ∀ extra ≠ [], ∀ v, restoreValue fo (extended payload extra) ≠ .ok v

/-- No accepted payload of the same version has a body that goes on behind this one. -/
def EndsBody (fo : FloatOps) (payload : Bytes) : Prop :=
  ∀ longer v, restoreValue fo longer = .ok v →
    (trailerOf longer).take 2 = (trailerOf payload).take 2 →
    bodyOf payload <+: bodyOf longer → bodyOf longer = bodyOf payload

theorem sealed_of_ok {fo : FloatOps} {payload : Bytes} {v : Value}
    (h : restoreValue fo payload = .ok v) : Sealed payload := by
  by_contra hnot
  rw [restoreValue_of_not_sealed fo hnot] at h
  cases h

section Extended

variable {payload : Bytes} (h : Sealed payload) (extra : Bytes)

theorem extended_split : extended payload extra = (bodyOf payload ++ extra) ++
    ((trailerOf payload).take 2 ++ leBytes 8 (crc64 0 (bodyOf payload ++ extra ++
      (trailerOf payload).take 2)).toNat) := by
  unfold extended
  rw [List.append_assoc _ _ (leBytes 8 _)]

include h in
theorem length_tag : ((trailerOf payload).take 2).length = 2 := by
  have hlength := h.length
  unfold trailerOf
  rw [List.length_take, List.length_drop]
  omega

include h in
theorem bodyOf_extended : bodyOf (extended payload extra) = bodyOf payload ++ extra := by
  have htag := length_tag h
  unfold bodyOf
  rw [extended_split]
  apply List.take_left'
  simp only [List.length_append, length_leBytes, htag]
  omega

include h in
theorem trailerOf_extended : trailerOf (extended payload extra) =
    (trailerOf payload).take 2 ++
      leBytes 8 (crc64 0 (bodyOf payload ++ extra ++ (trailerOf payload).take 2)).toNat := by
  have htag := length_tag h
  have hlength : (extended payload extra).length - 10 = (bodyOf payload ++ extra).length := by
    rw [extended_split]
    simp only [List.length_append, length_leBytes, htag]
    omega
  unfold trailerOf at hlength ⊢
  rw [hlength, extended_split]
  exact List.drop_left' rfl

include h in
theorem sealed_extended : Sealed (extended payload extra) := by
  have htag := length_tag h
  refine ⟨?_, ?_, ?_⟩
  · rw [extended_split]
    simp only [List.length_append, length_leBytes, htag]
    omega
  · rw [trailerOf_extended h, List.take_left' htag]
    exact h.version
  · rw [trailerOf_extended h, List.drop_left' htag, List.take_left' htag, bodyOf_extended h]
    rw [leNat_leBytes]
    exact Nat.mod_eq_of_lt (UInt64.toNat_lt _)

end Extended

/-- Bytes behind the body of an accepted payload go unnoticed. -/
theorem restoreValue_extended {fo : FloatOps} {payload : Bytes} {v : Value}
    (h : restoreValue fo payload = .ok v) (extra : Bytes) :
    restoreValue fo (extended payload extra) = .ok v := by
  have hsealed := sealed_of_ok h
  rw [restoreValue_of_sealed fo hsealed] at h
  rw [restoreValue_of_sealed fo (sealed_extended hsealed extra), bodyOf_extended hsealed]
  exact readBody_append fo h extra

theorem not_endsBody {fo : FloatOps} {payload : Bytes} {v : Value}
    (h : restoreValue fo payload = .ok v) : ¬ EndsBody fo payload := by
  have hsealed := sealed_of_ok h
  intro hends
  have hbody := bodyOf_extended hsealed [0]
  have htag : (trailerOf (extended payload [0])).take 2 = (trailerOf payload).take 2 := by
    rw [trailerOf_extended hsealed, List.take_left' (length_tag hsealed)]
  have hsame := hends (extended payload [0]) v (restoreValue_extended h [0]) htag
    (by rw [hbody]; exact List.prefix_append _ _)
  rw [hbody, List.append_right_eq_self] at hsame
  cases hsame

/-- No accepted payload is read to its end: with any bytes behind its body it is accepted again,
for the same value. -/
theorem restoreValue_reads_no_end (fo : FloatOps) {payload : Bytes} {v : Value}
    (h : restoreValue fo payload = .ok v) :
    (∀ extra, restoreValue fo (extended payload extra) = .ok v) ∧
      ¬ RefusesLonger fo payload ∧ ¬ EndsBody fo payload := by
  refine ⟨restoreValue_extended h, fun hrefuses => ?_, not_endsBody h⟩
  exact hrefuses [0] (List.cons_ne_nil _ _) v (restoreValue_extended h [0])

theorem restoreValue_reads_no_end_on_oneLetter :
    ¬ RefusesLonger FloatOps.integral OneLetter.payload :=
  (restoreValue_reads_no_end FloatOps.integral (dump_restore_string (by decide))).2.1

/-- The string `a` with the byte `b` behind it is restored as `a`. -/
theorem restoreValue_accepts_leftover :
    extended OneLetter.payload [98] ≠ OneLetter.payload ∧
      restoreValue FloatOps.integral (extended OneLetter.payload [98]) = .ok (.string [97]) ∧
      ¬ RefusesLonger FloatOps.integral OneLetter.payload := by
  have haccepted : restoreValue FloatOps.integral (extended OneLetter.payload [98]) =
      .ok (.string [97]) := by decide +kernel
  exact ⟨by decide +kernel, haccepted,
    fun hrefuses => hrefuses [98] (List.cons_ne_nil _ _) _ haccepted⟩

end RustyAnt.Rdb
