import RustyAnt.Lib.Cyclic
import RustyAnt.Rdb.RoundTrip

/-!
# LZF streams

The tokens of LZF, what they stand for and their bytes.  `lzf_decompress` decodes the bytes of
every sequence of tokens to what the tokens stand for, and there is nothing else that it accepts.
-/

namespace RustyAnt.Rdb

open Lib Lib.Outcome

/-- Some bytes, or a run that begins `offset` bytes before the end of the output. -/
inductive LzfToken where
  | literal (data : Bytes) (hdata : 1 ≤ data.length ∧ data.length ≤ 32)
  | backRef (offset length : Nat) (hoffset : 1 ≤ offset ∧ offset ≤ 8192)
      (hlength : 3 ≤ length ∧ length ≤ 264)

namespace LzfToken

/-- A length below 9 is part of the control byte, a longer one has a byte of its own. -/
def bytes : LzfToken → Bytes
  | literal data _ => UInt8.ofNat (data.length - 1) :: data
  | backRef offset length _ _ =>
      if length < 9 then
        [UInt8.ofNat ((length - 2) * 32 + (offset - 1) / 256), UInt8.ofNat ((offset - 1) % 256)]
      else
        [UInt8.ofNat (7 * 32 + (offset - 1) / 256), UInt8.ofNat (length - 9),
          UInt8.ofNat ((offset - 1) % 256)]

section Bytes

variable {offset length : Nat} {hoffset : 1 ≤ offset ∧ offset ≤ 8192}
  {hlength : 3 ≤ length ∧ length ≤ 264}

theorem bytes_short (h : length < 9) : (backRef offset length hoffset hlength).bytes =
    [UInt8.ofNat ((length - 2) * 32 + (offset - 1) / 256), UInt8.ofNat ((offset - 1) % 256)] :=
  if_pos h

theorem bytes_long (h : ¬ length < 9) : (backRef offset length hoffset hlength).bytes =
    [UInt8.ofNat (7 * 32 + (offset - 1) / 256), UInt8.ofNat (length - 9),
      UInt8.ofNat ((offset - 1) % 256)] := if_neg h

end Bytes

/-- The output behind the token.  A run that is longer than its offset begins anew; one that
begins before the output has no meaning. -/
def after (out : Bytes) : LzfToken → Option Bytes
  | literal data _ => some (out ++ data)
  | backRef offset length _ _ =>
      if offset ≤ out.length then
        some (out ++ cyclic (out.drop (out.length - offset)) 0 length)
      else none

end LzfToken

/-- The output of a stream that goes on from `out`. -/
def expand (out : Bytes) : List LzfToken → Option Bytes
  | [] => some out
  | t :: ts => (t.after out).bind fun out => expand out ts

def lzfBytes (ts : List LzfToken) : Bytes := (ts.map LzfToken.bytes).flatten

/-! ## One token -/

/-- Copied byte by byte, a run reads what it has written. -/
theorem lzfCopy_eq {out : Bytes} {start : Nat} (hstart : start < out.length) (n k : Nat) :
    lzfCopy (start + k) n (out ++ cyclic (out.drop start) 0 k) =
      .ok (out ++ cyclic (out.drop start) 0 (k + n)) := by
  have hw : out.drop start ≠ [] := by
    rw [← List.length_pos_iff, List.length_drop]
    omega
  induction n generalizing k with
  | zero => rfl
  | succ n ih =>
      obtain ⟨b, hb, hsucc⟩ := cyclic_succ hw 0 k
      have hread : (index (out ++ cyclic (out.drop start) 0 k) (start + k) : Decoded UInt8) =
          .ok b := by
        rw [index, getElem?_append_cyclic hstart, ← Nat.zero_add k, hb]
      rw [lzfCopy, hread, ok_bind, List.append_assoc, ← hsucc, Nat.add_assoc start, ih,
        Nat.add_right_comm, Nat.add_assoc]

section Step

variable {input out : Bytes} {p : Nat} {ctrl l b : UInt8} {q : Bytes}
  (hfits : input.length ≤ isizeMax)

theorem index_of_drop (h : input.drop p = b :: q) : (index input p : Decoded UInt8) = .ok b := by
  have hhead : (input.drop p)[0]? = some b := by
    rw [h]
    rfl
  rw [List.getElem?_drop, Nat.add_zero] at hhead
  rw [index, hhead]

theorem drop_of_cons (h : input.drop p = b :: q) : input.drop (p + 1) = q := by
  rw [← List.drop_drop, h]
  rfl

theorem length_of_drop (h : input.drop p = b :: q) : input.length = p + 1 + q.length := by
  have hlength := congrArg List.length h
  rw [List.length_drop, List.length_cons] at hlength
  omega

include hfits in
theorem add_of_le {n k : Nat} (hn : n ≤ input.length) (hk : k ≤ 256) :
    (add n k : Decoded Nat) = .ok (n + k) := by
  have hbound : n + k < usizeBound := by
    unfold usizeBound
    unfold isizeMax at hfits
    omega
  exact if_pos hbound

include hfits in
/-- A control byte below 32 announces that many bytes and one more. -/
theorem lzfStep_literal (h : input.drop p = ctrl :: q) (hctrl : ctrl.toNat < 32) :
    lzfStep input p out =
      if q.length < ctrl.toNat + 1 then .err badPayload
      else .ok (p + 1 + (ctrl.toNat + 1), out ++ q.take (ctrl.toNat + 1)) := by
  have hlength := length_of_drop h
  unfold lzfStep
  rw [index_of_drop h, ok_bind, add_of_le hfits (by omega) (by omega), ok_bind, if_pos hctrl,
    add_of_le hfits (by omega) (by omega), ok_bind]
  by_cases hshort : q.length < ctrl.toNat + 1
  · rw [if_pos hshort, if_pos (by omega)]
  · rw [if_neg hshort, if_neg (by omega), slice_eq_ok (by omega) (by omega), ok_bind,
      drop_of_cons h, Nat.add_sub_cancel_left]
    rfl

/-- What becomes of a reference that has been read. -/
def lzfRun (out : Bytes) (next refOff runLen : Nat) : Decoded (Nat × Bytes) :=
  if out.length < refOff + 1 then .err badPayload
  else .ok (next, out ++ cyclic (out.drop (out.length - refOff - 1)) 0 runLen)

include hfits in
theorem lzfOffset_eq (h : input.drop p = b :: q) (refOff : UInt8 → Nat) (runLen : Nat) :
    ((if input.length ≤ p then .err badPayload
      else do
        let b ← index input p
        let next ← add p 1
        if out.length < refOff b + 1 then .err badPayload
        else do
          let out ← lzfCopy (out.length - refOff b - 1) runLen out
          return (next, out)) : Decoded (Nat × Bytes)) =
      lzfRun out (p + 1) (refOff b) runLen := by
  have hlength := length_of_drop h
  rw [if_neg (by omega), index_of_drop h, ok_bind, add_of_le hfits (by omega) (by omega), ok_bind]
  unfold lzfRun
  by_cases hbefore : out.length < refOff b + 1
  · rw [if_pos hbefore, if_pos hbefore]
  · have hcopy := @lzfCopy_eq out (out.length - refOff b - 1) (by omega) runLen 0
    rw [Nat.add_zero, Nat.zero_add, show cyclic _ 0 0 = ([] : Bytes) from rfl,
      List.append_nil] at hcopy
    rw [if_neg hbefore, if_neg hbefore, hcopy]
    rfl

include hfits in
theorem lzfRunLen_long (h : input.drop p = l :: q) (hhigh : 224 ≤ ctrl.toNat) :
    lzfRunLen input ctrl p = .ok (7 + l.toNat + 2, p + 1) := by
  have hlength := length_of_drop h
  have hbyte := ctrl.toNat_lt
  unfold lzfRunLen
  rw [if_pos (by omega), if_neg (by omega), index_of_drop h, ok_bind,
    add_of_le hfits (by omega) (by omega)]
  rfl

include hfits in
/-- From 32 on the upper three bits of the control byte are a length. -/
theorem lzfStep_short (h : input.drop p = ctrl :: b :: q) (hlow : 32 ≤ ctrl.toNat)
    (hhigh : ctrl.toNat < 224) :
    lzfStep input p out =
      lzfRun out (p + 2) (ctrl.toNat % 32 * 256 + b.toNat) (ctrl.toNat / 32 + 2) := by
  have hlength := length_of_drop h
  have hlen : lzfRunLen input ctrl (p + 1) = .ok (ctrl.toNat / 32 + 2, p + 1) := if_neg (by omega)
  unfold lzfStep
  rw [index_of_drop h, ok_bind, add_of_le hfits (by omega) (by omega), ok_bind,
    if_neg (by omega), hlen, ok_bind]
  exact lzfOffset_eq hfits (drop_of_cons h) (fun b => ctrl.toNat % 32 * 256 + b.toNat) _

include hfits in
theorem lzfStep_long (h : input.drop p = ctrl :: l :: b :: q) (hhigh : 224 ≤ ctrl.toNat) :
    lzfStep input p out =
      lzfRun out (p + 3) (ctrl.toNat % 32 * 256 + b.toNat) (7 + l.toNat + 2) := by
  have hlength := length_of_drop h
  have hnext := drop_of_cons h
  unfold lzfStep
  rw [index_of_drop h, ok_bind, add_of_le hfits (by omega) (by omega), ok_bind,
    if_neg (by omega), lzfRunLen_long hfits hnext hhigh, ok_bind]
  exact lzfOffset_eq hfits (drop_of_cons hnext) (fun b => ctrl.toNat % 32 * 256 + b.toNat) _

include hfits in
/-- A reference of which nothing but the control byte is there. -/
theorem lzfStep_cut (h : input.drop p = [ctrl]) (hlow : 32 ≤ ctrl.toNat) :
    lzfStep input p out = .err badPayload := by
  have hlength := length_of_drop h
  rw [List.length_nil] at hlength
  unfold lzfStep
  rw [index_of_drop h, ok_bind, add_of_le hfits (by omega) (by omega), ok_bind, if_neg (by omega)]
  by_cases hseven : ctrl.toNat / 32 = 7
  · have hlen : lzfRunLen input ctrl (p + 1) = .err badPayload := by
      unfold lzfRunLen
      rw [if_pos hseven, if_pos (by omega)]
    rw [hlen]
    rfl
  · have hlen : lzfRunLen input ctrl (p + 1) = .ok (ctrl.toNat / 32 + 2, p + 1) := if_neg hseven
    rw [hlen, ok_bind]
    exact if_pos (by omega)

include hfits in
theorem lzfStep_cut_long (h : input.drop p = [ctrl, l]) (hhigh : 224 ≤ ctrl.toNat) :
    lzfStep input p out = .err badPayload := by
  have hlength := length_of_drop h
  rw [List.length_singleton] at hlength
  unfold lzfStep
  rw [index_of_drop h, ok_bind, add_of_le hfits (by omega) (by omega), ok_bind,
    if_neg (by omega), lzfRunLen_long hfits (drop_of_cons h) hhigh, ok_bind]
  exact if_pos (by omega)

/-! ### Tokens -/

include hfits in
/-- A round of the loop makes of a token what the token stands for. -/
theorem lzfStep_token (t : LzfToken) {rest : Bytes} (h : input.drop p = t.bytes ++ rest) :
    lzfStep input p out =
      (t.after out).elim (.err badPayload) fun out' => .ok (p + t.bytes.length, out') := by
  cases t with
  | literal data hdata =>
      have hctrl : (UInt8.ofNat (data.length - 1)).toNat = data.length - 1 :=
        toNat_ofNat_of_lt (by omega)
      have hcount : data.length - 1 + 1 = data.length := by omega
      rw [LzfToken.bytes, List.cons_append] at h
      rw [lzfStep_literal hfits h (by omega), hctrl, hcount, if_neg, List.take_left]
      · rw [LzfToken.after, LzfToken.bytes, List.length_cons, Nat.add_assoc, Nat.add_comm 1]
        rfl
      · rw [List.length_append]
        omega
  | backRef offset length hoffset hlength =>
      have hlow : (UInt8.ofNat ((offset - 1) % 256)).toNat = (offset - 1) % 256 :=
        toNat_ofNat_of_lt (by omega)
      have hrun : ∀ next, lzfRun out next (offset - 1) length =
          ((LzfToken.backRef offset length hoffset hlength).after out).elim (.err badPayload)
            fun out' => .ok (next, out') := by
        intro next
        have hstart : out.length - (offset - 1) - 1 = out.length - offset := by omega
        rw [lzfRun, LzfToken.after, hstart]
        by_cases hin : offset ≤ out.length
        · rw [if_pos hin, if_neg (by omega)]
          rfl
        · rw [if_neg hin, if_pos (by omega)]
          rfl
      by_cases hshort : length < 9
      · have hctrl : (UInt8.ofNat ((length - 2) * 32 + (offset - 1) / 256)).toNat =
            (length - 2) * 32 + (offset - 1) / 256 := toNat_ofNat_of_lt (by omega)
        rw [LzfToken.bytes_short hshort] at h ⊢
        have hoff : ((length - 2) * 32 + (offset - 1) / 256) % 32 * 256 + (offset - 1) % 256 =
            offset - 1 := by omega
        have hlen : ((length - 2) * 32 + (offset - 1) / 256) / 32 + 2 = length := by omega
        rw [lzfStep_short hfits h (by omega) (by omega), hctrl, hlow, hoff, hlen, hrun]
        rfl
      · have hctrl : (UInt8.ofNat (7 * 32 + (offset - 1) / 256)).toNat =
            7 * 32 + (offset - 1) / 256 := toNat_ofNat_of_lt (by omega)
        have hext : (UInt8.ofNat (length - 9)).toNat = length - 9 := toNat_ofNat_of_lt (by omega)
        rw [LzfToken.bytes_long hshort] at h ⊢
        have hoff : (7 * 32 + (offset - 1) / 256) % 32 * 256 + (offset - 1) % 256 =
            offset - 1 := by omega
        have hlen : 7 + (length - 9) + 2 = length := by omega
        rw [lzfStep_long hfits h (by omega), hctrl, hlow, hext, hoff, hlen, hrun]
        rfl

include hfits in
theorem lzfStep_token_cut (t : LzfToken) {r : Bytes} (h : input.drop p = r) (hr : r <+: t.bytes)
    (hne : r ≠ t.bytes) (hsome : r ≠ []) : lzfStep input p out = .err badPayload := by
  have hshorter := hr.length_le.lt_of_ne fun hlength => hne (hr.eq_of_length hlength)
  obtain ⟨ctrl, q, rfl⟩ := List.exists_cons_of_ne_nil hsome
  rw [List.length_cons] at hshorter
  cases t with
  | literal data hdata =>
      rw [LzfToken.bytes, List.cons_prefix_cons] at hr
      rw [LzfToken.bytes, List.length_cons] at hshorter
      have hctrl : ctrl.toNat = data.length - 1 := by
        rw [hr.1]
        exact toNat_ofNat_of_lt (by omega)
      rw [lzfStep_literal hfits h (by omega), if_pos (by omega)]
  | backRef offset length hoffset hlength =>
      by_cases hshort : length < 9
      · rw [LzfToken.bytes_short hshort] at hr hshorter
        have hctrl : ctrl.toNat = (length - 2) * 32 + (offset - 1) / 256 := by
          rw [(List.cons_prefix_cons.mp hr).1]
          exact toNat_ofNat_of_lt (by omega)
        have hlast : q.length < 1 := Nat.lt_of_succ_lt_succ hshorter
        rw [List.length_eq_zero_iff.mp (Nat.lt_one_iff.mp hlast)] at h
        exact lzfStep_cut hfits h (by omega)
      · rw [LzfToken.bytes_long hshort] at hr hshorter
        have hctrl : ctrl.toNat = 7 * 32 + (offset - 1) / 256 := by
          rw [(List.cons_prefix_cons.mp hr).1]
          exact toNat_ofNat_of_lt (by omega)
        match q, h, hshorter with
        | [], h, _ => exact lzfStep_cut hfits h (by omega)
        | [l], h, _ => exact lzfStep_cut_long hfits h (by omega)
        | _ :: _ :: q, _, hshorter =>
            simp only [List.length_cons, List.length_nil] at hshorter
            omega

end Step

/-! ## Streams -/

section Parse

variable {ctrl : UInt8}

theorem ofNat_of_eq_toNat {n : Nat} (h : n = ctrl.toNat) : UInt8.ofNat n = ctrl := by
  rw [h, UInt8.ofNat_toNat]

theorem exists_short (hlow : 32 ≤ ctrl.toNat) (hhigh : ctrl.toNat < 224) (b : UInt8) :
    ∃ t : LzfToken, t.bytes = [ctrl, b] := by
  have hb := b.toNat_lt
  refine ⟨.backRef (ctrl.toNat % 32 * 256 + b.toNat + 1) (ctrl.toNat / 32 + 2) (by omega) (by omega),
    ?_⟩
  rw [LzfToken.bytes_short (by omega), @ofNat_of_eq_toNat ctrl _ (by omega),
    @ofNat_of_eq_toNat b _ (by omega)]

theorem exists_long (hhigh : 224 ≤ ctrl.toNat) (l b : UInt8) :
    ∃ t : LzfToken, t.bytes = [ctrl, l, b] := by
  have hctrl := ctrl.toNat_lt
  have hl := l.toNat_lt
  have hb := b.toNat_lt
  refine ⟨.backRef (ctrl.toNat % 32 * 256 + b.toNat + 1) (l.toNat + 9) (by omega) (by omega), ?_⟩
  rw [LzfToken.bytes_long (by omega), @ofNat_of_eq_toNat ctrl _ (by omega),
    @ofNat_of_eq_toNat l _ (by omega), @ofNat_of_eq_toNat b _ (by omega)]

theorem exists_token (ctrl : UInt8) (q : Bytes) :
    (∃ (t : LzfToken) (rest : Bytes), ctrl :: q = t.bytes ++ rest) ∨
      ∃ t : LzfToken, ctrl :: q <+: t.bytes ∧ ctrl :: q ≠ t.bytes := by
  by_cases hlow : ctrl.toNat < 32
  · by_cases hwhole : ctrl.toNat + 1 ≤ q.length
    · have hlength : (q.take (ctrl.toNat + 1)).length = ctrl.toNat + 1 := by
        rw [List.length_take]
        omega
      refine .inl ⟨.literal (q.take (ctrl.toNat + 1)) (by omega), q.drop (ctrl.toNat + 1), ?_⟩
      rw [LzfToken.bytes, hlength, @ofNat_of_eq_toNat ctrl _ (by omega), List.cons_append,
        List.take_append_drop]
    · have hlength : (q ++ List.replicate (ctrl.toNat + 1 - q.length) 0).length =
          ctrl.toNat + 1 := by
        rw [List.length_append, List.length_replicate]
        omega
      refine .inr ⟨.literal (q ++ List.replicate (ctrl.toNat + 1 - q.length) 0) (by omega), ?_, ?_⟩
      · rw [LzfToken.bytes, hlength, @ofNat_of_eq_toNat ctrl _ (by omega), List.cons_prefix_cons]
        exact ⟨rfl, List.prefix_append _ _⟩
      · intro hsame
        have hlengths := congrArg List.length hsame
        rw [LzfToken.bytes, List.length_cons, List.length_cons, hlength] at hlengths
        omega
  · by_cases hshort : ctrl.toNat < 224
    · cases q with
      | nil =>
          obtain ⟨t, ht⟩ := exists_short (Nat.le_of_not_lt hlow) hshort 0
          exact .inr ⟨t, by rw [ht]; exact List.prefix_append [ctrl] [0], by rw [ht]; simp⟩
      | cons b rest =>
          obtain ⟨t, ht⟩ := exists_short (Nat.le_of_not_lt hlow) hshort b
          exact .inl ⟨t, rest, by rw [ht]; rfl⟩
    · have hlong := Nat.le_of_not_lt hshort
      match q with
      | [] =>
          obtain ⟨t, ht⟩ := exists_long hlong 0 0
          exact .inr ⟨t, by rw [ht]; exact List.prefix_append [ctrl] [0, 0], by rw [ht]; simp⟩
      | [l] =>
          obtain ⟨t, ht⟩ := exists_long hlong l 0
          exact .inr ⟨t, by rw [ht]; exact List.prefix_append [ctrl, l] [0], by rw [ht]; simp⟩
      | l :: b :: rest =>
          obtain ⟨t, ht⟩ := exists_long hlong l b
          exact .inl ⟨t, rest, by rw [ht]; rfl⟩

theorem LzfToken.bytes_ne_nil (t : LzfToken) : t.bytes ≠ [] := by
  cases t with
  | literal data hdata => exact List.cons_ne_nil _ _
  | backRef offset length hoffset hlength =>
      by_cases hshort : length < 9
      · rw [bytes_short hshort]
        exact List.cons_ne_nil _ _
      · rw [bytes_long hshort]
        exact List.cons_ne_nil _ _

theorem lzfBytes_cons (t : LzfToken) (ts : List LzfToken) :
    lzfBytes (t :: ts) = t.bytes ++ lzfBytes ts := rfl

/-- Any bytes are tokens, and at most part of one behind them. -/
theorem exists_tokens (input : Bytes) : ∃ (ts : List LzfToken) (r : Bytes),
    input = lzfBytes ts ++ r ∧
      (r = [] ∨ ∃ t : LzfToken, r <+: t.bytes ∧ r ≠ t.bytes ∧ r ≠ []) := by
  generalize hlength : input.length = n
  induction n using Nat.strong_induction_on generalizing input with
  | h n ih =>
      cases input with
      | nil => exact ⟨[], [], rfl, .inl rfl⟩
      | cons ctrl q =>
          rcases exists_token ctrl q with ⟨t, rest, hsplit⟩ | ⟨t, hprefix, hne⟩
          · have hpos := List.length_pos_iff.mpr t.bytes_ne_nil
            have hshorter : rest.length < n := by
              rw [← hlength, hsplit, List.length_append]
              omega
            obtain ⟨ts, r, rfl, hr⟩ := ih _ hshorter rest rfl
            exact ⟨t :: ts, r, by rw [hsplit, lzfBytes_cons, List.append_assoc], hr⟩
          · exact ⟨[], ctrl :: q, rfl, .inr ⟨t, hprefix, hne, List.cons_ne_nil _ _⟩⟩

end Parse

/-! ## Decompression -/

section Decompress

variable {input out r : Bytes} {p fuel n : Nat} (hfits : input.length ≤ isizeMax)

include hfits in
/-- The loop makes of whole tokens what they stand for. -/
theorem lzfLoop_tokens (ts : List LzfToken) (h : input.drop p = lzfBytes ts ++ r)
    (hfuel : (lzfBytes ts ++ r).length ≤ fuel) :
    ∃ fuel', r.length ≤ fuel' ∧ lzfLoop input fuel p out =
      (expand out ts).elim (.err badPayload) fun out' =>
        lzfLoop input fuel' (p + (lzfBytes ts).length) out' := by
  induction ts generalizing p out fuel with
  | nil => exact ⟨fuel, hfuel, rfl⟩
  | cons t ts ih =>
      rw [lzfBytes_cons, List.append_assoc] at h hfuel
      rw [List.length_append] at hfuel
      have hpos := List.length_pos_iff.mpr t.bytes_ne_nil
      have hlength := congrArg List.length h
      rw [List.length_drop, List.length_append] at hlength
      obtain ⟨fuel, rfl⟩ : ∃ left, fuel = left + 1 := ⟨fuel - 1, by omega⟩
      rw [lzfLoop, if_neg (by omega), lzfStep_token hfits t h]
      cases hafter : t.after out with
      | none =>
          refine ⟨r.length, Nat.le_refl _, ?_⟩
          rw [expand, hafter]
          rfl
      | some out' =>
          have hrest : input.drop (p + t.bytes.length) = lzfBytes ts ++ r := by
            rw [← List.drop_drop, h, List.drop_left]
          obtain ⟨fuel', hfuel', hloop⟩ := @ih out' (p + t.bytes.length) fuel hrest (by omega)
          refine ⟨fuel', hfuel', ?_⟩
          rw [expand, hafter, lzfBytes_cons, List.length_append, ← Nat.add_assoc]
          exact hloop

theorem lzfLoop_end (h : input.length ≤ p) : lzfLoop input fuel p out = .ok out := by
  cases fuel with
  | zero => exact if_neg (by omega)
  | succ fuel => exact if_pos h

include hfits in
theorem lzfDecompress_split (hn : n ≤ isizeMax) (ts : List LzfToken) (h : input = lzfBytes ts ++ r) :
    ∃ fuel, r.length ≤ fuel ∧ lzfDecompress input n =
      (expand [] ts).elim (.err badPayload) fun out =>
        lzfLoop input fuel (lzfBytes ts).length out >>= fun out =>
          if out.length ≠ n then .err badPayload else .ok out := by
  have hwhole : input.drop 0 = lzfBytes ts ++ r := h
  obtain ⟨fuel, hfuel, hloop⟩ := @lzfLoop_tokens input [] r 0 input.length hfits ts hwhole
    (Nat.le_of_eq (congrArg List.length h.symm))
  refine ⟨fuel, hfuel, ?_⟩
  unfold lzfDecompress
  rw [withCapacity, if_pos hn, ok_bind, hloop, Nat.zero_add]
  cases expand [] ts <;> rfl

include hfits in
theorem lzfDecompress_tokens (hn : n ≤ isizeMax) {ts : List LzfToken} (h : input = lzfBytes ts)
    (hout : expand [] ts = some out) :
    lzfDecompress input n = if n = out.length then .ok out else .err badPayload := by
  obtain ⟨fuel, -, hrun⟩ := @lzfDecompress_split input [] n hfits hn ts
    (by rw [h, List.append_nil])
  rw [hrun, hout, Option.elim_some, lzfLoop_end (Nat.le_of_eq (congrArg List.length h)), ok_bind]
  by_cases hlength : n = out.length
  · rw [if_pos hlength, if_neg (not_not.mpr hlength.symm)]
  · rw [if_neg hlength, if_pos (Ne.symm hlength)]

include hfits in
/-- A reference before the output is refused, whatever follows it. -/
theorem lzfDecompress_before (hn : n ≤ isizeMax) {ts : List LzfToken} (h : input = lzfBytes ts ++ r)
    (hout : expand [] ts = none) : lzfDecompress input n = .err badPayload := by
  obtain ⟨fuel, -, hrun⟩ := lzfDecompress_split hfits hn ts h
  rw [hrun, hout]
  rfl

include hfits in
theorem lzfDecompress_cut (hn : n ≤ isizeMax) {ts : List LzfToken} {t : LzfToken}
    (h : input = lzfBytes ts ++ r) (hr : r <+: t.bytes) (hne : r ≠ t.bytes) (hsome : r ≠ []) :
    lzfDecompress input n = .err badPayload := by
  obtain ⟨fuel, hfuel, hrun⟩ := lzfDecompress_split hfits hn ts h
  have hpos := List.length_pos_iff.mpr hsome
  have hdrop : input.drop (lzfBytes ts).length = r := by rw [h, List.drop_left]
  have hlength := congrArg List.length h
  rw [List.length_append] at hlength
  obtain ⟨fuel, rfl⟩ : ∃ left, fuel = left + 1 := ⟨fuel - 1, by omega⟩
  rw [hrun]
  cases expand [] ts with
  | none => rfl
  | some out =>
      rw [Option.elim_some, lzfLoop, if_neg (by omega), lzfStep_token_cut hfits t hdrop hr hne hsome]
      rfl

include hfits in
theorem lzfDecompress_eq_ok (hn : n ≤ isizeMax) : lzfDecompress input n = .ok out ↔
    ∃ ts, input = lzfBytes ts ∧ expand [] ts = some out ∧ n = out.length := by
  constructor
  · intro hok
    obtain ⟨ts, r, hsplit, hr⟩ := exists_tokens input
    cases hout : expand [] ts with
    | none =>
        rw [lzfDecompress_before hfits hn hsplit hout] at hok
        cases hok
    | some out' =>
        rcases hr with rfl | ⟨t, hr, hne, hsome⟩
        · rw [List.append_nil] at hsplit
          rw [lzfDecompress_tokens hfits hn hsplit hout] at hok
          by_cases hlength : n = out'.length
          · rw [if_pos hlength] at hok
            cases hok
            exact ⟨ts, hsplit, hout, hlength⟩
          · rw [if_neg hlength] at hok
            cases hok
        · rw [lzfDecompress_cut hfits hn hsplit hr hne hsome] at hok
          cases hok
  · rintro ⟨ts, hinput, hout, hlength⟩
    rw [lzfDecompress_tokens hfits hn hinput hout, if_pos hlength]

end Decompress

/-! ## Compressed strings -/

/-- A compressed string, framed by its two lengths, is what its stream stands for. -/
theorem readRdbString_lzf {pre post out : Bytes} {ts : List LzfToken}
    (hout : expand [] ts = some out) (hfits : (lzfBytes ts).length ≤ isizeMax)
    (hn : out.length ≤ isizeMax)
    (hsize : (pre ++ 0xc3 :: (writeRdbLength (lzfBytes ts).length ++
      (writeRdbLength out.length ++ (lzfBytes ts ++ post)))).length < usizeBound) :
    readRdbString (Reader.between pre (0xc3 :: (writeRdbLength (lzfBytes ts).length ++
        (writeRdbLength out.length ++ (lzfBytes ts ++ post))))) =
      .ok (out, Reader.between (pre ++ [0xc3] ++ writeRdbLength (lzfBytes ts).length ++
        writeRdbLength out.length ++ lzfBytes ts) post) := by
  unfold isizeMax at hfits hn
  have hdiv : (0xc3 : UInt8).toNat / 64 = 3 := rfl
  have htag : ∀ r, readSpecialLen 0xc3 r = .ok (.lzf, r) := fun _ => rfl
  rw [readRdbString, readRdbStrLen, Reader.readU8_between hsize, ok_bind]
  simp only [hdiv, htag, ok_bind]
  rw [readLzfString, readRdbLength_writeRdbLength (by omega) (by simpa using hsize), ok_bind]
  dsimp only
  rw [readRdbLength_writeRdbLength (by omega) (by simpa using hsize), ok_bind]
  dsimp only
  rw [Reader.readSlice_between (by simpa using hsize), ok_bind]
  dsimp only
  rw [lzfDecompress_tokens hfits hn rfl hout, if_pos rfl]
  rfl

/-- `lzf_decompress` decodes whole tokens to what they stand for if that has the stated length; a
reference before the output and a token that is cut are refused; and no input makes it panic. -/
theorem lzf_exact {input : Bytes} {n : Nat} (hfits : input.length ≤ isizeMax)
    (hn : n ≤ isizeMax) :
    (∀ ts out, input = lzfBytes ts → expand [] ts = some out →
      lzfDecompress input n = if n = out.length then .ok out else .err badPayload) ∧
    (∀ ts r, input = lzfBytes ts ++ r → expand [] ts = none →
      lzfDecompress input n = .err badPayload) ∧
    (∀ (ts : List LzfToken) (t : LzfToken) (r : Bytes), input = lzfBytes ts ++ r → r <+: t.bytes →
      r ≠ t.bytes → r ≠ [] → lzfDecompress input n = .err badPayload) ∧
    lzfDecompress input n ≠ .panic ∧
    ∀ out, lzfDecompress input n = .ok out ↔
      ∃ ts, input = lzfBytes ts ∧ expand [] ts = some out ∧ n = out.length := by
  refine ⟨fun ts out => lzfDecompress_tokens hfits hn, fun ts r => lzfDecompress_before hfits hn,
    fun ts t r => lzfDecompress_cut hfits hn, ?_, fun out => lzfDecompress_eq_ok hfits hn⟩
  rw [Ne, lzfDecompress_eq_panic hfits]
  omega

/-- One letter and a run over itself. -/
def sixLetters : List LzfToken :=
  [.literal [97] (by decide), .backRef 1 5 (by decide) (by decide)]

theorem lzf_exact_on_sixLetters :
    lzfDecompress [0, 97, 96, 0] 6 = .ok [97, 97, 97, 97, 97, 97] :=
  (@lzf_exact [0, 97, 96, 0] 6 (by decide) (by decide)).1 sixLetters [97, 97, 97, 97, 97, 97]
    (by decide) (by decide)

end RustyAnt.Rdb
