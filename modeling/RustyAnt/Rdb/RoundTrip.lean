import RustyAnt.Rdb.Totality
import RustyAnt.Storage.RoundTrip

/-!
# DUMP, then RESTORE

Every encoding that the writer chooses is read by the branch that belongs to it and
advances the reader by its own size: lengths, integer and plain strings, listpack
entries with their back lengths, whole listpacks and, from these, each kind of value.
-/

namespace RustyAnt.Rdb

open Lib Lib.Outcome Lib.Endian Storage

/-! ## Reading what stands at the position -/

namespace Reader

/-- A reader between what it has read and what is left. -/
def between (pre post : Bytes) : Reader := ⟨pre ++ post, pre.length⟩

theorem readU8_between {pre post : Bytes} {b : UInt8}
    (hsize : (pre ++ b :: post).length < usizeBound) :
    (between pre (b :: post)).readU8 = .ok (b, between (pre ++ [b]) post) := by
  have hlen : (pre ++ b :: post).length = pre.length + (post.length + 1) := by simp
  have hpos : pre.length < (pre ++ b :: post).length := by omega
  have hadd : pre.length + 1 < usizeBound := by omega
  unfold readU8 between
  rw [if_neg (Nat.not_le.mpr hpos), index_eq_ok hpos, ok_bind, add, if_pos hadd, ok_bind]
  simp

theorem readSlice_between {pre bs post : Bytes}
    (hsize : (pre ++ (bs ++ post)).length < usizeBound) :
    (between pre (bs ++ post)).readSlice bs.length = .ok (bs, between (pre ++ bs) post) := by
  have hlen : (pre ++ (bs ++ post)).length = pre.length + bs.length + post.length := by
    simp [Nat.add_assoc]
  have hadd : pre.length + bs.length < usizeBound := by omega
  unfold readSlice between
  dsimp only
  rw [add, if_pos hadd, ok_bind, if_neg (by omega), slice_eq_ok (by omega) (by omega), ok_bind]
  simp

/-- A field of `k` bytes. -/
theorem readField_between {α : Type} {pre bs post : Bytes} {k : Nat} {f : Bytes → Reader → α}
    (hk : bs.length = k) (hsize : (pre ++ (bs ++ post)).length < usizeBound) :
    (do
      let (s, r) ← (between pre (bs ++ post)).readSlice k
      let word ← gather s 0 k
      return f word r : Decoded α) = .ok (f bs (between (pre ++ bs) post)) := by
  subst hk
  rw [readSlice_between hsize, ok_bind]
  dsimp only
  rw [gather_eq_ok (by omega), ok_bind]
  simp

end Reader

theorem toNat_ofNat_of_lt {n : Nat} (h : n < 256) : (UInt8.ofNat n).toNat = n := by
  rw [UInt8.toNat_ofNat']
  omega

/-! ## Lengths -/

theorem readWideLength_four {pre post : Bytes} {n : Nat} (hn : n < 2 ^ 32)
    (hsize : (pre ++ (beBytes 4 n ++ post)).length < usizeBound) :
    readWideLength 0x80 (Reader.between pre (beBytes 4 n ++ post)) =
      .ok (n, Reader.between (pre ++ beBytes 4 n) post) := by
  unfold readWideLength
  rw [if_pos rfl, Reader.readField_between (length_beBytes 4 n) hsize, beNat_beBytes,
    Nat.mod_eq_of_lt (by omega)]

theorem readWideLength_eight {pre post : Bytes} {n : Nat} (hn : n < 2 ^ 64)
    (hsize : (pre ++ (beBytes 8 n ++ post)).length < usizeBound) :
    readWideLength 0x81 (Reader.between pre (beBytes 8 n ++ post)) =
      .ok (n, Reader.between (pre ++ beBytes 8 n) post) := by
  unfold readWideLength
  rw [if_neg (by decide), if_pos rfl, Reader.readField_between (length_beBytes 8 n) hsize,
    beNat_beBytes, Nat.mod_eq_of_lt (by omega)]

theorem readRdbLength_writeRdbLength {pre post : Bytes} {n : Nat} (hn : n < 2 ^ 64)
    (hsize : (pre ++ (writeRdbLength n ++ post)).length < usizeBound) :
    readRdbLength (Reader.between pre (writeRdbLength n ++ post)) =
      .ok (n, Reader.between (pre ++ writeRdbLength n) post) := by
  unfold writeRdbLength at hsize ⊢
  by_cases h6 : n < 2 ^ 6
  · simp only [if_pos h6, List.cons_append, List.nil_append] at hsize ⊢
    have hb : (UInt8.ofNat n).toNat = n := toNat_ofNat_of_lt (by omega)
    have hdiv : n / 64 = 0 := by omega
    have hmod : n % 64 = n := by omega
    rw [readRdbLength, Reader.readU8_between hsize, ok_bind]
    simp only [hb, hdiv, hmod]
    rfl
  by_cases h14 : n < 2 ^ 14
  · simp only [if_neg h6, if_pos h14, List.cons_append, List.nil_append] at hsize ⊢
    have hb : (UInt8.ofNat (0x40 + n / 256 % 64)).toNat = 0x40 + n / 256 % 64 :=
      toNat_ofNat_of_lt (by omega)
    have hb2 : (UInt8.ofNat (n % 256)).toNat = n % 256 := toNat_ofNat_of_lt (by omega)
    have hdiv : (0x40 + n / 256 % 64) / 64 = 1 := by omega
    have hval : (0x40 + n / 256 % 64) % 64 * 256 + n % 256 = n := by omega
    rw [readRdbLength, Reader.readU8_between hsize, ok_bind]
    simp only [hb, hdiv]
    rw [Reader.readU8_between (by simpa using hsize), ok_bind]
    simp only [hb2, hval, List.append_assoc, List.cons_append, List.nil_append]
    rfl
  by_cases h32 : n < 2 ^ 32
  · simp only [if_neg h6, if_neg h14, if_pos h32, List.cons_append] at hsize ⊢
    have hdiv : (0x80 : UInt8).toNat / 64 = 2 := rfl
    rw [readRdbLength, Reader.readU8_between hsize, ok_bind]
    simp only [hdiv]
    rw [readWideLength_four h32 (by simpa using hsize)]
    simp
  · simp only [if_neg h6, if_neg h14, if_neg h32, List.cons_append] at hsize ⊢
    have hdiv : (0x81 : UInt8).toNat / 64 = 2 := rfl
    rw [readRdbLength, Reader.readU8_between hsize, ok_bind]
    simp only [hdiv]
    rw [readWideLength_eight hn (by simpa using hsize)]
    simp

/-! ## Strings -/

theorem tryParseAsciiInt_some {data : Bytes} {n : Int} (h : tryParseAsciiInt data = some n) :
    Decimal.intBytes n = data ∧ i64Min ≤ n ∧ n ≤ i64Max := by
  unfold tryParseAsciiInt at h
  split at h
  · cases h
  · obtain ⟨hparse, htext⟩ := Option.filter_eq_some_iff.mp h
    unfold parseI64 at hparse
    obtain ⟨-, hrange⟩ := Option.filter_eq_some_iff.mp hparse
    exact ⟨of_decide_eq_true htext, of_decide_eq_true hrange⟩

theorem signed_of_fitsBits {w : Nat} (hw : 0 < w) {n : Int} (h : fitsBits w n = true) :
    signed w (wrapBits w n) = n := by
  have hrange := of_decide_eq_true h
  exact signed_wrapBits hw hrange.1 hrange.2

/-- A little-endian field of `k` bytes holds `8 * k` bits. -/
theorem leNat_field {k : Nat} (n : Int) :
    leNat (leBytes k (wrapBits (8 * k) n)) = wrapBits (8 * k) n := by
  have hlt := wrapBits_lt (8 * k) n
  have hpow : (2 : Nat) ^ (8 * k) = 256 ^ k := by rw [Nat.pow_mul]
  rw [leNat_leBytes, Nat.mod_eq_of_lt (hpow ▸ hlt)]

theorem readRdbString_raw {pre data post : Bytes} (hdata : data.length ≤ isizeMax)
    (hsize : (pre ++ (writeRawString data ++ post)).length < usizeBound) :
    readRdbString (Reader.between pre (writeRawString data ++ post)) =
      .ok (data, Reader.between (pre ++ writeRawString data) post) := by
  have hn : data.length < 2 ^ 64 := by
    unfold isizeMax at hdata
    omega
  unfold writeRawString at hsize ⊢
  rw [List.append_assoc] at hsize ⊢
  have hlen := readRdbLength_writeRdbLength hn hsize
  rw [readRdbString, readRdbStrLen_normal.mpr hlen, ok_bind]
  dsimp only
  rw [Reader.readSlice_between (by simpa using hsize)]
  simp

theorem readRdbString_int8 {pre post : Bytes} {n : Int} (hn : fitsBits 8 n = true)
    (hsize : (pre ++ (0xc0 :: leBytes 1 (wrapBits 8 n) ++ post)).length < usizeBound) :
    readRdbString (Reader.between pre (0xc0 :: leBytes 1 (wrapBits 8 n) ++ post)) =
      .ok (Decimal.intBytes n, Reader.between (pre ++ 0xc0 :: leBytes 1 (wrapBits 8 n)) post) := by
  have hfield : leNat (leBytes 1 (wrapBits 8 n)) = wrapBits 8 n := leNat_field n
  obtain ⟨b, hb⟩ : ∃ b, leBytes 1 (wrapBits 8 n) = [b] := ⟨_, rfl⟩
  rw [hb] at hsize hfield ⊢
  have hval : b.toNat = wrapBits 8 n := by simpa [leNat] using hfield
  have hdiv : (0xc0 : UInt8).toNat / 64 = 3 := rfl
  simp only [List.cons_append, List.nil_append] at hsize ⊢
  rw [readRdbString, readRdbStrLen, Reader.readU8_between hsize, ok_bind]
  simp only [hdiv]
  rw [readSpecialLen, if_pos rfl, Reader.readU8_between (by simpa using hsize), ok_bind]
  simp [hval, signed_of_fitsBits (by omega) hn]

theorem readRdbString_intField {pre post : Bytes} {n : Int} {k : Nat} {tag : UInt8}
    (hn : fitsBits (8 * k) n = true) (hk : 0 < k) (htag : tag.toNat / 64 = 3)
    (hread : ∀ r, readSpecialLen tag r = do
      let (bs, r) ← r.readSlice k
      let word ← gather bs 0 k
      return (.intStr (signed (8 * k) (leNat word)), r))
    (hsize : (pre ++ (tag :: leBytes k (wrapBits (8 * k) n) ++ post)).length < usizeBound) :
    readRdbString (Reader.between pre (tag :: leBytes k (wrapBits (8 * k) n) ++ post)) =
      .ok (Decimal.intBytes n,
        Reader.between (pre ++ tag :: leBytes k (wrapBits (8 * k) n)) post) := by
  simp only [List.cons_append] at hsize ⊢
  rw [readRdbString, readRdbStrLen, Reader.readU8_between hsize, ok_bind]
  simp only [htag]
  rw [hread, Reader.readField_between (length_leBytes _ _) (by simpa using hsize), ok_bind]
  simp [leNat_field, signed_of_fitsBits (by omega) hn]

theorem readRdbString_writeRdbString {pre data post : Bytes} (hdata : data.length ≤ isizeMax)
    (hsize : (pre ++ (writeRdbString data ++ post)).length < usizeBound) :
    readRdbString (Reader.between pre (writeRdbString data ++ post)) =
      .ok (data, Reader.between (pre ++ writeRdbString data) post) := by
  unfold writeRdbString at hsize ⊢
  cases hparse : tryParseAsciiInt data with
  | none =>
      rw [hparse] at hsize
      exact readRdbString_raw hdata hsize
  | some n =>
      obtain ⟨htext, -⟩ := tryParseAsciiInt_some hparse
      rw [hparse] at hsize
      simp only at hsize ⊢
      by_cases h8 : fitsBits 8 n
      · simp only [if_pos h8] at hsize ⊢
        rw [readRdbString_int8 h8 hsize, htext]
      by_cases h16 : fitsBits 16 n
      · simp only [if_neg h8, if_pos h16] at hsize ⊢
        rw [readRdbString_intField (k := 2) h16 (by omega) rfl (fun r => rfl) hsize, htext]
      by_cases h32 : fitsBits 32 n
      · simp only [if_neg h8, if_neg h16, if_pos h32] at hsize ⊢
        rw [readRdbString_intField (k := 4) h32 (by omega) rfl (fun r => rfl) hsize, htext]
      · simp only [if_neg h8, if_neg h16, if_neg h32] at hsize ⊢
        exact readRdbString_raw hdata hsize

/-! ## Listpack entries -/

theorem length_backlen (l : Nat) : (backlen l).length = backlenBytes l := by
  unfold backlen backlenBytes
  split
  · rfl
  split
  · rfl
  split
  · rfl
  split <;> rfl

theorem listpackReadInt_append {n : Int} {k : Nat} (tag : UInt8) (rest : Bytes) (hk : 0 < k)
    (hn : fitsBits (8 * k) n = true) :
    listpackReadInt (tag :: (leBytes k (wrapBits (8 * k) n) ++ rest)) k =
      .ok (Decimal.intBytes n, 1 + k) := by
  have hlen : (tag :: (leBytes k (wrapBits (8 * k) n) ++ rest)).length = 1 + k + rest.length := by
    simp only [List.length_cons, List.length_append, length_leBytes]
    omega
  have hfield : List.take k (leBytes k (wrapBits (8 * k) n) ++ rest) =
      leBytes k (wrapBits (8 * k) n) := by
    rw [List.take_left' (length_leBytes _ _)]
  unfold listpackReadInt
  rw [if_neg (by omega), gather_eq_ok (by omega), ok_bind, List.drop_one, List.tail_cons, hfield,
    leNat_field, signed_of_fitsBits (by omega) hn]
  rfl

theorem listpackReadStr_append (hdr data rest : Bytes) :
    listpackReadStr (hdr ++ (data ++ rest)) hdr.length data.length =
      .ok (data, hdr.length + data.length) := by
  have hlen : (hdr ++ (data ++ rest)).length = hdr.length + data.length + rest.length := by
    simp [Nat.add_assoc]
  unfold listpackReadStr
  rw [if_neg (by omega), slice_eq_ok (by omega) (by omega), ok_bind]
  simp

/-- An entry is read back from its encoding byte on, whatever follows. -/
structure ReadsBack (entry : Bytes × Nat) (data : Bytes) : Prop where
  length : entry.1.length = entry.2
  content : ∃ b0 tail, entry.1 = b0 :: tail ∧
    ∀ rest, listpackContent (entry.1 ++ rest) b0 = .ok (data, entry.2)

section Prefixes

variable {buf : Bytes} {b0 : UInt8}

theorem listpackContent_uint7 (h : b0.toNat < 128) :
    listpackContent buf b0 = .ok (Decimal.intBytes b0.toNat, 1) := by
  have hlt : b0 < 0x80 := UInt8.lt_iff_toNat_lt.mpr h
  rw [listpackContent, if_pos hlt]
  rfl

theorem listpackContent_str6 (hmin : 128 ≤ b0.toNat) (hmax : b0.toNat < 192) :
    listpackContent buf b0 = listpackReadStr buf 1 (b0.toNat % 64) := by
  have h80 : ¬ b0 < 0x80 := fun h => absurd (UInt8.lt_iff_toNat_lt.mp h) (Nat.not_lt.mpr hmin)
  have hc0 : b0 < 0xc0 := UInt8.lt_iff_toNat_lt.mpr hmax
  rw [listpackContent, if_neg h80, if_pos hc0]

/-- The forms from `110` on are not among the first two. -/
theorem listpackContent_skip (hmin : 192 ≤ b0.toNat) : ¬ b0 < 0x80 ∧ ¬ b0 < 0xc0 := by
  constructor
  · intro h
    have hlt : b0.toNat < 128 := UInt8.lt_iff_toNat_lt.mp h
    omega
  · intro h
    have hlt : b0.toNat < 192 := UInt8.lt_iff_toNat_lt.mp h
    omega

theorem listpackContent_int13 {b1 : UInt8} {rest : Bytes} (hmin : 192 ≤ b0.toNat)
    (hmax : b0.toNat < 224) :
    listpackContent (b0 :: b1 :: rest) b0 =
      .ok (Decimal.intBytes (signed 13 (b0.toNat % 32 * 256 + b1.toNat)), 2) := by
  obtain ⟨h80, hc0⟩ := listpackContent_skip hmin
  have he0 : b0 < 0xe0 := UInt8.lt_iff_toNat_lt.mpr hmax
  rw [listpackContent, if_neg h80, if_neg hc0, if_pos he0, if_neg (by simp),
    index_eq_ok (by simp), ok_bind]
  rfl

theorem listpackContent_str12 {b1 : UInt8} {rest : Bytes} (hmin : 224 ≤ b0.toNat)
    (hmax : b0.toNat < 240) :
    listpackContent (b0 :: b1 :: rest) b0 =
      listpackReadStr (b0 :: b1 :: rest) 2 (b0.toNat % 16 * 256 + b1.toNat) := by
  obtain ⟨h80, hc0⟩ := listpackContent_skip (by omega : 192 ≤ b0.toNat)
  have he0 : ¬ b0 < 0xe0 := fun h => absurd (UInt8.lt_iff_toNat_lt.mp h) (Nat.not_lt.mpr hmin)
  have hf0 : b0 < 0xf0 := UInt8.lt_iff_toNat_lt.mpr hmax
  have hne : ∀ c : UInt8, 240 ≤ c.toNat → b0 ≠ c := by
    rintro c hc rfl
    omega
  rw [listpackContent, if_neg h80, if_neg hc0, if_neg he0, if_neg (hne 0xf1 (by decide)),
    if_neg (hne 0xf2 (by decide)), if_neg (hne 0xf3 (by decide)), if_neg (hne 0xf4 (by decide)),
    if_neg (hne 0xf0 (by decide)), if_pos hf0, if_neg (by simp), index_eq_ok (by simp), ok_bind]
  rfl

theorem listpackContent_str32 {word rest : Bytes} (hword : word.length = 4) :
    listpackContent (0xf0 :: (word ++ rest)) 0xf0 =
      listpackReadStr (0xf0 :: (word ++ rest)) 5 (beNat word) := by
  have hlen : (0xf0 :: (word ++ rest)).length = 5 + rest.length := by
    simp only [List.length_cons, List.length_append, hword]
    omega
  have hcontent : listpackContent (0xf0 :: (word ++ rest)) 0xf0 =
      if (0xf0 :: (word ++ rest)).length < 5 then .err badPayload
      else (gather (0xf0 :: (word ++ rest)) 1 4 >>= fun w =>
        listpackReadStr (0xf0 :: (word ++ rest)) 5 (beNat w)) := rfl
  rw [hcontent, if_neg (by omega), gather_eq_ok (by omega), ok_bind, List.drop_one, List.tail_cons,
    List.take_left' hword]

end Prefixes

theorem listpackIntEntry_readsBack {n : Int} (hmin : i64Min ≤ n) (hmax : n ≤ i64Max) :
    ReadsBack (listpackIntEntry n) (Decimal.intBytes n) := by
  unfold listpackIntEntry
  by_cases h7 : 0 ≤ n ∧ n ≤ 127
  · rw [if_pos h7]
    have hb : (UInt8.ofNat n.toNat).toNat = n.toNat := toNat_ofNat_of_lt (by omega)
    refine ⟨rfl, _, _, rfl, fun rest => ?_⟩
    have hn : ((n.toNat : Nat) : Int) = n := Int.toNat_of_nonneg h7.1
    rw [listpackContent_uint7 (by omega), hb, hn]
  rw [if_neg h7]
  by_cases h13 : -4096 ≤ n ∧ n ≤ 4095
  · rw [if_pos h13]
    have hw : wrapBits 13 n < 2 ^ 13 := wrapBits_lt 13 n
    have hb : (UInt8.ofNat (0xc0 + wrapBits 13 n / 256)).toNat = 0xc0 + wrapBits 13 n / 256 :=
      toNat_ofNat_of_lt (by omega)
    have hb1 : (UInt8.ofNat (wrapBits 13 n % 256)).toNat = wrapBits 13 n % 256 :=
      toNat_ofNat_of_lt (by omega)
    have hval : (0xc0 + wrapBits 13 n / 256) % 32 * 256 + wrapBits 13 n % 256 = wrapBits 13 n := by
      omega
    have hsigned : signed 13 (wrapBits 13 n) = n :=
      signed_wrapBits (by omega) (by omega) (by omega)
    refine ⟨rfl, _, _, rfl, fun rest => ?_⟩
    simp only [List.cons_append, List.nil_append]
    rw [listpackContent_int13 (by omega) (by omega), hb, hb1, hval, hsigned]
  rw [if_neg h13]
  have hfits : ∀ k : Nat, -2 ^ (8 * k - 1) ≤ n ∧ n < 2 ^ (8 * k - 1) → fitsBits (8 * k) n = true :=
    fun k h => decide_eq_true h
  by_cases h16 : -32768 ≤ n ∧ n ≤ 32767
  · rw [if_pos h16]
    refine ⟨by simp, _, _, rfl, fun rest => ?_⟩
    exact listpackReadInt_append 0xf1 rest (by omega) (hfits 2 (by omega))
  rw [if_neg h16]
  by_cases h24 : -8388608 ≤ n ∧ n ≤ 8388607
  · rw [if_pos h24]
    refine ⟨by simp, _, _, rfl, fun rest => ?_⟩
    exact listpackReadInt_append 0xf2 rest (by omega) (hfits 3 (by omega))
  rw [if_neg h24]
  by_cases h32 : -2147483648 ≤ n ∧ n ≤ 2147483647
  · rw [if_pos h32]
    refine ⟨by simp, _, _, rfl, fun rest => ?_⟩
    exact listpackReadInt_append 0xf3 rest (by omega) (hfits 4 (by omega))
  · rw [if_neg h32]
    unfold i64Min at hmin
    unfold i64Max at hmax
    refine ⟨by simp, _, _, rfl, fun rest => ?_⟩
    exact listpackReadInt_append 0xf4 rest (by omega) (hfits 8 (by omega))

theorem listpackStrEntry_readsBack {data : Bytes} (hdata : data.length < 2 ^ 32) :
    ReadsBack (listpackStrEntry data) data := by
  unfold listpackStrEntry
  dsimp only
  by_cases h6 : data.length ≤ 63
  · rw [if_pos h6]
    have hb : (UInt8.ofNat (0x80 + data.length)).toNat = 0x80 + data.length :=
      toNat_ofNat_of_lt (by omega)
    have hlen : (0x80 + data.length) % 64 = data.length := by omega
    refine ⟨by simp [Nat.add_comm], _, _, rfl, fun rest => ?_⟩
    rw [listpackContent_str6 (by omega) (by omega), hb, hlen]
    exact listpackReadStr_append [_] data rest
  rw [if_neg h6]
  by_cases h12 : data.length < 4096
  · rw [if_pos h12]
    have hb : (UInt8.ofNat (0xe0 + data.length / 256 % 16)).toNat =
        0xe0 + data.length / 256 % 16 := toNat_ofNat_of_lt (by omega)
    have hb1 : (UInt8.ofNat (data.length % 256)).toNat = data.length % 256 :=
      toNat_ofNat_of_lt (by omega)
    have hlen : (0xe0 + data.length / 256 % 16) % 16 * 256 + data.length % 256 = data.length := by
      omega
    refine ⟨by simp; omega, _, _, rfl, fun rest => ?_⟩
    simp only [List.cons_append]
    rw [listpackContent_str12 (by omega) (by omega), hb, hb1, hlen]
    exact listpackReadStr_append [_, _] data rest
  · rw [if_neg h12]
    have hfield : beNat (beBytes 4 data.length) = data.length := by
      rw [beNat_beBytes, Nat.mod_eq_of_lt (by omega)]
    refine ⟨by simp; omega, _, _, rfl, fun rest => ?_⟩
    simp only [List.cons_append, List.append_assoc]
    rw [listpackContent_str32 (length_beBytes _ _), hfield]
    have hstr := listpackReadStr_append (0xf0 :: beBytes 4 data.length) data rest
    rw [List.length_cons, length_beBytes] at hstr
    exact hstr

theorem length_le_listpackStrEntry (data : Bytes) :
    data.length ≤ (listpackStrEntry data).1.length := by
  unfold listpackStrEntry
  dsimp only
  split
  · simp
  split
  · simp
    omega
  · simp
    omega

theorem listpackEntry_readsBack {data : Bytes} (h : (listpackEncode data).length < 2 ^ 32) :
    ReadsBack (listpackEntry data) data := by
  unfold listpackEncode at h
  unfold listpackEntry at h ⊢
  cases hparse : tryParseAsciiInt data with
  | some n =>
      obtain ⟨htext, hmin, hmax⟩ := tryParseAsciiInt_some hparse
      rw [← htext]
      exact listpackIntEntry_readsBack hmin hmax
  | none =>
      rw [hparse, List.length_append] at h
      have hle := length_le_listpackStrEntry data
      exact listpackStrEntry_readsBack (by dsimp only at h; omega)

theorem listpackReadEntry_encode {data : Bytes} (h : (listpackEncode data).length < 2 ^ 32)
    (rest : Bytes) :
    listpackReadEntry (listpackEncode data ++ rest) = .ok (data, (listpackEncode data).length) := by
  obtain ⟨hlen, b0, tail, hentry, hcontent⟩ := listpackEntry_readsBack h
  have htotal : (listpackEncode data).length =
      (listpackEntry data).2 + backlenBytes (listpackEntry data).2 := by
    rw [listpackEncode, List.length_append, length_backlen, hlen]
  have happ : listpackEncode data ++ rest =
      (listpackEntry data).1 ++ (backlen (listpackEntry data).2 ++ rest) := by
    rw [listpackEncode, List.append_assoc]
  have hhead : ∃ tail', listpackEncode data ++ rest = b0 :: tail' := by
    rw [happ, hentry]
    exact ⟨_, rfl⟩
  obtain ⟨tail', hhead⟩ := hhead
  have hpos : 0 < (listpackEncode data ++ rest).length := by
    rw [hhead]
    simp
  have hindex : (index (listpackEncode data ++ rest) 0 : Decoded UInt8) = .ok b0 := by
    rw [hhead]
    rfl
  unfold listpackReadEntry
  rw [if_neg (by rw [hhead]; simp), hindex, ok_bind, happ, hcontent, ok_bind, ← happ]
  dsimp only
  rw [if_neg (by rw [List.length_append]; omega), htotal]
  rfl

/-! ## Whole listpacks -/

theorem foldl_listpackAppendString (items : List Bytes) (buf : Bytes) :
    items.foldl listpackAppendString buf = buf ++ items.flatMap listpackEncode := by
  induction items generalizing buf with
  | nil => simp
  | cons item items ih =>
      rw [List.foldl_cons, ih, listpackAppendString, List.flatMap_cons, List.append_assoc]

theorem listpackOf_eq (items : List Bytes) :
    listpackOf items = leBytes 4 (7 + (items.flatMap listpackEncode).length) ++
      (leBytes 2 (min items.length 65535) ++ (items.flatMap listpackEncode ++ [0xff])) := by
  have hlen : (listpackBegin items.length ++ items.flatMap listpackEncode ++ [0xff]).length =
      7 + (items.flatMap listpackEncode).length := by
    unfold listpackBegin
    simp only [List.length_append, List.length_cons, List.length_nil, length_leBytes]
    omega
  unfold listpackOf listpackFinish
  rw [foldl_listpackAppendString]
  dsimp only
  rw [hlen]
  unfold listpackBegin
  simp

theorem listpackLoop_encode {items : List Bytes} :
    ∀ {pre : Bytes} {fuel p stop : Nat} {out : List Bytes}, p = pre.length →
      stop = pre.length + (items.flatMap listpackEncode).length → stop < 2 ^ 32 →
      items.length < fuel →
      listpackLoop (pre ++ (items.flatMap listpackEncode ++ [0xff])) stop fuel p out =
        .ok (out ++ items) := by
  induction items with
  | nil =>
      intro pre fuel p stop out hp hstop _ hfuel
      obtain ⟨fuel, rfl⟩ : ∃ k, fuel = k + 1 := ⟨fuel - 1, by omega⟩
      simp [listpackLoop, hp, hstop]
  | cons item items ih =>
      intro pre fuel p stop out hp hstop hsize hfuel
      obtain ⟨fuel, rfl⟩ : ∃ k, fuel = k + 1 := ⟨fuel - 1, by omega⟩
      rw [List.length_cons] at hfuel
      rw [List.flatMap_cons, List.length_append] at hstop
      rw [List.flatMap_cons]
      have hbuf : pre ++ (listpackEncode item ++ items.flatMap listpackEncode ++ [0xff]) =
          (pre ++ listpackEncode item) ++ (items.flatMap listpackEncode ++ [0xff]) := by
        simp
      have hslice : (slice (pre ++ (listpackEncode item ++ items.flatMap listpackEncode ++ [0xff]))
          p stop : Decoded Bytes) = .ok (listpackEncode item ++ items.flatMap listpackEncode) := by
        have hle : stop ≤ (pre ++ (listpackEncode item ++ items.flatMap listpackEncode ++
            [0xff])).length := by
          simp only [List.length_append]
          omega
        rw [slice_eq_ok (by omega) hle, hp, List.drop_left]
        congr 1
        apply List.take_left'
        rw [List.length_append]
        omega
      have hread := listpackReadEntry_encode (by omega : (listpackEncode item).length < 2 ^ 32)
        (items.flatMap listpackEncode)
      have hpos := (listpackReadEntry_consumed hread).1
      have hadd : p + (listpackEncode item).length < usizeBound := by
        unfold usizeBound
        omega
      rw [listpackLoop, if_pos (by omega), hslice, ok_bind, hread, ok_bind]
      dsimp only
      rw [add, if_pos hadd, ok_bind, hbuf]
      have hnext : p + (listpackEncode item).length = (pre ++ listpackEncode item).length := by
        rw [List.length_append, hp]
      rw [ih hnext (by rw [← hnext]; omega) hsize (by omega), List.append_assoc]
      rfl

theorem length_le_flatMap_listpackEncode (items : List Bytes) :
    items.length ≤ (items.flatMap listpackEncode).length := by
  induction items with
  | nil => simp
  | cons item items ih =>
      have hpos : 0 < (listpackEncode item).length := by
        have := backlenBytes_pos (listpackEntry item).2
        rw [listpackEncode, List.length_append, length_backlen]
        omega
      rw [List.flatMap_cons, List.length_append, List.length_cons]
      omega

/-- A listpack of less than `2^32` bytes is read back. -/
theorem listpackDecode_listpackOf {items : List Bytes}
    (hsize : (listpackOf items).length < 2 ^ 32) :
    listpackDecode (listpackOf items) = .ok items := by
  have hcount := length_le_flatMap_listpackEncode items
  have hlayout := listpackOf_eq items
  have hlen : (listpackOf items).length = 7 + (items.flatMap listpackEncode).length := by
    rw [hlayout]
    simp only [List.length_append, length_leBytes, List.length_cons, List.length_nil]
    omega
  have htot : leNat (((listpackOf items).drop 0).take 4) = (listpackOf items).length := by
    rw [List.drop_zero, hlayout, List.take_left' (length_leBytes _ _), leNat_leBytes,
      Nat.mod_eq_of_lt (by omega), ← hlayout, hlen]
  have hsplit : listpackOf items =
      (leBytes 4 (7 + (items.flatMap listpackEncode).length) ++
        leBytes 2 (min items.length 65535)) ++ (items.flatMap listpackEncode ++ [0xff]) := by
    rw [hlayout, List.append_assoc]
  have hlast : (index (listpackOf items) ((listpackOf items).length - 1) : Decoded UInt8) =
      .ok 0xff := by
    have hget : (listpackOf items)[(listpackOf items).length - 1]? = some 0xff := by
      rw [← List.getLast?_eq_getElem?, hlayout]
      simp
    unfold index
    rw [hget]
  unfold listpackDecode
  rw [if_neg (by omega), gather_eq_ok (by omega), ok_bind, if_neg (not_not.mpr htot),
    gather_eq_ok (by omega), ok_bind]
  dsimp only
  rw [hlast, ok_bind, if_neg (by simp), hlen, hsplit]
  exact listpackLoop_encode (by simp) (by simp) (by omega) (by omega)

/-! ## Text -/

theorem fromUtf8_asBytes (s : String) : fromUtf8 (asBytes s) = .ok s := by
  rw [fromUtf8, fromUTF8?_asBytes]

theorem utf8EncodeChar_ascii {b : UInt8} (h : b.toNat < 128) :
    String.utf8EncodeChar (Char.ofNat b.toNat) = [b] := by
  have hval : (Char.ofNat b.toNat).val.toNat = b.toNat := by
    have hvalid : b.toNat.isValidChar := .inl (by omega)
    rw [Char.ofNat, dif_pos hvalid]
    rfl
  unfold String.utf8EncodeChar
  simp only [hval]
  rw [if_pos (by omega)]
  simp

theorem fromUtf8_ascii {bs : Bytes} (h : ∀ b ∈ bs, b.toNat < 128) : ∃ s, fromUtf8 bs = .ok s := by
  have hencode : (bs.map fun b => Char.ofNat b.toNat).flatMap String.utf8EncodeChar = bs := by
    rw [List.flatMap_map]
    induction bs with
    | nil => rfl
    | cons b bs ih =>
        rw [List.flatMap_cons, utf8EncodeChar_ascii (h b List.mem_cons_self),
          ih fun c hc => h c (List.mem_cons_of_mem b hc)]
        rfl
  have hvalid : bs.toByteArray.IsValidUTF8 := by
    refine ⟨bs.map fun b => Char.ofNat b.toNat, ?_⟩
    unfold List.utf8Encode
    rw [hencode]
  unfold fromUtf8
  rw [String.fromUTF8?, dif_pos hvalid]
  exact ⟨_, rfl⟩

end RustyAnt.Rdb

/-! ## Scores -/

namespace RustyAnt

open Lib Rdb

/-- What is relied on of the standard library's text form of doubles: the words it
reads, the digits it shows for an integer, and that what it shows of the doubles
`S` is read as the same number. -/
structure FloatOps.TextLaws (fo : FloatOps) (S : F64 → Prop) : Prop where
  parse_inf : fo.parse infText = some .infinity
  parse_plusInf : fo.parse (43 :: infText) = some .infinity
  parse_minusInf : fo.parse (45 :: infText) = some .negInfinity
  parse_nan : fo.parse nanText = some .nan
  display_int : ∀ x : F64, x.isFinite = true → x.isIntegral = true → x.absBelowExact = true →
    x.toInt ≠ 0 → fo.display x = Decimal.intBytes x.toInt
  display_zero : fo.display .zero = Decimal.intBytes 0
  display_utf8 : ∀ x, S x → ∃ s, fromUtf8 (fo.display x) = .ok s
  parse_display : ∀ x, S x → x.isFinite = true →
    ∃ y, fo.parse (fo.display x) = some y ∧ F64.numEq y x = true

namespace F64

theorem numEq_iff {x y : F64} :
    numEq x y = true ↔ x.isNan = false ∧ y.isNan = false ∧ x.rank = y.rank := by
  simp [numEq, and_assoc]

theorem magnitude_eq (x : F64) : x.magnitude = x.exponent * 2 ^ 52 + x.fraction := by
  unfold exponent fraction
  omega

theorem numEq_infinity {x : F64} (h : x.isInfinite = true) :
    numEq (if F64.lt .zero x then .infinity else .negInfinity) x = true := by
  have hinf : x.exponent = 2047 ∧ x.fraction = 0 := of_decide_eq_true h
  have hmag := magnitude_eq x
  have hnan : x.isNan = false := by
    simp [isNan, hinf.2]
  rw [hinf.1, hinf.2] at hmag
  by_cases hneg : x.negative
  · have hrank : x.rank = -(x.magnitude : Int) := if_pos hneg
    have hlt : F64.lt .zero x = false := by
      have hzero : F64.zero.rank = 0 := by decide
      simp only [F64.lt, hzero, hrank, Bool.and_eq_false_iff, decide_eq_false_iff_not]
      right
      omega
    have hneginf : F64.negInfinity.rank = -(2047 * 2 ^ 52 : Int) := by decide
    rw [hlt, numEq_iff]
    refine ⟨by decide, hnan, ?_⟩
    rw [if_neg (by simp), hneginf, hrank, hmag]
    rfl
  · have hrank : x.rank = (x.magnitude : Int) := if_neg hneg
    have hlt : F64.lt .zero x = true := by
      have hzero : F64.zero.rank = 0 := by decide
      have hzeronan : F64.zero.isNan = false := by decide
      simp only [F64.lt, hzero, hrank, hnan, hzeronan, Bool.not_false, Bool.true_and,
        decide_eq_true_eq]
      omega
    have hposinf : F64.infinity.rank = (2047 * 2 ^ 52 : Int) := by decide
    rw [hlt, numEq_iff]
    refine ⟨by decide, hnan, ?_⟩
    rw [if_pos rfl, hposinf, hrank, hmag]
    rfl

/-- An integral double whose integer is `0` is one of the zeros. -/
theorem rank_eq_zero {x : F64} (hint : x.isIntegral = true) (h : x.toInt = 0) : x.rank = 0 := by
  have hmod : x.scaled % 2 ^ 1074 = 0 := of_decide_eq_true hint
  have hdiv : x.scaled / 2 ^ 1074 = 0 := by
    unfold toInt at h
    dsimp only at h
    split at h
    · omega
    · omega
  have hscaled : x.scaled = 0 := by
    have := Nat.div_add_mod x.scaled (2 ^ 1074)
    rw [hdiv, hmod] at this
    omega
  have hzero : x.exponent = 0 ∧ x.fraction = 0 := by
    unfold scaled at hscaled
    split at hscaled
    · exact ⟨by assumption, hscaled⟩
    · exfalso
      have hpos : 0 < (2 ^ 52 + x.fraction) * 2 ^ (x.exponent - 1) := by positivity
      omega
  have hmag := magnitude_eq x
  rw [hzero.1, hzero.2] at hmag
  unfold rank
  rw [hmag]
  simp

end F64

namespace Rdb

open Lib.Outcome Lib.Endian

section Score

variable {fo : FloatOps} {S : F64 → Prop}

/-- The words that `parse_rdb_double` takes out are read by `parse` as well. -/
theorem parseRdbDouble_of_parse (hlaws : fo.TextLaws S) {text : Bytes} {y : F64}
    (h : fo.parse text = some y) : parseRdbDouble fo text = .ok y := by
  unfold parseRdbDouble
  split
  · rename_i hinf
    rcases hinf with rfl | rfl
    · rw [hlaws.parse_inf] at h
      rw [Option.some.inj h]
    · rw [hlaws.parse_plusInf] at h
      rw [Option.some.inj h]
  split
  · rename_i hinf
    rw [hinf, hlaws.parse_minusInf] at h
    rw [Option.some.inj h]
  split
  · rename_i hnan
    rw [hnan, hlaws.parse_nan] at h
    rw [Option.some.inj h]
  · rw [h]

theorem readScore_of_parse (hlaws : fo.TextLaws S) {text : Bytes} {y : F64} {s : String}
    (hutf8 : fromUtf8 text = .ok s) (h : fo.parse text = some y) :
    readScore fo text = .ok y := by
  unfold readScore
  rw [hutf8, ok_bind, parseRdbDouble_of_parse hlaws h]
  rfl

/-- A score that is not NaN is read back as the same number. -/
theorem readScore_formatRdbDouble (hlaws : fo.TextLaws S) (hzero : S .zero) {x : F64} (hx : S x)
    (hnan : x.isNan = false) :
    ∃ y, readScore fo (formatRdbDouble fo x) = .ok y ∧ F64.numEq y x = true := by
  unfold formatRdbDouble
  rw [if_neg (by simp [hnan])]
  by_cases hinf : x.isInfinite
  · rw [if_pos hinf]
    refine ⟨_, ?_, F64.numEq_infinity hinf⟩
    by_cases hlt : F64.lt .zero x
    · obtain ⟨s, hs⟩ := fromUtf8_ascii (by simp [infText] : ∀ b ∈ infText, b.toNat < 128)
      rw [if_pos hlt, if_pos hlt]
      exact readScore_of_parse hlaws hs hlaws.parse_inf
    · obtain ⟨s, hs⟩ := fromUtf8_ascii (by simp [infText] : ∀ b ∈ 45 :: infText, b.toNat < 128)
      rw [if_neg hlt, if_neg hlt]
      exact readScore_of_parse hlaws hs hlaws.parse_minusInf
  rw [if_neg hinf]
  have hfin : x.isFinite = true := (F64.isFinite_iff x).mpr ⟨hnan, by simpa using hinf⟩
  by_cases hint : x.isIntegral && x.absBelowExact
  · rw [if_pos hint]
    have hboth : x.isIntegral = true ∧ x.absBelowExact = true := by simpa using hint
    obtain ⟨s, hs⟩ := fromUtf8_ascii (Decimal.intBytes_ascii x.toInt)
    by_cases hn : x.toInt = 0
    · -- both zeros are written as `0`
      rw [hn] at hs ⊢
      obtain ⟨y, hparse, hnum⟩ := hlaws.parse_display .zero hzero (by decide)
      rw [hlaws.display_zero] at hparse
      obtain ⟨hy, -, hrank⟩ := F64.numEq_iff.mp hnum
      refine ⟨y, readScore_of_parse hlaws hs hparse, F64.numEq_iff.mpr ⟨hy, hnan, ?_⟩⟩
      rw [hrank, F64.rank_eq_zero hboth.1 hn]
      decide
    · obtain ⟨y, hparse, hnum⟩ := hlaws.parse_display x hx hfin
      rw [hlaws.display_int x hfin hboth.1 hboth.2 hn] at hparse
      exact ⟨y, readScore_of_parse hlaws hs hparse, hnum⟩
  · rw [if_neg hint]
    obtain ⟨y, hparse, hnum⟩ := hlaws.parse_display x hx hfin
    obtain ⟨s, hs⟩ := hlaws.display_utf8 x hx
    exact ⟨y, readScore_of_parse hlaws hs hparse, hnum⟩

end Score

/-! ## Collections -/

theorem hashOf_flatMap (pairs : List (String × Bytes)) (map : BTreeMap String Bytes) :
    hashOf (pairs.flatMap fun p => [asBytes p.1, p.2]) map =
      .ok (pairs.foldl (fun m p => m.insert p.1 p.2) map) := by
  induction pairs generalizing map with
  | nil => rfl
  | cons p pairs ih =>
      rw [List.flatMap_cons, List.cons_append, List.cons_append, List.nil_append, hashOf,
        fromUtf8_asBytes, ok_bind, ih, List.foldl_cons]

theorem setOf_map (members : List String) (set : BTreeSet String) :
    setOf (members.map asBytes) set = .ok (members.foldl (fun s m => s.insert m) set) := by
  induction members generalizing set with
  | nil => rfl
  | cons m members ih =>
      rw [List.map_cons, setOf, fromUtf8_asBytes, ok_bind, ih, List.foldl_cons]

/-- Pairs of the same member whose scores are the same number. -/
def SamePair (p q : String × F64) : Prop := q.1 = p.1 ∧ F64.numEq q.2 p.2 = true

/-- The pairs of a sorted set come back with scores that are the same numbers. -/
theorem zsetOf_flatMap {fo : FloatOps} {pairs : List (String × F64)}
    (h : ∀ p ∈ pairs, ∃ y, readScore fo (formatRdbDouble fo p.2) = .ok y ∧
      F64.numEq y p.2 = true) :
    ∃ pairs' : List (String × F64), List.Forall₂ SamePair pairs pairs' ∧
      ∀ map, zsetOf fo (pairs.flatMap fun p => [asBytes p.1, formatRdbDouble fo p.2]) map =
        .ok (pairs'.foldl (fun m p => m.insert p.1 p.2) map) := by
  induction pairs with
  | nil => exact ⟨[], .nil, fun map => rfl⟩
  | cons p pairs ih =>
      obtain ⟨y, hread, hnum⟩ := h p List.mem_cons_self
      obtain ⟨pairs', hall, hrest⟩ := ih fun q hq => h q (List.mem_cons_of_mem p hq)
      refine ⟨(p.1, y) :: pairs', .cons ⟨rfl, hnum⟩ hall, fun map => ?_⟩
      rw [List.flatMap_cons, List.cons_append, List.cons_append, List.nil_append, zsetOf,
        fromUtf8_asBytes, ok_bind, hread, ok_bind, hrest, List.foldl_cons]

theorem map_fst_of_samePair {l l' : List (String × F64)} (h : List.Forall₂ SamePair l l') :
    l'.map Prod.fst = l.map Prod.fst := by
  induction h with
  | nil => rfl
  | cons hpq _ ih => rw [List.map_cons, List.map_cons, hpq.1, ih]

theorem exists_samePair {l l' : List (String × F64)} (h : List.Forall₂ SamePair l l')
    {p : String × F64} (hp : p ∈ l) : ∃ q ∈ l', SamePair p q := by
  induction h with
  | nil => simp at hp
  | @cons a b l l' hab _ ih =>
      rcases List.mem_cons.mp hp with rfl | hp
      · exact ⟨b, List.mem_cons_self, hab⟩
      · obtain ⟨q, hq, hpq⟩ := ih hp
        exact ⟨q, List.mem_cons_of_mem b hq, hpq⟩

end Rdb

/-- Equal values, with scores compared as numbers. -/
def Value.SameAs : Value → Value → Prop
  | .zset m, .zset m' =>
      ∀ k : String, Option.Rel (fun x y => F64.numEq x y = true) m[k]? m'[k]?
  | v, w => v = w

namespace Value

/-- The scores of a sorted set. -/
def scores : Value → List F64
  | .zset m => m.toList.map Prod.snd
  | _ => []

theorem zset_sameAs {m : BTreeMap String F64} {pairs : List (String × F64)}
    (h : List.Forall₂ SamePair m.toList pairs) :
    SameAs (.zset (Std.ExtTreeMap.ofList pairs compare)) (.zset m) := by
  have hkeys := map_fst_of_samePair h
  intro k
  cases hm : m[k]? with
  | none =>
      have habsent : (Std.ExtTreeMap.ofList pairs compare)[k]? = none := by
        apply Std.ExtTreeMap.getElem?_ofList_of_contains_eq_false
        rw [hkeys, Std.ExtTreeMap.map_fst_toList_eq_keys]
        simpa using hm
      rw [habsent]
      exact .none
  | some x =>
      have hx : (k, x) ∈ m.toList := Std.ExtTreeMap.mem_toList_iff_getElem?_eq_some.mpr hm
      obtain ⟨⟨k', y⟩, hy, hk, hnum⟩ := exists_samePair h hx
      have hdistinct : pairs.Pairwise fun a b => ¬ compare a.1 b.1 = .eq := by
        have hpairs : (pairs.map Prod.fst).Pairwise fun a b => ¬ compare a b = .eq := by
          rw [hkeys]
          exact List.pairwise_map.mpr Std.ExtTreeMap.distinct_keys_toList
        exact List.pairwise_map.mp hpairs
      have hcmp : compare k' k = .eq := by
        have hkk : k' = k := hk
        rw [hkk]
        exact Std.ReflCmp.compare_self
      rw [Std.ExtTreeMap.getElem?_ofList_of_mem hcmp hdistinct hy]
      exact .some hnum

end Value

namespace Rdb

open Lib.Outcome Lib.Endian

/-! ## Whole payloads -/

section Payload

variable {body : Bytes}

theorem length_withTrailer : (withTrailer body).length = body.length + 10 := by
  unfold withTrailer
  simp only [List.length_append, length_leBytes]

theorem bodyOf_withTrailer : bodyOf (withTrailer body) = body := by
  unfold bodyOf
  rw [length_withTrailer, Nat.add_sub_cancel]
  unfold withTrailer
  rw [List.append_assoc, List.take_left]

theorem trailerOf_withTrailer :
    trailerOf (withTrailer body) =
      leBytes 2 rdbVersion ++ leBytes 8 (crc64 0 (body ++ leBytes 2 rdbVersion)).toNat := by
  unfold trailerOf
  rw [length_withTrailer, Nat.add_sub_cancel]
  unfold withTrailer
  rw [List.append_assoc, List.drop_left]

theorem sealed_withTrailer : Sealed (withTrailer body) := by
  refine ⟨?_, ?_, ?_⟩
  · rw [length_withTrailer]
    omega
  · rw [trailerOf_withTrailer, List.take_left' (length_leBytes _ _)]
    decide
  · have hcrc := (crc64 0 (body ++ leBytes 2 rdbVersion)).toNat_lt
    rw [trailerOf_withTrailer, List.take_left' (length_leBytes _ _),
      List.drop_left' (length_leBytes _ _), bodyOf_withTrailer, leNat_leBytes,
      Nat.mod_eq_of_lt (by omega)]

theorem restoreValue_withTrailer {fo : FloatOps} {t : UInt8} {rest : Bytes}
    (hsize : (t :: rest).length < usizeBound) :
    restoreValue fo (withTrailer (t :: rest)) = readKind fo t (Reader.between [t] rest) := by
  have hread : (Reader.new (t :: rest)).readU8 = .ok (t, Reader.between [t] rest) :=
    @Reader.readU8_between [] rest t hsize
  rw [restoreValue_of_sealed fo sealed_withTrailer, bodyOf_withTrailer, readBody, hread, ok_bind]

end Payload

theorem length_writeRdbLength_le (n : Nat) : (writeRdbLength n).length ≤ 9 := by
  unfold writeRdbLength
  split
  · simp
  split
  · simp
  split <;> simp

theorem length_writeRdbString_le (data : Bytes) :
    (writeRdbString data).length ≤ 9 + data.length := by
  have hlen := length_writeRdbLength_le data.length
  have hraw : (writeRawString data).length ≤ 9 + data.length := by
    rw [writeRawString, List.length_append]
    omega
  unfold writeRdbString
  split
  · exact hraw
  · split
    · simp
      omega
    split
    · simp
      omega
    split
    · simp
      omega
    · exact hraw

theorem readRdbString_single {t : UInt8} {data : Bytes} (hdata : data.length ≤ isizeMax) :
    (t :: writeRdbString data).length < usizeBound ∧
      ∃ r, readRdbString (Reader.between [t] (writeRdbString data)) = .ok (data, r) := by
  have hlen := length_writeRdbString_le data
  have hsize : ([t] ++ (writeRdbString data ++ [])).length < usizeBound := by
    simp only [List.append_nil, List.length_append, List.length_singleton]
    unfold usizeBound
    unfold isizeMax at hdata
    omega
  have hread := readRdbString_writeRdbString hdata hsize
  rw [List.append_nil] at hsize hread
  exact ⟨hsize, _, hread⟩

/-- What the listpack of a value holds. -/
def listpackItems (fo : FloatOps) : Value → List Bytes
  | .hash map => map.toList.flatMap fun p => [asBytes p.1, p.2]
  | .list items => items
  | .set members => members.toList.map asBytes
  | .zset map => map.toList.flatMap fun p => [asBytes p.1, formatRdbDouble fo p.2]
  | _ => []

/-- A string is no longer than a vector can be, a listpack shorter than `2^32`. -/
def FitsDump (fo : FloatOps) : Value → Prop
  | .string data => data.length ≤ isizeMax
  | v => (listpackOf (listpackItems fo v)).length < 2 ^ 32

section Kinds

variable {fo : FloatOps}

theorem isizeMax_of_lt {lp : Bytes} (h : lp.length < 2 ^ 32) : lp.length ≤ isizeMax := by
  unfold isizeMax
  omega

theorem length_flatMap_pair {α : Type} (f g : α → Bytes) (l : List α) :
    (l.flatMap fun p => [f p, g p]).length % 2 = 0 := by
  induction l with
  | nil => rfl
  | cons p l ih =>
      rw [List.flatMap_cons, List.length_append]
      simp only [List.length_cons, List.length_nil]
      omega

theorem dump_restore_string {data : Bytes} (hsize : data.length ≤ isizeMax) :
    restoreValue fo (withTrailer (rdbTypeString :: writeRdbString data)) = .ok (.string data) := by
  obtain ⟨hlen, r, hread⟩ := @readRdbString_single rdbTypeString data hsize
  rw [restoreValue_withTrailer hlen]
  show readString _ = _
  rw [readString, hread]
  rfl

theorem dump_restore_hash {map : BTreeMap String Bytes}
    (hsize : (listpackOf (map.toList.flatMap fun p => [asBytes p.1, p.2])).length < 2 ^ 32) :
    restoreValue fo (withTrailer (rdbTypeHashListpack ::
      writeRdbString (listpackOf (map.toList.flatMap fun p => [asBytes p.1, p.2])))) =
      .ok (.hash map) := by
  obtain ⟨hlen, r, hread⟩ := @readRdbString_single rdbTypeHashListpack _ (isizeMax_of_lt hsize)
  have heven := length_flatMap_pair (fun p : String × Bytes => asBytes p.1) Prod.snd map.toList
  rw [restoreValue_withTrailer hlen]
  show readHash _ = _
  rw [readHash, hread, ok_bind]
  dsimp only
  rw [listpackDecode_listpackOf hsize, ok_bind, if_neg (not_not.mpr heven), hashOf_flatMap, ok_bind,
    ← Std.ExtTreeMap.ofList_eq_foldl, btreeMap_ofList_toList]
  rfl

theorem dump_restore_set {members : BTreeSet String}
    (hsize : (listpackOf (members.toList.map asBytes)).length < 2 ^ 32) :
    restoreValue fo (withTrailer (rdbTypeSetListpack ::
      writeRdbString (listpackOf (members.toList.map asBytes)))) = .ok (.set members) := by
  obtain ⟨hlen, r, hread⟩ := @readRdbString_single rdbTypeSetListpack _ (isizeMax_of_lt hsize)
  rw [restoreValue_withTrailer hlen]
  show readSetListpack _ = _
  rw [readSetListpack, hread, ok_bind]
  dsimp only
  rw [listpackDecode_listpackOf hsize, ok_bind, setOf_map, ok_bind,
    ← Std.ExtTreeSet.ofList_eq_foldl, btreeSet_ofList_toList]
  rfl

theorem dump_restore_list {items : List Bytes} (hsize : (listpackOf items).length < 2 ^ 32) :
    restoreValue fo (withTrailer (rdbTypeListQuicklist2 :: (writeRdbLength 1 ++
      writeRdbLength quicklistNodePacked ++ writeRdbString (listpackOf items)))) =
      .ok (.list items) := by
  have hlp := isizeMax_of_lt hsize
  have hstr := length_writeRdbString_le (listpackOf items)
  have hbody : writeRdbLength 1 ++ writeRdbLength quicklistNodePacked ++
      writeRdbString (listpackOf items) = [1, 2] ++ (writeRdbString (listpackOf items) ++ []) := by
    rw [List.append_nil]
    rfl
  have hlen : ([rdbTypeListQuicklist2] ++ ([1, 2] ++ (writeRdbString (listpackOf items) ++
      []))).length < usizeBound := by
    simp only [List.length_append, List.length_cons, List.length_nil]
    unfold usizeBound
    unfold isizeMax at hlp
    omega
  have hcount : readRdbLength (Reader.between [rdbTypeListQuicklist2]
      ([1, 2] ++ (writeRdbString (listpackOf items) ++ []))) =
      .ok (1, Reader.between [rdbTypeListQuicklist2, 1]
        (2 :: (writeRdbString (listpackOf items) ++ []))) :=
    readRdbLength_writeRdbLength (by decide : 1 < 2 ^ 64) hlen
  have hnode : readRdbLength (Reader.between [rdbTypeListQuicklist2, 1]
      (2 :: (writeRdbString (listpackOf items) ++ []))) =
      .ok (2, Reader.between [rdbTypeListQuicklist2, 1, 2]
        (writeRdbString (listpackOf items) ++ [])) :=
    readRdbLength_writeRdbLength (by decide : 2 < 2 ^ 64) hlen
  have hread := @readRdbString_writeRdbString [rdbTypeListQuicklist2, 1, 2] (listpackOf items) []
    hlp hlen
  have hbound : (rdbTypeListQuicklist2 :: ([1, 2] ++ (writeRdbString (listpackOf items) ++
      []))).length < usizeBound := hlen
  rw [hbody, restoreValue_withTrailer hbound]
  show readList _ = _
  rw [readList, hcount, ok_bind]
  dsimp only
  rw [times, readNode]
  dsimp only
  rw [hnode, ok_bind]
  dsimp only
  have hpacked : 2 = quicklistNodePacked := rfl
  rw [if_pos hpacked, hread, ok_bind]
  dsimp only
  rw [listpackDecode_listpackOf hsize, ok_bind]
  rfl

theorem dump_restore_zset {map : BTreeMap String F64}
    (hsize : (listpackOf (map.toList.flatMap fun p =>
      [asBytes p.1, formatRdbDouble fo p.2])).length < 2 ^ 32)
    (hscore : ∀ p ∈ map.toList, ∃ y, readScore fo (formatRdbDouble fo p.2) = .ok y ∧
      F64.numEq y p.2 = true) :
    ∃ v, restoreValue fo (withTrailer (rdbTypeZsetListpack :: writeRdbString (listpackOf
      (map.toList.flatMap fun p => [asBytes p.1, formatRdbDouble fo p.2])))) = .ok v ∧
      v.SameAs (.zset map) := by
  obtain ⟨hlen, r, hread⟩ := @readRdbString_single rdbTypeZsetListpack _ (isizeMax_of_lt hsize)
  have heven := length_flatMap_pair (fun p : String × F64 => asBytes p.1)
    (fun p => formatRdbDouble fo p.2) map.toList
  obtain ⟨pairs, hpairs, hzset⟩ := zsetOf_flatMap hscore
  refine ⟨.zset (Std.ExtTreeMap.ofList pairs compare), ?_, Value.zset_sameAs hpairs⟩
  rw [restoreValue_withTrailer hlen]
  show readZsetListpack fo _ = _
  rw [readZsetListpack, hread, ok_bind]
  dsimp only
  rw [listpackDecode_listpackOf hsize, ok_bind, if_neg (not_not.mpr heven), hzset, ok_bind,
    ← Std.ExtTreeMap.ofList_eq_foldl]
  rfl

end Kinds

/-- `DUMP` succeeds on every string, hash, list, set and sorted set that fits, and
`RESTORE` of its payload gives an equal value, scores compared as numbers. -/
theorem restoreValue_dumpValue {fo : FloatOps} {v : Value}
    (hkind : ValueKind.of v ≠ .stream) (hsize : FitsDump fo v)
    (hnan : ∀ x ∈ v.scores, x.isNan = false)
    (hlaws : fo.TextLaws fun x => x = .zero ∨ x ∈ v.scores) :
    ∃ payload v', dumpValue fo v = .ok payload ∧ restoreValue fo payload = .ok v' ∧
      v'.SameAs v := by
  cases v with
  | string data => exact ⟨_, _, rfl, dump_restore_string hsize, rfl⟩
  | hash map => exact ⟨_, _, rfl, dump_restore_hash hsize, rfl⟩
  | list items => exact ⟨_, _, rfl, dump_restore_list hsize, rfl⟩
  | set members => exact ⟨_, _, rfl, dump_restore_set hsize, rfl⟩
  | zset map =>
      have hscore : ∀ p ∈ map.toList, ∃ y, readScore fo (formatRdbDouble fo p.2) = .ok y ∧
          F64.numEq y p.2 = true := by
        intro p hp
        have hmem : p.2 ∈ (Value.zset map).scores := List.mem_map_of_mem hp
        exact readScore_formatRdbDouble hlaws (.inl rfl) (.inr hmem) (hnan p.2 hmem)
      obtain ⟨v', hrestore, hsame⟩ := dump_restore_zset hsize hscore
      exact ⟨_, v', rfl, hrestore, hsame⟩
  | stream s => exact absurd rfl hkind

/-- Scores of every form: a small integer, the negative zero, a large one, infinity. -/
def scoreForms : BTreeMap String F64 :=
  Std.ExtTreeMap.ofList [("a", FloatOps.ofInt 2), ("b", F64.neg .zero),
    ("c", FloatOps.ofInt (-70000)), ("d", .infinity)] compare

theorem restoreValue_dumpValue_on_scoreForms :
    ∃ payload v', dumpValue .integral (.zset scoreForms) = .ok payload ∧
      restoreValue .integral payload = .ok v' ∧ v'.SameAs (.zset scoreForms) := by
  have hscores : (Value.zset scoreForms).scores =
      [FloatOps.ofInt 2, F64.neg .zero, FloatOps.ofInt (-70000), .infinity] := by decide +kernel
  apply restoreValue_dumpValue
  · decide
  · show (listpackOf _).length < 2 ^ 32
    decide +kernel
  · rw [hscores]
    decide +kernel
  · rw [hscores]
    refine ⟨rfl, by decide +kernel, by decide +kernel, by decide +kernel, ?_, by decide +kernel,
      ?_, ?_⟩
    · intro x _ _ _ _
      rfl
    · intro x _
      exact fromUtf8_ascii (Decimal.intBytes_ascii x.toInt)
    · intro x hx hfin
      simp only [List.mem_cons, List.not_mem_nil, or_false] at hx
      rcases hx with rfl | rfl | rfl | rfl | rfl
      · exact ⟨.zero, by decide +kernel, by decide +kernel⟩
      · exact ⟨FloatOps.ofInt 2, by decide +kernel, by decide +kernel⟩
      · exact ⟨.zero, by decide +kernel, by decide +kernel⟩
      · exact ⟨FloatOps.ofInt (-70000), by decide +kernel, by decide +kernel⟩
      · exact absurd hfin (by decide)

end Rdb

end RustyAnt
