import RustyAnt.Rdb.Payload

/-!
# RESTORE on hostile input

Where `restore_value` can panic.  Its decoders check every index, slice and loop,
with two exceptions: a declared string length that overflows the reader's position,
and a declared LZF length that no vector can hold.  Both need a string header that
the decoder gets to, and nothing else goes wrong on any payload.
-/

namespace RustyAnt.Rdb

open Lib Lib.Outcome Lib.Endian

/-! ## The reader -/

namespace Reader

/-- A position within a slice. -/
structure Valid (r : Reader) : Prop where
  pos_le : r.pos ≤ r.buf.length
  fits : r.buf.length ≤ isizeMax

variable {r r' : Reader}

theorem readU8_ne_panic (hr : r.Valid) : r.readU8 ≠ .panic := by
  have hfits := hr.fits
  unfold readU8
  split
  · simp
  · rename_i hlt
    have hpos : r.pos < r.buf.length := by omega
    have hadd : r.pos + 1 < usizeBound := by
      unfold usizeBound
      unfold isizeMax at hfits
      omega
    simp [index_eq_ok hpos, add, hadd]

theorem readU8_valid {b : UInt8} (hr : r.Valid) (h : r.readU8 = .ok (b, r')) : r'.Valid := by
  unfold readU8 at h
  split at h
  · cases h
  · rename_i hlt
    obtain ⟨b', -, h⟩ := bind_eq_ok.mp h
    obtain ⟨pos, hpos, h⟩ := bind_eq_ok.mp h
    cases h
    have hpos' := add_eq_of_ok hpos
    exact ⟨by show pos ≤ r.buf.length; omega, hr.fits⟩

theorem readSlice_eq_panic {n : Nat} :
    r.readSlice n = .panic ↔ usizeBound ≤ r.pos + n := by
  unfold readSlice add
  by_cases hadd : r.pos + n < usizeBound
  · rw [if_pos hadd, ok_bind]
    have hnot : ¬ usizeBound ≤ r.pos + n := by omega
    simp only [hnot, iff_false]
    split
    · simp
    · rename_i hle
      have hstop : r.pos + n ≤ r.buf.length := by omega
      simp [slice_eq_ok (Nat.le_add_right r.pos n) hstop]
  · rw [if_neg hadd, panic_bind]
    simp only [true_iff]
    omega

theorem readSlice_ok {n : Nat} {s : Bytes} (hr : r.Valid) (h : r.readSlice n = .ok (s, r')) :
    r'.Valid ∧ s.length = n := by
  unfold readSlice add at h
  obtain ⟨stop, hstop, h⟩ := bind_eq_ok.mp h
  split at hstop
  · cases hstop
    split at h
    · cases h
    · rename_i hle
      have hle' : r.pos + n ≤ r.buf.length := by omega
      rw [slice_eq_ok (Nat.le_add_right r.pos n) hle', ok_bind] at h
      cases h
      refine ⟨⟨hle', hr.fits⟩, ?_⟩
      rw [List.length_take, List.length_drop]
      omega
  · cases hstop

theorem readSlice_in {n : Nat} {s : Bytes} (h : r.readSlice n = .ok (s, r')) :
    r.pos + n ≤ r.buf.length := by
  unfold readSlice at h
  obtain ⟨stop, hstop, h⟩ := bind_eq_ok.mp h
  have hstop' := add_eq_of_ok hstop
  split at h
  · cases h
  · omega

theorem readSlice_of_in {n : Nat} (hr : r.Valid) (h : r.pos + n ≤ r.buf.length) :
    ∃ s r', r.readSlice n = .ok (s, r') ∧ s.length = n := by
  have hfits := hr.fits
  have hadd : r.pos + n < usizeBound := by
    unfold usizeBound
    unfold isizeMax at hfits
    omega
  cases hread : r.readSlice n with
  | ok p => exact ⟨p.1, p.2, rfl, (readSlice_ok hr hread).2⟩
  | err e =>
      exfalso
      simp only [readSlice, add, if_pos hadd, ok_bind, if_neg (Nat.not_lt.mpr h),
        slice_eq_ok (Nat.le_add_right r.pos n) h] at hread
      cases hread
  | panic =>
      have := readSlice_eq_panic.mp hread
      omega

theorem readSlice_small {n : Nat} (hr : r.Valid) (hn : n ≤ 8) : r.readSlice n ≠ .panic := by
  rw [Ne, readSlice_eq_panic]
  have hpos := hr.pos_le
  have hfits := hr.fits
  unfold usizeBound
  unfold isizeMax at hfits
  omega

end Reader

/-! ## Lengths -/

theorem readField_ne_panic {r : Reader} {k : Nat} {α : Type} {f : Bytes → Reader → α}
    (hr : r.Valid) (hk : k ≤ 8) :
    (do
      let (bs, r) ← r.readSlice k
      let word ← gather bs 0 k
      return f word r : Decoded α) ≠ .panic := by
  rw [Ne, bind_eq_panic_of (Reader.readSlice_small hr hk)]
  rintro ⟨⟨bs, r'⟩, hread, h⟩
  have hlen := (Reader.readSlice_ok hr hread).2
  simp only at h
  rw [gather_eq_ok (by omega), ok_bind] at h
  cases h

theorem readField_valid {r r' : Reader} {k : Nat} {α : Type} {f : Bytes → α} {a : α}
    (hr : r.Valid)
    (h : (do
      let (bs, r) ← r.readSlice k
      let word ← gather bs 0 k
      return (f word, r) : Decoded (α × Reader)) = .ok (a, r')) : r'.Valid := by
  obtain ⟨⟨bs, r₁⟩, hread, h⟩ := bind_eq_ok.mp h
  obtain ⟨word, -, h⟩ := bind_eq_ok.mp h
  cases h
  exact (Reader.readSlice_ok hr hread).1

theorem readWideLength_ne_panic {b : UInt8} {r : Reader} (hr : r.Valid) :
    readWideLength b r ≠ .panic := by
  unfold readWideLength
  split
  · exact readField_ne_panic hr (by omega)
  · split
    · exact readField_ne_panic hr (by omega)
    · simp

theorem readWideLength_valid {b : UInt8} {r r' : Reader} {n : Nat} (hr : r.Valid)
    (h : readWideLength b r = .ok (n, r')) : r'.Valid := by
  unfold readWideLength at h
  split at h
  · exact readField_valid hr h
  · split at h
    · exact readField_valid hr h
    · cases h

theorem readRdbLength_ne_panic {r : Reader} (hr : r.Valid) : readRdbLength r ≠ .panic := by
  unfold readRdbLength
  rw [Ne, bind_eq_panic_of (Reader.readU8_ne_panic hr)]
  rintro ⟨⟨b, r₁⟩, hb, h⟩
  have hr₁ := Reader.readU8_valid hr hb
  simp only at h
  split at h
  · cases h
  · rw [bind_eq_panic_of (Reader.readU8_ne_panic hr₁)] at h
    obtain ⟨a, -, h⟩ := h
    cases h
  · exact readWideLength_ne_panic hr₁ h
  · cases h

theorem readRdbLength_valid {r r' : Reader} {n : Nat} (hr : r.Valid)
    (h : readRdbLength r = .ok (n, r')) : r'.Valid := by
  unfold readRdbLength at h
  obtain ⟨⟨b, r₁⟩, hb, h⟩ := bind_eq_ok.mp h
  have hr₁ := Reader.readU8_valid hr hb
  simp only at h
  split at h
  · cases h
    exact hr₁
  · obtain ⟨⟨b2, r₂⟩, hb2, h⟩ := bind_eq_ok.mp h
    cases h
    exact Reader.readU8_valid hr₁ hb2
  · exact readWideLength_valid hr₁ h
  · cases h

theorem readSpecialLen_ne_panic {b : UInt8} {r : Reader} (hr : r.Valid) :
    readSpecialLen b r ≠ .panic := by
  unfold readSpecialLen
  split
  · rw [Ne, bind_eq_panic_of (Reader.readU8_ne_panic hr)]
    rintro ⟨a, -, h⟩
    cases h
  · split
    · exact readField_ne_panic hr (by omega)
    · split
      · exact readField_ne_panic hr (by omega)
      · split <;> simp

theorem readRdbStrLen_ne_panic {r : Reader} (hr : r.Valid) : readRdbStrLen r ≠ .panic := by
  unfold readRdbStrLen
  rw [Ne, bind_eq_panic_of (Reader.readU8_ne_panic hr)]
  rintro ⟨⟨b, r₁⟩, hb, h⟩
  have hr₁ := Reader.readU8_valid hr hb
  simp only at h
  split at h
  · cases h
  · rw [bind_eq_panic_of (Reader.readU8_ne_panic hr₁)] at h
    obtain ⟨a, -, h⟩ := h
    cases h
  · rw [bind_eq_panic_of (readWideLength_ne_panic hr₁)] at h
    obtain ⟨a, -, h⟩ := h
    cases h
  · exact readSpecialLen_ne_panic hr₁ h

/-! ## LZF -/

theorem lzfCopy_ne_panic {n : Nat} : ∀ {start : Nat} {out : Bytes}, start < out.length →
    lzfCopy start n out ≠ .panic := by
  induction n with
  | zero =>
      intro start out _
      simp [lzfCopy]
  | succ n ih =>
      intro start out h
      rw [lzfCopy, index_eq_ok h, ok_bind]
      apply ih
      rw [List.length_append, List.length_singleton]
      omega

section Lzf

variable {input : Bytes}

theorem lzfRunLen_ne_panic {ctrl : UInt8} {p : Nat} (hfits : input.length ≤ isizeMax) :
    lzfRunLen input ctrl p ≠ .panic := by
  unfold lzfRunLen
  split
  · split
    · simp
    · rename_i hlt
      have hp : p < input.length := by omega
      have hadd : p + 1 < usizeBound := by
        unfold usizeBound
        unfold isizeMax at hfits
        omega
      simp [index_eq_ok hp, add, hadd]
  · simp

theorem lzfRunLen_le {ctrl : UInt8} {p n p' : Nat} (h : lzfRunLen input ctrl p = .ok (n, p')) :
    p ≤ p' := by
  unfold lzfRunLen at h
  split at h
  · split at h
    · cases h
    · obtain ⟨b, -, h⟩ := bind_eq_ok.mp h
      obtain ⟨next, hnext, h⟩ := bind_eq_ok.mp h
      cases h
      have hnext' := add_eq_of_ok hnext
      omega
  · cases h
    exact Nat.le_refl p

theorem lzfStep_ne_panic {p : Nat} {out : Bytes} (hfits : input.length ≤ isizeMax)
    (hp : p < input.length) : lzfStep input p out ≠ .panic := by
  have hbound : ∀ q k, q ≤ input.length → k ≤ 256 → q + k < usizeBound := by
    intro q k hq hk
    unfold usizeBound
    unfold isizeMax at hfits
    omega
  unfold lzfStep
  rw [index_eq_ok hp, ok_bind]
  simp only [add, hbound p 1 hp.le (by omega), if_true, ok_bind]
  generalize input.get ⟨p, hp⟩ = ctrl
  split
  · rename_i hctrl
    rw [if_pos (hbound (p + 1) (ctrl.toNat + 1) hp (by omega)), ok_bind]
    split
    · simp
    · rename_i hstop
      rw [slice_eq_ok (by omega) (by omega)]
      simp
  · rw [Ne, bind_eq_panic_of (lzfRunLen_ne_panic hfits)]
    rintro ⟨⟨runLen, q⟩, -, h⟩
    simp only at h
    split at h
    · cases h
    · rename_i hq
      have hq' : q < input.length := by omega
      rw [index_eq_ok hq', ok_bind, if_pos (hbound q 1 hq'.le (by omega)), ok_bind] at h
      split at h
      · cases h
      · rw [bind_eq_panic_of (lzfCopy_ne_panic (by omega))] at h
        obtain ⟨a, -, h⟩ := h
        cases h

theorem lzfStep_lt {p p' : Nat} {out out' : Bytes}
    (h : lzfStep input p out = .ok (p', out')) : p < p' := by
  unfold lzfStep at h
  obtain ⟨ctrl, -, h⟩ := bind_eq_ok.mp h
  obtain ⟨q, hq, h⟩ := bind_eq_ok.mp h
  have hq' := add_eq_of_ok hq
  split at h
  · obtain ⟨stop, hstop, h⟩ := bind_eq_ok.mp h
    have hstop' := add_eq_of_ok hstop
    split at h
    · cases h
    · obtain ⟨lits, -, h⟩ := bind_eq_ok.mp h
      cases h
      omega
  · obtain ⟨⟨runLen, q₁⟩, hrun, h⟩ := bind_eq_ok.mp h
    have hle := lzfRunLen_le hrun
    simp only at h
    split at h
    · cases h
    · obtain ⟨b, -, h⟩ := bind_eq_ok.mp h
      obtain ⟨next, hnext, h⟩ := bind_eq_ok.mp h
      have hnext' := add_eq_of_ok hnext
      split at h
      · cases h
      · obtain ⟨out₁, -, h⟩ := bind_eq_ok.mp h
        cases h
        omega

/-- Every round moves on, so the loop ends within as many rounds as there are
bytes. -/
theorem lzfLoop_ne_panic (hfits : input.length ≤ isizeMax) {fuel : Nat} :
    ∀ {p : Nat} {out : Bytes}, input.length ≤ p + fuel → lzfLoop input fuel p out ≠ .panic := by
  induction fuel with
  | zero =>
      intro p out hfuel
      have hp : ¬ p < input.length := by omega
      simp [lzfLoop, hp]
  | succ fuel ih =>
      intro p out hfuel
      unfold lzfLoop
      split
      · simp
      · rename_i hp
        rw [Ne, bind_eq_panic_of (lzfStep_ne_panic hfits (by omega))]
        rintro ⟨⟨p', out'⟩, hstep, h⟩
        have hlt := lzfStep_lt hstep
        exact ih (by omega) h

theorem lzfDecompress_eq_panic (hfits : input.length ≤ isizeMax) {n : Nat} :
    lzfDecompress input n = .panic ↔ isizeMax < n := by
  unfold lzfDecompress withCapacity
  by_cases hn : n ≤ isizeMax
  · rw [if_pos hn, ok_bind, bind_eq_panic_of (lzfLoop_ne_panic hfits (by omega))]
    constructor
    · rintro ⟨out, -, h⟩
      split at h <;> cases h
    · intro h
      omega
  · rw [if_neg hn, panic_bind]
    simp only [true_iff]
    omega

end Lzf

/-! ## Strings -/

theorem readSpecialLen_ne_normal {b : UInt8} {r r' : Reader} {n : Nat} :
    readSpecialLen b r ≠ .ok (.normal n, r') := by
  unfold readSpecialLen
  intro h
  split at h
  · obtain ⟨a, -, h⟩ := bind_eq_ok.mp h
    cases h
  · split at h
    · obtain ⟨a, -, h⟩ := bind_eq_ok.mp h
      obtain ⟨word, -, h⟩ := bind_eq_ok.mp h
      cases h
    · split at h
      · obtain ⟨a, -, h⟩ := bind_eq_ok.mp h
        obtain ⟨word, -, h⟩ := bind_eq_ok.mp h
        cases h
      · split at h <;> cases h

/-- Outside the special forms a string's length is a plain length. -/
theorem readRdbStrLen_normal {r r' : Reader} {n : Nat} :
    readRdbStrLen r = .ok (.normal n, r') ↔ readRdbLength r = .ok (n, r') := by
  unfold readRdbStrLen readRdbLength
  cases r.readU8 with
  | err e => simp
  | panic => simp
  | ok p =>
      obtain ⟨b, r₁⟩ := p
      simp only [ok_bind]
      split
      · simp
      · cases r₁.readU8 <;> simp
      · cases readWideLength b r₁ <;> simp [Prod.ext_iff]
      · simp only [readSpecialLen_ne_normal, reduceCtorEq]

theorem readSpecialLen_lzf {b : UInt8} {r r' : Reader} :
    readSpecialLen b r = .ok (.lzf, r') ↔ b = 0xc3 ∧ r = r' := by
  unfold readSpecialLen
  constructor
  · intro h
    split at h
    · obtain ⟨a, -, h⟩ := bind_eq_ok.mp h
      cases h
    · split at h
      · obtain ⟨a, -, h⟩ := bind_eq_ok.mp h
        obtain ⟨word, -, h⟩ := bind_eq_ok.mp h
        cases h
      · split at h
        · obtain ⟨a, -, h⟩ := bind_eq_ok.mp h
          obtain ⟨word, -, h⟩ := bind_eq_ok.mp h
          cases h
        · split at h
          · rename_i hb
            cases h
            exact ⟨hb, rfl⟩
          · cases h
  · rintro ⟨rfl, rfl⟩
    rfl

theorem readRdbStrLen_lzf {r r' : Reader} :
    readRdbStrLen r = .ok (.lzf, r') ↔ r.readU8 = .ok (0xc3, r') := by
  unfold readRdbStrLen
  cases r.readU8 with
  | err e => simp
  | panic => simp
  | ok p =>
      obtain ⟨b, r₁⟩ := p
      simp only [ok_bind, Outcome.ok.injEq, Prod.mk.injEq]
      have hne : ∀ k, k < 3 → b.toNat / 64 = k → b ≠ 0xc3 := by
        rintro k hk hdiv rfl
        have h3 : (0xc3 : UInt8).toNat / 64 = 3 := rfl
        omega
      split
      · rename_i hdiv
        simp [hne 0 (by omega) hdiv]
      · rename_i hdiv
        cases r₁.readU8 <;> simp [hne 1 (by omega) hdiv]
      · rename_i hdiv
        cases readWideLength b r₁ <;> simp [hne 2 (by omega) hdiv]
      · exact readSpecialLen_lzf

theorem readSpecialLen_valid {b : UInt8} {r r' : Reader} {len : RdbStrLen} (hr : r.Valid)
    (h : readSpecialLen b r = .ok (len, r')) : r'.Valid := by
  unfold readSpecialLen at h
  split at h
  · obtain ⟨⟨n, r₁⟩, hread, h⟩ := bind_eq_ok.mp h
    cases h
    exact Reader.readU8_valid hr hread
  · split at h
    · exact readField_valid hr h
    · split at h
      · exact readField_valid hr h
      · split at h
        · cases h
          exact hr
        · cases h

theorem readRdbStrLen_valid {r r' : Reader} {len : RdbStrLen} (hr : r.Valid)
    (h : readRdbStrLen r = .ok (len, r')) : r'.Valid := by
  unfold readRdbStrLen at h
  obtain ⟨⟨b, r₁⟩, hb, h⟩ := bind_eq_ok.mp h
  have hr₁ := Reader.readU8_valid hr hb
  simp only at h
  split at h
  · cases h
    exact hr₁
  · obtain ⟨⟨b2, r₂⟩, hb2, h⟩ := bind_eq_ok.mp h
    cases h
    exact Reader.readU8_valid hr₁ hb2
  · obtain ⟨⟨n, r₂⟩, hlen, h⟩ := bind_eq_ok.mp h
    cases h
    exact readWideLength_valid hr₁ hlen
  · exact readSpecialLen_valid hr₁ h

/-- The string header at the reader declares a length past what `usize` positions
or a vector can hold. -/
inductive Overlong : Reader → Prop
  /-- a plain string whose end is past `usize::MAX` -/
  | plain {r r' n} (hlen : readRdbLength r = .ok (n, r')) (hn : usizeBound ≤ r'.pos + n) :
      Overlong r
  /-- an LZF string whose compressed form ends past `usize::MAX` -/
  | compressed {r r₀ r₁ r₂ clen ulen} (htag : r.readU8 = .ok (0xc3, r₀))
      (hclen : readRdbLength r₀ = .ok (clen, r₁)) (hulen : readRdbLength r₁ = .ok (ulen, r₂))
      (hn : usizeBound ≤ r₂.pos + clen) : Overlong r
  /-- an LZF string, complete in the payload, whose uncompressed length is past
  `isize::MAX` -/
  | uncompressed {r r₀ r₁ r₂ clen ulen} (htag : r.readU8 = .ok (0xc3, r₀))
      (hclen : readRdbLength r₀ = .ok (clen, r₁)) (hulen : readRdbLength r₁ = .ok (ulen, r₂))
      (hin : r₂.pos + clen ≤ r₂.buf.length) (hn : isizeMax < ulen) : Overlong r

theorem readLzfString_eq_panic {r : Reader} (hr : r.Valid) :
    readLzfString r = .panic ↔ ∃ clen r₁ ulen r₂, readRdbLength r = .ok (clen, r₁) ∧
      readRdbLength r₁ = .ok (ulen, r₂) ∧ (usizeBound ≤ r₂.pos + clen ∨
        (r₂.pos + clen ≤ r₂.buf.length ∧ isizeMax < ulen)) := by
  unfold readLzfString
  rw [bind_eq_panic_of (readRdbLength_ne_panic hr)]
  constructor
  · rintro ⟨⟨clen, r₁⟩, hclen, h⟩
    have hr₁ := readRdbLength_valid hr hclen
    simp only at h
    rw [bind_eq_panic_of (readRdbLength_ne_panic hr₁)] at h
    obtain ⟨⟨ulen, r₂⟩, hulen, h⟩ := h
    have hr₂ := readRdbLength_valid hr₁ hulen
    refine ⟨clen, r₁, ulen, r₂, hclen, hulen, ?_⟩
    simp only at h
    rcases bind_eq_panic.mp h with h | ⟨⟨comp, r₃⟩, hread, h⟩
    · exact .inl (Reader.readSlice_eq_panic.mp h)
    · obtain ⟨hr₃, hlen⟩ := Reader.readSlice_ok hr₂ hread
      have hin := Reader.readSlice_in hread
      have hfits := hr₂.fits
      right
      refine ⟨hin, ?_⟩
      simp only at h
      rcases bind_eq_panic.mp h with h | ⟨data, -, h⟩
      · exact (lzfDecompress_eq_panic (by omega)).mp h
      · cases h
  · rintro ⟨clen, r₁, ulen, r₂, hclen, hulen, hbad⟩
    have hr₁ := readRdbLength_valid hr hclen
    have hr₂ := readRdbLength_valid hr₁ hulen
    refine ⟨(clen, r₁), hclen, ?_⟩
    simp only
    rw [hulen, ok_bind]
    simp only
    rcases hbad with hbad | ⟨hin, hulen⟩
    · rw [Reader.readSlice_eq_panic.mpr hbad, panic_bind]
    · have hfits := hr₂.fits
      obtain ⟨comp, r₃, hread, hlen⟩ := Reader.readSlice_of_in hr₂ hin
      rw [hread, ok_bind]
      simp only
      rw [(lzfDecompress_eq_panic (by omega)).mpr hulen, panic_bind]

theorem readRdbString_eq_panic {r : Reader} (hr : r.Valid) :
    readRdbString r = .panic ↔ Overlong r := by
  unfold readRdbString
  rw [bind_eq_panic_of (readRdbStrLen_ne_panic hr)]
  constructor
  · rintro ⟨⟨len, r₁⟩, hlen, h⟩
    have hr₁ := readRdbStrLen_valid hr hlen
    cases len with
    | normal n => exact .plain (readRdbStrLen_normal.mp hlen) (Reader.readSlice_eq_panic.mp h)
    | intStr n => cases h
    | lzf =>
        have htag := readRdbStrLen_lzf.mp hlen
        obtain ⟨clen, r₂, ulen, r₃, hclen, hulen, hbad⟩ := (readLzfString_eq_panic hr₁).mp h
        rcases hbad with hbad | ⟨hin, hbad⟩
        · exact .compressed htag hclen hulen hbad
        · exact .uncompressed htag hclen hulen hin hbad
  · intro h
    cases h with
    | plain hlen hn =>
        exact ⟨_, readRdbStrLen_normal.mpr hlen, Reader.readSlice_eq_panic.mpr hn⟩
    | compressed htag hclen hulen hn =>
        have hr₀ := Reader.readU8_valid hr htag
        exact ⟨_, readRdbStrLen_lzf.mpr htag,
          (readLzfString_eq_panic hr₀).mpr ⟨_, _, _, _, hclen, hulen, .inl hn⟩⟩
    | uncompressed htag hclen hulen hin hn =>
        have hr₀ := Reader.readU8_valid hr htag
        exact ⟨_, readRdbStrLen_lzf.mpr htag,
          (readLzfString_eq_panic hr₀).mpr ⟨_, _, _, _, hclen, hulen, .inr ⟨hin, hn⟩⟩⟩

theorem readLzfString_valid {r r' : Reader} {data : Bytes} (hr : r.Valid)
    (h : readLzfString r = .ok (data, r')) : r'.Valid := by
  unfold readLzfString at h
  obtain ⟨⟨clen, r₁⟩, hclen, h⟩ := bind_eq_ok.mp h
  obtain ⟨⟨ulen, r₂⟩, hulen, h⟩ := bind_eq_ok.mp h
  obtain ⟨⟨comp, r₃⟩, hread, h⟩ := bind_eq_ok.mp h
  obtain ⟨out, -, h⟩ := bind_eq_ok.mp h
  cases h
  exact (Reader.readSlice_ok (readRdbLength_valid (readRdbLength_valid hr hclen) hulen) hread).1

theorem readRdbString_valid {r r' : Reader} {data : Bytes} (hr : r.Valid)
    (h : readRdbString r = .ok (data, r')) : r'.Valid := by
  unfold readRdbString at h
  obtain ⟨⟨len, r₁⟩, hlen, h⟩ := bind_eq_ok.mp h
  have hr₁ := readRdbStrLen_valid hr hlen
  cases len with
  | normal n => exact (Reader.readSlice_ok hr₁ h).1
  | intStr n =>
      cases h
      exact hr₁
  | lzf => exact readLzfString_valid hr₁ h

/-! ## Listpacks -/

theorem listpackReadInt_ne_panic (buf : Bytes) (k : Nat) : listpackReadInt buf k ≠ .panic := by
  unfold listpackReadInt
  split
  · simp
  · rw [gather_eq_ok (by omega)]
    simp

theorem listpackReadStr_ne_panic (buf : Bytes) (hdr len : Nat) :
    listpackReadStr buf hdr len ≠ .panic := by
  unfold listpackReadStr
  split
  · simp
  · rw [slice_eq_ok (by omega) (by omega)]
    simp

theorem ite_ne_panic {α : Type} {c : Prop} [Decidable c] {a b : Decoded α} (ha : c → a ≠ .panic)
    (hb : ¬ c → b ≠ .panic) : (if c then a else b) ≠ .panic := by
  by_cases hc : c
  · rw [if_pos hc]
    exact ha hc
  · rw [if_neg hc]
    exact hb hc

/-- Each encoding checks the length of the buffer before it reads. -/
theorem listpackContent_ne_panic (buf : Bytes) (b0 : UInt8) : listpackContent buf b0 ≠ .panic := by
  unfold listpackContent
  refine ite_ne_panic (fun _ => by simp) fun _ => ?_
  refine ite_ne_panic (fun _ => listpackReadStr_ne_panic _ _ _) fun _ => ?_
  refine ite_ne_panic (fun _ => ite_ne_panic (fun _ => by simp) fun hlen => ?_) fun _ => ?_
  · rw [index_eq_ok (by omega)]
    simp
  refine ite_ne_panic (fun _ => listpackReadInt_ne_panic _ _) fun _ => ?_
  refine ite_ne_panic (fun _ => listpackReadInt_ne_panic _ _) fun _ => ?_
  refine ite_ne_panic (fun _ => listpackReadInt_ne_panic _ _) fun _ => ?_
  refine ite_ne_panic (fun _ => listpackReadInt_ne_panic _ _) fun _ => ?_
  refine ite_ne_panic (fun _ => ite_ne_panic (fun _ => by simp) fun hlen => ?_) fun _ => ?_
  · rw [gather_eq_ok (by omega), ok_bind]
    exact listpackReadStr_ne_panic _ _ _
  refine ite_ne_panic (fun _ => ite_ne_panic (fun _ => by simp) fun hlen => ?_) fun _ => by simp
  rw [index_eq_ok (by omega), ok_bind]
  exact listpackReadStr_ne_panic _ _ _

theorem listpackReadEntry_ne_panic (buf : Bytes) : listpackReadEntry buf ≠ .panic := by
  unfold listpackReadEntry
  split
  · simp
  · rename_i hempty
    have hpos : 0 < buf.length := by
      cases buf with
      | nil => simp at hempty
      | cons b bs => simp
    rw [index_eq_ok hpos, ok_bind, Ne, bind_eq_panic_of (listpackContent_ne_panic _ _)]
    rintro ⟨⟨bytes, entryLen⟩, -, h⟩
    simp only at h
    split at h <;> cases h

theorem backlenBytes_pos (n : Nat) : 0 < backlenBytes n := by
  unfold backlenBytes
  split
  · omega
  split
  · omega
  split
  · omega
  split <;> omega

theorem listpackReadEntry_consumed {buf entry : Bytes} {consumed : Nat}
    (h : listpackReadEntry buf = .ok (entry, consumed)) :
    0 < consumed ∧ consumed ≤ buf.length := by
  unfold listpackReadEntry at h
  split at h
  · cases h
  · obtain ⟨b0, -, h⟩ := bind_eq_ok.mp h
    obtain ⟨⟨bytes, entryLen⟩, -, h⟩ := bind_eq_ok.mp h
    have hpos := backlenBytes_pos entryLen
    simp only at h
    split at h
    · cases h
    · cases h
      omega

theorem listpackLoop_ne_panic {buf : Bytes} {stop : Nat} (hstop : stop ≤ buf.length)
    (hsize : buf.length < 2 ^ 32) {fuel : Nat} : ∀ {p : Nat} {out : List Bytes},
    0 < fuel → stop < p + fuel → listpackLoop buf stop fuel p out ≠ .panic := by
  induction fuel with
  | zero =>
      intro p out hpos
      omega
  | succ fuel ih =>
      intro p out _ hfuel
      unfold listpackLoop
      split
      · rename_i hp
        rw [slice_eq_ok hp.le hstop, ok_bind, Ne, bind_eq_panic_of (listpackReadEntry_ne_panic _)]
        rintro ⟨⟨entry, consumed⟩, hread, h⟩
        obtain ⟨hpos, hle⟩ := listpackReadEntry_consumed hread
        rw [List.length_take, List.length_drop] at hle
        have hadd : p + consumed < usizeBound := by
          unfold usizeBound
          omega
        simp only [add, if_pos hadd, ok_bind] at h
        exact ih (by omega) (by omega) h
      · split <;> simp

theorem listpackDecode_ne_panic (buf : Bytes) : listpackDecode buf ≠ .panic := by
  unfold listpackDecode
  split
  · simp
  · rw [gather_eq_ok (by omega), ok_bind]
    split
    · simp
    · rename_i htot
      have hsize : buf.length < 2 ^ 32 := by
        have hlt := leNat_lt ((buf.drop 0).take 4)
        have hlen : ((buf.drop 0).take 4).length ≤ 4 := List.length_take_le _ _
        have hpow : 256 ^ ((buf.drop 0).take 4).length ≤ 256 ^ 4 :=
          Nat.pow_le_pow_right (by omega) hlen
        omega
      rw [gather_eq_ok (by omega), ok_bind]
      dsimp only
      rw [index_eq_ok (by omega), ok_bind]
      split
      · simp
      · exact listpackLoop_ne_panic (by omega) hsize (by omega) (by omega)

/-! ## Kinds -/

theorem fromUtf8_ne_panic (bs : Bytes) : fromUtf8 bs ≠ .panic := by
  unfold fromUtf8
  split <;> simp

theorem hashOf_ne_panic (items : List Bytes) (map : BTreeMap String Bytes) :
    hashOf items map ≠ .panic := by
  fun_induction hashOf items map with
  | case1 k v rest map ih =>
      rw [Ne, bind_eq_panic_of (fromUtf8_ne_panic k)]
      rintro ⟨field, -, h⟩
      exact ih field h
  | case2 => simp

theorem setOf_ne_panic (items : List Bytes) (set : BTreeSet String) :
    setOf items set ≠ .panic := by
  fun_induction setOf items set with
  | case1 m rest set ih =>
      rw [Ne, bind_eq_panic_of (fromUtf8_ne_panic m)]
      rintro ⟨member, -, h⟩
      exact ih member h
  | case2 => simp

theorem intsetOf_ne_panic {blob : Bytes} {elemSize left i : Nat} {set : BTreeSet String}
    (h : blob.length = 8 + (i + left) * elemSize) : intsetOf blob elemSize left i set ≠ .panic := by
  induction left generalizing i set with
  | zero => simp [intsetOf]
  | succ left ih =>
      have hin : 8 + i * elemSize + elemSize ≤ blob.length := by
        rw [h]
        have hmul : (i + 1) * elemSize ≤ (i + (left + 1)) * elemSize :=
          Nat.mul_le_mul_right elemSize (by omega)
        rw [Nat.add_mul, Nat.one_mul] at hmul
        omega
      rw [intsetOf, gather_eq_ok hin, ok_bind]
      apply ih
      rw [h]
      congr 2
      omega

variable (fo : FloatOps)

theorem readScore_ne_panic (bs : Bytes) : readScore fo bs ≠ .panic := by
  unfold readScore
  rw [Ne, bind_eq_panic_of (fromUtf8_ne_panic bs)]
  rintro ⟨s, -, h⟩
  split at h <;> cases h

theorem zsetOf_ne_panic (items : List Bytes) (map : BTreeMap String F64) :
    zsetOf fo items map ≠ .panic := by
  fun_induction zsetOf fo items map with
  | case1 m s rest map ih =>
      rw [Ne, bind_eq_panic_of (fromUtf8_ne_panic m)]
      rintro ⟨member, -, h⟩
      rw [bind_eq_panic_of (readScore_ne_panic fo s)] at h
      obtain ⟨score, -, h⟩ := h
      exact ih member score h
  | case2 => simp

theorem readOne_eq_panic {r : Reader} {α : Type} {f : Bytes × Reader → Decoded α} (hr : r.Valid)
    (hf : ∀ p, f p ≠ .panic) : (readRdbString r >>= f) = .panic ↔ Overlong r := by
  rw [bind_eq_panic, readRdbString_eq_panic hr]
  constructor
  · rintro (h | ⟨p, -, h⟩)
    · exact h
    · exact absurd h (hf p)
  · exact .inl

theorem readString_eq_panic {r : Reader} (hr : r.Valid) :
    readString r = .panic ↔ Overlong r := by
  unfold readString
  apply readOne_eq_panic hr
  simp

theorem readHash_eq_panic {r : Reader} (hr : r.Valid) : readHash r = .panic ↔ Overlong r := by
  unfold readHash
  apply readOne_eq_panic hr
  rintro ⟨lp, r₁⟩
  dsimp only
  rw [Ne, bind_eq_panic_of (listpackDecode_ne_panic lp)]
  rintro ⟨items, -, h⟩
  split at h
  · cases h
  · rw [bind_eq_panic_of (hashOf_ne_panic items ∅)] at h
    obtain ⟨map, -, h⟩ := h
    cases h

theorem readSetListpack_eq_panic {r : Reader} (hr : r.Valid) :
    readSetListpack r = .panic ↔ Overlong r := by
  unfold readSetListpack
  apply readOne_eq_panic hr
  rintro ⟨lp, r₁⟩
  dsimp only
  rw [Ne, bind_eq_panic_of (listpackDecode_ne_panic lp)]
  rintro ⟨members, -, h⟩
  rw [bind_eq_panic_of (setOf_ne_panic members ∅)] at h
  obtain ⟨set, -, h⟩ := h
  cases h

theorem readZsetListpack_eq_panic {r : Reader} (hr : r.Valid) :
    readZsetListpack fo r = .panic ↔ Overlong r := by
  unfold readZsetListpack
  apply readOne_eq_panic hr
  rintro ⟨lp, r₁⟩
  dsimp only
  rw [Ne, bind_eq_panic_of (listpackDecode_ne_panic lp)]
  rintro ⟨items, -, h⟩
  split at h
  · cases h
  · rw [bind_eq_panic_of (zsetOf_ne_panic fo items ∅)] at h
    obtain ⟨map, -, h⟩ := h
    cases h

theorem readIntset_eq_panic {r : Reader} (hr : r.Valid) :
    readIntset r = .panic ↔ Overlong r := by
  unfold readIntset
  apply readOne_eq_panic hr
  rintro ⟨blob, r₁⟩
  dsimp only
  split
  · simp
  · rw [gather_eq_ok (by omega), ok_bind, gather_eq_ok (by omega), ok_bind]
    split
    · simp
    · rename_i hshape
      rw [not_or, not_not] at hshape
      rw [Ne, bind_eq_panic_of (intsetOf_ne_panic (by rw [Nat.zero_add]; exact hshape.2))]
      rintro ⟨set, -, h⟩
      cases h

theorem readMember_eq_panic {s : BTreeSet String × Reader} (hr : s.2.Valid) :
    readMember s = .panic ↔ Overlong s.2 := by
  unfold readMember
  rw [bind_eq_panic, readRdbString_eq_panic hr]
  constructor
  · rintro (h | ⟨⟨m, r₁⟩, -, h⟩)
    · exact h
    · simp only at h
      rw [bind_eq_panic_of (fromUtf8_ne_panic m)] at h
      obtain ⟨member, -, h⟩ := h
      cases h
  · exact .inl

theorem readMember_valid {s s' : BTreeSet String × Reader} (hr : s.2.Valid)
    (h : readMember s = .ok s') : s'.2.Valid := by
  unfold readMember at h
  obtain ⟨⟨m, r₁⟩, hread, h⟩ := bind_eq_ok.mp h
  obtain ⟨member, -, h⟩ := bind_eq_ok.mp h
  cases h
  exact readRdbString_valid hr hread

theorem readScored_eq_panic {s : BTreeMap String F64 × Reader} (hr : s.2.Valid) :
    readScored s = .panic ↔ Overlong s.2 := by
  unfold readScored
  rw [bind_eq_panic, readRdbString_eq_panic hr]
  constructor
  · rintro (h | ⟨⟨m, r₁⟩, hread, h⟩)
    · exact h
    · have hr₁ := readRdbString_valid hr hread
      simp only at h
      rw [bind_eq_panic_of (fromUtf8_ne_panic m)] at h
      obtain ⟨member, -, h⟩ := h
      exact absurd h (readField_ne_panic hr₁ (Nat.le_refl 8))
  · exact .inl

theorem readScored_valid {s s' : BTreeMap String F64 × Reader} (hr : s.2.Valid)
    (h : readScored s = .ok s') : s'.2.Valid := by
  unfold readScored at h
  obtain ⟨⟨m, r₁⟩, hread, h⟩ := bind_eq_ok.mp h
  obtain ⟨member, -, h⟩ := bind_eq_ok.mp h
  exact readField_valid (readRdbString_valid hr hread) h

/-- A node is read up to its string if its container is one of the known two. -/
theorem readNode_eq_panic {s : List Bytes × Reader} (hr : s.2.Valid) :
    readNode s = .panic ↔ ∃ container r, readRdbLength s.2 = .ok (container, r) ∧
      (container = quicklistNodePacked ∨ container = quicklistNodePlain) ∧ Overlong r := by
  obtain ⟨items, r⟩ := s
  unfold readNode
  simp only at hr ⊢
  rw [bind_eq_panic_of (readRdbLength_ne_panic hr)]
  constructor
  · rintro ⟨⟨container, r₁⟩, hlen, h⟩
    have hr₁ := readRdbLength_valid hr hlen
    refine ⟨container, r₁, hlen, ?_⟩
    simp only at h
    split at h
    · rename_i hpacked
      refine ⟨.inl hpacked, ?_⟩
      rcases bind_eq_panic.mp h with h | ⟨⟨lp, r₂⟩, -, h⟩
      · exact (readRdbString_eq_panic hr₁).mp h
      · simp only at h
        rw [bind_eq_panic_of (listpackDecode_ne_panic lp)] at h
        obtain ⟨entries, -, h⟩ := h
        cases h
    · split at h
      · rename_i hplain
        refine ⟨.inr hplain, ?_⟩
        rcases bind_eq_panic.mp h with h | ⟨⟨item, r₂⟩, -, h⟩
        · exact (readRdbString_eq_panic hr₁).mp h
        · cases h
      · cases h
  · rintro ⟨container, r₁, hlen, hcontainer, hover⟩
    have hr₁ := readRdbLength_valid hr hlen
    have hpanic := (readRdbString_eq_panic hr₁).mpr hover
    refine ⟨(container, r₁), hlen, ?_⟩
    simp only
    rcases hcontainer with rfl | rfl
    · rw [if_pos rfl, hpanic, panic_bind]
    · rw [if_neg (by decide), if_pos rfl, hpanic, panic_bind]

theorem readNode_valid {s s' : List Bytes × Reader} (hr : s.2.Valid)
    (h : readNode s = .ok s') : s'.2.Valid := by
  obtain ⟨items, r⟩ := s
  unfold readNode at h
  obtain ⟨⟨container, r₁⟩, hlen, h⟩ := bind_eq_ok.mp h
  have hr₁ := readRdbLength_valid hr hlen
  simp only at h
  split at h
  · obtain ⟨⟨lp, r₂⟩, hread, h⟩ := bind_eq_ok.mp h
    obtain ⟨entries, -, h⟩ := bind_eq_ok.mp h
    cases h
    exact readRdbString_valid hr₁ hread
  · split at h
    · obtain ⟨⟨item, r₂⟩, hread, h⟩ := bind_eq_ok.mp h
      cases h
      exact readRdbString_valid hr₁ hread
    · cases h

/-! ## Payloads -/

/-- The type bytes whose payload is a single string. -/
def singleStringTypes : List UInt8 :=
  [rdbTypeString, rdbTypeHashListpack, rdbTypeSetListpack, rdbTypeSetIntset, rdbTypeZsetListpack]

/-- The readers at which decoding a body comes to a string header, all that stands
before it having been read without error. -/
inductive ReachesString (body : Bytes) : Reader → Prop
  | single {t r} (htype : (Reader.new body).readU8 = .ok (t, r)) (ht : t ∈ singleStringTypes) :
      ReachesString body r
  | member {r r₁ count i s} (htype : (Reader.new body).readU8 = .ok (rdbTypeSet, r))
      (hcount : readRdbLength r = .ok (count, r₁)) (hi : i < count)
      (hread : times readMember i (∅, r₁) = .ok s) : ReachesString body s.2
  | scored {r r₁ count i s} (htype : (Reader.new body).readU8 = .ok (rdbTypeZset2, r))
      (hcount : readRdbLength r = .ok (count, r₁)) (hi : i < count)
      (hread : times readScored i (∅, r₁) = .ok s) : ReachesString body s.2
  | node {r r₁ count i s container r₂}
      (htype : (Reader.new body).readU8 = .ok (rdbTypeListQuicklist2, r))
      (hcount : readRdbLength r = .ok (count, r₁)) (hi : i < count)
      (hread : times readNode i ([], r₁) = .ok s)
      (hcontainer : readRdbLength s.2 = .ok (container, r₂))
      (hknown : container = quicklistNodePacked ∨ container = quicklistNodePlain) :
      ReachesString body r₂

/-- A counted kind: the count, the rounds, and a total rest. -/
theorem readCounted_eq_panic {σ α : Type} {r : Reader} {body : σ × Reader → Decoded (σ × Reader)}
    {s₀ : σ} {f : σ × Reader → Decoded α} (hr : r.Valid)
    (hvalid : ∀ s s', s.2.Valid → body s = .ok s' → s'.2.Valid) (hf : ∀ p, f p ≠ .panic) :
    (do
      let (count, r) ← readRdbLength r
      let s ← times body count (s₀, r)
      f s) = .panic ↔
    ∃ count r₁ i s, readRdbLength r = .ok (count, r₁) ∧ i < count ∧
      times body i (s₀, r₁) = .ok s ∧ s.2.Valid ∧ body s = .panic := by
  rw [bind_eq_panic_of (readRdbLength_ne_panic hr)]
  constructor
  · rintro ⟨⟨count, r₁⟩, hcount, h⟩
    simp only at h
    rcases bind_eq_panic.mp h with h | ⟨p, -, h⟩
    · obtain ⟨i, hi, s, htimes, hpanic⟩ := times_eq_panic.mp h
      have hs := times_invariant hvalid (readRdbLength_valid hr hcount) htimes
      exact ⟨count, r₁, i, s, hcount, hi, htimes, hs, hpanic⟩
    · exact absurd h (hf p)
  · rintro ⟨count, r₁, i, s, hcount, hi, htimes, -, hpanic⟩
    refine ⟨(count, r₁), hcount, ?_⟩
    have htimes' := times_eq_panic.mpr ⟨i, hi, s, htimes, hpanic⟩
    simp only
    rw [htimes', panic_bind]

theorem readSet_eq_panic {r : Reader} (hr : r.Valid) :
    readSet r = .panic ↔ ∃ count r₁ i s, readRdbLength r = .ok (count, r₁) ∧ i < count ∧
      times readMember i (∅, r₁) = .ok s ∧ s.2.Valid ∧ readMember s = .panic := by
  unfold readSet
  exact readCounted_eq_panic hr (fun _ _ => readMember_valid) (by simp)

theorem readZset2_eq_panic {r : Reader} (hr : r.Valid) :
    readZset2 r = .panic ↔ ∃ count r₁ i s, readRdbLength r = .ok (count, r₁) ∧ i < count ∧
      times readScored i (∅, r₁) = .ok s ∧ s.2.Valid ∧ readScored s = .panic := by
  unfold readZset2
  exact readCounted_eq_panic hr (fun _ _ => readScored_valid) (by simp)

theorem readList_eq_panic {r : Reader} (hr : r.Valid) :
    readList r = .panic ↔ ∃ count r₁ i s, readRdbLength r = .ok (count, r₁) ∧ i < count ∧
      times readNode i ([], r₁) = .ok s ∧ s.2.Valid ∧ readNode s = .panic := by
  unfold readList
  exact readCounted_eq_panic hr (fun _ _ => readNode_valid) (by simp)

section Reaches

variable {body : Bytes} {t t' : UInt8} {r r' : Reader}

theorem readU8_det (h : (Reader.new body).readU8 = .ok (t, r))
    (h' : (Reader.new body).readU8 = .ok (t', r')) : t' = t ∧ r' = r := by
  rw [h, Outcome.ok.injEq, Prod.mk.injEq] at h'
  exact ⟨h'.1.symm, h'.2.symm⟩

theorem ReachesString.type_cases (htype : (Reader.new body).readU8 = .ok (t, r))
    (h : ReachesString body r') :
    (t ∈ singleStringTypes ∧ r' = r) ∨
    (t = rdbTypeSet ∧ ∃ count r₁ i s, readRdbLength r = .ok (count, r₁) ∧ i < count ∧
      times readMember i (∅, r₁) = .ok s ∧ r' = s.2) ∨
    (t = rdbTypeZset2 ∧ ∃ count r₁ i s, readRdbLength r = .ok (count, r₁) ∧ i < count ∧
      times readScored i (∅, r₁) = .ok s ∧ r' = s.2) ∨
    (t = rdbTypeListQuicklist2 ∧ ∃ count r₁ i s container, readRdbLength r = .ok (count, r₁) ∧
      i < count ∧ times readNode i ([], r₁) = .ok s ∧ readRdbLength s.2 = .ok (container, r') ∧
      (container = quicklistNodePacked ∨ container = quicklistNodePlain)) := by
  cases h with
  | single htype' ht =>
      obtain ⟨rfl, rfl⟩ := readU8_det htype htype'
      exact .inl ⟨ht, rfl⟩
  | member htype' hcount hi hread =>
      obtain ⟨rfl, rfl⟩ := readU8_det htype htype'
      exact .inr (.inl ⟨rfl, _, _, _, _, hcount, hi, hread, rfl⟩)
  | scored htype' hcount hi hread =>
      obtain ⟨rfl, rfl⟩ := readU8_det htype htype'
      exact .inr (.inr (.inl ⟨rfl, _, _, _, _, hcount, hi, hread, rfl⟩))
  | node htype' hcount hi hread hcontainer hknown =>
      obtain ⟨rfl, rfl⟩ := readU8_det htype htype'
      exact .inr (.inr (.inr ⟨rfl, _, _, _, _, _, hcount, hi, hread, hcontainer, hknown⟩))

theorem readKind_single (ht : t ∈ singleStringTypes) (hr : r.Valid) :
    readKind fo t r = .panic ↔ Overlong r := by
  simp only [singleStringTypes, List.mem_cons, List.not_mem_nil, or_false] at ht
  rcases ht with rfl | rfl | rfl | rfl | rfl
  · exact readString_eq_panic hr
  · exact readHash_eq_panic hr
  · exact readSetListpack_eq_panic hr
  · exact readIntset_eq_panic hr
  · exact readZsetListpack_eq_panic fo hr

theorem readKind_other (ht : t ∉ singleStringTypes) (hset : t ≠ rdbTypeSet)
    (hzset : t ≠ rdbTypeZset2) (hlist : t ≠ rdbTypeListQuicklist2) :
    readKind fo t r ≠ .panic := by
  simp only [singleStringTypes, List.mem_cons, List.not_mem_nil, or_false, not_or] at ht
  obtain ⟨h₁, h₂, h₃, h₄, h₅⟩ := ht
  unfold readKind
  rw [if_neg h₁, if_neg h₂, if_neg hlist, if_neg h₃, if_neg hset, if_neg h₄, if_neg h₅,
    if_neg hzset]
  split <;> simp

theorem readKind_eq_panic (htype : (Reader.new body).readU8 = .ok (t, r)) (hr : r.Valid) :
    readKind fo t r = .panic ↔ ∃ r', ReachesString body r' ∧ Overlong r' := by
  constructor
  · intro h
    by_cases hsingle : t ∈ singleStringTypes
    · exact ⟨r, .single htype hsingle, (readKind_single fo hsingle hr).mp h⟩
    by_cases hset : t = rdbTypeSet
    · subst hset
      obtain ⟨count, r₁, i, s, hcount, hi, hread, hs, hpanic⟩ := (readSet_eq_panic hr).mp h
      exact ⟨s.2, .member htype hcount hi hread, (readMember_eq_panic hs).mp hpanic⟩
    by_cases hzset : t = rdbTypeZset2
    · subst hzset
      obtain ⟨count, r₁, i, s, hcount, hi, hread, hs, hpanic⟩ := (readZset2_eq_panic hr).mp h
      exact ⟨s.2, .scored htype hcount hi hread, (readScored_eq_panic hs).mp hpanic⟩
    by_cases hlist : t = rdbTypeListQuicklist2
    · subst hlist
      obtain ⟨count, r₁, i, s, hcount, hi, hread, hs, hpanic⟩ := (readList_eq_panic hr).mp h
      obtain ⟨container, r₂, hlen, hknown, hover⟩ := (readNode_eq_panic hs).mp hpanic
      exact ⟨r₂, .node htype hcount hi hread hlen hknown, hover⟩
    · exact absurd h (readKind_other fo hsingle hset hzset hlist)
  · rintro ⟨r', hreach, hover⟩
    rcases hreach.type_cases htype with ⟨ht, rfl⟩ |
      ⟨rfl, count, r₁, i, s, hcount, hi, hread, rfl⟩ |
      ⟨rfl, count, r₁, i, s, hcount, hi, hread, rfl⟩ |
      ⟨rfl, count, r₁, i, s, container, hcount, hi, hread, hlen, hknown⟩
    · exact (readKind_single fo ht hr).mpr hover
    · have hs : s.2.Valid := times_invariant (fun _ _ => readMember_valid)
        (readRdbLength_valid hr hcount) hread
      exact (readSet_eq_panic hr).mpr ⟨count, r₁, i, s, hcount, hi, hread, hs,
        (readMember_eq_panic hs).mpr hover⟩
    · have hs : s.2.Valid := times_invariant (fun _ _ => readScored_valid)
        (readRdbLength_valid hr hcount) hread
      exact (readZset2_eq_panic hr).mpr ⟨count, r₁, i, s, hcount, hi, hread, hs,
        (readScored_eq_panic hs).mpr hover⟩
    · have hs : s.2.Valid := times_invariant (fun _ _ => readNode_valid)
        (readRdbLength_valid hr hcount) hread
      exact (readList_eq_panic hr).mpr ⟨count, r₁, i, s, hcount, hi, hread, hs,
        (readNode_eq_panic hs).mpr ⟨container, r', hlen, hknown, hover⟩⟩

end Reaches

theorem readBody_eq_panic {body : Bytes} (hfits : body.length ≤ isizeMax) :
    readBody fo body = .panic ↔ ∃ r, ReachesString body r ∧ Overlong r := by
  have hnew : (Reader.new body).Valid := ⟨Nat.zero_le _, hfits⟩
  unfold readBody
  rw [bind_eq_panic_of (Reader.readU8_ne_panic hnew)]
  constructor
  · rintro ⟨⟨t, r⟩, htype, h⟩
    exact (readKind_eq_panic fo htype (Reader.readU8_valid hnew htype)).mp h
  · rintro ⟨r', hreach, hover⟩
    have htype : ∃ t r, (Reader.new body).readU8 = .ok (t, r) := by
      cases hreach with
      | single htype _ => exact ⟨_, _, htype⟩
      | member htype _ _ _ => exact ⟨_, _, htype⟩
      | scored htype _ _ _ => exact ⟨_, _, htype⟩
      | node htype _ _ _ _ _ => exact ⟨_, _, htype⟩
    obtain ⟨t, r, htype⟩ := htype
    exact ⟨(t, r), htype, (readKind_eq_panic fo htype (Reader.readU8_valid hnew htype)).mpr
      ⟨r', hreach, hover⟩⟩

/-- `&[u8]`; no slice is longer than `isize::MAX`. -/
structure ByteSlice where
  bytes : Bytes
  fits : bytes.length ≤ isizeMax

/-- A payload without its trailer. -/
def bodyOf (payload : Bytes) : Bytes := payload.take (payload.length - 10)

/-- The version tag and the checksum of a payload. -/
def trailerOf (payload : Bytes) : Bytes := payload.drop (payload.length - 10)

/-- The trailer is there, its version is known and its checksum is right. -/
structure Sealed (payload : Bytes) : Prop where
  length : 10 ≤ payload.length
  version : leNat ((trailerOf payload).take 2) ≤ rdbMaxAcceptVersion
  crc : leNat ((trailerOf payload).drop 2) =
    (crc64 0 (bodyOf payload ++ (trailerOf payload).take 2)).toNat

theorem restoreValue_eq {payload : Bytes} (hlen : 10 ≤ payload.length) :
    restoreValue fo payload =
      if rdbMaxAcceptVersion < leNat ((trailerOf payload).take 2) then .err badPayload
      else if leNat ((trailerOf payload).drop 2) ≠
          (crc64 0 (bodyOf payload ++ (trailerOf payload).take 2)).toNat then .err badPayload
      else readBody fo (bodyOf payload) := by
  have htrailer : (trailerOf payload).length = 10 := by
    rw [trailerOf, List.length_drop]
    omega
  have htake : ((trailerOf payload).drop 2).take 8 = (trailerOf payload).drop 2 := by
    apply List.take_of_length_le
    rw [List.length_drop]
    omega
  unfold restoreValue
  rw [if_neg (by omega)]
  change (do
    let version ← gather (trailerOf payload) 0 2
    let gotCrc ← gather (trailerOf payload) 2 8
    if rdbMaxAcceptVersion < leNat version then .err badPayload
    else do
      let tag ← slice (trailerOf payload) 0 2
      if leNat gotCrc ≠ (crc64 0 (bodyOf payload ++ tag)).toNat then .err badPayload
      else readBody fo (bodyOf payload)) = _
  rw [gather_eq_ok (by omega), ok_bind, gather_eq_ok (by omega), ok_bind,
    slice_eq_ok (by omega) (by omega), ok_bind, htake]
  rfl

/-- `restore_value` decodes the body of a sealed payload and refuses any other. -/
theorem restoreValue_of_sealed {payload : Bytes} (h : Sealed payload) :
    restoreValue fo payload = readBody fo (bodyOf payload) := by
  rw [restoreValue_eq fo h.length, if_neg (Nat.not_lt.mpr h.version), if_neg (not_not.mpr h.crc)]

theorem restoreValue_of_not_sealed {payload : Bytes} (h : ¬ Sealed payload) :
    restoreValue fo payload = .err badPayload := by
  by_cases hlen : 10 ≤ payload.length
  · rw [restoreValue_eq fo hlen]
    split
    · rfl
    · rename_i hversion
      rw [if_pos]
      intro hcrc
      exact h ⟨hlen, Nat.not_lt.mp hversion, hcrc⟩
  · unfold restoreValue
    rw [if_pos (by omega)]

/-- On a payload, `restore_value` returns `Ok` or `Err` unless the payload is sealed
and decoding it comes to a string header that declares an overlong string. -/
theorem restoreValue_returns_iff (payload : ByteSlice) :
    ((∃ v, restoreValue fo payload.bytes = .ok v) ∨ ∃ e, restoreValue fo payload.bytes = .err e) ↔
      ¬ (Sealed payload.bytes ∧
        ∃ r, ReachesString (bodyOf payload.bytes) r ∧ Overlong r) := by
  have hreturns : ((∃ v, restoreValue fo payload.bytes = .ok v) ∨
      ∃ e, restoreValue fo payload.bytes = .err e) ↔
        restoreValue fo payload.bytes ≠ .panic := by
    cases restoreValue fo payload.bytes <;> simp
  rw [hreturns, Ne, not_iff_not]
  by_cases hsealed : Sealed payload.bytes
  · have hfits : (bodyOf payload.bytes).length ≤ isizeMax :=
      (List.length_take_le' _ _).trans payload.fits
    rw [restoreValue_of_sealed fo hsealed, readBody_eq_panic fo hfits]
    simp [hsealed]
  · simp [restoreValue_of_not_sealed fo hsealed, hsealed]

/-- A string that declares `u64::MAX` bytes, with the right version and checksum. -/
def hostilePayload : ByteSlice where
  bytes := [0, 0x81, 255, 255, 255, 255, 255, 255, 255, 255,
    11, 0, 142, 51, 220, 175, 203, 133, 246, 222]
  fits := by decide

theorem restoreValue_fails_to_return_on_hostilePayload :
    ¬ ((∃ v, restoreValue .integral hostilePayload.bytes = .ok v) ∨
      ∃ e, restoreValue .integral hostilePayload.bytes = .err e) := by
  have hpanic : restoreValue .integral hostilePayload.bytes = .panic := by decide +kernel
  rw [hpanic]
  simp

end RustyAnt.Rdb
