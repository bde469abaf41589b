import RustyAnt.Rdb.Basic

/-!
# Listpacks

The encoder and decoder of `src/rdb.rs` for

    totlen (u32) | numlen (u16) | entry_1 | .. | entry_n | 0xff

where each entry is an encoding byte, its content and the length of both, once
more, for reading backwards.
-/

namespace RustyAnt.Rdb

open Lib Lib.Outcome Lib.Endian

/-! ## Encoder -/

def listpackBegin (numElements : Nat) : Bytes :=
  [0, 0, 0, 0] ++ leBytes 2 (min numElements 65535)

def listpackFinish (buf : Bytes) : Bytes :=
  let buf := buf ++ [0xff]
  leBytes 4 buf.length ++ buf.drop 4

/-- The integer encodings, with the length `append_backlen` is told. -/
def listpackIntEntry (n : Int) : Bytes × Nat :=
  if 0 ≤ n ∧ n ≤ 127 then ([UInt8.ofNat n.toNat], 1)
  else if -4096 ≤ n ∧ n ≤ 4095 then
    ([UInt8.ofNat (0xc0 + wrapBits 13 n / 256), UInt8.ofNat (wrapBits 13 n % 256)], 2)
  else if -32768 ≤ n ∧ n ≤ 32767 then (0xf1 :: leBytes 2 (wrapBits 16 n), 3)
  else if -8388608 ≤ n ∧ n ≤ 8388607 then (0xf2 :: leBytes 3 (wrapBits 24 n), 4)
  else if -2147483648 ≤ n ∧ n ≤ 2147483647 then (0xf3 :: leBytes 4 (wrapBits 32 n), 5)
  else (0xf4 :: leBytes 8 (wrapBits 64 n), 9)

/-- The string encodings. -/
def listpackStrEntry (data : Bytes) : Bytes × Nat :=
  let len := data.length
  if len ≤ 63 then (UInt8.ofNat (0x80 + len) :: data, 1 + len)
  else if len < 4096 then
    (UInt8.ofNat (0xe0 + len / 256 % 16) :: UInt8.ofNat (len % 256) :: data, 2 + len)
  else (0xf0 :: (beBytes 4 len ++ data), 5 + len)

def listpackEntry (data : Bytes) : Bytes × Nat :=
  match tryParseAsciiInt data with
  | some n => listpackIntEntry n
  | none => listpackStrEntry data

/-- One of the low seven-bit groups of a back length. -/
def backlenGroup (l i : Nat) : UInt8 := UInt8.ofNat (l / 2 ^ (7 * i) % 128 + 128)

/-- The bytes of `append_backlen`. -/
def backlen (l : Nat) : Bytes :=
  if l ≤ 127 then [UInt8.ofNat l]
  else if l < 16383 then [UInt8.ofNat (l / 2 ^ 7), backlenGroup l 0]
  else if l < 2097151 then [UInt8.ofNat (l / 2 ^ 14), backlenGroup l 1, backlenGroup l 0]
  else if l < 268435455 then
    [UInt8.ofNat (l / 2 ^ 21), backlenGroup l 2, backlenGroup l 1, backlenGroup l 0]
  else
    [UInt8.ofNat (l / 2 ^ 28), backlenGroup l 3, backlenGroup l 2, backlenGroup l 1,
      backlenGroup l 0]

/-- An entry with its back length. -/
def listpackEncode (data : Bytes) : Bytes :=
  (listpackEntry data).1 ++ backlen (listpackEntry data).2

def listpackAppendString (buf data : Bytes) : Bytes := buf ++ listpackEncode data

/-- `begin`, one `append_string` for each item, `finish`. -/
def listpackOf (items : List Bytes) : Bytes :=
  listpackFinish (items.foldl listpackAppendString (listpackBegin items.length))

/-! ## Decoder -/

def backlenBytes (entryLen : Nat) : Nat :=
  if entryLen ≤ 127 then 1
  else if entryLen < 16383 then 2
  else if entryLen < 2097151 then 3
  else if entryLen < 268435455 then 4
  else 5

/-- An integer entry of `k` bytes behind its encoding byte. -/
def listpackReadInt (buf : Bytes) (k : Nat) : Decoded (Bytes × Nat) :=
  if buf.length < 1 + k then .err badPayload
  else do
    let word ← gather buf 1 k
    return (Decimal.intBytes (signed (8 * k) (leNat word)), 1 + k)

/-- A string entry of `len` bytes behind `hdr` bytes of header. -/
def listpackReadStr (buf : Bytes) (hdr len : Nat) : Decoded (Bytes × Nat) :=
  if buf.length < hdr + len then .err badPayload
  else do
    let data ← slice buf hdr (hdr + len)
    return (data, hdr + len)

/-- An entry without its back length, by its encoding byte. -/
def listpackContent (buf : Bytes) (b0 : UInt8) : Decoded (Bytes × Nat) :=
  if b0 < 0x80 then return (Decimal.intBytes b0.toNat, 1)
  else if b0 < 0xc0 then listpackReadStr buf 1 (b0.toNat % 64)
  else if b0 < 0xe0 then
    if buf.length < 2 then .err badPayload
    else do
      let b1 ← index buf 1
      return (Decimal.intBytes (signed 13 (b0.toNat % 32 * 256 + b1.toNat)), 2)
  else if b0 = 0xf1 then listpackReadInt buf 2
  else if b0 = 0xf2 then listpackReadInt buf 3
  else if b0 = 0xf3 then listpackReadInt buf 4
  else if b0 = 0xf4 then listpackReadInt buf 8
  else if b0 = 0xf0 then
    if buf.length < 5 then .err badPayload
    else do
      let word ← gather buf 1 4
      listpackReadStr buf 5 (beNat word)
  else if b0 < 0xf0 then
    if buf.length < 2 then .err badPayload
    else do
      let b1 ← index buf 1
      listpackReadStr buf 2 (b0.toNat % 16 * 256 + b1.toNat)
  else .err badPayload

def listpackReadEntry (buf : Bytes) : Decoded (Bytes × Nat) :=
  if buf.isEmpty then .err badPayload
  else do
    let b0 ← index buf 0
    let (bytes, entryLen) ← listpackContent buf b0
    let total := entryLen + backlenBytes entryLen
    if buf.length < total then .err badPayload else return (bytes, total)

/-- The loop over the entries before position `stop`; running out of `fuel` would
be a loop that does not end. -/
def listpackLoop (buf : Bytes) (stop : Nat) : (fuel p : Nat) → List Bytes → Decoded (List Bytes)
  | 0, _, _ => .panic
  | fuel + 1, p, out =>
      if p < stop then do
        let rest ← slice buf p stop
        let (entry, consumed) ← listpackReadEntry rest
        let p ← add p consumed
        listpackLoop buf stop fuel p (out ++ [entry])
      else if p ≠ stop then .err badPayload
      else return out

def listpackDecode (buf : Bytes) : Decoded (List Bytes) :=
  if buf.length < 7 then .err badPayload
  else do
    let totlen ← gather buf 0 4
    if leNat totlen ≠ buf.length then .err badPayload
    else do
      let _ ← gather buf 4 2
      let stop := buf.length - 1
      let last ← index buf stop
      if last ≠ 0xff then .err badPayload
      else listpackLoop buf stop buf.length 6 []

end RustyAnt.Rdb
