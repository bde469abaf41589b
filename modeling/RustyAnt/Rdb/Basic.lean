import RustyAnt.Lib.Endian
import RustyAnt.Lib.Outcome
import RustyAnt.Storage.Strings

/-!
# RDB primitives

Lengths, strings, checksums and doubles of the `DUMP` payload format, from
`src/rdb.rs`.  Shifts and masks are written as `/` and `%` by powers of two, and an
`or` of disjoint bits as a sum.
-/

namespace RustyAnt.Rdb

open Lib Lib.Outcome Lib.Endian Storage

/-- What a decoder returns. -/
abbrev Decoded (α : Type) := Outcome RustyAntError α

def rdbVersion : Nat := 11
def rdbMaxAcceptVersion : Nat := 12

def badPayload : RustyAntError := .parse "DUMP payload version or checksum are wrong"

/-! ## Small byte reader -/

structure Reader where
  buf : Bytes
  pos : Nat

namespace Reader

def new (buf : Bytes) : Reader := ⟨buf, 0⟩

def readU8 (r : Reader) : Decoded (UInt8 × Reader) :=
  if r.buf.length ≤ r.pos then .err badPayload
  else do
    let b ← index r.buf r.pos
    let pos ← add r.pos 1
    return (b, { r with pos := pos })

def readSlice (r : Reader) (n : Nat) : Decoded (Bytes × Reader) := do
  let stop ← add r.pos n
  if r.buf.length < stop then .err badPayload
  else do
    let s ← slice r.buf r.pos stop
    return (s, { r with pos := stop })

end Reader

/-! ## Lengths -/

def writeRdbLength (n : Nat) : Bytes :=
  if n < 2 ^ 6 then [UInt8.ofNat n]
  else if n < 2 ^ 14 then [UInt8.ofNat (0x40 + n / 256 % 64), UInt8.ofNat (n % 256)]
  else if n < 2 ^ 32 then 0x80 :: beBytes 4 n
  else 0x81 :: beBytes 8 n

/-- The forms behind the prefix `10`. -/
def readWideLength (b : UInt8) (r : Reader) : Decoded (Nat × Reader) :=
  if b = 0x80 then do
    let (bs, r) ← r.readSlice 4
    let word ← gather bs 0 4
    return (beNat word, r)
  else if b = 0x81 then do
    let (bs, r) ← r.readSlice 8
    let word ← gather bs 0 8
    return (beNat word, r)
  else .err badPayload

def readRdbLength (r : Reader) : Decoded (Nat × Reader) := do
  let (b, r) ← r.readU8
  match b.toNat / 64 with
  | 0 => return (b.toNat % 64, r)
  | 1 => do
      let (b2, r) ← r.readU8
      return (b.toNat % 64 * 256 + b2.toNat, r)
  | 2 => readWideLength b r
  | _ => .err badPayload

/-- A length, or the marker of an integer-encoded or LZF-compressed string. -/
inductive RdbStrLen where
  | normal (n : Nat)
  | intStr (n : Int)
  | lzf

/-- The forms behind the prefix `11`. -/
def readSpecialLen (b : UInt8) (r : Reader) : Decoded (RdbStrLen × Reader) :=
  if b = 0xc0 then do
    let (n, r) ← r.readU8
    return (.intStr (signed 8 n.toNat), r)
  else if b = 0xc1 then do
    let (bs, r) ← r.readSlice 2
    let word ← gather bs 0 2
    return (.intStr (signed 16 (leNat word)), r)
  else if b = 0xc2 then do
    let (bs, r) ← r.readSlice 4
    let word ← gather bs 0 4
    return (.intStr (signed 32 (leNat word)), r)
  else if b = 0xc3 then return (.lzf, r)
  else .err badPayload

def readRdbStrLen (r : Reader) : Decoded (RdbStrLen × Reader) := do
  let (b, r) ← r.readU8
  match b.toNat / 64 with
  | 0 => return (.normal (b.toNat % 64), r)
  | 1 => do
      let (b2, r) ← r.readU8
      return (.normal (b.toNat % 64 * 256 + b2.toNat), r)
  | 2 => do
      let (n, r) ← readWideLength b r
      return (.normal n, r)
  | _ => readSpecialLen b r

/-! ## LZF decompression -/

/-- Length of a back-reference run and the position behind it. -/
def lzfRunLen (input : Bytes) (ctrl : UInt8) (p : Nat) : Decoded (Nat × Nat) :=
  if ctrl.toNat / 32 = 7 then
    if input.length ≤ p then .err badPayload
    else do
      let b ← index input p
      let next ← add p 1
      return (7 + b.toNat + 2, next)
  else return (ctrl.toNat / 32 + 2, p)

/-- The run may overlap the current tail, so it is copied byte by byte. -/
def lzfCopy : (start runLen : Nat) → Bytes → Decoded Bytes
  | _, 0, out => return out
  | start, n + 1, out => do
      let b ← index out start
      lzfCopy (start + 1) n (out ++ [b])

/-- One control byte with what it announces. -/
def lzfStep (input : Bytes) (p : Nat) (out : Bytes) : Decoded (Nat × Bytes) := do
  let ctrl ← index input p
  let p ← add p 1
  if ctrl.toNat < 32 then do
    let stop ← add p (ctrl.toNat + 1)
    if input.length < stop then .err badPayload
    else do
      let literals ← slice input p stop
      return (stop, out ++ literals)
  else do
    let (runLen, p) ← lzfRunLen input ctrl p
    if input.length ≤ p then .err badPayload
    else do
      let b ← index input p
      let next ← add p 1
      let refOff := ctrl.toNat % 32 * 256 + b.toNat
      if out.length < refOff + 1 then .err badPayload
      else do
        let out ← lzfCopy (out.length - refOff - 1) runLen out
        return (next, out)

/-- The loop over control bytes; running out of `fuel` would be a loop that does
not end. -/
def lzfLoop (input : Bytes) : (fuel p : Nat) → Bytes → Decoded Bytes
  | 0, p, out => if p < input.length then .panic else return out
  | fuel + 1, p, out =>
      if input.length ≤ p then return out
      else do
        let (p, out) ← lzfStep input p out
        lzfLoop input fuel p out

def lzfDecompress (input : Bytes) (uncompressedLen : Nat) : Decoded Bytes := do
  withCapacity uncompressedLen
  let out ← lzfLoop input input.length 0 []
  if out.length ≠ uncompressedLen then .err badPayload else return out

/-! ## Strings -/

/-- A decimal integer that would be written back the same. -/
def tryParseAsciiInt (data : Bytes) : Option Int :=
  if data.isEmpty || 20 < data.length then none
  else (parseI64 data).filter fun n => Decimal.intBytes n = data

/-- `iW::try_from(n).is_ok()`. -/
def fitsBits (w : Nat) (n : Int) : Bool := decide (-2 ^ (w - 1) ≤ n ∧ n < 2 ^ (w - 1))

def writeRawString (data : Bytes) : Bytes := writeRdbLength data.length ++ data

def writeRdbString (data : Bytes) : Bytes :=
  match tryParseAsciiInt data with
  | none => writeRawString data
  | some n =>
      if fitsBits 8 n then 0xc0 :: leBytes 1 (wrapBits 8 n)
      else if fitsBits 16 n then 0xc1 :: leBytes 2 (wrapBits 16 n)
      else if fitsBits 32 n then 0xc2 :: leBytes 4 (wrapBits 32 n)
      else writeRawString data

def readLzfString (r : Reader) : Decoded (Bytes × Reader) := do
  let (compressedLen, r) ← readRdbLength r
  let (uncompressedLen, r) ← readRdbLength r
  let (compressed, r) ← r.readSlice compressedLen
  let data ← lzfDecompress compressed uncompressedLen
  return (data, r)

def readRdbString (r : Reader) : Decoded (Bytes × Reader) := do
  let (len, r) ← readRdbStrLen r
  match len with
  | .normal n => r.readSlice n
  | .intStr n => return (Decimal.intBytes n, r)
  | .lzf => readLzfString r

/-! ## CRC64-Jones -/

def crc64ReflectedPoly : UInt64 := 0x95ac9329ac4bc9b5

/-- One of the eight shifts that make a table entry. -/
def crc64Shift (c : UInt64) : UInt64 :=
  if c &&& 1 ≠ 0 then (c >>> 1) ^^^ crc64ReflectedPoly else c >>> 1

/-- Entry `i` of the table. -/
def crc64Table (i : UInt64) : UInt64 := Nat.iterate crc64Shift 8 i

def crc64 (seed : UInt64) (data : Bytes) : UInt64 :=
  data.foldl (fun crc b => crc64Table ((crc ^^^ b.toUInt64) &&& 0xff) ^^^ (crc >>> 8)) seed

/-! ## Doubles -/

/-- `"inf"` -/
def infText : Bytes := [105, 110, 102]

/-- `"nan"` -/
def nanText : Bytes := [110, 97, 110]

section Double

variable (fo : FloatOps)

def formatRdbDouble (s : F64) : Bytes :=
  if s.isNan then nanText
  else if s.isInfinite then if F64.lt .zero s then infText else 45 :: infText
  else if s.isIntegral && s.absBelowExact then Decimal.intBytes s.toInt
  else fo.display s

def parseRdbDouble (s : Bytes) : Result F64 :=
  if s = infText ∨ s = 43 :: infText then .ok .infinity
  else if s = 45 :: infText then .ok .negInfinity
  else if s = nanText then .ok .nan
  else
    match fo.parse s with
    | some x => .ok x
    | none => .error badPayload

end Double

end RustyAnt.Rdb
