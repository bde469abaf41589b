import RustyAnt.Storage.Value

/-!
# HyperLogLog

`src/hll.rs`: the dense encoding, 16384 registers of six bits behind a 16-byte
header.
-/

namespace RustyAnt.Hll

def registerCount : Nat := 16384
def headerBytes : Nat := 16
def denseBytes : Nat := headerBytes + 12288
def magic : Bytes := [0x48, 0x59, 0x4c, 0x4c]
def murmurSeed : UInt64 := 0xadc83b19

def isHll (data : Bytes) : Bool :=
  decide (data.length = denseBytes) && data.take 4 == magic && data.getD 4 0 == 0

def emptyDense : Bytes := magic ++ List.replicate (denseBytes - 4) 0

/-! ## MurmurHash64A -/

def murmurM : UInt64 := 0xc6a4a7935bd1e995

/-- One 8-byte chunk, read little-endian, mixed into the state. -/
def murmurMix (h : UInt64) (chunk : List UInt8) : UInt64 :=
  let k : UInt64 := chunk.foldr (fun b acc => acc <<< 8 ||| b.toUInt64) 0
  let k := k * murmurM
  let k := k ^^^ (k >>> 47)
  let k := k * murmurM
  (h ^^^ k) * murmurM

/-- The up to seven bytes left over, from the last to the first. -/
def murmurTail (h : UInt64) (tail : List UInt8) : UInt64 :=
  tail.zipIdx.foldr (fun (b, i) h =>
    let h := h ^^^ (b.toUInt64 <<< UInt64.ofNat (8 * i))
    if i = 0 then h * murmurM else h) h

def murmurBody (h : UInt64) : List UInt8 → UInt64
  | b₀ :: b₁ :: b₂ :: b₃ :: b₄ :: b₅ :: b₆ :: b₇ :: rest =>
      murmurBody (murmurMix h [b₀, b₁, b₂, b₃, b₄, b₅, b₆, b₇]) rest
  | tail => murmurTail h tail

def murmur64a (data : Bytes) (seed : UInt64) : UInt64 :=
  let h := murmurBody (seed ^^^ (UInt64.ofNat data.length * murmurM)) data
  let h := (h ^^^ (h >>> 47)) * murmurM
  h ^^^ (h >>> 47)

/-! ## Registers -/

/-- Number of trailing zero bits, looking at `fuel` of them. -/
def trailingZeros (x : UInt64) : Nat → Nat
  | 0 => 0
  | fuel + 1 => if x &&& 1 = 1 then 0 else trailingZeros (x >>> 1) fuel + 1

/-- Bucket and register value of an element. -/
def hashElement (element : Bytes) : Nat × UInt8 :=
  let h := murmur64a element murmurSeed
  let bucket := h.toNat % registerCount
  let rest := h >>> 14
  let count := if rest = 0 then 51 else trailingZeros rest 64 + 1
  (bucket, UInt8.ofNat (min count 51))

def readRegister (registers : Bytes) (idx : Nat) : UInt8 :=
  let byte := idx * 6 / 8
  let shift := idx * 6 % 8
  let combined := (registers.getD byte 0).toNat + 256 * (registers.getD (byte + 1) 0).toNat
  UInt8.ofNat (combined / 2 ^ shift % 64)

def writeRegister (registers : Bytes) (idx : Nat) (value : UInt8) : Bytes :=
  let byte := idx * 6 / 8
  let shift := UInt32.ofNat (idx * 6 % 8)
  let mask : UInt32 := 0x3f <<< shift
  let val : UInt32 := (value &&& 0x3f).toUInt32 <<< shift
  let combined := (registers.getD byte 0).toUInt32 ||| ((registers.getD (byte + 1) 0).toUInt32 <<< 8)
  let combined := (combined &&& ~~~mask) ||| val
  let registers := registers.set byte combined.toUInt8
  if byte + 1 < registers.length then registers.set (byte + 1) (combined >>> 8).toUInt8
  else registers

/-- The register part of a blob replaced. -/
def onRegisters (buf : Bytes) (f : Bytes → Bytes) : Bytes :=
  buf.take headerBytes ++ f (buf.drop headerBytes)

def invalidateCache (buf : Bytes) : Bytes := buf.set 15 (buf.getD 15 0 ||| 0x80)

def notHll : RustyAntError := .parse "key is not a valid HyperLogLog string"

def add (buf : Bytes) (element : Bytes) : Result (Bytes × Bool) :=
  if isHll buf then
    let (bucket, value) := hashElement element
    if readRegister (buf.drop headerBytes) bucket < value then
      .ok (invalidateCache (onRegisters buf (writeRegister · bucket value)), true)
    else .ok (buf, false)
  else .error notHll

/-- One register of `merge_into`: the larger of the two is kept. -/
def mergeRegister (src : Bytes) (acc : Bytes × Bool) (i : Nat) : Bytes × Bool :=
  let s := readRegister (src.drop headerBytes) i
  let d := readRegister (acc.1.drop headerBytes) i
  if d < s then (onRegisters acc.1 (writeRegister · i s), true) else acc

def mergeInto (dest src : Bytes) : Result Bytes :=
  if isHll dest && isHll src then
    let (merged, changed) := (List.range registerCount).foldl (mergeRegister src) (dest, false)
    .ok (if changed then invalidateCache merged else merged)
  else .error notHll

section Estimate

variable (fo : FloatOps)

/-- Sum of `2^-r` over the registers and the number of zero registers. -/
def registerSums (registers : Bytes) : F64 × Nat :=
  (List.range registerCount).foldl (fun (sum, zeros) i =>
    let r := readRegister registers i
    (fo.add sum (.powNeg r), if r = 0 then zeros + 1 else zeros)) (.zero, 0)

def estimateFromRegisters (registers : Bytes) : UInt64 :=
  let m : F64 := ⟨0x40d0000000000000⟩
  let alpha := fo.div ⟨0x3fe714e3bcd35a86⟩ (fo.add .one (fo.div ⟨0x3ff14395810624dd⟩ m))
  let (sum, zeros) := registerSums fo registers
  let raw := fo.div (fo.mul (fo.mul alpha m) m) sum
  let two32 : F64 := ⟨0x41f0000000000000⟩
  let e :=
    if raw.le (fo.mul ⟨0x4004000000000000⟩ m) && 0 < zeros then
      fo.mul m (fo.ln (fo.div m (fo.ofU64 (UInt64.ofNat zeros))))
    else if (fo.div two32 ⟨0x403e000000000000⟩).lt raw then
      fo.mul two32.neg (fo.ln (fo.sub .one (fo.div raw two32)))
    else raw
  fo.roundU64 e

def count (buf : Bytes) : Result UInt64 :=
  if isHll buf then .ok (estimateFromRegisters fo (buf.drop headerBytes)) else .error notHll

end Estimate

end RustyAnt.Hll
