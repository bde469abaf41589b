import RustyAnt.Lib.Decimal
import RustyAnt.Storage.Hll
import RustyAnt.Storage.View

/-!
# String operations

The `Storage` methods on the `String` variant: plain values, counters, ranges,
bits and HyperLogLog.
-/

namespace RustyAnt

open Lib

inductive GetExOp where
  | leave
  | setExpireAtMs (t : Int)
  | persist

namespace Storage

/-! ## Plain values -/

def getString (key : String) : KV (Option Bytes) :=
  View.string.read key none some

def getStringWithTtl (key : String) (op : GetExOp) : KV (Option Bytes) :=
  match op with
  | .leave => getString key
  | .setExpireAtMs t => cas key (modify (some t))
  | .persist => cas key (modify none)
where
  modify (newExpiresAt : Option Int) (entry : Option StoredValue) :
      Result (CasAction (Option Bytes)) := do
    match ← View.string.find key entry with
    | none => return .noOp none
    | some (data, _) => return View.string.write newExpiresAt data (some data)

def setString (key : String) (value : Bytes) (expiresAtMs : Option Int) : KV Unit :=
  KV.save key ⟨expiresAtMs, .string value⟩ .any

/-- The load surfaces an expired entry, so that it does not refuse the create. -/
def setStringNx (key : String) (value : Bytes) (expiresAtMs : Option Int) : KV Bool := do
  let _ ← KV.load key
  match ← (KV.save key ⟨expiresAtMs, .string value⟩ .createOnly).attempt with
  | .ok () => return true
  | .error .contention => return false
  | .error e => Prog.fail e

def getset (key : String) (value : Bytes) : KV (Option Bytes) :=
  cas key fun entry => do
    let old := (← View.string.find key entry).map Prod.fst
    return View.string.write none value old

def getDelModify (key : String) (entry : Option StoredValue) :
    Result (CasAction (Option Bytes)) := do
  match ← View.string.find key entry with
  | none => return .noOp none
  | some (data, _) => return .delete (some data)

def getAndDelete (key : String) : KV (Option Bytes) := cas key (getDelModify key)

def strlen (key : String) : KV Int :=
  View.string.read key 0 fun data => toI64 data.length

def append (key : String) (value : Bytes) : KV Int :=
  cas key fun entry => do
    let (data, exp) ← View.string.findOr key [] entry
    let data := data ++ value
    return View.string.write exp data (toI64 data.length)

def mget : List String → KV (List (Option Bytes))
  | [] => return []
  | k :: keys => do
      let v ← getString k
      let vs ← mget keys
      return v :: vs

def mset : List (String × Bytes) → KV Unit
  | [] => return ()
  | (k, v) :: pairs => do
      setString k v none
      mset pairs

/-- The scan of `msetnx`: is any of the keys there? -/
def anyExists : List (String × Bytes) → KV Bool
  | [] => return false
  | (k, _) :: pairs => do
      let entry ← KV.loadEntry k
      if entry.isSome then return true else anyExists pairs

def msetnx (pairs : List (String × Bytes)) : KV Bool := do
  let found ← anyExists pairs
  if found then return false
  else
    mset pairs
    return true

/-! ## Counters -/

/-- `s.parse::<i64>()`; a byte string that is not UTF-8 has a byte that is no
digit and fails in the same way. -/
def parseI64 (data : Bytes) : Option Int :=
  (Decimal.parseInt data).filter fun n => i64Min ≤ n ∧ n ≤ i64Max

theorem parseI64_intBytes {n : Int} (hmin : i64Min ≤ n) (hmax : n ≤ i64Max) :
    parseI64 (Decimal.intBytes n) = some n := by
  rw [parseI64, Decimal.parseInt_intBytes]
  simp [hmin, hmax]

/-- The counter that `incr_by` finds. -/
def counterOf (key : String) (entry : Option StoredValue) : Result (Int × Option Int) := do
  match ← View.string.find key entry with
  | none => return (0, none)
  | some (data, exp) =>
      match parseI64 data with
      | some n => return (n, exp)
      | none => .error (.parse "value is not an integer")

def incrByModify (key : String) (delta : Int) (entry : Option StoredValue) :
    Result (CasAction Int) := do
  let (current, exp) ← counterOf key entry
  match checkedAdd current delta with
  | none => .error (.parse "increment overflow")
  | some newVal => return View.string.write exp (Decimal.intBytes newVal) newVal

def incrBy (key : String) (delta : Int) : KV Int := cas key (incrByModify key delta)

section Float

variable (fo : FloatOps)

/-- `format_float`: integral values below `2^53` without a decimal point. -/
def formatFloat (v : F64) : Bytes :=
  if v.isFinite && v.isIntegral && v.absBelowExact then Decimal.intBytes v.toInt
  else fo.display v

/-- `str::from_utf8` followed by `parse::<f64>()`. -/
def parseF64 (data : Bytes) : Option F64 :=
  if (String.fromUTF8? data.toByteArray).isSome then fo.parse data else none

def parseStringAsF64 (entry : Option StoredValue) (key : String) : Result (F64 × Option Int) := do
  match ← View.string.find key entry with
  | none => return (.zero, none)
  | some (data, exp) =>
      match parseF64 fo data with
      | some n => return (n, exp)
      | none => .error (.parse "value is not a float")

def incrByFloat (key : String) (delta : F64) : KV F64 :=
  cas key fun entry => do
    let (current, exp) ← parseStringAsF64 fo entry key
    let newVal := fo.add current delta
    if newVal.isNan || newVal.isInfinite then
      .error (.parse "increment would produce NaN or infinity")
    else return View.string.write exp (formatFloat fo newVal) newVal

end Float

/-! ## Ranges and bits -/

/-- `data[s..=e]` -/
def sliceInclusive {α : Type} (xs : List α) (s e : Nat) : List α := (xs.drop s).take (e + 1 - s)

def sliceStringRange (data : Bytes) (start stop : Int) : Bytes :=
  if data.isEmpty then []
  else
    let len := toI64 data.length
    let s := if start < 0 then max (len + start) 0 else start
    let e := if stop < 0 then len + stop else min stop (len - 1)
    if len ≤ s ∨ e < 0 ∨ e < s then [] else sliceInclusive data s.toNat e.toNat

def getrange (key : String) (start stop : Int) : KV Bytes :=
  View.string.read key [] fun data => sliceStringRange data start stop

/-- `Vec::resize(n, 0)` when it grows. -/
def padTo (data : Bytes) (n : Nat) : Bytes := data ++ List.replicate (n - data.length) 0

def applySetrange (data : Bytes) (offset : Nat) (value : Bytes) : Bytes :=
  let data := padTo data (offset + value.length)
  data.take offset ++ value ++ data.drop (offset + value.length)

def setrange (key : String) (offset : Nat) (value : Bytes) : KV Int :=
  cas key fun entry => do
    let (data, exp) ← View.string.findOr key [] entry
    if value.isEmpty && data.isEmpty then return .noOp 0
    else
      let data := applySetrange data offset value
      return View.string.write exp data (toI64 data.length)

def bitAt (data : Bytes) (offset : Nat) : UInt8 :=
  if offset / 8 < data.length then
    (data.getD (offset / 8) 0 >>> (7 - UInt8.ofNat (offset % 8))) &&& 1
  else 0

def applySetbit (data : Bytes) (offset : Nat) (value : Bool) : Bytes × UInt8 :=
  let byteIdx := offset / 8
  let data := padTo data (byteIdx + 1)
  let mask : UInt8 := 1 <<< (7 - UInt8.ofNat (offset % 8))
  let old := data.getD byteIdx 0
  let prev := (old &&& mask) >>> (7 - UInt8.ofNat (offset % 8))
  (data.set byteIdx (if value then old ||| mask else old &&& ~~~mask), prev)

def getbit (key : String) (offset : Nat) : KV Int :=
  View.string.read key 0 fun data => (bitAt data offset).toNat

def setbit (key : String) (offset : Nat) (value : Bool) : KV Int :=
  cas key fun entry => do
    let (data, exp) ← View.string.findOr key [] entry
    let (data, prev) := applySetbit data offset value
    return View.string.write exp data prev.toNat

/-! ## HyperLogLog -/

def wrongHll : RustyAntError := .parse "WRONGTYPE Key is not a valid HyperLogLog string value."

/-- The HyperLogLog found at a key, if any. -/
def hllOf (key : String) (entry : Option StoredValue) : Result (Option (Bytes × Option Int)) := do
  match ← View.string.find key entry with
  | none => return none
  | some (data, exp) => if Hll.isHll data then return some (data, exp) else .error wrongHll

def addElements (buf : Bytes) (changed : Bool) : List Bytes → Result (Bytes × Bool)
  | [] => return (buf, changed)
  | e :: elements => do
      let (buf, updated) ← Hll.add buf e
      addElements buf (changed || updated) elements

def pfadd (key : String) (elements : List Bytes) : KV Bool :=
  cas key fun entry => do
    match ← hllOf key entry with
    | none =>
        let (buf, _) ← addElements Hll.emptyDense false elements
        return View.string.write none buf true
    | some (data, exp) =>
        let (buf, changed) ← addElements data false elements
        return if changed then View.string.write exp buf true else .noOp false

/-- The union of the HyperLogLogs at `keys` into `merged`. -/
def mergeKeys (merged : Bytes) : List String → KV Bytes
  | [] => return merged
  | k :: keys => do
      let entry ← KV.loadEntry k
      match ← Prog.ofExcept (hllOf k entry) with
      | none => mergeKeys merged keys
      | some (data, _) =>
          let merged ← Prog.ofExcept (Hll.mergeInto merged data)
          mergeKeys merged keys

def pfcount (fo : FloatOps) (keys : List String) : KV UInt64 :=
  match keys with
  | [key] => do
      let entry ← KV.loadEntry key
      match ← Prog.ofExcept (hllOf key entry) with
      | none => return 0
      | some (data, _) => Prog.ofExcept (Hll.count fo data)
  | keys => do
      let merged ← mergeKeys Hll.emptyDense keys
      Prog.ofExcept (Hll.count fo merged)

def pfmerge (dest : String) (sources : List String) : KV Unit := do
  let merged ← mergeKeys Hll.emptyDense sources
  cas dest fun entry => do
    let (buf, exp) := (← hllOf dest entry).getD (Hll.emptyDense, none)
    let buf ← Hll.mergeInto buf merged
    return View.string.write exp buf ()

end Storage

end RustyAnt
