import RustyAnt.Storage.Strings

/-!
# Hash operations

The `Storage` methods on the `Hash` variant, with the cursor-paged scans and the
random sampling that the set and sorted-set methods share.
-/

namespace RustyAnt

open Lib

namespace Storage

/-! ## Scans and samples -/

/-- `apply_collection_scan`; `wild` is the glob matcher of the `wildmatch` crate. -/
def applyCollectionScan {α : Type} (wild : String → String → Bool) (items : List α)
    (cursor : UInt64) (count : Nat) (pattern : Option String) (name : α → String) :
    UInt64 × List α :=
  let total := items.length
  let offset := cursor.toNat
  if total ≤ offset then (0, [])
  else
    let stop := min (offset + count) total
    let next := if total ≤ stop then 0 else UInt64.ofNat stop
    let batch := (items.drop offset).take (stop - offset)
    match pattern with
    | some p => (next, if p = "*" then batch else batch.filter fun x => wild p (name x))
    | none => (next, batch)

/-- The xorshift step of the samplers. -/
def xorshift (rng : UInt64) : UInt64 :=
  let rng := rng ^^^ (rng <<< 13)
  let rng := rng ^^^ (rng >>> 7)
  rng ^^^ (rng <<< 17)

/-- `take` consecutive elements, in rotation, from a random start. -/
def rotateFrom {α : Type} (ordered : List α) (rand : UInt64) (take : Nat) : List α :=
  let start := rand.toNat % ordered.length
  (List.range take).filterMap fun i => ordered[(start + i) % ordered.length]?

/-- `take` elements with repetition.  The source collects them into a vector, which can be too
long to allocate. -/
def drawMany {α : Type} (ordered : List α) : (rng : UInt64) → (take : Nat) → List α
  | _, 0 => []
  | rng, take + 1 =>
      let rng := xorshift rng
      (ordered[rng.toNat % ordered.length]?).toList ++ drawMany ordered rng take

/-- `pick_random_from_hash` and `pick_random_from_zset`. -/
def pickRandom {α : Type} (ordered : List α) (count : Int) (allowDuplicates : Bool)
    (rand : UInt64) : List α :=
  if ordered.isEmpty || count == 0 then []
  else if allowDuplicates then drawMany ordered rand count.natAbs
  else rotateFrom ordered rand (min count.toNat ordered.length)

/-! ## Hashes -/

/-- One pair of `hset`: the field is counted when it is new. -/
def hsetPair (acc : BTreeMap String Bytes × Int) (pair : String × Bytes) :
    BTreeMap String Bytes × Int :=
  (acc.1.insert pair.1 pair.2, if acc.1.contains pair.1 then acc.2 else acc.2 + 1)

def hsetModify (key : String) (pairs : List (String × Bytes)) (entry : Option StoredValue) :
    Result (CasAction Int) := do
  let (map, exp) ← View.hash.findOr key ∅ entry
  let (map, newFields) := pairs.foldl hsetPair (map, 0)
  return View.hash.write exp map newFields

def hset (key : String) (pairs : List (String × Bytes)) : KV Int := cas key (hsetModify key pairs)

def hsetnx (key field : String) (value : Bytes) : KV Bool :=
  cas key fun entry => do
    let (map, exp) ← View.hash.findOr key ∅ entry
    if map.contains field then return .noOp false
    else return View.hash.write exp (map.insert field value) true

def hget (key field : String) : KV (Option Bytes) :=
  View.hash.read key none fun m => m[field]?

/-- One name of `hdel`, `srem` and `zrem`, counted when it was there. -/
def removeKey {β : Type} (acc : BTreeMap String β × Int) (name : String) : BTreeMap String β × Int :=
  if acc.1.contains name then (acc.1.erase name, acc.2 + 1) else acc

def hdelModify (key : String) (fields : List String) (entry : Option StoredValue) :
    Result (CasAction Int) := do
  match ← View.hash.find key entry with
  | none => return .noOp 0
  | some (map, exp) =>
      let (map, removed) := fields.foldl removeKey (map, 0)
      return View.hash.writeOrDelete exp map removed

def hdel (key : String) (fields : List String) : KV Int := cas key (hdelModify key fields)

def hgetall (key : String) : KV (List (String × Bytes)) :=
  View.hash.read key [] fun m => m.toList

def hscan (wild : String → String → Bool) (key : String) (cursor : UInt64)
    (pattern : Option String) (count : Nat) : KV (UInt64 × List (String × Bytes)) :=
  View.hash.read key (0, []) fun m => applyCollectionScan wild m.toList cursor count pattern Prod.fst

def hlen (key : String) : KV Int := View.hash.read key 0 fun m => toI64 m.size

def hkeys (key : String) : KV (List String) := View.hash.read key [] fun m => m.keys

def hvals (key : String) : KV (List Bytes) :=
  View.hash.read key [] fun m => m.toList.map Prod.snd

def hexists (key field : String) : KV Bool :=
  View.hash.read key false fun m => m.contains field

def hstrlen (key field : String) : KV Int :=
  View.hash.read key 0 fun m => (m[field]?).elim 0 fun v => toI64 v.length

def hmget (key : String) (fields : List String) : KV (List (Option Bytes)) :=
  View.hash.read key (fields.map fun _ => none) fun m => fields.map fun f => m[f]?

/-- The number a field holds for `hincr_by`. -/
def fieldInt : Option Bytes → Result Int
  | none => .ok 0
  | some v => (parseI64 v).elim (.error (.parse "hash value is not an integer")) .ok

def hincrBy (key field : String) (delta : Int) : KV Int :=
  cas key fun entry => do
    let (map, exp) ← View.hash.findOr key ∅ entry
    let current ← fieldInt map[field]?
    match checkedAdd current delta with
    | none => .error (.parse "increment overflow")
    | some newVal =>
        return View.hash.write exp (map.insert field (Decimal.intBytes newVal)) newVal

/-- The number a field holds for `hincr_by_float`. -/
def fieldFloat (fo : FloatOps) : Option Bytes → Result F64
  | none => .ok .zero
  | some v => (parseF64 fo v).elim (.error (.parse "hash value is not a float")) .ok

def hincrByFloat (fo : FloatOps) (key field : String) (delta : F64) : KV F64 :=
  cas key fun entry => do
    let (map, exp) ← View.hash.findOr key ∅ entry
    let current ← fieldFloat fo map[field]?
    let newVal := fo.add current delta
    if newVal.isNan || newVal.isInfinite then
      .error (.parse "increment would produce NaN or infinity")
    else return View.hash.write exp (map.insert field (formatFloat fo newVal)) newVal

def hrandfield (key : String) (count : Int) (allowDuplicates : Bool) :
    KV (List (String × Bytes)) :=
  View.hash.readRand key [] fun m rand => pickRandom m.toList count allowDuplicates rand

end Storage

end RustyAnt
