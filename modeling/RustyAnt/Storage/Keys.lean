import RustyAnt.Rdb.Payload
import RustyAnt.Storage.Serde
import RustyAnt.Storage.View

/-!
# Key operations

The `Storage` methods that work on any kind of value: existence and expiry,
listing, RENAME and COPY, DUMP and RESTORE.
-/

namespace RustyAnt

open Lib

inductive TtlResult where
  | noKey
  | noExpire
  | ms (t : Int)
  deriving DecidableEq

structure KeyspaceStats where
  totalKeys : Int
  keysWithExpire : Int
  deriving DecidableEq

namespace Storage

/-! ## Existence and expiry -/

def delete (key : String) : KV Bool := do
  let entry ← KV.loadEntry key
  if entry.isSome then
    KV.delete key .any
    return true
  else return false

def existsKey (key : String) : KV Bool := do
  let entry ← KV.loadEntry key
  return entry.isSome

def kind (key : String) : KV (Option String) := do
  let entry ← KV.loadEntry key
  return entry.map fun e => e.kind.asStr

/-- The JSON of a value alone, without the expiry beside it. -/
def valueJson (v : Value) : Json :=
  .obj [("type", .str (Codec.valueTag v)), ("data", Codec.valueData v)]

def memUsage (fo : FloatOps) (key : String) : KV (Option Int) := do
  let entry ← KV.loadEntry key
  return entry.map fun e => toI64 ((valueJson e.value).len fo)

def expireAtModify (expiresAtMs : Int) : Option StoredValue → Result (CasAction Bool)
  | none => .ok (.noOp false)
  | some existing => .ok (.write { existing with expiresAtMs := some expiresAtMs } true)

def expireAt (key : String) (expiresAtMs : Int) : KV Bool := cas key (expireAtModify expiresAtMs)

def persistModify : Option StoredValue → Result (CasAction Bool)
  | none => .ok (.noOp false)
  | some existing =>
      if existing.expiresAtMs.isSome then .ok (.write { existing with expiresAtMs := none } true)
      else .ok (.noOp false)

def persist (key : String) : KV Bool := cas key persistModify

/-- `exp - now_ms()` is an `i64` subtraction. -/
def ttlMs (key : String) : KV TtlResult := do
  match ← KV.loadEntry key with
  | none => return .noKey
  | some e =>
      match e.expiresAtMs with
      | none => return .noExpire
      | some exp =>
          let now ← KV.nowMs
          return .ms (max (wrapI64 (exp - now)) 0)

def expireTimeMs (key : String) : KV TtlResult := do
  match ← KV.loadEntry key with
  | none => return .noKey
  | some e => return e.expiresAtMs.elim .noExpire .ms

/-! ## Listing -/

/-- `wild` is the glob matcher of the `wildmatch` crate. -/
def keys (wild : String → String → Bool) (pattern : String) : KV (List String) := do
  let all ← KV.walk
  return all.filter (wild pattern)

def scan (wild : String → String → Bool) (cursor pattern : Option String) (count : Nat) :
    KV (List String × Option String) := do
  let page ← KV.listPage cursor count
  return (page.keys.filter fun k => pattern.all fun p => wild p k, page.nextCursor)

def dbsize : KV Int := KV.countKeys

def keyspaceStats : KV KeyspaceStats := do
  let total ← dbsize
  return ⟨total, 0⟩

def flushall : KV Unit := KV.flushAll

def randomKey (wild : String → String → Bool) : KV (Option String) := do
  let all ← keys wild "*"
  if all.isEmpty then return none
  else
    let nanos ← KV.nanos
    return all[(pseudoRandU64 nanos).toNat % all.length]?

/-! ## RENAME and COPY -/

def noSuchKey : RustyAntError := .parse "no such key"

/-- The condition of the write to a destination: its current token if it is there,
create-only otherwise. -/
def destCond : Option (StoredValue × String) → WriteCondition
  | none => .createOnly
  | some (_, etag) => .ifMatch etag

def rename (src dst : String) : KV Unit := do
  match ← KV.loadEntry src with
  | none => Prog.fail noSuchKey
  | some entry =>
      if src = dst then return ()
      else
        let dest ← KV.load dst
        KV.save dst entry (destCond dest)
        KV.delete src .any

def renamenx (src dst : String) : KV Bool := do
  match ← KV.loadEntry src with
  | none => Prog.fail noSuchKey
  | some entry =>
      if src = dst then return false
      else
        let dest ← KV.loadEntry dst
        if dest.isSome then return false
        else
          match ← (KV.save dst entry .createOnly).attempt with
          | .ok () =>
              KV.delete src .any
              return true
          | .error .contention => return false
          | .error e => Prog.fail e

def copy (src dst : String) (replace : Bool) : KV Bool := do
  if src = dst then return false
  else
    match ← KV.loadEntry src with
    | none => return false
    | some entry =>
        let dest ← KV.load dst
        if dest.isSome && !replace then return false
        else
          match ← (KV.save dst entry (destCond dest)).attempt with
          | .ok () => return true
          | .error .contention => return false
          | .error e => Prog.fail e

/-! ## DUMP and RESTORE -/

section Float

variable (fo : FloatOps)

def dump (key : String) : KV (Option Bytes) := do
  match ← KV.loadEntry key with
  | none => return none
  | some e => some <$> Prog.ofExcept (Rdb.dumpValue fo e.value)

def busyKey : RustyAntError := .parse "BUSYKEY Target key name already exists."

/-- `0` is no expiry; otherwise absolute, or relative to the clock. -/
def restoreExpiry (ttl : Int) (absTtl : Bool) : KV (Option Int) :=
  if ttl = 0 then return none
  else if absTtl then return some ttl
  else do
    let now ← KV.nowMs
    return some (saturatingAdd now ttl)

/-- The write of `restore`, once the payload is decoded. -/
def restoreWith (key : String) (value : Value) (ttl : Int) (replace absTtl : Bool) : KV Unit := do
  let expiresAtMs ← restoreExpiry ttl absTtl
  if replace then KV.save key ⟨expiresAtMs, value⟩ .any
  else
    match ← (KV.save key ⟨expiresAtMs, value⟩ .createOnly).attempt with
    | .ok () => return ()
    | .error .contention => Prog.fail busyKey
    | .error e => Prog.fail e

/-- A panic of the decoder aborts the process before any storage call. -/
def restore (key : String) (payload : Bytes) (ttl : Int) (replace absTtl : Bool) : KV Unit :=
  match Rdb.restoreValue fo payload with
  | .ok value => restoreWith key value ttl replace absTtl
  | .err e => Prog.fail e
  | .panic => Prog.fail (.io "aborted")

end Float

end Storage

end RustyAnt
