import RustyAnt.Lib.Pool
import RustyAnt.Storage.Backend
import RustyAnt.Storage.Serde
import RustyAnt.Stream.Ops

/-!
# The DynamoDB backend

`src/dynamodb.rs`: one index table that maps a key to its kind and one data
table for each kind.  Every method is a program over the requests it sends:
strongly consistent `GetItem` reads and `TransactWriteItems` transactions.
-/

namespace RustyAnt

open Lib

/-! ## Tables and requests -/

/-- An item of a data table.  `ttl` is the attribute native TTL looks at. -/
structure DataRow where
  data : Json
  version : String
  ttl : Option Int

/-- An item of the index table. -/
structure IndexRow where
  kind : String
  ttl : Option Int
  deriving DecidableEq

/-- The seven tables. -/
structure Tables where
  index : BTreeMap String IndexRow
  data : ValueKind → BTreeMap String DataRow

namespace Tables

def empty : Tables := ⟨∅, fun _ => ∅⟩

end Tables

/-- Condition expression of an index put. -/
inductive IndexCond where
  /-- `attribute_not_exists(pk)` -/
  | notExists
  /-- `kind = :ok` -/
  | kindIs (kind : String)

/-- One action of a `TransactWriteItems`, with its condition expression: a data
row's is `version = :old`, an index delete's is `kind = :ok`. -/
inductive TransactItem where
  | putData (kind : ValueKind) (key : String) (row : DataRow) (old : Option String)
  | putIndex (key : String) (row : IndexRow) (cond : IndexCond)
  | deleteData (kind : ValueKind) (key : String) (old : Option String)
  | deleteIndex (key : String) (kind : Option String)

namespace TransactItem

/-- `version = :old`, false when there is no row. -/
def versionIs (row : Option DataRow) : Option String → Bool
  | none => true
  | some old => row.any fun r => r.version = old

/-- `kind = :ok`, false when there is no row. -/
def kindIs (row : Option IndexRow) : Option String → Bool
  | none => true
  | some k => row.any fun r => r.kind = k

/-- The condition expression, evaluated on the item as it stands. -/
def holds (t : Tables) : TransactItem → Bool
  | putData kind key _ old => versionIs ((t.data kind)[key]?) old
  | putIndex key _ .notExists => !t.index.contains key
  | putIndex key _ (.kindIs k) => kindIs t.index[key]? (some k)
  | deleteData kind key old => versionIs ((t.data kind)[key]?) old
  | deleteIndex key kind => kindIs t.index[key]? kind

def apply (t : Tables) : TransactItem → Tables
  | putData kind key row _ =>
      { t with data := Function.update t.data kind ((t.data kind).insert key row) }
  | putIndex key row _ => { t with index := t.index.insert key row }
  | deleteData kind key _ =>
      { t with data := Function.update t.data kind ((t.data kind).erase key) }
  | deleteIndex key _ => { t with index := t.index.erase key }

end TransactItem

/-- Outcome of `TransactWriteItems`. -/
inductive TransactOutcome where
  | committed
  | canceled
  deriving DecidableEq

namespace Tables

def applyAll (t : Tables) (items : List TransactItem) : Tables :=
  items.foldl TransactItem.apply t

/-- `TransactWriteItems`: all conditions are checked against the tables as they
stand, then all writes are made or none. -/
def transact (t : Tables) (items : List TransactItem) : TransactOutcome × Tables :=
  if items.all (TransactItem.holds t) then (.committed, t.applyAll items) else (.canceled, t)

end Tables

/-- The requests of the backend.  `scanAll` stands for the loop over `Scan` pages
of the index table. -/
inductive DdbOp where
  | getIndex (key : String)
  | getData (kind : ValueKind) (key : String)
  | transact (items : List TransactItem)
  | scan (start : Option String) (limit : Nat)
  | scanAll
  | nowMs
  | nanos

namespace DdbOp

def Res : DdbOp → Type
  | getIndex _ => Option IndexRow
  | getData _ _ => Option DataRow
  | transact _ => TransactOutcome
  | scan _ _ => List String × Option String
  | scanAll => List String
  | nowMs => Int
  | nanos => UInt64

end DdbOp

abbrev Ddb (α : Type) := Prog DdbOp DdbOp.Res RustyAntError α

namespace DynamoDb

/-! ## Token codec -/

/-- `str::split_once(':')` -/
def splitOnce (s : String) : Option (String × String) :=
  match s.toList.span (· ≠ ':') with
  | (_, []) => none
  | (pre, _ :: post) => some (String.ofList pre, String.ofList post)

def encodeToken (kind : ValueKind) (version : String) : String :=
  kind.asStr ++ ":" ++ version

def parseKind (s : String) : Result ValueKind :=
  match s with
  | "string" => .ok .string
  | "hash" => .ok .hash
  | "list" => .ok .list
  | "set" => .ok .set
  | "zset" => .ok .zset
  | "stream" => .ok .stream
  | other => .error (.parse ("unknown kind: " ++ other))

def parseToken (token : String) : Result (ValueKind × String) :=
  match splitOnce token with
  | none => .error (.parse ("malformed CAS token: " ++ token))
  | some (kindStr, version) => do return (← parseKind kindStr, version)

/-- `format!("{:016x}")` -/
def hex16 (n : UInt64) : String :=
  let digits := Nat.toDigits 16 n.toNat
  String.ofList (List.replicate (16 - digits.length) '0' ++ digits)

/-! ## Reads -/

def readIndexKind (key : String) : Ddb (Option ValueKind) := do
  match ← Prog.perform (DdbOp.getIndex key) with
  | none => return none
  | some row => some <$> Prog.ofExcept (parseKind row.kind)

/-! ## Writes -/

def maxItemBytes : Nat := 380000

/-- The `ttl` attribute, `expires_at_ms / 1000` with Rust's truncating division. -/
def ttlOf (entry : StoredValue) : Option Int := entry.expiresAtMs.map (Int.tdiv · 1000)

/-- The actions of `save`'s transaction: the data put, the index put conditional
on the kind observed, and the sweep of the old kind's row when the kind
changes. -/
def saveItems (key : String) (entry : StoredValue) (body : Json) (newVersion : String)
    (old : Option String) (observed : Option ValueKind) : List TransactItem :=
  let dataPut := .putData entry.kind key ⟨body, newVersion, ttlOf entry⟩ old
  let indexCond := match observed with
    | none => IndexCond.notExists
    | some k => IndexCond.kindIs k.asStr
  let indexPut := .putIndex key ⟨entry.kind.asStr, ttlOf entry⟩ indexCond
  match observed with
  | some oldKind =>
      if oldKind ≠ entry.kind then [dataPut, indexPut, .deleteData oldKind key none]
      else [dataPut, indexPut]
  | none => [dataPut, indexPut]

/-- The actions of an unconditional delete: neither carries a condition. -/
def deleteAnyItems (key : String) (kind : ValueKind) : List TransactItem :=
  [.deleteData kind key none, .deleteIndex key none]

/-- The actions of a delete under a version token. -/
def deleteIfMatchItems (key : String) (kind : ValueKind) (old : String) : List TransactItem :=
  [.deleteData kind key (some old), .deleteIndex key (some kind.asStr)]

/-- Send a transaction; `TransactionCanceledException` is `Contention`. -/
def sendTransact (items : List TransactItem) : Ddb Unit := do
  match ← Prog.perform (DdbOp.transact items) with
  | .committed => return ()
  | .canceled => Prog.fail .contention

/-- The kind `save` observes: read from the index, or named by the token. -/
def observedKind (key : String) (newKind : ValueKind) : WriteCondition → Ddb (Option ValueKind)
  | .any | .createOnly => readIndexKind key
  | .ifMatch token => do
      let (tokenKind, _) ← Prog.ofExcept (parseToken token)
      if tokenKind ≠ newKind then Prog.fail .contention else return some tokenKind

/-- The version the data put is conditional on. -/
def oldVersion : WriteCondition → Result (Option String)
  | .any | .createOnly => .ok none
  | .ifMatch token => do
      let (_, old) ← parseToken token
      return some old

def save (fo : FloatOps) (key : String) (entry : StoredValue) (cond : WriteCondition) :
    Ddb Unit :=
  let body := Codec.storedValue.enc entry
  if maxItemBytes < body.len fo then
    Prog.fail (.parse ("value exceeds DynamoDB per-item limit (" ++ toString (body.len fo) ++
      " bytes > 380000)"))
  else do
    let newVersion := hex16 (pseudoRandU64 (← Prog.perform DdbOp.nanos))
    let observed ← observedKind key entry.kind cond
    if cond = .createOnly ∧ observed.isSome then
      Prog.fail .contention
    else
      let old ← Prog.ofExcept (oldVersion cond)
      sendTransact (saveItems key entry body newVersion old observed)

def delete (key : String) (cond : DeleteCondition) : Ddb Unit := do
  match cond with
  | .any =>
      match ← readIndexKind key with
      | none => return ()
      | some kind => sendTransact (deleteAnyItems key kind)
  | .ifMatch token =>
      let (tokenKind, oldVersion) ← Prog.ofExcept (parseToken token)
      sendTransact (deleteIfMatchItems key tokenKind oldVersion)

/-- `get_one`: an expired row is collected under the version just read. -/
def getOne (kind : ValueKind) (key : String) : Ddb (Option (StoredValue × String)) := do
  match ← Prog.perform (DdbOp.getData kind key) with
  | none => return none
  | some row =>
      let entry ← Prog.ofExcept (Codec.storedValue.dec row.data)
      let now ← Prog.perform DdbOp.nowMs
      if entry.isExpired now then
        let _ ← (delete key (.ifMatch (encodeToken kind row.version))).attempt
        return none
      else
        return some (entry, encodeToken kind row.version)

def load (key : String) : Ddb (Option (StoredValue × String)) := do
  match ← readIndexKind key with
  | none => return none
  | some kind => getOne kind key

/-! ## Listing -/

def listPage (cursor : Option String) (maxKeys : Nat) : Ddb ListPage := do
  let page ← Prog.perform (DdbOp.scan cursor maxKeys)
  return ⟨Prod.fst page, Prod.snd page⟩

/-- The default `count_keys`, over the pages of the walk. -/
def countKeys : Ddb Int := do
  let keys ← Prog.perform DdbOp.scanAll
  return toI64 (List.length keys)

/-- The deletes of the default `flush_all`, each error swallowed. -/
def deleteEach : List String → Ddb Unit
  | [] => return ()
  | k :: keys => do
      let _ ← (delete k .any).attempt
      deleteEach keys

/-- The default `flush_all`.  A page does not depend on keys of earlier pages, so
the deletes may follow the whole walk. -/
def flushAll : Ddb Unit := do
  let keys ← Prog.perform DdbOp.scanAll
  deleteEach keys

def impl (fo : FloatOps) : (op : KVOp) → Ddb op.Res
  | .load key => load key
  | .save key entry cond => save fo key entry cond
  | .delete key cond => delete key cond
  | .listPage cursor maxKeys => listPage cursor maxKeys
  | .walk => Prog.perform DdbOp.scanAll
  | .countKeys => countKeys
  | .flushAll => flushAll
  | .nowMs => Prog.perform DdbOp.nowMs
  | .nanos => Prog.perform DdbOp.nanos

end DynamoDb

/-! ## The service -/

/-- The order in which a `Scan` returns the keys of the index table. -/
structure ScanOrder where
  arrange : List String → List String
  perm : ∀ keys, (arrange keys).Perm keys

/-- The tables, and how often the clock has been read. -/
structure DdbWorld where
  tables : Tables
  readings : Nat

namespace DdbWorld

/-- DynamoDB without faults and with native TTL deletion off. -/
def serve (order : ScanOrder) (clock : Clock) :
    (op : DdbOp) → DdbWorld → Result op.Res × DdbWorld
  | .getIndex key, d => (.ok (d.tables.index[key]? : Option IndexRow), d)
  | .getData kind key, d => (.ok ((d.tables.data kind)[key]? : Option DataRow), d)
  | .transact items, d =>
      (.ok (d.tables.transact items).1, { d with tables := (d.tables.transact items).2 })
  | .scan start limit, d =>
      let keys := order.arrange d.tables.index.keys
      let later := match start with
        | none => keys
        | some k => (keys.dropWhile (· ≠ k)).drop 1
      let page := later.take limit
      (.ok ((page, if page.length < later.length then page.getLast? else none) :
        List String × Option String), d)
  | .scanAll, d => (.ok (order.arrange d.tables.index.keys), d)
  | .nowMs, d => (.ok (clock.now d.readings), { d with readings := d.readings + 1 })
  | .nanos, d => (.ok clock.nanos, d)

end DdbWorld

end RustyAnt
