import RustyAnt.Lib.Pool
import RustyAnt.Storage.Backend
import RustyAnt.Storage.Serde
import RustyAnt.Stream.Ops

/-!
# The S3 backend

`S3Storage` of `src/storage.rs`: one object for each key, its body the JSON of
the entry and its version token the ETag.  Every method is a program over the
requests it sends.  Keys are named without the constant prefix of the bucket.
-/

namespace RustyAnt

open Lib

structure S3Object where
  body : Json
  etag : String

/-- Answer to a conditional request; `412` is the failed precondition. -/
inductive S3Outcome where
  | done
  | preconditionFailed
  deriving DecidableEq

/-- The requests of the backend.  `listAll` and `deleteAll` stand for the loops
over `ListObjectsV2` pages, without and with a `DeleteObjects` for each page. -/
inductive S3Op where
  | getObject (key : String)
  | putObject (key : String) (body : Json) (cond : WriteCondition)
  | deleteObject (key : String) (cond : DeleteCondition)
  | listObjects (cursor : Option String) (maxKeys : Nat)
  | listAll
  | deleteAll
  | nowMs
  | nanos

namespace S3Op

def Res : S3Op → Type
  | getObject _ => Option S3Object
  | putObject _ _ _ => S3Outcome
  | deleteObject _ _ => S3Outcome
  | listObjects _ _ => ListPage
  | listAll => List String
  | deleteAll => Unit
  | nowMs => Int
  | nanos => UInt64

end S3Op

abbrev S3 (α : Type) := Prog S3Op S3Op.Res RustyAntError α

namespace S3Storage

/-- A refused precondition is `Contention`. -/
def orContention : S3Outcome → S3 Unit
  | .done => return ()
  | .preconditionFailed => Prog.fail .contention

def delete (key : String) (cond : DeleteCondition) : S3 Unit := do
  orContention (← Prog.perform (S3Op.deleteObject key cond))

def save (key : String) (entry : StoredValue) (cond : WriteCondition) : S3 Unit := do
  orContention (← Prog.perform (S3Op.putObject key (Codec.storedValue.enc entry) cond))

/-- What `load` makes of the object it got: an expired entry is collected by an
unconditional delete whose own error is swallowed. -/
def decodeObject (key : String) (obj : S3Object) : S3 (Option (StoredValue × String)) := do
  let entry ← Prog.ofExcept (Codec.storedValue.dec obj.body)
  let now ← Prog.perform S3Op.nowMs
  if entry.isExpired now then
    let _ ← (delete key .any).attempt
    return none
  else
    return some (entry, obj.etag)

def load (key : String) : S3 (Option (StoredValue × String)) := do
  match ← Prog.perform (S3Op.getObject key) with
  | none => return none
  | some obj => decodeObject key obj

/-- The default `count_keys`, over the pages of the walk. -/
def countKeys : S3 Int := do
  let keys ← Prog.perform S3Op.listAll
  return toI64 (List.length keys)

def impl : (op : KVOp) → S3 op.Res
  | .load key => load key
  | .save key entry cond => save key entry cond
  | .delete key cond => delete key cond
  | .listPage cursor maxKeys => Prog.perform (S3Op.listObjects cursor maxKeys)
  | .walk => Prog.perform S3Op.listAll
  | .countKeys => countKeys
  | .flushAll => Prog.perform S3Op.deleteAll
  | .nowMs => Prog.perform S3Op.nowMs
  | .nanos => Prog.perform S3Op.nanos

end S3Storage

/-! ## The service -/

namespace WriteCondition

/-- The precondition of a `PutObject`, on the object in place. -/
def Allows (cur : Option S3Object) : WriteCondition → Prop
  | any => True
  | createOnly => cur = none
  | ifMatch etag => ∃ obj, cur = some obj ∧ obj.etag = etag

end WriteCondition

namespace DeleteCondition

/-- The precondition of a `DeleteObject`. -/
def Allows (cur : Option S3Object) : DeleteCondition → Prop
  | any => True
  | ifMatch etag => ∃ obj, cur = some obj ∧ obj.etag = etag

end DeleteCondition

/-- The objects under the prefix, and how often the clock has been read. -/
structure S3World where
  objects : BTreeMap String S3Object
  readings : Nat

namespace S3World

/-- S3 without faults: a bucket whose ETag is a function of the body.  A `PutObject`
with `If-Match` on a key without object is answered 404, not 412. -/
def serve (etagOf : Json → String) (clock : Clock) :
    (op : S3Op) → S3World → Result op.Res × S3World
  | .getObject key, w => (.ok (w.objects[key]? : Option S3Object), w)
  | .putObject key body cond, w =>
      let stored := { w with objects := w.objects.insert key ⟨body, etagOf body⟩ }
      match cond, w.objects[key]? with
      | .any, _ => (.ok S3Outcome.done, stored)
      | .createOnly, none => (.ok S3Outcome.done, stored)
      | .createOnly, some _ => (.ok S3Outcome.preconditionFailed, w)
      | .ifMatch _, none => (.error (.s3 "NoSuchKey"), w)
      | .ifMatch etag, some obj =>
          if obj.etag = etag then (.ok S3Outcome.done, stored)
          else (.ok S3Outcome.preconditionFailed, w)
  | .deleteObject key cond, w =>
      let removed := { w with objects := w.objects.erase key }
      match cond, w.objects[key]? with
      | .any, _ => (.ok S3Outcome.done, removed)
      | .ifMatch _, none => (.ok S3Outcome.preconditionFailed, w)
      | .ifMatch etag, some obj =>
          if obj.etag = etag then (.ok S3Outcome.done, removed)
          else (.ok S3Outcome.preconditionFailed, w)
  | .listObjects cursor maxKeys, w =>
      let later := w.objects.keys.filter fun k => cursor.all fun c => decide (c < k)
      let page := later.take (min maxKeys 1000)
      (.ok (⟨page, if page.length < later.length then page.getLast? else none⟩ : ListPage), w)
  | .listAll, w => (.ok w.objects.keys, w)
  | .deleteAll, w => (.ok (), { w with objects := ∅ })
  | .nowMs, w => (.ok (clock.now w.readings), { w with readings := w.readings + 1 })
  | .nanos, w => (.ok clock.nanos, w)

end S3World

end RustyAnt
