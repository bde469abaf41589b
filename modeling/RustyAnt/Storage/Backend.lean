import RustyAnt.Lib.Prog
import RustyAnt.Storage.Value

/-!
# The backend interface

`KVBackend` of `src/storage.rs` as a set of operations.  A method of
`KVStorage<K>` is a program over these operations, so it can be run on either
backend and interleaved with other programs at the granularity of backend calls.
The two clocks the code reads, `now_ms()` and the nanosecond seed of
`pseudo_rand_u64()`, are operations as well.
-/

namespace RustyAnt

open Lib

/-- Conditional-write specification for `KVBackend::save`. -/
inductive WriteCondition where
  | any
  | createOnly
  | ifMatch (etag : String)
  deriving DecidableEq, Repr

/-- Conditional-delete specification for `KVBackend::delete`. -/
inductive DeleteCondition where
  | any
  | ifMatch (etag : String)
  deriving DecidableEq, Repr

/-- One page of keys emitted by `KVBackend::list_page`. -/
structure ListPage where
  keys : List String
  nextCursor : Option String
  deriving DecidableEq, Repr

/-- Readings of the clock during one operation: the successive answers of
`now_ms()` and the nanosecond reading. -/
structure Clock where
  now : Nat → Int
  nanos : UInt64

/-- What a `KVStorage` operation asks of its backend and of the clock. -/
inductive KVOp where
  | load (key : String)
  | save (key : String) (entry : StoredValue) (cond : WriteCondition)
  | delete (key : String) (cond : DeleteCondition)
  | listPage (cursor : Option String) (maxKeys : Nat)
  /-- the walk over `list_page` until `next_cursor` is `None`, as `keys` does it -/
  | walk
  | countKeys
  | flushAll
  | nowMs
  | nanos

namespace KVOp

def Res : KVOp → Type
  | load _ => Option (StoredValue × String)
  | save _ _ _ => Unit
  | delete _ _ => Unit
  | listPage _ _ => ListPage
  | walk => List String
  | countKeys => Int
  | flushAll => Unit
  | nowMs => Int
  | nanos => UInt64

end KVOp

/-- A `KVStorage` operation: a program over its backend. -/
abbrev KV (α : Type) := Prog KVOp KVOp.Res RustyAntError α

namespace KV

def load (key : String) : KV (Option (StoredValue × String)) := Prog.perform (KVOp.load key)
def save (key : String) (entry : StoredValue) (cond : WriteCondition) : KV Unit :=
  Prog.perform (KVOp.save key entry cond)
def delete (key : String) (cond : DeleteCondition) : KV Unit :=
  Prog.perform (KVOp.delete key cond)
def listPage (cursor : Option String) (maxKeys : Nat) : KV ListPage :=
  Prog.perform (KVOp.listPage cursor maxKeys)
def walk : KV (List String) := Prog.perform KVOp.walk
def countKeys : KV Int := Prog.perform KVOp.countKeys
def flushAll : KV Unit := Prog.perform KVOp.flushAll
def nowMs : KV Int := Prog.perform KVOp.nowMs
def nanos : KV UInt64 := Prog.perform KVOp.nanos

/-- `KVStorage::load`: the entry without its version token. -/
def loadEntry (key : String) : KV (Option StoredValue) := do
  let loaded ← load key
  return loaded.map Prod.fst

end KV

/-- The xorshift mixing of `pseudo_rand_u64` on a nanosecond clock reading. -/
def pseudoRandU64 (nanos : UInt64) : UInt64 :=
  let x := nanos ^^^ 0x2545F4914F6CDD1D
  let x := x ^^^ (x <<< 13)
  let x := x ^^^ (x >>> 7)
  x ^^^ (x <<< 17)

/-- Decision emitted by a CAS modify closure. -/
inductive CasAction (R : Type) where
  | write (entry : StoredValue) (r : R)
  | delete (r : R)
  | noOp (r : R)

namespace CasAction

variable {R : Type}

def result : CasAction R → R
  | write _ r => r
  | delete r => r
  | noOp r => r

/-- What the decision makes of the entry it was taken on. -/
def apply : CasAction R → Option StoredValue → Option StoredValue
  | write e _, _ => some e
  | delete _, _ => none
  | noOp _, cur => cur

end CasAction

def maxCasRetries : Nat := 5

section Cas

variable {δ R : Type}

/-- A conditional write of `cas`: `Ok` ends the loop with `r`, `Contention` asks
for another attempt and any other error is returned. -/
def orContention (r : R) (p : KV Unit) : KV (Option R) := do
  match ← p.attempt with
  | .ok () => return some r
  | .error .contention => return none
  | .error e => Prog.fail e

/-- What `cas` does about the closure's decision on the entry it has loaded. -/
def casCommit (key : String) (loaded : Option (StoredValue × String)) :
    CasAction R → KV (Option R)
  | .noOp r => return some r
  | .delete r =>
      match loaded with
      | none => return some r
      | some (_, etag) => orContention r (KV.delete key (.ifMatch etag))
  | .write entry r =>
      match loaded with
      | none => orContention r (KV.save key entry .createOnly)
      | some (_, etag) => orContention r (KV.save key entry (.ifMatch etag))

/-- `left` attempts of `KVStorage::cas`.  The closure is `FnMut`, so its decision
may depend on its earlier invocations, `seen`; `draw` is the clock it reads. -/
def casFrom (key : String) (draw : KV δ)
    (modify : List (δ × Option StoredValue) → δ → Option StoredValue → Result (CasAction R)) :
    (left : Nat) → (seen : List (δ × Option StoredValue)) → KV R
  | 0, _ => Prog.fail .contention
  | left + 1, seen => do
      let loaded ← KV.load key
      let d ← draw
      let action ← Prog.ofExcept (modify seen d (loaded.map Prod.fst))
      match ← casCommit key loaded action with
      | some r => return r
      | none => casFrom key draw modify left (seen ++ [(d, loaded.map Prod.fst)])

/-- `KVStorage::cas`; the back-off sleeps between attempts touch no state. -/
def casMut (key : String) (draw : KV δ)
    (modify : List (δ × Option StoredValue) → δ → Option StoredValue → Result (CasAction R)) :
    KV R :=
  casFrom key draw modify maxCasRetries []

/-- `KVStorage::cas` with a closure that keeps no state of its own. -/
def casWith (key : String) (draw : KV δ)
    (modify : δ → Option StoredValue → Result (CasAction R)) : KV R :=
  casMut key draw fun _ => modify

/-- `KVStorage::cas` with a closure that reads the entry only. -/
def cas (key : String) (modify : Option StoredValue → Result (CasAction R)) : KV R :=
  casWith key (pure ()) fun _ => modify

/-! ## What a `cas` call requests -/

section Requests

variable {rely : (op : KVOp) → Result op.Res → Prop} {guar : KVOp → Prop} {key : String}

theorem orContention_obeys {r : R} {p : KV Unit} (h : p.Obeys rely guar fun _ => True) :
    (orContention r p).Obeys rely guar fun _ => True := by
  refine Prog.Obeys.bind (Prog.Obeys.attempt h) (fun answer _ => ?_) fun _ _ => trivial
  cases answer with
  | ok u => trivial
  | error e => cases e <;> trivial

/-- The write of a commit is a create when nothing was loaded and carries the
token of what was loaded otherwise. -/
theorem casCommit_obeys {loaded : Option (StoredValue × String)} {action : CasAction R}
    (hwrite : ∀ entry r, action = .write entry r → guar (.save key entry (loaded.elim .createOnly
      fun p => .ifMatch p.2)))
    (hdelete : ∀ r p, action = .delete r → loaded = some p → guar (.delete key (.ifMatch p.2))) :
    (casCommit key loaded action).Obeys rely guar fun _ => True := by
  cases action with
  | noOp r => trivial
  | delete r =>
      cases loaded with
      | none => trivial
      | some p =>
          exact orContention_obeys (Prog.Obeys.perform (hdelete r p rfl rfl) fun _ _ => trivial)
  | write entry r =>
      have hsave := hwrite entry r rfl
      cases loaded with
      | none => exact orContention_obeys (Prog.Obeys.perform hsave fun _ _ => trivial)
      | some p => exact orContention_obeys (Prog.Obeys.perform hsave fun _ _ => trivial)

theorem casFrom_obeys {draw : KV δ}
    {modify : List (δ × Option StoredValue) → δ → Option StoredValue → Result (CasAction R)}
    (hload : guar (.load key)) (hdraw : draw.Obeys rely guar fun _ => True)
    (hcommit : ∀ seen d loaded action, rely (.load key) (.ok loaded) →
      modify seen d (loaded.map Prod.fst) = .ok action →
        (casCommit key loaded action).Obeys rely guar fun _ => True) (left : Nat)
    (seen : List (δ × Option StoredValue)) :
    (casFrom key draw modify left seen).Obeys rely guar fun _ => True := by
  induction left generalizing seen with
  | zero => trivial
  | succ left ih =>
      have hanswer : (KV.load key).Obeys rely guar fun answer => rely (.load key) answer :=
        Prog.Obeys.perform hload fun _ h => h
      refine Prog.Obeys.bind hanswer (fun loaded hloaded => ?_) fun _ _ => trivial
      refine Prog.Obeys.bind hdraw (fun d _ => ?_) fun _ _ => trivial
      have hdecide : (Prog.ofExcept (modify seen d (loaded.map Prod.fst)) :
          KV (CasAction R)).Obeys rely guar fun r => r = modify seen d (loaded.map Prod.fst) :=
        Prog.Obeys.done rfl
      refine Prog.Obeys.bind hdecide (fun action haction => ?_) fun _ _ => trivial
      refine Prog.Obeys.bind (hcommit seen d loaded action hloaded haction.symm)
        (fun res _ => ?_) fun _ _ => trivial
      cases res with
      | none => exact ih _
      | some r => trivial

end Requests

end Cas

end RustyAnt
