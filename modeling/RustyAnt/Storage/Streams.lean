import RustyAnt.Storage.View

/-!
# Stream operations

The `Storage` methods on the `Stream` variant.  The update closures are named, so
that whole runs of stream commands can be followed on the stored value.
-/

namespace RustyAnt

open Lib

structure XPendingSummary where
  count : Nat
  min : StreamId
  max : StreamId
  perConsumer : List (String × Nat)
  deriving DecidableEq

structure XPendingDetailRow where
  id : StreamId
  consumer : String
  idleMs : Int
  deliveryCount : Nat
  deriving DecidableEq

structure XInfoGroup where
  name : String
  consumers : Nat
  pending : Nat
  lastDeliveredId : StreamId
  deriving DecidableEq

structure XInfoConsumer where
  name : String
  pending : Nat
  idleMs : Int
  deriving DecidableEq

namespace Storage

open RustyAnt.Stream

/-! ## Update closures -/

def xaddModify (key : String) (spec : AddIdSpec) (fields : List (String × Bytes))
    (nomkstream : Bool) (trim : Option (TrimBound × Option Nat)) (now : UInt64)
    (entry : Option StoredValue) : Result (CasAction (Option StreamId)) := do
  match ← View.stream.find key entry with
  | none =>
      if nomkstream then return .noOp none
      else
        let (s, id) ← add {} spec fields now trim
        return View.stream.write none s (some id)
  | some (s, exp) =>
      let (s, id) ← add s spec fields now trim
      return View.stream.write exp s (some id)

def xdelModify (key : String) (ids : List StreamId) (entry : Option StoredValue) :
    Result (CasAction Int) := do
  match ← View.stream.find key entry with
  | none => return .noOp 0
  | some (s, exp) =>
      let (s, removed) := del s ids
      if removed = 0 then return .noOp 0 else return View.stream.write exp s (toI64 removed)

def xtrimModify (key : String) (bound : TrimBound) (limit : Option Nat)
    (entry : Option StoredValue) : Result (CasAction Int) := do
  match ← View.stream.find key entry with
  | none => return .noOp 0
  | some (s, exp) =>
      let (s, removed) := trimInPlace s bound limit
      if removed = 0 then return .noOp 0 else return View.stream.write exp s (toI64 removed)

def xgroupModify (key : String) (op : XGroupOp) (entry : Option StoredValue) :
    Result (CasAction Int) := do
  match ← View.stream.find key entry with
  | none =>
      let (s, result) ← applyXgroupOp {} op false
      return View.stream.write none s result
  | some (s, exp) =>
      let (s, result) ← applyXgroupOp s op true
      return View.stream.write exp s result

/-- The type error of `xreadgroup` names no key. -/
def xreadgroupModify (group consumer : String) (id : XReadGroupId) (count : Option Nat)
    (noack : Bool) (now : Int) (entry : Option StoredValue) :
    Result (CasAction (List StreamEntry)) := do
  match ← View.stream.find "" entry with
  | none => .error (noGroupError group)
  | some (s, exp) =>
      let (s, delivered) ← readGroup s group consumer id count noack now
      return View.stream.write exp s delivered

def xackModify (key group : String) (ids : List StreamId) (entry : Option StoredValue) :
    Result (CasAction Int) := do
  match ← View.stream.find key entry with
  | none => return .noOp 0
  | some (s, exp) =>
      match ack s group ids with
      | none => return .noOp 0
      | some (s, acked) => return View.stream.write exp s acked

def xclaimModify (key group consumer : String) (minIdleMs : Int) (ids : List StreamId)
    (opts : XClaimOpts) (entry : Option StoredValue) : Result (CasAction (List XClaimResult)) := do
  match ← View.stream.find key entry with
  | none => .error (noGroupError group)
  | some (s, exp) =>
      let (s, claimed) ← claim s group consumer minIdleMs ids opts
      return View.stream.write exp s claimed

def xautoclaimModify (key group consumer : String) (minIdleMs : Int) (start : StreamId)
    (count : Nat) (justId : Bool) (now : Int) (entry : Option StoredValue) :
    Result (CasAction XAutoClaimResult) := do
  match ← View.stream.find key entry with
  | none => .error (noGroupError group)
  | some (s, exp) =>
      let (s, out) ← autoclaim s group consumer minIdleMs start count justId now
      return View.stream.write exp s out

/-! ## Methods -/

def xadd (key : String) (spec : AddIdSpec) (fields : List (String × Bytes)) (nomkstream : Bool)
    (trim : Option (TrimBound × Option Nat)) : KV (Option StreamId) := do
  let now ← KV.nowMs
  cas key (xaddModify key spec fields nomkstream trim (UInt64.ofNat (max now 0).toNat))

def xdel (key : String) (ids : List StreamId) : KV Int := cas key (xdelModify key ids)

def xtrim (key : String) (bound : TrimBound) (limit : Option Nat) : KV Int :=
  cas key (xtrimModify key bound limit)

def xgroup (key : String) (op : XGroupOp) : KV Int := cas key (xgroupModify key op)

def xreadgroup (group consumer : String) (count : Option Nat) (noack : Bool) (now : Int) :
    List (String × XReadGroupId) → KV (List (String × List StreamEntry))
  | [] => return []
  | (key, id) :: rest => do
      let entries ← cas key (xreadgroupModify group consumer id count noack now)
      let out ← xreadgroup group consumer count noack now rest
      return if entries.isEmpty then out else (key, entries) :: out

def xack (key group : String) (ids : List StreamId) : KV Int := cas key (xackModify key group ids)

def xclaim (key group consumer : String) (minIdleMs : Int) (ids : List StreamId)
    (opts : XClaimOpts) : KV (List XClaimResult) :=
  cas key (xclaimModify key group consumer minIdleMs ids opts)

def xautoclaim (key group consumer : String) (minIdleMs : Int) (start : StreamId) (count : Nat)
    (justId : Bool) (now : Int) : KV XAutoClaimResult :=
  cas key (xautoclaimModify key group consumer minIdleMs start count justId now)

def xlen (key : String) : KV Int := View.stream.read key 0 fun s => toI64 s.entries.length

def xrange (key : String) (start stop : RangeId) (count : Option Nat) (reverse : Bool) :
    KV (List StreamEntry) :=
  View.stream.read key [] fun s =>
    let filtered := s.entries.filter fun e => start.geMin e.id && stop.leMax e.id
    let filtered := if reverse then filtered.reverse else filtered
    count.elim filtered fun cap => filtered.take cap

def xread (count : Option Nat) : List (String × StreamId) → KV (List (String × List StreamEntry))
  | [] => return []
  | (key, after) :: rest => do
      let entries ← View.stream.read key [] fun s =>
        let matched := s.entries.filter fun e => decide (after < e.id)
        count.elim matched fun cap => matched.take cap
      let out ← xread count rest
      return if entries.isEmpty then out else (key, entries) :: out

def xinfoStream (key : String) : KV (Option StreamValue) := View.stream.read key none some

/-- The stream of a read that needs its group. -/
def groupOf (key group : String) (entry : Option StoredValue) : Result ConsumerGroup := do
  match ← View.stream.find key entry with
  | none => .error (noGroupError group)
  | some (s, _) => getGroup s group

def perConsumer (g : ConsumerGroup) : BTreeMap String Nat :=
  g.pel.toList.foldl (fun m p => m.insert p.2.consumer (m[p.2.consumer]?.getD 0 + 1)) ∅

def xpendingSummary (key group : String) : KV (Option XPendingSummary) := do
  let entry ← KV.loadEntry key
  let g ← Prog.ofExcept (groupOf key group entry)
  match g.pel.keys.head?, g.pel.keys.getLast? with
  | some min, some max => return some ⟨g.pel.size, min, max, (perConsumer g).toList⟩
  | _, _ => return none

def pendingDetail (g : ConsumerGroup) (start stop : RangeId) (count : Nat)
    (consumer : Option String) (idleMs : Option Int) (now : Int) : List XPendingDetailRow :=
  let rows := g.pel.toList.filterMap fun (id, p) =>
    let idle := idleSince now p.deliveryTimeMs
    if start.geMin id && stop.leMax id && consumer.all (· == p.consumer) &&
        idleMs.all fun minIdle => decide (minIdle ≤ idle) then
      some ⟨id, p.consumer, idle, p.deliveryCount⟩
    else none
  -- the loop stops after the push that reaches `count`
  rows.take (max count 1)

def xpendingDetail (key group : String) (start stop : RangeId) (count : Nat)
    (consumer : Option String) (idleMs : Option Int) (now : Int) : KV (List XPendingDetailRow) := do
  let entry ← KV.loadEntry key
  let g ← Prog.ofExcept (groupOf key group entry)
  return pendingDetail g start stop count consumer idleMs now

def xinfoGroups (key : String) : KV (List XInfoGroup) :=
  View.stream.read key [] fun s => s.groups.toList.map fun (name, g) =>
    ⟨name, g.consumers.size, g.pel.size, g.lastDeliveredId⟩

def xinfoConsumers (key group : String) : KV (List XInfoConsumer) := do
  let entry ← KV.loadEntry key
  let g ← Prog.ofExcept (groupOf key group entry)
  let now ← KV.nowMs
  return g.consumers.toList.map fun (name, c) =>
    ⟨name, g.pel.toList.countP fun p => p.2.consumer == name, idleSince now c.seenMs⟩

end Storage

end RustyAnt
