import RustyAnt.Error
import RustyAnt.Stream.Basic
import Mathlib.Data.List.Sort

/-!
# Operations on a stream value

What the stream commands do to a `StreamValue`: id resolution and trimming of
`src/stream.rs`, and the bodies of the update closures of `src/storage.rs`.  Each
returns the new value with the command's result.
-/

namespace RustyAnt

inductive AddIdSpec where
  | auto
  | partialMs (ms : UInt64)
  | concrete (id : StreamId)
  deriving DecidableEq

inductive TrimBound where
  | maxLen (n : Nat)
  | minId (id : StreamId)

inductive RangeId where
  | minInf
  | maxInf
  | inclusive (id : StreamId)
  | exclusive (id : StreamId)

inductive GroupStartId where
  | concrete (id : StreamId)
  | latest

inductive XGroupOp where
  | create (group : String) (startId : GroupStartId) (mkstream : Bool)
  | setId (group : String) (startId : GroupStartId)
  | destroy (group : String)
  | createConsumer (group consumer : String)
  | delConsumer (group consumer : String)

inductive XReadGroupId where
  | newEntries
  | pending (after : StreamId)

structure XClaimOpts where
  idleMs : Option Int := none
  timeMs : Option Int := none
  retryCount : Option Nat := none
  force : Bool := false
  justId : Bool := false
  nowMs : Int := 0

structure XClaimResult where
  id : StreamId
  fields : Option (List (String × Bytes))
  deriving DecidableEq

structure XAutoClaimResult where
  nextCursor : StreamId
  claimed : List XClaimResult
  deletedIds : List StreamId
  deriving DecidableEq

namespace RangeId

def geMin : RangeId → StreamId → Bool
  | minInf, _ => true
  | maxInf, _ => false
  | inclusive bound, id => decide (bound ≤ id)
  | exclusive bound, id => decide (bound < id)

def leMax : RangeId → StreamId → Bool
  | minInf, _ => false
  | maxInf, _ => true
  | inclusive bound, id => decide (id ≤ bound)
  | exclusive bound, id => decide (id < bound)

end RangeId

def i64Max : Int := 2 ^ 63 - 1
def i64Min : Int := -2 ^ 63

/-- `i64::try_from(n).unwrap_or(i64::MAX)`. -/
def toI64 (n : Nat) : Int := min n i64Max

theorem toI64_of_le {len : Nat} (h : (len : Int) ≤ i64Max) : toI64 len = len := by
  unfold toI64
  omega

/-- Two's complement wrap-around of an `i64` result. -/
def wrapI64 (a : Int) : Int := (a + 2 ^ 63) % 2 ^ 64 - 2 ^ 63

/-- The values of an `i64`. -/
def InI64 (a : Int) : Prop := i64Min ≤ a ∧ a ≤ i64Max

theorem wrapI64_eq_iff {a : Int} : wrapI64 a = a ↔ InI64 a := by
  unfold wrapI64 InI64 i64Min i64Max
  omega

/-- A clock in milliseconds, far below the end of the range. -/
def IsClock (now : Int) : Prop := 0 ≤ now ∧ now < 2 ^ 62

/-- `u64::saturating_add(1)`. -/
def saturatingSucc (n : Nat) : Nat := min (n + 1) (2 ^ 64 - 1)

namespace Stream

def smallId : RustyAntError :=
  .parse "The ID specified in XADD is equal or smaller than the target stream top item"

def resolveAddId (spec : AddIdSpec) (last : StreamId) (nowMs : UInt64) : Result StreamId :=
  match spec with
  | .auto => .ok (if last.ms < nowMs then ⟨nowMs, 0⟩ else last.next)
  | .partialMs ms =>
      if ms < last.ms then .error smallId
      else .ok (if ms = last.ms then last.next else ⟨ms, 0⟩)
  | .concrete id => if id ≤ last then .error smallId else .ok id

/-! ## Trimming -/

/-- The loop of the standard library's binary search: `size` elements from `base`
on are still in question. -/
def searchFrom {α : Type} (xs : List α) (p : α → Bool) : (fuel base size : Nat) → Nat
  | 0, base, _ => base
  | fuel + 1, base, size =>
      if size ≤ 1 then base
      else
        let half := size / 2
        let mid := base + half
        searchFrom xs p fuel (if (xs[mid]?).any p then mid else base) (size - half)

/-- `slice::partition_point`. -/
def partitionPoint {α : Type} (xs : List α) (p : α → Bool) : Nat :=
  if xs.isEmpty then 0
  else
    let base := searchFrom xs p xs.length 0 xs.length
    base + if (xs[base]?).any p then 1 else 0

/-- How many entries at the head a bound asks to remove. -/
def trimTarget (entries : List StreamEntry) : TrimBound → Nat
  | .maxLen max => entries.length - max
  | .minId min => partitionPoint entries fun e => decide (e.id < min)

def trimInPlace (s : StreamValue) (bound : TrimBound) (limit : Option Nat) : StreamValue × Nat :=
  let target := trimTarget s.entries bound
  let toRemove := limit.elim target fun cap => min target cap
  let removed := s.entries.take toRemove
  match removed.getLast? with
  | none => (s, 0)
  | some last =>
      ({ s with
          entries := s.entries.drop toRemove
          maxDeletedEntryId := max s.maxDeletedEntryId last.id }, removed.length)

/-! ## Entries -/

/-- `xadd`, after the stream has been found or made. -/
def add (s : StreamValue) (spec : AddIdSpec) (fields : List (String × Bytes)) (nowMs : UInt64)
    (trim : Option (TrimBound × Option Nat)) : Result (StreamValue × StreamId) := do
  let id ← resolveAddId spec s.lastGeneratedId nowMs
  let s := { s with
    entries := s.entries ++ [⟨id, fields⟩]
    lastGeneratedId := id
    entriesAdded := saturatingSucc s.entriesAdded }
  match trim with
  | none => return (s, id)
  | some (bound, limit) => return ((trimInPlace s bound limit).1, id)

/-- `xdel`: the entries with one of the ids are removed. -/
def del (s : StreamValue) (ids : List StreamId) : StreamValue × Nat :=
  let removed := s.entries.filter fun e => ids.contains e.id
  ({ s with
      entries := s.entries.filter fun e => !ids.contains e.id
      maxDeletedEntryId := removed.foldl (fun m e => max m e.id) s.maxDeletedEntryId },
    removed.length)

/-! ## Groups -/

def noGroupError (group : String) : RustyAntError :=
  .parse ("NOGROUP No such consumer group '" ++ group ++
    "' for key name. The group does not exist.")

/-- `groups.get_mut(group).ok_or_else(no_group_error)`. -/
def getGroup (s : StreamValue) (group : String) : Result ConsumerGroup :=
  match s.groups[group]? with
  | some g => .ok g
  | none => .error (noGroupError group)

def setGroup (s : StreamValue) (group : String) (g : ConsumerGroup) : StreamValue :=
  { s with groups := s.groups.insert group g }

def startOf (s : StreamValue) : GroupStartId → StreamId
  | .concrete id => id
  | .latest => s.lastGeneratedId

def noStream : RustyAntError :=
  .parse ("ERR The XGROUP subcommand requires the key to exist. Note that for CREATE you may " ++
    "want to use the MKSTREAM option to create an empty stream automatically.")

def busyGroup : RustyAntError := .parse "BUSYGROUP Consumer Group name already exists"

def applyXgroupOp (s : StreamValue) (op : XGroupOp) (existed : Bool) :
    Result (StreamValue × Int) :=
  match op with
  | .create group startId mkstream =>
      if !existed && !mkstream then .error noStream
      else if s.groups.contains group then .error busyGroup
      else .ok (setGroup s group { lastDeliveredId := startOf s startId }, 1)
  | .setId group startId => do
      let g ← getGroup s group
      return (setGroup s group { g with lastDeliveredId := startOf s startId }, 1)
  | .destroy group =>
      .ok ({ s with groups := s.groups.erase group }, if s.groups.contains group then 1 else 0)
  | .createConsumer group consumer => do
      let g ← getGroup s group
      if g.consumers.contains consumer then return (s, 0)
      else return (setGroup s group { g with consumers := g.consumers.insert consumer {} }, 1)
  | .delConsumer group consumer => do
      let g ← getGroup s group
      let owned := g.pel.toList.countP fun p => p.2.consumer == consumer
      return (setGroup s group { g with
        consumers := g.consumers.erase consumer
        pel := g.pel.filter fun _ p => p.consumer != consumer }, toI64 owned)

/-- `g.consumers.entry(consumer).or_default().seen_ms = now`. -/
def touch (g : ConsumerGroup) (consumer : String) (now : Int) : ConsumerGroup :=
  { g with consumers := g.consumers.insert consumer { seenMs := now } }

/-- The bookkeeping of one new delivery. -/
def deliver (consumer : String) (noack : Bool) (now : Int) (g : ConsumerGroup) (e : StreamEntry) :
    ConsumerGroup :=
  { g with
    pel := if noack then g.pel else g.pel.insert e.id ⟨consumer, now, 1⟩
    lastDeliveredId := max g.lastDeliveredId e.id }

/-- The entries a `>` read delivers. -/
def newish (s : StreamValue) (g : ConsumerGroup) (count : Option Nat) : List StreamEntry :=
  let found := s.entries.filter fun e => decide (g.lastDeliveredId < e.id)
  count.elim found fun cap => found.take cap

/-- One row that is delivered again. -/
def redeliver (now : Int) (pel : BTreeMap StreamId PendingEntry) (id : StreamId) :
    BTreeMap StreamId PendingEntry :=
  match pel[id]? with
  | some p => pel.insert id { p with deliveryCount := saturatingSucc p.deliveryCount,
                                     deliveryTimeMs := now }
  | none => pel

/-- Rows of the pending list owned by a consumer, after an id. -/
def pendingRows (g : ConsumerGroup) (consumer : String) (after : StreamId) (count : Option Nat) :
    List StreamId :=
  let rows := (g.pel.toList.filter fun p => decide (after < p.1) && p.2.consumer == consumer).map
    Prod.fst
  count.elim rows fun cap => rows.take cap

def findEntry (s : StreamValue) (id : StreamId) : Option StreamEntry :=
  s.entries.find? fun e => e.id == id

/-- `delivered.sort_by_key(|e| e.id)`. -/
def sortById (entries : List StreamEntry) : List StreamEntry :=
  entries.insertionSort fun a b => a.id ≤ b.id

/-- `xreadgroup` on one stream. -/
def readGroup (s : StreamValue) (group consumer : String) (id : XReadGroupId) (count : Option Nat)
    (noack : Bool) (now : Int) : Result (StreamValue × List StreamEntry) := do
  let g ← getGroup s group
  match id with
  | .newEntries =>
      let delivered := newish s g count
      let g := touch (delivered.foldl (deliver consumer noack now) g) consumer now
      return (setGroup s group g, sortById delivered)
  | .pending after =>
      let rows := pendingRows g consumer after count
      let g := { g with pel := rows.foldl (redeliver now) g.pel }
      return (setGroup s group g, sortById (rows.filterMap (findEntry s)))

/-- One id of `xack`, counted when it was pending. -/
def ackOne (acc : BTreeMap StreamId PendingEntry × Int) (id : StreamId) :
    BTreeMap StreamId PendingEntry × Int :=
  if acc.1.contains id then (acc.1.erase id, acc.2 + 1) else acc

/-- `xack`; `none` when there is nothing to write. -/
def ack (s : StreamValue) (group : String) (ids : List StreamId) : Option (StreamValue × Int) :=
  match s.groups[group]? with
  | none => none
  | some g =>
      let (pel, acked) := ids.foldl ackOne (g.pel, 0)
      if acked = 0 then none else some (setGroup s group { g with pel := pel }, acked)

/-- `(now - t).max(0)`. -/
def idleSince (now t : Int) : Int := max (wrapI64 (now - t)) 0

def claimBody (s : StreamValue) (justId : Bool) (id : StreamId) : Option (List (String × Bytes)) :=
  if justId then none else (findEntry s id).map StreamEntry.fields

/-- May `xclaim` take this id? -/
def claimable (g : ConsumerGroup) (minIdleMs : Int) (opts : XClaimOpts) (id : StreamId) : Bool :=
  match g.pel[id]? with
  | none => opts.force
  | some p => decide (minIdleMs ≤ idleSince opts.nowMs p.deliveryTimeMs)

/-- One id of `xclaim`. -/
def claimOne (s : StreamValue) (consumer : String) (minIdleMs : Int) (opts : XClaimOpts)
    (acc : ConsumerGroup × List XClaimResult) (id : StreamId) :
    ConsumerGroup × List XClaimResult :=
  let (g, claimed) := acc
  if claimable g minIdleMs opts id then
    let time := opts.timeMs.getD (wrapI64 (opts.nowMs - opts.idleMs.getD 0))
    let count := opts.retryCount.getD
      ((g.pel[id]?).elim 1 fun p => saturatingSucc p.deliveryCount)
    let g := { g with pel := g.pel.insert id ⟨consumer, time, count⟩ }
    (touch g consumer opts.nowMs, claimed ++ [⟨id, claimBody s opts.justId id⟩])
  else acc

def claim (s : StreamValue) (group consumer : String) (minIdleMs : Int) (ids : List StreamId)
    (opts : XClaimOpts) : Result (StreamValue × List XClaimResult) := do
  let g ← getGroup s group
  let (g, claimed) := ids.foldl (claimOne s consumer minIdleMs opts) (g, [])
  return (setGroup s group g, claimed)

/-- The sweep of `xautoclaim` over the idle candidates. -/
def sweep (s : StreamValue) (consumer : String) (count : Nat) (justId : Bool) (now : Int) :
    List StreamId → BTreeMap StreamId PendingEntry → XAutoClaimResult →
      BTreeMap StreamId PendingEntry × XAutoClaimResult
  | [], pel, out => (pel, out)
  | id :: rest, pel, out =>
      if count ≤ out.claimed.length then (pel, { out with nextCursor := id })
      else if s.entries.any fun e => e.id == id then
        let pel := match pel[id]? with
          | some p => pel.insert id ⟨consumer, now, saturatingSucc p.deliveryCount⟩
          | none => pel
        sweep s consumer count justId now rest pel
          { out with claimed := out.claimed ++ [⟨id, claimBody s justId id⟩] }
      else
        sweep s consumer count justId now rest (pel.erase id)
          { out with deletedIds := out.deletedIds ++ [id] }

def autoclaim (s : StreamValue) (group consumer : String) (minIdleMs : Int) (start : StreamId)
    (count : Nat) (justId : Bool) (now : Int) : Result (StreamValue × XAutoClaimResult) := do
  let g ← getGroup s group
  let candidates := (g.pel.toList.filter fun p =>
    decide (start ≤ p.1) && decide (minIdleMs ≤ idleSince now p.2.deliveryTimeMs)).map Prod.fst
  let (pel, out) := sweep s consumer count justId now candidates g.pel ⟨.min, [], []⟩
  return (setGroup s group (touch { g with pel := pel } consumer now), out)

end Stream

end RustyAnt
