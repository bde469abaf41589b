import RustyAnt.Lib.Cursor
import RustyAnt.Storage.Streams
import Mathlib.Data.List.Induction

/-!
# Runs of stream commands

A stream key under any sequence of the commands that change it.  Each step is one
committed update: the closure of the command applied to the entry stored at that
point (`Storage/Linearizable.lean` is why this is what concurrent clients do).
The log keeps every reply.
-/

namespace RustyAnt

/-- `CasAction` with its result translated. -/
def CasAction.map {R S : Type} (f : R → S) : CasAction R → CasAction S
  | write e r => .write e (f r)
  | delete r => .delete (f r)
  | noOp r => .noOp (f r)

@[simp] theorem CasAction.map_apply {R S : Type} (f : R → S) (a : CasAction R)
    (entry : Option StoredValue) : (a.map f).apply entry = a.apply entry := by
  cases a <;> rfl

@[simp] theorem CasAction.map_result {R S : Type} (f : R → S) (a : CasAction R) :
    (a.map f).result = f a.result := by
  cases a <;> rfl

/-- A command on the stream, with the clock value it read. -/
inductive StreamCmd where
  | xadd (spec : AddIdSpec) (fields : List (String × Bytes)) (nomkstream : Bool)
      (trim : Option (TrimBound × Option Nat)) (now : UInt64)
  | xdel (ids : List StreamId)
  | xtrim (bound : TrimBound) (limit : Option Nat)
  | xgroup (op : XGroupOp)
  | xreadgroup (group consumer : String) (id : XReadGroupId) (count : Option Nat) (noack : Bool)
      (now : Int)
  | xack (group : String) (ids : List StreamId)
  | xclaim (group consumer : String) (minIdleMs : Int) (ids : List StreamId) (opts : XClaimOpts)
  | xautoclaim (group consumer : String) (minIdleMs : Int) (start : StreamId) (count : Nat)
      (justId : Bool) (now : Int)

inductive StreamReply where
  | added (id : Option StreamId)
  | count (n : Int)
  | delivered (entries : List StreamEntry)
  | claimed (rows : List XClaimResult)
  | autoclaimed (out : XAutoClaimResult)
  deriving DecidableEq

namespace StreamCmd

open Storage

/-- The update closure of the command. -/
def modify (key : String) :
    StreamCmd → Option StoredValue → Result (CasAction StreamReply)
  | xadd spec fields nomkstream trim now, entry =>
      (CasAction.map .added) <$> xaddModify key spec fields nomkstream trim now entry
  | xdel ids, entry => (CasAction.map .count) <$> xdelModify key ids entry
  | xtrim bound limit, entry => (CasAction.map .count) <$> xtrimModify key bound limit entry
  | xgroup op, entry => (CasAction.map .count) <$> xgroupModify key op entry
  | xreadgroup group consumer id count noack now, entry =>
      (CasAction.map .delivered) <$> xreadgroupModify group consumer id count noack now entry
  | xack group ids, entry => (CasAction.map .count) <$> xackModify key group ids entry
  | xclaim group consumer minIdleMs ids opts, entry =>
      (CasAction.map .claimed) <$> xclaimModify key group consumer minIdleMs ids opts entry
  | xautoclaim group consumer minIdleMs start count justId now, entry =>
      (CasAction.map .autoclaimed) <$>
        xautoclaimModify key group consumer minIdleMs start count justId now entry

/-! What the group commands do to a key that holds a stream. -/

section Stored

variable (key group consumer : String) (s : StreamValue) (exp : Option Int)

theorem map_write {α : Type} (f : α → StreamReply) (r : Result (StreamValue × α)) :
    (CasAction.map f) <$> (do let (s, out) ← r; return View.stream.write exp s out) =
      r.map fun p => (View.stream.write exp p.1 p.2).map f := by
  cases r <;> rfl

theorem modify_xreadgroup (id : XReadGroupId) (count : Option Nat) (noack : Bool) (now : Int) :
    modify key (.xreadgroup group consumer id count noack now) (some ⟨exp, .stream s⟩) =
      (Stream.readGroup s group consumer id count noack now).map
        fun p => (View.stream.write exp p.1 p.2).map .delivered :=
  map_write exp _ _

theorem modify_xack (ids : List StreamId) :
    modify key (.xack group ids) (some ⟨exp, .stream s⟩) =
      .ok (((Stream.ack s group ids).elim (.noOp 0) fun p => View.stream.write exp p.1 p.2).map
        .count) := by
  have hfind : View.stream.find key (some ⟨exp, .stream s⟩) = .ok (some (s, exp)) := rfl
  unfold modify xackModify
  dsimp only
  rw [hfind]
  dsimp only [bind, Except.bind]
  cases Stream.ack s group ids <;> rfl

theorem modify_xclaim (minIdleMs : Int) (ids : List StreamId) (opts : XClaimOpts) :
    modify key (.xclaim group consumer minIdleMs ids opts) (some ⟨exp, .stream s⟩) =
      (Stream.claim s group consumer minIdleMs ids opts).map
        fun p => (View.stream.write exp p.1 p.2).map .claimed :=
  map_write exp _ _

theorem modify_xautoclaim (minIdleMs : Int) (start : StreamId) (count : Nat) (justId : Bool)
    (now : Int) :
    modify key (.xautoclaim group consumer minIdleMs start count justId now)
        (some ⟨exp, .stream s⟩) =
      (Stream.autoclaim s group consumer minIdleMs start count justId now).map
        fun p => (View.stream.write exp p.1 p.2).map .autoclaimed :=
  map_write exp _ _

end Stored

end StreamCmd

/-- The entry stored at the key and the replies so far. -/
structure StreamRun where
  entry : Option StoredValue := none
  log : List (StreamCmd × Result StreamReply) := []

namespace StreamRun

/-- One command; an error leaves the entry as it is. -/
def step (key : String) (run : StreamRun) (cmd : StreamCmd) : StreamRun :=
  match cmd.modify key run.entry with
  | .ok action => ⟨action.apply run.entry, run.log ++ [(cmd, .ok action.result)]⟩
  | .error e => ⟨run.entry, run.log ++ [(cmd, .error e)]⟩

/-- A sequence of commands. -/
def exec (key : String) (run : StreamRun) (cmds : List StreamCmd) : StreamRun :=
  cmds.foldl (step key) run

@[simp] theorem exec_nil (key : String) (run : StreamRun) : run.exec key [] = run := rfl

theorem exec_append (key : String) (run : StreamRun) (cmds₁ cmds₂ : List StreamCmd) :
    run.exec key (cmds₁ ++ cmds₂) = (run.exec key cmds₁).exec key cmds₂ :=
  List.foldl_append

theorem exec_snoc (key : String) (run : StreamRun) (cmds : List StreamCmd) (cmd : StreamCmd) :
    run.exec key (cmds ++ [cmd]) = (run.exec key cmds).step key cmd := by
  rw [exec_append]
  rfl

theorem log_exec (key : String) (run : StreamRun) (cmds : List StreamCmd) :
    run.log <+: (run.exec key cmds).log := by
  induction cmds using List.reverseRecOn with
  | nil => exact List.prefix_rfl
  | append_singleton cmds cmd ih =>
      rw [exec_snoc]
      unfold step
      split
      · exact ih.trans (List.prefix_append _ _)
      · exact ih.trans (List.prefix_append _ _)

/-- What holds at the start and is kept by every step holds at the end. -/
theorem exec_invariant {key : String} {P : StreamRun → Prop} {run : StreamRun}
    {cmds : List StreamCmd} (hstart : P run)
    (hstep : ∀ cmds₁ cmd, cmds₁ ++ [cmd] <+: cmds → P (run.exec key cmds₁) →
      P ((run.exec key cmds₁).step key cmd)) :
    P (run.exec key cmds) := by
  induction cmds using List.reverseRecOn with
  | nil => exact hstart
  | append_singleton cmds cmd ih =>
      rw [exec_snoc]
      apply hstep cmds cmd List.prefix_rfl
      apply ih
      intro cmds₁ cmd₁ hpre
      exact hstep cmds₁ cmd₁ (hpre.trans (List.prefix_append _ _))

end StreamRun

/-! ## What one command does to the stream -/

/-- The stream of an entry; a missing key is an empty stream. -/
def streamOf : Option StoredValue → StreamValue
  | some ⟨_, .stream s⟩ => s
  | _ => {}

@[simp] theorem streamOf_none : streamOf none = {} := rfl

@[simp] theorem streamOf_stream (exp : Option Int) (s : StreamValue) :
    streamOf (some ⟨exp, .stream s⟩) = s := rfl

@[simp] theorem streamOf_write {R : Type} (exp : Option Int) (s : StreamValue) (r : R)
    (entry : Option StoredValue) :
    streamOf ((View.stream.write exp s r).apply entry) = s := rfl

@[simp] theorem result_write {R : Type} (exp : Option Int) (s : StreamValue) (r : R) :
    (View.stream.write exp s r).result = r := rfl

open RustyAnt.Stream in
/-- Everything a successful command can do: the stream before, the reply, the
stream after. -/
inductive StreamEffect : StreamCmd → StreamValue → StreamReply → StreamValue → Prop
  | nothing {cmd s r} (hr : r = .added none ∨ r = .count 0) : StreamEffect cmd s r s
  | added {s s' spec fields nomkstream trim now id}
      (h : add s spec fields now trim = .ok (s', id)) :
      StreamEffect (.xadd spec fields nomkstream trim now) s (.added (some id)) s'
  | deleted {s ids n} : StreamEffect (.xdel ids) s (.count n) (del s ids).1
  | trimmed {s bound limit n} :
      StreamEffect (.xtrim bound limit) s (.count n) (trimInPlace s bound limit).1
  | grouped {s s' op existed n} (h : applyXgroupOp s op existed = .ok (s', n)) :
      StreamEffect (.xgroup op) s (.count n) s'
  | read {s s' group consumer id count noack now out}
      (h : readGroup s group consumer id count noack now = .ok (s', out)) :
      StreamEffect (.xreadgroup group consumer id count noack now) s (.delivered out) s'
  | acked {s s' group ids n} (h : ack s group ids = some (s', n)) :
      StreamEffect (.xack group ids) s (.count n) s'
  | claimed {s s' group consumer minIdleMs ids opts out}
      (h : claim s group consumer minIdleMs ids opts = .ok (s', out)) :
      StreamEffect (.xclaim group consumer minIdleMs ids opts) s (.claimed out) s'
  | autoclaimed {s s' group consumer minIdleMs start count justId now out}
      (h : autoclaim s group consumer minIdleMs start count justId now = .ok (s', out)) :
      StreamEffect (.xautoclaim group consumer minIdleMs start count justId now) s
        (.autoclaimed out) s'

namespace Storage

open RustyAnt.Stream

variable {R : Type} {key : String} {entry : Option StoredValue} {a : CasAction R}

/-- A closure that starts by looking for the stream goes on from the stream of
the entry. -/
theorem find_stream {onNone : Result (CasAction R)}
    {onSome : StreamValue → Option Int → Result (CasAction R)}
    (h : (do
      match ← View.stream.find key entry with
      | none => onNone
      | some (s, exp) => onSome s exp) = .ok a) :
    (entry = none ∧ onNone = .ok a) ∨
      ∃ s exp, entry = some ⟨exp, .stream s⟩ ∧ onSome s exp = .ok a := by
  obtain ⟨found, hfind, h⟩ := Result.bind_eq_ok.mp h
  cases found with
  | none => exact .inl ⟨View.stream.find_none hfind, h⟩
  | some p => exact .inr ⟨p.1, p.2, View.stream.find_some hfind, h⟩

theorem xaddModify_effect {spec : AddIdSpec} {fields : List (String × Bytes)}
    {nomkstream : Bool} {trim : Option (TrimBound × Option Nat)} {now : UInt64}
    {b : CasAction (Option StreamId)}
    (h : xaddModify key spec fields nomkstream trim now entry = .ok b) :
    StreamEffect (.xadd spec fields nomkstream trim now) (streamOf entry) (.added b.result)
      (streamOf (b.apply entry)) := by
  rcases find_stream h with ⟨rfl, hnone⟩ | ⟨s, exp, rfl, hsome⟩
  · split at hnone
    · cases hnone
      exact .nothing (.inl rfl)
    · obtain ⟨p, hadd, hb⟩ := Result.bind_eq_ok.mp hnone
      cases hb
      exact .added hadd
  · obtain ⟨p, hadd, hb⟩ := Result.bind_eq_ok.mp hsome
    cases hb
    exact .added hadd

theorem xdelModify_effect {ids : List StreamId} {b : CasAction Int}
    (h : xdelModify key ids entry = .ok b) :
    StreamEffect (.xdel ids) (streamOf entry) (.count b.result) (streamOf (b.apply entry)) := by
  rcases find_stream h with ⟨rfl, hnone⟩ | ⟨s, exp, rfl, hsome⟩
  · cases hnone
    exact .nothing (.inr rfl)
  · simp only at hsome
    split at hsome
    · cases hsome
      exact .nothing (.inr rfl)
    · cases hsome
      exact .deleted

theorem xtrimModify_effect {bound : TrimBound} {limit : Option Nat} {b : CasAction Int}
    (h : xtrimModify key bound limit entry = .ok b) :
    StreamEffect (.xtrim bound limit) (streamOf entry) (.count b.result)
      (streamOf (b.apply entry)) := by
  rcases find_stream h with ⟨rfl, hnone⟩ | ⟨s, exp, rfl, hsome⟩
  · cases hnone
    exact .nothing (.inr rfl)
  · simp only at hsome
    split at hsome
    · cases hsome
      exact .nothing (.inr rfl)
    · cases hsome
      exact .trimmed

theorem xgroupModify_ok {op : XGroupOp} {b : CasAction Int}
    (h : xgroupModify key op entry = .ok b) :
    ∃ existed, applyXgroupOp (streamOf entry) op existed =
      .ok (streamOf (b.apply entry), b.result) := by
  rcases find_stream h with ⟨rfl, hnone⟩ | ⟨s, exp, rfl, hsome⟩
  · obtain ⟨p, hop, hb⟩ := Result.bind_eq_ok.mp hnone
    cases hb
    exact ⟨false, hop⟩
  · obtain ⟨p, hop, hb⟩ := Result.bind_eq_ok.mp hsome
    cases hb
    exact ⟨true, hop⟩

theorem xgroupModify_effect {op : XGroupOp} {b : CasAction Int}
    (h : xgroupModify key op entry = .ok b) :
    StreamEffect (.xgroup op) (streamOf entry) (.count b.result) (streamOf (b.apply entry)) := by
  obtain ⟨existed, hop⟩ := xgroupModify_ok h
  exact .grouped hop

theorem xreadgroupModify_effect {group consumer : String} {id : XReadGroupId}
    {count : Option Nat} {noack : Bool} {now : Int} {b : CasAction (List StreamEntry)}
    (h : xreadgroupModify group consumer id count noack now entry = .ok b) :
    StreamEffect (.xreadgroup group consumer id count noack now) (streamOf entry)
      (.delivered b.result) (streamOf (b.apply entry)) := by
  rcases find_stream h with ⟨rfl, hnone⟩ | ⟨s, exp, rfl, hsome⟩
  · cases hnone
  · obtain ⟨p, hread, hb⟩ := Result.bind_eq_ok.mp hsome
    cases hb
    exact .read hread

theorem xackModify_effect {group : String} {ids : List StreamId} {b : CasAction Int}
    (h : xackModify key group ids entry = .ok b) :
    StreamEffect (.xack group ids) (streamOf entry) (.count b.result)
      (streamOf (b.apply entry)) := by
  rcases find_stream h with ⟨rfl, hnone⟩ | ⟨s, exp, rfl, hsome⟩
  · cases hnone
    exact .nothing (.inr rfl)
  · split at hsome
    · cases hsome
      exact .nothing (.inr rfl)
    · rename_i s' acked hack
      cases hsome
      exact .acked hack

theorem xclaimModify_effect {group consumer : String} {minIdleMs : Int} {ids : List StreamId}
    {opts : XClaimOpts} {b : CasAction (List XClaimResult)}
    (h : xclaimModify key group consumer minIdleMs ids opts entry = .ok b) :
    StreamEffect (.xclaim group consumer minIdleMs ids opts) (streamOf entry)
      (.claimed b.result) (streamOf (b.apply entry)) := by
  rcases find_stream h with ⟨rfl, hnone⟩ | ⟨s, exp, rfl, hsome⟩
  · cases hnone
  · obtain ⟨p, hclaim, hb⟩ := Result.bind_eq_ok.mp hsome
    cases hb
    exact .claimed hclaim

theorem xautoclaimModify_effect {group consumer : String} {minIdleMs : Int} {start : StreamId}
    {count : Nat} {justId : Bool} {now : Int} {b : CasAction XAutoClaimResult}
    (h : xautoclaimModify key group consumer minIdleMs start count justId now entry = .ok b) :
    StreamEffect (.xautoclaim group consumer minIdleMs start count justId now) (streamOf entry)
      (.autoclaimed b.result) (streamOf (b.apply entry)) := by
  rcases find_stream h with ⟨rfl, hnone⟩ | ⟨s, exp, rfl, hsome⟩
  · cases hnone
  · obtain ⟨p, hclaim, hb⟩ := Result.bind_eq_ok.mp hsome
    cases hb
    exact .autoclaimed hclaim

end Storage

/-- A command that succeeds has one of the effects above. -/
theorem StreamCmd.modify_effect {key : String} {cmd : StreamCmd} {entry : Option StoredValue}
    {a : CasAction StreamReply} (h : cmd.modify key entry = .ok a) :
    StreamEffect cmd (streamOf entry) a.result (streamOf (a.apply entry)) := by
  cases cmd <;>
    (obtain ⟨b, hb, rfl⟩ := Result.map_eq_ok.mp h
     rw [CasAction.map_result, CasAction.map_apply])
  · exact Storage.xaddModify_effect hb
  · exact Storage.xdelModify_effect hb
  · exact Storage.xtrimModify_effect hb
  · exact Storage.xgroupModify_effect hb
  · exact Storage.xreadgroupModify_effect hb
  · exact Storage.xackModify_effect hb
  · exact Storage.xclaimModify_effect hb
  · exact Storage.xautoclaimModify_effect hb

/-- One step of a run: an error that changes nothing, or one of the effects. -/
theorem StreamRun.step_cases (key : String) (run : StreamRun) (cmd : StreamCmd) :
    (∃ e, run.step key cmd = ⟨run.entry, run.log ++ [(cmd, .error e)]⟩) ∨
      ∃ r, (run.step key cmd).log = run.log ++ [(cmd, .ok r)] ∧
        StreamEffect cmd (streamOf run.entry) r (streamOf (run.step key cmd).entry) := by
  unfold step
  cases h : cmd.modify key run.entry with
  | error e => exact .inl ⟨e, rfl⟩
  | ok a => exact .inr ⟨a.result, rfl, StreamCmd.modify_effect h⟩

/-! ## Entries only go, except by `XADD` -/

/-- Entries may go, with their ids recorded; no entry or id is made. -/
structure Shrinks (s s' : StreamValue) : Prop where
  entries : List.Sublist s'.entries s.entries
  last : s'.lastGeneratedId = s.lastGeneratedId
  maxDeleted : s'.maxDeletedEntryId = s.maxDeletedEntryId ∨
    ∃ e ∈ s.entries, s'.maxDeletedEntryId = e.id

theorem Shrinks.refl (s : StreamValue) : Shrinks s s := ⟨List.Sublist.refl _, rfl, .inl rfl⟩

namespace Stream

theorem setGroup_shrinks (s : StreamValue) (group : String) (g : ConsumerGroup) :
    Shrinks s (setGroup s group g) :=
  ⟨List.Sublist.refl _, rfl, .inl rfl⟩

theorem trimInPlace_shrinks (s : StreamValue) (bound : TrimBound) (limit : Option Nat) :
    Shrinks s (trimInPlace s bound limit).1 := by
  unfold trimInPlace
  simp only
  split
  · exact .refl s
  · rename_i last hlast
    refine ⟨List.drop_sublist _ _, rfl, ?_⟩
    have hmem : last ∈ s.entries := List.mem_of_mem_take (List.mem_of_getLast? hlast)
    rcases max_choice s.maxDeletedEntryId last.id with h | h
    · exact .inl h
    · exact .inr ⟨last, hmem, h⟩

theorem trimInPlace_groups (s : StreamValue) (bound : TrimBound) (limit : Option Nat) :
    (trimInPlace s bound limit).1.groups = s.groups := by
  unfold trimInPlace
  simp only
  split <;> rfl

theorem del_shrinks (s : StreamValue) (ids : List StreamId) : Shrinks s (del s ids).1 := by
  refine ⟨List.filter_sublist, rfl, ?_⟩
  rcases Lib.advance_mem StreamEntry.id (s.entries.filter fun e => ids.contains e.id)
    s.maxDeletedEntryId with h | ⟨e, he, h⟩
  · exact .inl h
  · exact .inr ⟨e, List.mem_of_mem_filter he, h⟩

/-- The stream with one more entry, before any trimming. -/
def append (s : StreamValue) (id : StreamId) (fields : List (String × Bytes)) : StreamValue :=
  { s with
    entries := s.entries ++ [⟨id, fields⟩]
    lastGeneratedId := id
    entriesAdded := saturatingSucc s.entriesAdded }

theorem add_ok {s s' : StreamValue} {spec : AddIdSpec} {fields : List (String × Bytes)}
    {now : UInt64} {trim : Option (TrimBound × Option Nat)} {id : StreamId}
    (h : add s spec fields now trim = .ok (s', id)) :
    resolveAddId spec s.lastGeneratedId now = .ok id ∧
      Shrinks (append s id fields) s' ∧ s'.groups = s.groups := by
  unfold add at h
  obtain ⟨i, hid, h⟩ := Result.bind_eq_ok.mp h
  split at h
  · cases h
    exact ⟨hid, .refl _, rfl⟩
  · cases h
    exact ⟨hid, trimInPlace_shrinks _ _ _, trimInPlace_groups _ _ _⟩

theorem getGroup_ok {s : StreamValue} {group : String} {g : ConsumerGroup} :
    getGroup s group = .ok g ↔ s.groups[group]? = some g := by
  unfold getGroup
  cases s.groups[group]? <;> simp

/-- A change of one group that does not move its cursor. -/
def Regroups (group : String) (s s' : StreamValue) : Prop :=
  ∃ g g', s.groups[group]? = some g ∧ s' = setGroup s group g' ∧
    g'.lastDeliveredId = g.lastDeliveredId

theorem Regroups.shrinks {group : String} {s s' : StreamValue} (h : Regroups group s s') :
    Shrinks s s' := by
  obtain ⟨g, g', -, rfl, -⟩ := h
  exact setGroup_shrinks _ _ _

theorem readGroup_pending {s s' : StreamValue} {group consumer : String} {after : StreamId}
    {count : Option Nat} {noack : Bool} {now : Int} {out : List StreamEntry}
    (h : readGroup s group consumer (.pending after) count noack now = .ok (s', out)) :
    Regroups group s s' := by
  unfold readGroup at h
  obtain ⟨g, hg, h⟩ := Result.bind_eq_ok.mp h
  cases h
  exact ⟨g, _, getGroup_ok.mp hg, rfl, rfl⟩

def delivered (consumer : String) (noack : Bool) (now : Int) (g : ConsumerGroup)
    (entries : List StreamEntry) : ConsumerGroup :=
  touch (entries.foldl (deliver consumer noack now) g) consumer now

theorem readGroup_new {s s' : StreamValue} {group consumer : String}
    {count : Option Nat} {noack : Bool} {now : Int} {out : List StreamEntry}
    (h : readGroup s group consumer .newEntries count noack now = .ok (s', out)) :
    ∃ g, s.groups[group]? = some g ∧ out = sortById (newish s g count) ∧
      s' = setGroup s group (delivered consumer noack now g (newish s g count)) := by
  unfold readGroup at h
  obtain ⟨g, hg, h⟩ := Result.bind_eq_ok.mp h
  cases h
  exact ⟨g, getGroup_ok.mp hg, rfl, rfl⟩

theorem ack_regroups {s s' : StreamValue} {group : String} {ids : List StreamId} {n : Int}
    (h : ack s group ids = some (s', n)) : Regroups group s s' := by
  unfold ack at h
  split at h
  · cases h
  · rename_i g hg
    simp only at h
    split at h
    · cases h
    · cases h
      exact ⟨g, _, hg, rfl, rfl⟩

theorem claimOne_lastDelivered (s : StreamValue) (consumer : String) (minIdleMs : Int)
    (opts : XClaimOpts) (acc : ConsumerGroup × List XClaimResult) (id : StreamId) :
    (claimOne s consumer minIdleMs opts acc id).1.lastDeliveredId = acc.1.lastDeliveredId := by
  unfold claimOne
  simp only
  split <;> rfl

theorem claimAll_lastDelivered (s : StreamValue) (consumer : String) (minIdleMs : Int)
    (opts : XClaimOpts) (ids : List StreamId) (acc : ConsumerGroup × List XClaimResult) :
    (ids.foldl (claimOne s consumer minIdleMs opts) acc).1.lastDeliveredId =
      acc.1.lastDeliveredId := by
  induction ids generalizing acc with
  | nil => rfl
  | cons id ids ih => rw [List.foldl_cons, ih, claimOne_lastDelivered]

theorem claim_regroups {s s' : StreamValue} {group consumer : String} {minIdleMs : Int}
    {ids : List StreamId} {opts : XClaimOpts} {out : List XClaimResult}
    (h : claim s group consumer minIdleMs ids opts = .ok (s', out)) : Regroups group s s' := by
  unfold claim at h
  obtain ⟨g, hg, h⟩ := Result.bind_eq_ok.mp h
  cases h
  exact ⟨g, _, getGroup_ok.mp hg, rfl, claimAll_lastDelivered _ _ _ _ _ _⟩

theorem autoclaim_regroups {s s' : StreamValue} {group consumer : String} {minIdleMs : Int}
    {start : StreamId} {count : Nat} {justId : Bool} {now : Int} {out : XAutoClaimResult}
    (h : autoclaim s group consumer minIdleMs start count justId now = .ok (s', out)) :
    Regroups group s s' := by
  unfold autoclaim at h
  obtain ⟨g, hg, h⟩ := Result.bind_eq_ok.mp h
  cases h
  exact ⟨g, _, getGroup_ok.mp hg, rfl, rfl⟩

theorem applyXgroupOp_create {s s' : StreamValue} {group : String} {start : GroupStartId}
    {mkstream existed : Bool} {r : Int}
    (h : applyXgroupOp s (.create group start mkstream) existed = .ok (s', r)) :
    group ∉ s.groups ∧ s' = setGroup s group { lastDeliveredId := startOf s start } := by
  simp only [applyXgroupOp] at h
  split at h
  · cases h
  · split at h
    · cases h
    · rename_i hfree
      cases h
      exact ⟨by simpa using hfree, rfl⟩

/-- `XGROUP` makes a group, moves a cursor, drops a group, or works on consumers. -/
theorem applyXgroupOp_ok {s s' : StreamValue} {op : XGroupOp} {existed : Bool} {r : Int}
    (h : applyXgroupOp s op existed = .ok (s', r)) :
    s' = s ∨ (∃ group, Regroups group s s') ∨
      (∃ group start mkstream, op = .create group start mkstream ∧ group ∉ s.groups ∧
        s' = setGroup s group { lastDeliveredId := startOf s start }) ∨
      (∃ group start, ∃ g : ConsumerGroup, op = .setId group start ∧
        s' = setGroup s group { g with lastDeliveredId := startOf s start }) ∨
      ∃ group, op = .destroy group ∧ s' = { s with groups := s.groups.erase group } := by
  cases op with
  | create group start mkstream =>
      exact .inr (.inr (.inl ⟨group, start, mkstream, rfl, applyXgroupOp_create h⟩))
  | setId group start =>
      obtain ⟨g, -, h⟩ := Result.bind_eq_ok.mp h
      cases h
      exact .inr (.inr (.inr (.inl ⟨group, start, g, rfl, rfl⟩)))
  | destroy group =>
      cases h
      exact .inr (.inr (.inr (.inr ⟨group, rfl, rfl⟩)))
  | createConsumer group consumer =>
      obtain ⟨g, hg, h⟩ := Result.bind_eq_ok.mp h
      split at h
      · cases h
        exact .inl rfl
      · cases h
        exact .inr (.inl ⟨group, g, _, getGroup_ok.mp hg, rfl, rfl⟩)
  | delConsumer group consumer =>
      obtain ⟨g, hg, h⟩ := Result.bind_eq_ok.mp h
      cases h
      exact .inr (.inl ⟨group, g, _, getGroup_ok.mp hg, rfl, rfl⟩)

theorem applyXgroupOp_shrinks {s s' : StreamValue} {op : XGroupOp} {existed : Bool} {r : Int}
    (h : applyXgroupOp s op existed = .ok (s', r)) : Shrinks s s' := by
  rcases applyXgroupOp_ok h with rfl | ⟨group, hre⟩ | ⟨group, _, _, _, _, rfl⟩ |
    ⟨group, _, g, _, rfl⟩ | ⟨group, _, rfl⟩
  · exact .refl _
  · exact hre.shrinks
  · exact setGroup_shrinks _ _ _
  · exact setGroup_shrinks _ _ _
  · exact ⟨List.Sublist.refl _, rfl, .inl rfl⟩

end Stream

/-- Every effect that returns no new id leaves the ids it finds. -/
theorem StreamEffect.shrinks {cmd : StreamCmd} {s s' : StreamValue} {r : StreamReply}
    (h : StreamEffect cmd s r s') (hr : ∀ id, r ≠ .added (some id)) : Shrinks s s' := by
  cases h with
  | nothing _ => exact .refl s
  | added _ => exact absurd rfl (hr _)
  | deleted => exact Stream.del_shrinks _ _
  | trimmed => exact Stream.trimInPlace_shrinks _ _ _
  | grouped h => exact Stream.applyXgroupOp_shrinks h
  | @read s s' group consumer id count noack now out h =>
      cases id with
      | newEntries =>
          obtain ⟨g, -, -, rfl⟩ := Stream.readGroup_new h
          exact Stream.setGroup_shrinks _ _ _
      | pending after => exact (Stream.readGroup_pending h).shrinks
  | acked h => exact (Stream.ack_regroups h).shrinks
  | claimed h => exact (Stream.claim_regroups h).shrinks
  | autoclaimed h => exact (Stream.autoclaim_regroups h).shrinks

theorem StreamEffect.added_inv {cmd : StreamCmd} {s s' : StreamValue} {id : StreamId}
    (h : StreamEffect cmd s (.added (some id)) s') :
    ∃ spec fields nomkstream trim now, cmd = .xadd spec fields nomkstream trim now ∧
      Stream.resolveAddId spec s.lastGeneratedId now = .ok id ∧
      Shrinks (Stream.append s id fields) s' ∧ s'.groups = s.groups := by
  cases h with
  | nothing hr => simp at hr
  | @added _ _ spec fields nomkstream trim now _ h =>
      exact ⟨spec, fields, nomkstream, trim, now, rfl, Stream.add_ok h⟩

end RustyAnt
