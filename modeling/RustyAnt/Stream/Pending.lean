import RustyAnt.Stream.Delivery
import Mathlib.Algebra.BigOperators.Group.List.Basic

/-!
# Pending rows and their consumers

Every row of a group's pending list belongs to a consumer the group knows, however
the rows were delivered, claimed and dropped.  The counts of `XPENDING`, `XINFO
GROUPS` and `XINFO CONSUMERS` then count the same rows.
-/

namespace RustyAnt

open Lib

namespace ConsumerGroup

/-- Every pending row belongs to a consumer of the group. -/
def Owned (g : ConsumerGroup) : Prop :=
  ∀ (id : StreamId) (p : PendingEntry), g.pel[id]? = some p → p.consumer ∈ g.consumers

/-- Every pending row belongs to a consumer of the group or to `consumer`. -/
def OwnedWith (consumer : String) (g : ConsumerGroup) : Prop :=
  ∀ (id : StreamId) (p : PendingEntry), g.pel[id]? = some p → p.consumer = consumer ∨ p.consumer ∈ g.consumers

variable {g : ConsumerGroup} {consumer : String}

theorem Owned.with (h : g.Owned) (consumer : String) : g.OwnedWith consumer :=
  fun id p hp => .inr (h id p hp)

theorem owned_empty (start : StreamId) : Owned { lastDeliveredId := start } := by
  intro id p hp
  simp at hp

theorem OwnedWith.touch (h : g.OwnedWith consumer) (now : Int) :
    (Stream.touch g consumer now).Owned := by
  intro id p hp
  rcases h id p hp with heq | hmem
  · simp [Stream.touch, heq]
  · simp [Stream.touch, hmem]

theorem OwnedWith.insert (h : g.OwnedWith consumer) (id : StreamId) (time : Int) (count : Nat) :
    OwnedWith consumer { g with pel := g.pel.insert id ⟨consumer, time, count⟩ } := by
  intro id' p hp
  rw [Std.ExtTreeMap.getElem?_insert] at hp
  split at hp
  · cases hp
    exact .inl rfl
  · exact h id' p hp

/-- Rows may go, and what is said of the rows that stay does not involve the consumer. -/
theorem Owned.of_rows {pel : BTreeMap StreamId PendingEntry} (h : g.Owned)
    (hrows : ∀ (id : StreamId) (p : PendingEntry), pel[id]? = some p →
      ∃ q : PendingEntry, g.pel[id]? = some q ∧ q.consumer = p.consumer) :
    Owned { g with pel := pel } := by
  intro id p hp
  obtain ⟨q, hq, heq⟩ := hrows id p hp
  have hmem := h id q hq
  rw [heq] at hmem
  exact hmem

end ConsumerGroup

/-- Every group of the stream is well owned. -/
def StreamValue.Owned (s : StreamValue) : Prop :=
  ∀ (group : String) (g : ConsumerGroup), s.groups[group]? = some g → g.Owned

namespace Stream

open ConsumerGroup

variable {s s' : StreamValue} {group consumer : String} {g g' : ConsumerGroup}

theorem groups_setGroup {P : ConsumerGroup → Prop}
    (hs : ∀ (name : String) (g : ConsumerGroup), s.groups[name]? = some g → P g) (group : String)
    (hg : P g) :
    ∀ (name : String) (g' : ConsumerGroup), (setGroup s group g).groups[name]? = some g' → P g' := by
  intro name g' h
  rw [getElem?_setGroup] at h
  split at h
  · cases h
    exact hg
  · exact hs name g' h

theorem owned_setGroup (hs : s.Owned) (group : String) (hg : g.Owned) :
    (setGroup s group g).Owned := groups_setGroup hs group hg

theorem owned_of_groups (hs : s.Owned) (h : s'.groups = s.groups) : s'.Owned := by
  intro name g hg
  rw [h] at hg
  exact hs name g hg

/-! ## Deliveries -/

theorem deliver_consumers (noack : Bool) (now : Int) (g : ConsumerGroup) (e : StreamEntry) :
    (deliver consumer noack now g e).consumers = g.consumers := by
  cases g
  rfl

theorem deliver_pel (noack : Bool) (now : Int) (g : ConsumerGroup) (e : StreamEntry) :
    (deliver consumer noack now g e).pel =
      if noack then g.pel else g.pel.insert e.id ⟨consumer, now, 1⟩ := by
  cases g
  rfl

theorem ownedWith_deliver (noack : Bool) (now : Int) (h : g.OwnedWith consumer) (e : StreamEntry) :
    (deliver consumer noack now g e).OwnedWith consumer := by
  intro id p hp
  rw [deliver_consumers]
  rw [deliver_pel] at hp
  split at hp
  · exact h id p hp
  · exact h.insert e.id now 1 id p hp

theorem ownedWith_deliverAll (noack : Bool) (now : Int) (entries : List StreamEntry)
    (h : g.OwnedWith consumer) :
    (entries.foldl (deliver consumer noack now) g).OwnedWith consumer := by
  induction entries generalizing g with
  | nil => exact h
  | cons e entries ih => exact ih (ownedWith_deliver noack now h e)

theorem redeliver_owner (now : Int) (pel : BTreeMap StreamId PendingEntry) (id id' : StreamId)
    {p : PendingEntry} (h : (redeliver now pel id)[id']? = some p) :
    ∃ q : PendingEntry, pel[id']? = some q ∧ q.consumer = p.consumer := by
  unfold redeliver at h
  split at h
  · rename_i q hq
    rw [Std.ExtTreeMap.getElem?_insert] at h
    split at h
    · rename_i heq
      cases h
      rw [compare_eq_iff_eq] at heq
      exact ⟨q, heq ▸ hq, rfl⟩
    · exact ⟨p, h, rfl⟩
  · exact ⟨p, h, rfl⟩

theorem redeliverAll_owner (now : Int) (rows : List StreamId)
    (pel : BTreeMap StreamId PendingEntry) (id : StreamId) {p : PendingEntry}
    (h : (rows.foldl (redeliver now) pel)[id]? = some p) :
    ∃ q : PendingEntry, pel[id]? = some q ∧ q.consumer = p.consumer := by
  induction rows generalizing pel with
  | nil => exact ⟨p, h, rfl⟩
  | cons row rows ih =>
      obtain ⟨q, hq, howner⟩ := ih _ h
      obtain ⟨q', hq', howner'⟩ := redeliver_owner now pel row id hq
      exact ⟨q', hq', howner'.trans howner⟩

theorem owned_readGroup {id : XReadGroupId} {count : Option Nat} {noack : Bool} {now : Int}
    {out : List StreamEntry} (hs : s.Owned)
    (h : readGroup s group consumer id count noack now = .ok (s', out)) : s'.Owned := by
  unfold readGroup at h
  obtain ⟨g, hg, h⟩ := Result.bind_eq_ok.mp h
  have hgroup := hs group g (getGroup_ok.mp hg)
  cases id with
  | newEntries =>
      cases h
      have hall := ownedWith_deliverAll noack now (newish s g count) (hgroup.with consumer)
      exact owned_setGroup hs group (hall.touch now)
  | pending after =>
      cases h
      apply owned_setGroup hs group
      exact hgroup.of_rows fun id p hp => redeliverAll_owner now _ _ id hp

/-! ## Acknowledgements -/

theorem ackOne_row {acc : BTreeMap StreamId PendingEntry × Int} (id id' : StreamId)
    {p : PendingEntry} (h : (ackOne acc id).1[id']? = some p) : acc.1[id']? = some p := by
  unfold ackOne at h
  split at h
  · rw [Std.ExtTreeMap.getElem?_erase] at h
    split at h
    · cases h
    · exact h
  · exact h

theorem ackAll_row (ids : List StreamId) {acc : BTreeMap StreamId PendingEntry × Int}
    (id : StreamId) {p : PendingEntry} (h : (ids.foldl ackOne acc).1[id]? = some p) :
    acc.1[id]? = some p := by
  induction ids generalizing acc with
  | nil => exact h
  | cons first ids ih => exact ackOne_row first id (ih h)

theorem owned_ack {ids : List StreamId} {n : Int} (hs : s.Owned)
    (h : ack s group ids = some (s', n)) : s'.Owned := by
  unfold ack at h
  split at h
  · cases h
  · rename_i g hg
    dsimp only at h
    split at h
    · cases h
    · cases h
      apply owned_setGroup hs group
      exact (hs group g hg).of_rows fun id p hp => ⟨p, ackAll_row ids id hp, rfl⟩

/-- One id is acknowledged when it is pending, and the reply says so. -/
theorem ack_one (s : StreamValue) (hg : s.groups[group]? = some g) (id : StreamId) :
    (ack s group [id]).elim 0 Prod.snd = if id ∈ g.pel then 1 else 0 := by
  unfold ack
  rw [hg]
  dsimp only [List.foldl]
  by_cases hmem : id ∈ g.pel
  · have hone : ackOne (g.pel, 0) id = (g.pel.erase id, 1) :=
      if_pos (Std.ExtTreeMap.contains_iff_mem.mpr hmem)
    rw [hone, if_pos hmem]
    rfl
  · have hzero : ackOne (g.pel, 0) id = (g.pel, 0) := if_neg (by simpa using hmem)
    rw [hzero, if_neg hmem]
    rfl

/-! ## Claims -/

theorem owned_claimOne (minIdleMs : Int) (opts : XClaimOpts)
    {acc : ConsumerGroup × List XClaimResult} (h : acc.1.Owned) (id : StreamId) :
    (claimOne s consumer minIdleMs opts acc id).1.Owned := by
  unfold claimOne
  dsimp only
  split
  · exact ((h.with consumer).insert id _ _).touch opts.nowMs
  · exact h

theorem owned_claimAll (minIdleMs : Int) (opts : XClaimOpts) (ids : List StreamId)
    {acc : ConsumerGroup × List XClaimResult} (h : acc.1.Owned) :
    (ids.foldl (claimOne s consumer minIdleMs opts) acc).1.Owned := by
  induction ids generalizing acc with
  | nil => exact h
  | cons id ids ih => exact ih (owned_claimOne minIdleMs opts h id)

theorem owned_claim {minIdleMs : Int} {ids : List StreamId} {opts : XClaimOpts}
    {out : List XClaimResult} (hs : s.Owned)
    (h : claim s group consumer minIdleMs ids opts = .ok (s', out)) : s'.Owned := by
  unfold claim at h
  obtain ⟨g, hg, h⟩ := Result.bind_eq_ok.mp h
  cases h
  exact owned_setGroup hs group (owned_claimAll minIdleMs opts ids (hs group g (getGroup_ok.mp hg)))

theorem ownedWith_sweep {count : Nat} {justId : Bool} {now : Int} (candidates : List StreamId)
    {out : XAutoClaimResult} (h : g.OwnedWith consumer) :
    OwnedWith consumer
      { g with pel := (sweep s consumer count justId now candidates g.pel out).1 } := by
  induction candidates generalizing g out with
  | nil => exact h
  | cons id rest ih =>
      unfold sweep
      split
      · exact h
      · split
        · split
          · exact ih (h.insert id now _)
          · exact ih h
        · apply ih (g := { g with pel := g.pel.erase id })
          intro id' p hp
          rw [Std.ExtTreeMap.getElem?_erase] at hp
          split at hp
          · cases hp
          · exact h id' p hp

theorem owned_autoclaim {minIdleMs : Int} {start : StreamId} {count : Nat} {justId : Bool}
    {now : Int} {out : XAutoClaimResult} (hs : s.Owned)
    (h : autoclaim s group consumer minIdleMs start count justId now = .ok (s', out)) :
    s'.Owned := by
  unfold autoclaim at h
  obtain ⟨g, hg, h⟩ := Result.bind_eq_ok.mp h
  cases h
  have hgroup := (hs group g (getGroup_ok.mp hg)).with consumer
  exact owned_setGroup hs group ((ownedWith_sweep _ hgroup).touch now)

/-! ## Consumers made and deleted -/

/-- What holds of a new group, and still holds when a consumer comes or goes, holds of every
group that an `XGROUP` leaves. -/
theorem groups_applyXgroupOp {P : ConsumerGroup → Prop} {op : XGroupOp} {existed : Bool} {r : Int}
    (hempty : ∀ start, P { lastDeliveredId := start })
    (hlast : ∀ (g : ConsumerGroup) start, P g → P { g with lastDeliveredId := start })
    (hcreate : ∀ (g : ConsumerGroup) consumer, P g →
      P { g with consumers := g.consumers.insert consumer {} })
    (hdelete : ∀ (g : ConsumerGroup) consumer, P g →
      P { g with
        consumers := g.consumers.erase consumer
        pel := g.pel.filter fun _ p => p.consumer != consumer })
    (hs : ∀ (name : String) (g : ConsumerGroup), s.groups[name]? = some g → P g)
    (h : applyXgroupOp s op existed = .ok (s', r)) :
    ∀ (name : String) (g : ConsumerGroup), s'.groups[name]? = some g → P g := by
  cases op with
  | create name start mkstream =>
      obtain ⟨-, rfl⟩ := applyXgroupOp_create h
      exact groups_setGroup hs name (hempty _)
  | setId name start =>
      obtain ⟨g, hg, h⟩ := Result.bind_eq_ok.mp h
      cases h
      exact groups_setGroup hs name (hlast g _ (hs name g (getGroup_ok.mp hg)))
  | destroy name =>
      cases h
      intro name' g hg
      rw [Std.ExtTreeMap.getElem?_erase] at hg
      split at hg
      · cases hg
      · exact hs name' g hg
  | createConsumer name consumer =>
      obtain ⟨g, hg, h⟩ := Result.bind_eq_ok.mp h
      split at h
      · cases h
        exact hs
      · cases h
        exact groups_setGroup hs name (hcreate g consumer (hs name g (getGroup_ok.mp hg)))
  | delConsumer name consumer =>
      obtain ⟨g, hg, h⟩ := Result.bind_eq_ok.mp h
      cases h
      exact groups_setGroup hs name (hdelete g consumer (hs name g (getGroup_ok.mp hg)))

theorem owned_applyXgroupOp {op : XGroupOp} {existed : Bool} {r : Int} (hs : s.Owned)
    (h : applyXgroupOp s op existed = .ok (s', r)) : s'.Owned := by
  refine groups_applyXgroupOp owned_empty (fun _ _ hg => hg) ?_ ?_ hs h
  · intro g consumer hg id p hp
    simp [hg id p hp]
  · intro g consumer hg id p hp
    -- the rows that stay are not the deleted consumer's
    rw [Std.ExtTreeMap.getElem?_filter', Option.filter_eq_some_iff] at hp
    obtain ⟨hrow, hother⟩ := hp
    have hne : p.consumer ≠ consumer := by simpa using hother
    simp [hg id p hrow, hne.symm]

end Stream

open RustyAnt.Stream in
theorem StreamEffect.owned {cmd : StreamCmd} {s s' : StreamValue} {r : StreamReply}
    (h : StreamEffect cmd s r s') (hs : s.Owned) : s'.Owned := by
  cases h with
  | nothing _ => exact hs
  | added h => exact owned_of_groups hs (add_ok h).2.2
  | deleted => exact owned_of_groups hs rfl
  | trimmed => exact owned_of_groups hs (trimInPlace_groups _ _ _)
  | grouped h => exact owned_applyXgroupOp hs h
  | read h => exact owned_readGroup hs h
  | acked h => exact owned_ack hs h
  | claimed h => exact owned_claim hs h
  | autoclaimed h => exact owned_autoclaim hs h

namespace StreamRun

theorem owned_exec (key : String) (cmds : List StreamCmd) :
    (streamOf (exec key {} cmds).entry).Owned := by
  apply exec_invariant (P := fun run => (streamOf run.entry).Owned)
  · intro group g hg
    simp at hg
  · intro cmds₁ cmd _ hrun
    rcases step_cases key (exec key {} cmds₁) cmd with ⟨e, he⟩ | ⟨r, -, heffect⟩
    · rw [he]
      exact hrun
    · exact heffect.owned hrun

end StreamRun

/-! ## Counting the rows -/

theorem sum_indicator {α : Type} (p : α → Bool) (l : List α) :
    (l.map fun a => if p a then 1 else 0).sum = l.countP p := by
  induction l with
  | nil => rfl
  | cons a l ih =>
      rw [List.map_cons, List.sum_cons, ih, List.countP_cons]
      omega

theorem sum_countP_owner {α β : Type} [DecidableEq β] (owner : α → β) {names : List β}
    (hnodup : names.Nodup) {rows : List α} (h : ∀ row ∈ rows, owner row ∈ names) :
    (names.map fun name => rows.countP fun row => owner row == name).sum = rows.length := by
  induction rows with
  | nil => simp
  | cons row rows ih =>
      have hrest := ih fun row' hrow => h row' (List.mem_cons_of_mem _ hrow)
      have hone : (names.map fun name => if owner row == name then 1 else 0).sum = 1 := by
        have hcount := List.count_eq_one_of_mem hnodup (h row List.mem_cons_self)
        rw [sum_indicator, ← hcount, List.count_eq_countP]
        exact List.countP_congr fun name _ => by rw [BEq.comm]
      simp only [List.countP_cons]
      rw [List.sum_map_add, hrest, hone, List.length_cons]

namespace Storage

/-- `perConsumer` after some of the rows. -/
def tally (m : BTreeMap String Nat) (p : StreamId × PendingEntry) : BTreeMap String Nat :=
  m.insert p.2.consumer (m[p.2.consumer]?.getD 0 + 1)

theorem tally_getD (m : BTreeMap String Nat) (p : StreamId × PendingEntry) (name : String) :
    ((tally m p)[name]?).getD 0 = m[name]?.getD 0 + if p.2.consumer == name then 1 else 0 := by
  unfold tally
  rw [Std.ExtTreeMap.getElem?_insert]
  by_cases h : p.2.consumer = name
  · subst h
    simp
  · simp [h]

theorem tallyAll_getD (rows : List (StreamId × PendingEntry)) (m : BTreeMap String Nat)
    (name : String) :
    ((rows.foldl tally m)[name]?).getD 0 =
      m[name]?.getD 0 + rows.countP fun p => p.2.consumer == name := by
  induction rows generalizing m with
  | nil => simp
  | cons p rows ih =>
      rw [List.foldl_cons, ih, tally_getD, List.countP_cons]
      omega

theorem mem_tallyAll (rows : List (StreamId × PendingEntry)) (m : BTreeMap String Nat)
    {p : StreamId × PendingEntry} (h : p ∈ rows ∨ p.2.consumer ∈ m) :
    p.2.consumer ∈ rows.foldl tally m := by
  induction rows generalizing m with
  | nil => simpa using h
  | cons first rows ih =>
      apply ih
      unfold tally
      rw [List.mem_cons] at h
      rcases h with (rfl | h) | h
      · simp
      · exact .inl h
      · simp [h]

variable (g : ConsumerGroup)

theorem perConsumer_count {name : String} {n : Nat} (h : (name, n) ∈ (perConsumer g).toList) :
    n = g.pel.toList.countP fun p => p.2.consumer == name := by
  have hget := tallyAll_getD g.pel.toList ∅ name
  rw [Std.ExtTreeMap.mem_toList_iff_getElem?_eq_some] at h
  rw [show g.pel.toList.foldl tally ∅ = perConsumer g from rfl, h] at hget
  simpa using hget

theorem keys_nodup {α β : Type} [Ord α] [Std.TransOrd α] (m : BTreeMap α β) :
    (m.toList.map Prod.fst).Nodup := by
  rw [Std.ExtTreeMap.map_fst_toList_eq_keys]
  exact Std.ExtTreeMap.nodup_keys

theorem mem_keys {α β : Type} [Ord α] [Std.TransOrd α] [Std.LawfulEqOrd α] {m : BTreeMap α β} {a : α} :
    a ∈ m.toList.map Prod.fst ↔ a ∈ m := by
  rw [Std.ExtTreeMap.map_fst_toList_eq_keys]
  exact Std.ExtTreeMap.mem_keys

/-- The per-consumer counts of the summary add up to the rows. -/
theorem sum_perConsumer : ((perConsumer g).toList.map Prod.snd).sum = g.pel.size := by
  have hcount : (perConsumer g).toList.map Prod.snd = ((perConsumer g).toList.map Prod.fst).map
      fun name => g.pel.toList.countP fun p => p.2.consumer == name := by
    rw [List.map_map]
    apply List.map_congr_left
    intro p hp
    exact perConsumer_count g hp
  have hmem : ∀ p ∈ g.pel.toList, p.2.consumer ∈ (perConsumer g).toList.map Prod.fst :=
    fun p hp => mem_keys.mpr (mem_tallyAll _ ∅ (.inl hp))
  have hsum := sum_countP_owner (fun p : StreamId × PendingEntry => p.2.consumer) (keys_nodup _) hmem
  rw [hcount, hsum, Std.ExtTreeMap.length_toList]

variable {g}

/-- So do the pending counts of the group's consumers, when every row is owned. -/
theorem sum_consumers (hg : g.Owned) :
    ((g.consumers.toList.map Prod.fst).map fun name =>
      g.pel.toList.countP fun p => p.2.consumer == name).sum = g.pel.size := by
  have hmem : ∀ p ∈ g.pel.toList, p.2.consumer ∈ g.consumers.toList.map Prod.fst := by
    intro p hp
    rw [Std.ExtTreeMap.mem_toList_iff_getElem?_eq_some] at hp
    exact mem_keys.mpr (hg p.1 p.2 hp)
  have hsum := sum_countP_owner (fun p : StreamId × PendingEntry => p.2.consumer) (keys_nodup _) hmem
  rw [hsum, Std.ExtTreeMap.length_toList]

end Storage

/-! ## The four views -/

/-- What a program that only reads is answered, with one entry at the key. -/
def snapshot (key : String) (entry : Option StoredValue) (now : Int) :
    (op : KVOp) → Unit → Result op.Res × Unit
  | .load k, _ => (.ok ((if k = key then entry else none).map fun e => (e, "")), ())
  | .nowMs, _ => (.ok now, ())
  | _, _ => (.error .contention, ())

/-- The reply of a program on that snapshot. -/
def answered {α : Type} (key : String) (entry : Option StoredValue) (now : Int) (p : KV α) :
    Result α := (p.run (snapshot key entry now) ()).1

theorem answered_loadEntry {α : Type} (key : String) (entry : Option StoredValue) (now : Int)
    (f : Option StoredValue → KV α) :
    answered key entry now ((KV.loadEntry key).bind f) = answered key entry now (f entry) := by
  have hload : (KV.loadEntry key).run (snapshot key entry now) () = (.ok entry, ()) := by
    show (Except.ok (((if key = key then entry else none).map fun e => (e, "")).map Prod.fst), ()) = _
    rw [if_pos rfl, Option.map_map]
    exact congrArg (fun e => (Except.ok e, ())) Option.map_id'
  unfold answered
  rw [Prog.run_bind, hload]

/-- `XPENDING`, `XINFO GROUPS` and `XINFO CONSUMERS` count the rows of the group. -/
structure PendingViews (group : String) (g : ConsumerGroup) (summary : Option XPendingSummary)
    (groups : List XInfoGroup) (consumers : List XInfoConsumer) : Prop where
  count : summary.elim 0 XPendingSummary.count = g.pel.size
  perConsumer : ((summary.elim [] XPendingSummary.perConsumer).map Prod.snd).sum = g.pel.size
  bounds : ∀ view ∈ summary, view.min ∈ g.pel ∧ view.max ∈ g.pel ∧
    ∀ id ∈ g.pel, view.min ≤ id ∧ id ≤ view.max
  listed : ∃ info ∈ groups, info.name = group
  pending : ∀ info ∈ groups, info.name = group → info.pending = g.pel.size
  consumers : (consumers.map XInfoConsumer.pending).sum = g.pel.size

namespace Storage

/-- The body of `xpending_summary`, once the group has been found. -/
def summaryOf (g : ConsumerGroup) : Option XPendingSummary :=
  match g.pel.keys.head?, g.pel.keys.getLast? with
  | some min, some max => some ⟨g.pel.size, min, max, (perConsumer g).toList⟩
  | _, _ => none

def infoOf (p : String × ConsumerGroup) : XInfoGroup :=
  ⟨p.1, p.2.consumers.size, p.2.pel.size, p.2.lastDeliveredId⟩

def consumerInfoOf (g : ConsumerGroup) (now : Int) (p : String × Consumer) : XInfoConsumer :=
  ⟨p.1, g.pel.toList.countP fun row => row.2.consumer == p.1, Stream.idleSince now p.2.seenMs⟩

variable {key group : String} {exp : Option Int} {s : StreamValue} {g : ConsumerGroup} {now : Int}

theorem groupOf_stream (hg : s.groups[group]? = some g) :
    groupOf key group (some ⟨exp, .stream s⟩) = .ok g := Stream.getGroup_ok.mpr hg

theorem answered_xpendingSummary (hg : s.groups[group]? = some g) :
    answered key (some ⟨exp, .stream s⟩) now (xpendingSummary key group) = .ok (summaryOf g) := by
  unfold xpendingSummary summaryOf
  rw [Prog.bind_eq, answered_loadEntry, groupOf_stream hg, Prog.bind_eq, Prog.ofExcept,
    Prog.done_ok_bind]
  generalize g.pel.keys.head? = first
  generalize g.pel.keys.getLast? = last
  cases first <;> cases last <;> rfl

theorem answered_xinfoGroups :
    answered key (some ⟨exp, .stream s⟩) now (xinfoGroups key) =
      .ok (s.groups.toList.map infoOf) := by
  unfold xinfoGroups View.read
  rw [Prog.bind_eq, answered_loadEntry]
  rfl

theorem answered_xinfoConsumers (hg : s.groups[group]? = some g) :
    answered key (some ⟨exp, .stream s⟩) now (xinfoConsumers key group) =
      .ok (g.consumers.toList.map (consumerInfoOf g now)) := by
  unfold xinfoConsumers
  rw [Prog.bind_eq, answered_loadEntry, groupOf_stream hg]
  rfl

/-- The summary is missing only when nothing is pending. -/
theorem summaryOf_count : (summaryOf g).elim 0 XPendingSummary.count = g.pel.size := by
  unfold summaryOf
  split
  · rfl
  · rename_i hnone
    cases hkeys : g.pel.keys with
    | nil =>
        rw [Std.ExtTreeMap.keys_eq_nil_iff] at hkeys
        rw [hkeys]
        rfl
    | cons id ids =>
        rw [hkeys] at hnone
        exact absurd (List.getLast?_eq_some_getLast (List.cons_ne_nil id ids)) (hnone id _ rfl)

theorem summaryOf_perConsumer :
    (((summaryOf g).elim [] XPendingSummary.perConsumer).map Prod.snd).sum = g.pel.size := by
  have hcount := summaryOf_count (g := g)
  unfold summaryOf at hcount ⊢
  split
  · exact sum_perConsumer g
  · rename_i hnone
    split at hcount
    · rename_i hmin hmax
      exact absurd hmax (hnone _ _ hmin)
    · exact hcount

/-- The keys of the rows are in order, so the first is the least and the last the greatest. -/
theorem summaryOf_bounds {view : XPendingSummary} (h : summaryOf g = some view) :
    view.min ∈ g.pel ∧ view.max ∈ g.pel ∧ ∀ id ∈ g.pel, view.min ≤ id ∧ id ≤ view.max := by
  unfold summaryOf at h
  split at h
  · rename_i min max hmin hmax
    cases h
    have hsorted : g.pel.keys.Pairwise (· ≤ ·) :=
      Std.ExtTreeMap.ordered_keys.imp fun hlt => (compare_lt_iff_lt.mp hlt).le
    have hfirst := List.mem_of_head? hmin
    have hlast := List.mem_of_getLast? hmax
    refine ⟨Std.ExtTreeMap.mem_keys.mp hfirst, Std.ExtTreeMap.mem_keys.mp hlast, ?_⟩
    intro id hid
    have hid := Std.ExtTreeMap.mem_keys.mpr hid
    obtain ⟨rest, hcons⟩ := List.head?_eq_some_iff.mp hmin
    obtain ⟨init, hsnoc⟩ := List.getLast?_eq_some_iff.mp hmax
    constructor
    · rw [hcons] at hsorted hid
      rcases List.mem_cons.mp hid with rfl | hmem
      · exact le_refl _
      · exact List.rel_of_pairwise_cons hsorted hmem
    · rw [hsnoc] at hsorted hid
      rcases List.mem_append.mp hid with hmem | hmem
      · exact (List.pairwise_append.mp hsorted).2.2 id hmem max (List.mem_singleton_self _)
      · exact (List.mem_singleton.mp hmem).le
  · cases h

theorem pendingViews (hs : s.groups[group]? = some g) (hg : g.Owned) (now : Int) :
    PendingViews group g (summaryOf g) (s.groups.toList.map infoOf)
      (g.consumers.toList.map (consumerInfoOf g now)) where
  count := summaryOf_count
  perConsumer := summaryOf_perConsumer
  bounds _ hview := summaryOf_bounds hview
  listed := by
    have hmem := Std.ExtTreeMap.mem_toList_iff_getElem?_eq_some.mpr hs
    exact ⟨_, List.mem_map_of_mem hmem, rfl⟩
  pending := by
    intro info hinfo hname
    obtain ⟨⟨name, g'⟩, hmem, rfl⟩ := List.mem_map.mp hinfo
    rw [Std.ExtTreeMap.mem_toList_iff_getElem?_eq_some] at hmem
    have heq : name = group := hname
    rw [heq, hs] at hmem
    cases hmem
    rfl
  consumers := by
    rw [← sum_consumers hg, List.map_map, List.map_map]
    rfl

end Storage

namespace StreamRun

variable {key group : String} {run : StreamRun} {g : ConsumerGroup}

theorem entry_of_group (h : (streamOf run.entry).groups[group]? = some g) :
    ∃ exp s, run.entry = some ⟨exp, .stream s⟩ ∧ s.groups[group]? = some g := by
  unfold streamOf at h
  split at h
  · rename_i exp s hentry
    exact ⟨exp, s, hentry, h⟩
  · simp at h

/-- The reply to an `XACK` of one id. -/
theorem step_xack {s : StreamValue} {exp : Option Int} (hentry : run.entry = some ⟨exp, .stream s⟩)
    (hg : s.groups[group]? = some g) (id : StreamId) :
    (run.step key (.xack group [id])).log =
      run.log ++ [(.xack group [id], .ok (.count (if id ∈ g.pel then 1 else 0)))] := by
  have hone := Stream.ack_one s hg id
  have hmodify := StreamCmd.modify_xack key group s exp [id]
  unfold step
  rw [hentry, hmodify]
  cases hack : Stream.ack s group [id] with
  | none =>
      rw [hack] at hone
      rw [← hone]
      rfl
  | some p =>
      rw [hack] at hone
      rw [← hone]
      rfl

end StreamRun

/-- In every state a run of stream commands reaches, pending rows and consumers agree. -/
theorem pending_views_agree (key group : String) (cmds : List StreamCmd) (now : Int)
    {g : ConsumerGroup}
    (hg : (streamOf (StreamRun.exec key {} cmds).entry).groups[group]? = some g) :
    (∀ (id : StreamId) (p : PendingEntry), g.pel[id]? = some p → p.consumer ∈ g.consumers) ∧
      (∃ summary groups consumers,
        answered key (StreamRun.exec key {} cmds).entry now (Storage.xpendingSummary key group) =
          .ok summary ∧
        answered key (StreamRun.exec key {} cmds).entry now (Storage.xinfoGroups key) =
          .ok groups ∧
        answered key (StreamRun.exec key {} cmds).entry now (Storage.xinfoConsumers key group) =
          .ok consumers ∧
        PendingViews group g summary groups consumers) ∧
      (∀ id p q, (id, p) ∈ g.pel.toList → (id, q) ∈ g.pel.toList → p = q) ∧
      ∀ id, ((StreamRun.exec key {} cmds).step key (.xack group [id])).log =
        (StreamRun.exec key {} cmds).log ++
          [(.xack group [id], .ok (.count (if id ∈ g.pel then 1 else 0)))] := by
  have howned := StreamRun.owned_exec key cmds group g hg
  obtain ⟨exp, s, hentry, hs⟩ := StreamRun.entry_of_group hg
  refine ⟨howned, ⟨_, _, _, ?_, ?_, ?_, Storage.pendingViews hs howned now⟩, ?_,
    StreamRun.step_xack hentry hs⟩
  · rw [hentry]
    exact Storage.answered_xpendingSummary hs
  · rw [hentry]
    exact Storage.answered_xinfoGroups
  · rw [hentry]
    exact Storage.answered_xinfoConsumers hs
  · intro id p q hp hq
    rw [Std.ExtTreeMap.mem_toList_iff_getElem?_eq_some] at hp hq
    rw [hp] at hq
    exact Option.some.inj hq

namespace TwoOwners

/-- Two consumers own a row each, and one row is claimed from the other. -/
def cmds : List StreamCmd := [
  .xadd (.concrete ⟨1, 0⟩) [("f", [97])] false none 1,
  .xadd (.concrete ⟨2, 0⟩) [("f", [98])] false none 2,
  .xgroup (.create "g" (.concrete .min) false),
  .xreadgroup "g" "alice" .newEntries (some 1) false 10,
  .xreadgroup "g" "bob" .newEntries (some 1) false 11,
  .xclaim "g" "bob" 0 [⟨1, 0⟩] { nowMs := 12 }]

def group : ConsumerGroup :=
  ((streamOf (StreamRun.exec "k" {} cmds).entry).groups["g"]?).getD {}

end TwoOwners

open TwoOwners in
theorem pending_views_agree_on_twoOwners :
    group.pel.toList.map (fun p => (p.1, p.2.consumer)) = [(⟨1, 0⟩, "bob"), (⟨2, 0⟩, "bob")] ∧
      group.consumers.keys = ["alice", "bob"] ∧
      ∀ (id : StreamId) (p : PendingEntry), group.pel[id]? = some p → p.consumer ∈ group.consumers :=
  ⟨by decide +kernel, by decide +kernel,
    (pending_views_agree "k" "g" cmds 20 (g := group) (by decide +kernel)).1⟩

end RustyAnt
