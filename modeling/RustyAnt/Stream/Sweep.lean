import RustyAnt.Lib.Paging
import RustyAnt.Stream.Idle

/-!
# Sweeps of `XAUTOCLAIM`

A consumer repeats `XAUTOCLAIM` from each returned cursor until the cursor is `0-0`.
One call settles the front of the idle rows and returns the first row it left, so the
calls together settle every idle row once.
-/

namespace RustyAnt

open Lib

namespace Stream

def present (s : StreamValue) (id : StreamId) : Bool := s.entries.any fun e => e.id == id

theorem present_iff {s : StreamValue} {id : StreamId} :
    present s id = true ↔ ∃ e ∈ s.entries, e.id = id := by
  unfold present
  simp

/-- What a sweep does to one row: claimed with its entry, dropped without it. -/
def settle (s : StreamValue) (consumer : String) (now : Int) (pel : BTreeMap StreamId PendingEntry)
    (id : StreamId) : BTreeMap StreamId PendingEntry :=
  if present s id then
    match pel[id]? with
    | some p => pel.insert id ⟨consumer, now, saturatingSucc p.deliveryCount⟩
    | none => pel
  else pel.erase id

variable {s : StreamValue} {group consumer : String} {g : ConsumerGroup} {minIdleMs now : Int}
  {start : StreamId} {count : Nat} {justId : Bool} {pel : BTreeMap StreamId PendingEntry}

theorem settle_self (id : StreamId) : (settle s consumer now pel id)[id]? =
    if present s id then
      pel[id]?.map fun p => ⟨consumer, now, saturatingSucc p.deliveryCount⟩
    else none := by
  unfold settle
  split
  · split
    · rename_i p hp
      rw [Std.ExtTreeMap.getElem?_insert_self, hp]
      rfl
    · rename_i hp
      rw [hp]
      rfl
  · exact Std.ExtTreeMap.getElem?_erase_self

theorem settle_other {id id' : StreamId} (h : id ≠ id') :
    (settle s consumer now pel id)[id']? = pel[id']? := by
  have hcmp : compare id id' ≠ .eq := by rwa [ne_eq, compare_eq_iff_eq]
  unfold settle
  split
  · split
    · rw [Std.ExtTreeMap.getElem?_insert, if_neg hcmp]
    · rfl
  · rw [Std.ExtTreeMap.getElem?_erase, if_neg hcmp]

theorem settleAll_other {ids : List StreamId} {id : StreamId} (h : id ∉ ids) :
    (ids.foldl (settle s consumer now) pel)[id]? = pel[id]? := by
  induction ids generalizing pel with
  | nil => rfl
  | cons first ids ih =>
      rw [List.mem_cons, not_or] at h
      rw [List.foldl_cons, ih h.2, settle_other (Ne.symm h.1)]

theorem settleAll_mem {ids : List StreamId} (hnodup : ids.Nodup) {id : StreamId} (h : id ∈ ids) :
    (ids.foldl (settle s consumer now) pel)[id]? =
      if present s id then
        pel[id]?.map fun p => ⟨consumer, now, saturatingSucc p.deliveryCount⟩
      else none := by
  induction ids generalizing pel with
  | nil => cases h
  | cons first ids ih =>
      obtain ⟨hfirst, hrest⟩ := List.nodup_cons.mp hnodup
      rw [List.foldl_cons]
      by_cases heq : first = id
      · subst heq
        rw [settleAll_other hfirst, settle_self]
      · rcases List.mem_cons.mp h with hsame | hmem
        · exact absurd hsame.symm heq
        · rw [ih hrest hmem, settle_other heq]

/-! ## One call -/

/-- A sweep settles the front of the rows; the cursor is the first row it left. -/
structure Swept (s : StreamValue) (consumer : String) (count : Nat) (justId : Bool) (now : Int)
    (pel pel' : BTreeMap StreamId PendingEntry) (out out' : XAutoClaimResult)
    (front rest : List StreamId) : Prop where
  pel : pel' = front.foldl (settle s consumer now) pel
  claimed : out'.claimed = out.claimed ++
    (front.filter (present s)).map fun id => ⟨id, claimBody s justId id⟩
  deleted : out'.deletedIds = out.deletedIds ++ front.filter fun id => !present s id
  last : rest = [] → out'.nextCursor = out.nextCursor
  more : ∀ id tail, rest = id :: tail → out'.nextCursor = id ∧ count ≤ out'.claimed.length

theorem sweep_swept (candidates : List StreamId) (pel : BTreeMap StreamId PendingEntry)
    (out : XAutoClaimResult) :
    ∃ front rest, candidates = front ++ rest ∧
      Swept s consumer count justId now pel
        (sweep s consumer count justId now candidates pel out).1 out
        (sweep s consumer count justId now candidates pel out).2 front rest := by
  induction candidates generalizing pel out with
  | nil => exact ⟨[], [], rfl, rfl, by simp [sweep], by simp [sweep], fun _ => rfl, by simp⟩
  | cons id tail ih =>
      unfold sweep
      split
      · rename_i hfull
        refine ⟨[], id :: tail, rfl, rfl, by simp, by simp, by simp, ?_⟩
        intro id' tail' heq
        cases heq
        exact ⟨rfl, hfull⟩
      · split
        · rename_i hpresent
          dsimp only
          obtain ⟨front, rest, hsplit, hpel, hclaimed, hdeleted, hlast, hmore⟩ := ih _ _
          have hpresent' : present s id = true := hpresent
          refine ⟨id :: front, rest, by rw [hsplit]; rfl, ?_, ?_, ?_, hlast, hmore⟩
          · rw [hpel, List.foldl_cons]
            congr 1
            exact (if_pos hpresent').symm
          · rw [hclaimed, List.filter_cons, if_pos hpresent']
            simp
          · rw [hdeleted, List.filter_cons, hpresent']
            rfl
        · rename_i habsent
          obtain ⟨front, rest, hsplit, hpel, hclaimed, hdeleted, hlast, hmore⟩ := ih _ _
          have hnot : ¬ present s id = true := habsent
          have habsent' : present s id = false := by rwa [Bool.not_eq_true] at hnot
          refine ⟨id :: front, rest, by rw [hsplit]; rfl, ?_, ?_, ?_, hlast, hmore⟩
          · rw [hpel, List.foldl_cons, settle, if_neg hnot]
          · rw [hclaimed, List.filter_cons, if_neg hnot]
          · rw [hdeleted, List.filter_cons, habsent']
            simp

theorem candidates_sorted : (candidates g minIdleMs start now).Pairwise (· < ·) := by
  unfold candidates
  rw [List.pairwise_map]
  apply List.Pairwise.filter
  exact Std.ExtTreeMap.ordered_keys_toList.imp fun h => compare_lt_iff_lt.mp h

theorem mem_candidates_iff {id : StreamId} :
    id ∈ candidates g minIdleMs start now ↔ ∃ p : PendingEntry, g.pel[id]? = some p ∧
      start ≤ id ∧ minIdleMs ≤ idleSince now p.deliveryTimeMs := by
  constructor
  · intro h
    have hrow : ∃ p : PendingEntry, g.pel[id]? = some p := by
      unfold candidates at h
      obtain ⟨⟨id', p⟩, hmem, rfl⟩ := List.mem_map.mp h
      rw [List.mem_filter, Std.ExtTreeMap.mem_toList_iff_getElem?_eq_some] at hmem
      exact ⟨p, hmem.1⟩
    obtain ⟨p, hp⟩ := hrow
    exact ⟨p, hp, (mem_candidates hp).mp h⟩
  · rintro ⟨p, hp, h⟩
    exact (mem_candidates hp).mpr h

/-- The next call finds exactly the rows that the last one left. -/
theorem candidates_rest {front tail : List StreamId} {id : StreamId}
    (hsplit : candidates g minIdleMs start now = front ++ id :: tail) {g' : ConsumerGroup}
    (hpel : g'.pel = front.foldl (settle s consumer now) g.pel) :
    candidates g' minIdleMs id now = id :: tail := by
  have hsorted := @candidates_sorted g minIdleMs now start
  rw [hsplit] at hsorted
  obtain ⟨-, hrest, hcross⟩ := List.pairwise_append.mp hsorted
  have hstart : start ≤ id := by
    have hmem : id ∈ candidates g minIdleMs start now := by
      rw [hsplit]
      simp
    obtain ⟨p, -, hle, -⟩ := mem_candidates_iff.mp hmem
    exact hle
  -- the settled rows are in front of the cursor
  have hrow : ∀ id', id ≤ id' → g'.pel[id']? = g.pel[id']? := by
    intro id' hle
    rw [hpel]
    apply settleAll_other
    intro hmem
    exact absurd (hcross id' hmem id List.mem_cons_self) (not_lt.mpr hle)
  apply candidates_sorted.eq_of_mem_iff hrest
  intro id'
  have hmem : id' ∈ id :: tail ↔ id' ∈ candidates g minIdleMs start now ∧ id ≤ id' := by
    rw [hsplit, List.mem_append]
    constructor
    · intro h
      refine ⟨.inr h, ?_⟩
      rcases List.mem_cons.mp h with rfl | htail
      · exact le_refl _
      · exact (List.rel_of_pairwise_cons hrest htail).le
    · rintro ⟨hfront | h, hle⟩
      · exact absurd (hcross id' hfront id List.mem_cons_self) (not_lt.mpr hle)
      · exact h
  rw [hmem, mem_candidates_iff, mem_candidates_iff]
  constructor
  · rintro ⟨p, hp, hle, hidle⟩
    rw [hrow id' hle] at hp
    exact ⟨⟨p, hp, hstart.trans hle, hidle⟩, hle⟩
  · rintro ⟨⟨p, hp, -, hidle⟩, hle⟩
    rw [← hrow id' hle] at hp
    exact ⟨p, hp, hle, hidle⟩

/-! ## Writing the group back -/

theorem insert_insert {α β : Type} [Ord α] [Std.TransOrd α] [Std.LawfulEqOrd α] (m : BTreeMap α β)
    (a : α) (b b' : β) : (m.insert a b).insert a b' = m.insert a b' := by
  ext k v
  rw [Std.ExtTreeMap.getElem?_insert, Std.ExtTreeMap.getElem?_insert,
    Std.ExtTreeMap.getElem?_insert]
  split <;> rfl

theorem setGroup_setGroup (s : StreamValue) (group : String) (g g' : ConsumerGroup) :
    setGroup (setGroup s group g) group g' = setGroup s group g' := by
  unfold setGroup
  rw [insert_insert]

/-- The group after some rows were settled. -/
def settled (s : StreamValue) (consumer : String) (now : Int) (g : ConsumerGroup)
    (ids : List StreamId) : ConsumerGroup :=
  touch { g with pel := ids.foldl (settle s consumer now) g.pel } consumer now

theorem settled_settled (s : StreamValue) (consumer : String) (now : Int) (g : ConsumerGroup)
    (ids ids' : List StreamId) : settled s consumer now (settled s consumer now g ids) ids' =
      settled s consumer now g (ids ++ ids') := by
  unfold settled touch
  rw [insert_insert, List.foldl_append]

theorem min_le (id : StreamId) : StreamId.min ≤ id := by
  have hval : StreamId.min.val ≤ id.val := by
    have hzero : StreamId.min.val = 0 := rfl
    omega
  exact StreamId.le_iff_val.mpr hval

end Stream

/-! ## The whole sweep -/

namespace StreamRun

open RustyAnt.Stream

/-- `XAUTOCLAIM` from a cursor; the reply's cursor `0-0` ends the sweep. -/
def autoclaimFrom (key group consumer : String) (minIdleMs : Int) (count : Nat) (justId : Bool)
    (now : Int) (run : StreamRun) (cursor : StreamId) :
    StreamRun × XAutoClaimResult × Option StreamId :=
  let run := run.step key (.xautoclaim group consumer minIdleMs cursor count justId now)
  match run.log.getLast? with
  | some (_, .ok (.autoclaimed out)) =>
      (run, out, if out.nextCursor = .min then none else some out.nextCursor)
  | _ => (run, ⟨.min, [], []⟩, none)

/-- The idle rows that a sweep still has to settle. -/
def sweepWork (group : String) (minIdleMs now : Int) (run : StreamRun) (cursor : StreamId) :
    List StreamId :=
  candidates (((streamOf run.entry).groups[group]?).getD {}) minIdleMs cursor now

/-- From one state to another, replies settle some rows. -/
def Settles (group consumer : String) (justId : Bool) (now : Int) (run : StreamRun)
    (ids : List StreamId) (outs : List XAutoClaimResult) (run' : StreamRun) : Prop :=
  ∀ exp s g, run.entry = some ⟨exp, .stream s⟩ → s.groups[group]? = some g →
    run'.entry = some ⟨exp, .stream (setGroup s group (settled s consumer now g ids))⟩ ∧
    outs.flatMap XAutoClaimResult.claimed =
      (ids.filter (present s)).map (fun id => ⟨id, claimBody s justId id⟩) ∧
    outs.flatMap XAutoClaimResult.deletedIds = ids.filter fun id => !present s id

/-- The key holds a stream with the group. -/
def HasGroup (group : String) (run : StreamRun) : Prop :=
  ∃ exp s g, run.entry = some ⟨exp, .stream s⟩ ∧ s.groups[group]? = some g

variable {key group consumer : String} {minIdleMs now : Int} {count : Nat} {justId : Bool}
  {run : StreamRun} {exp : Option Int} {s : StreamValue} {g : ConsumerGroup}

theorem Settles.append {run₁ run' : StreamRun} {ids ids' : List StreamId}
    {out : XAutoClaimResult} {outs : List XAutoClaimResult}
    (h : Settles group consumer justId now run ids [out] run₁)
    (h' : Settles group consumer justId now run₁ ids' outs run') :
    Settles group consumer justId now run (ids ++ ids') (out :: outs) run' := by
  intro exp s g hentry hg
  obtain ⟨hentry₁, hclaimed, hdeleted⟩ := h exp s g hentry hg
  have hg₁ : (setGroup s group (settled s consumer now g ids)).groups[group]? =
      some (settled s consumer now g ids) := by
    rw [getElem?_setGroup, if_pos rfl]
  obtain ⟨hentry', hclaimed', hdeleted'⟩ := h' exp _ _ hentry₁ hg₁
  rw [List.flatMap_singleton] at hclaimed hdeleted
  refine ⟨?_, ?_, ?_⟩
  · rw [hentry', setGroup_setGroup, ← settled_settled]
    rfl
  · rw [List.flatMap_cons, hclaimed, hclaimed', List.filter_append, List.map_append]
    rfl
  · rw [List.flatMap_cons, hdeleted, hdeleted', List.filter_append]
    rfl

theorem autoclaimFrom_eq (hentry : run.entry = some ⟨exp, .stream s⟩)
    (hg : s.groups[group]? = some g) (cursor : StreamId) :
    ∃ run', run'.entry = some ⟨exp, .stream (setGroup s group (touch { g with
        pel := (sweep s consumer count justId now (candidates g minIdleMs cursor now) g.pel
          ⟨.min, [], []⟩).1 } consumer now))⟩ ∧
      autoclaimFrom key group consumer minIdleMs count justId now run cursor =
        (run', (sweep s consumer count justId now (candidates g minIdleMs cursor now) g.pel
            ⟨.min, [], []⟩).2,
          if (sweep s consumer count justId now (candidates g minIdleMs cursor now) g.pel
            ⟨.min, [], []⟩).2.nextCursor = .min then none
          else some (sweep s consumer count justId now (candidates g minIdleMs cursor now) g.pel
            ⟨.min, [], []⟩).2.nextCursor) := by
  have hclaim := @autoclaim_eq s group consumer g hg minIdleMs cursor count justId now
  have hmodify := StreamCmd.modify_xautoclaim key group consumer s exp minIdleMs cursor count
    justId now
  rw [← hentry] at hmodify
  rw [hclaim] at hmodify
  refine ⟨run.step key (.xautoclaim group consumer minIdleMs cursor count justId now), ?_, ?_⟩
  · unfold step
    rw [hmodify]
    rfl
  · unfold autoclaimFrom step
    rw [hmodify]
    dsimp only [Except.map]
    rw [List.getLast?_concat]
    rfl

/-- A call that leaves rows behind has claimed some, so its cursor is past `0-0`. -/
theorem progress_of_swept {cursor id : StreamId} {pel : BTreeMap StreamId PendingEntry}
    {out : XAutoClaimResult} {front tail : List StreamId} (hcount : 1 ≤ count)
    (hsplit : candidates g minIdleMs cursor now = front ++ id :: tail)
    (h : Swept s consumer count justId now g.pel pel ⟨.min, [], []⟩ out front (id :: tail)) :
    front ≠ [] ∧ out.nextCursor ≠ .min := by
  obtain ⟨hcursor, hfull⟩ := h.more id tail rfl
  have hfront : front ≠ [] := by
    rintro rfl
    rw [h.claimed] at hfull
    simp at hfull
    omega
  refine ⟨hfront, fun hmin => ?_⟩
  obtain ⟨first, hfirst⟩ := List.exists_mem_of_ne_nil front hfront
  have hsorted := @candidates_sorted g minIdleMs now cursor
  rw [hsplit] at hsorted
  have hlt := (List.pairwise_append.mp hsorted).2.2 first hfirst id List.mem_cons_self
  rw [← hcursor, hmin] at hlt
  exact absurd hlt (not_lt.mpr (min_le first))

/-- Every call settles the front of the work and goes on from the rest. -/
theorem autoclaimFrom_serves (hcount : 1 ≤ count) (run : StreamRun) (cursor : StreamId)
    (h : HasGroup group run) :
    ∃ front rest, ServesFront (fun run _ => HasGroup group run) (sweepWork group minIdleMs now)
      (Settles group consumer justId now) run cursor
      (autoclaimFrom key group consumer minIdleMs count justId now run cursor).1
      (autoclaimFrom key group consumer minIdleMs count justId now run cursor).2.1
      (autoclaimFrom key group consumer minIdleMs count justId now run cursor).2.2 front rest := by
  obtain ⟨exp, s, g, hentry, hg⟩ := h
  obtain ⟨run', hentry', heq⟩ := @autoclaimFrom_eq key group consumer minIdleMs now count justId
    run exp s g hentry hg cursor
  obtain ⟨front, rest, hsplit, hswept⟩ :=
    @sweep_swept s consumer now count justId (candidates g minIdleMs cursor now) g.pel
      ⟨.min, [], []⟩
  rw [heq]
  rw [hswept.pel] at hentry'
  generalize (sweep s consumer count justId now (candidates g minIdleMs cursor now) g.pel
    ⟨.min, [], []⟩).2 = out at *
  refine ⟨front, rest, ?_, ?_, ?_, ?_⟩
  · unfold sweepWork
    rw [hentry, streamOf_stream, hg]
    exact hsplit
  · intro exp₁ s₁ g₁ hentry₁ hg₁
    rw [hentry] at hentry₁
    cases hentry₁
    rw [hg] at hg₁
    cases hg₁
    rw [List.flatMap_singleton, List.flatMap_singleton]
    exact ⟨hentry', hswept.claimed, hswept.deleted⟩
  · intro hnone
    cases rest with
    | nil => rfl
    | cons id tail =>
        rw [if_neg (progress_of_swept hcount hsplit hswept).2] at hnone
        cases hnone
  · intro c hsome
    have hnext : out.nextCursor ≠ .min ∧ out.nextCursor = c := by
      split at hsome
      · cases hsome
      · rename_i hne
        exact ⟨hne, Option.some.inj hsome⟩
    cases rest with
    | nil => exact absurd (hswept.last rfl) hnext.1
    | cons id tail =>
        have hid : id = c := (hswept.more id tail rfl).1.symm.trans hnext.2
        refine ⟨(progress_of_swept hcount hsplit hswept).1,
          ⟨exp, _, _, hentry', by rw [getElem?_setGroup, if_pos rfl]⟩, ?_⟩
        unfold sweepWork
        rw [hentry', streamOf_stream, getElem?_setGroup, if_pos rfl, ← hid]
        exact candidates_rest hsplit rfl

end StreamRun

/-- The ids that the replies of a sweep report as claimed. -/
def claimedIds (outs : List XAutoClaimResult) : List StreamId :=
  (outs.flatMap XAutoClaimResult.claimed).map XClaimResult.id

/-- The ids that the replies of a sweep report as deleted. -/
def deletedIds (outs : List XAutoClaimResult) : List StreamId :=
  outs.flatMap XAutoClaimResult.deletedIds

theorem count_filter_present (s : StreamValue) {ids : List StreamId} (hnodup : ids.Nodup)
    (id : StreamId) :
    (ids.filter (Stream.present s)).count id =
        (if id ∈ ids ∧ Stream.present s id = true then 1 else 0) ∧
      (ids.filter fun id => !Stream.present s id).count id =
        (if id ∈ ids ∧ Stream.present s id = false then 1 else 0) := by
  have hcount (p : StreamId → Bool) :
      (ids.filter p).count id = if id ∈ ids ∧ p id = true then 1 else 0 := by
    rw [(hnodup.filter p).count]
    simp only [List.mem_filter]
  refine ⟨hcount _, ?_⟩
  rw [hcount]
  simp

/-- What a sweep makes of one row. -/
def SweptRow (s : StreamValue) (consumer : String) (minIdleMs : Int) (start : StreamId) (now : Int)
    (pel : BTreeMap StreamId PendingEntry) (outs : List XAutoClaimResult) (id : StreamId)
    (p : PendingEntry) : Prop :=
  if start ≤ id ∧ minIdleMs ≤ max 0 (now - p.deliveryTimeMs) then
    if ∃ e ∈ s.entries, e.id = id then
      pel[id]? = some ⟨consumer, now, p.deliveryCount + 1⟩ ∧
        (claimedIds outs).count id = 1 ∧ id ∉ deletedIds outs
    else pel[id]? = none ∧ (deletedIds outs).count id = 1 ∧ id ∉ claimedIds outs
  else pel[id]? = some p ∧ id ∉ claimedIds outs ∧ id ∉ deletedIds outs

section Reports

open RustyAnt.Stream

variable {s : StreamValue} {consumer : String} {g : ConsumerGroup} {minIdleMs now : Int}
  {start : StreamId} {ids : List StreamId} {outs : List XAutoClaimResult}

/-- Replies that name each of the ids once, as claimed or as deleted. -/
structure Reports (s : StreamValue) (ids : List StreamId) (outs : List XAutoClaimResult) :
    Prop where
  claimed : claimedIds outs = ids.filter (present s)
  deleted : deletedIds outs = ids.filter fun id => !present s id

theorem StreamRun.Settles.reports {group : String} {justId : Bool} {run run' : StreamRun}
    {exp : Option Int} (h : StreamRun.Settles group consumer justId now run ids outs run')
    (hentry : run.entry = some ⟨exp, .stream s⟩) (hg : s.groups[group]? = some g) :
    Reports s ids outs := by
  obtain ⟨-, hclaimed, hdeleted⟩ := h exp s g hentry hg
  refine ⟨?_, hdeleted⟩
  unfold claimedIds
  rw [hclaimed, List.map_map]
  exact List.map_id' _

theorem Reports.silent (h : Reports s ids outs) {id : StreamId} (hid : id ∉ ids) :
    id ∉ claimedIds outs ∧ id ∉ deletedIds outs := by
  rw [h.claimed, h.deleted]
  exact ⟨fun hmem => hid (List.mem_of_mem_filter hmem),
    fun hmem => hid (List.mem_of_mem_filter hmem)⟩

theorem Reports.claims (h : Reports s ids outs) (hnodup : ids.Nodup) {id : StreamId}
    (hid : id ∈ ids) (hpresent : present s id = true) :
    (claimedIds outs).count id = 1 ∧ id ∉ deletedIds outs := by
  rw [h.claimed, h.deleted, (count_filter_present s hnodup id).1, if_pos ⟨hid, hpresent⟩]
  exact ⟨rfl, by simp [hpresent]⟩

theorem Reports.deletes (h : Reports s ids outs) (hnodup : ids.Nodup) {id : StreamId}
    (hid : id ∈ ids) (habsent : present s id = false) :
    (deletedIds outs).count id = 1 ∧ id ∉ claimedIds outs := by
  rw [h.claimed, h.deleted, (count_filter_present s hnodup id).2, if_pos ⟨hid, habsent⟩]
  exact ⟨rfl, by simp [habsent]⟩

theorem candidates_nodup : (candidates g minIdleMs start now).Nodup :=
  candidates_sorted.imp fun h => h.ne

theorem length_candidates_le : (candidates g minIdleMs start now).length ≤ g.pel.size := by
  rw [candidates, List.length_map]
  have hle := List.length_filter_le (fun p : StreamId × PendingEntry => decide (start ≤ p.1) &&
    decide (minIdleMs ≤ idleSince now p.2.deliveryTimeMs)) g.pel.toList
  rw [Std.ExtTreeMap.length_toList] at hle
  exact hle

theorem Reports.sweptRow (h : Reports s (candidates g minIdleMs start now) outs)
    (hnow : IsClock now) {id : StreamId} {p : PendingEntry} (hp : g.pel[id]? = some p)
    (hlow : -2 ^ 62 ≤ p.deliveryTimeMs) (hhigh : p.deliveryTimeMs ≤ 2 ^ 62)
    (hdelivered : p.deliveryCount < 2 ^ 64 - 1) :
    SweptRow s consumer minIdleMs start now
      ((candidates g minIdleMs start now).foldl (Stream.settle s consumer now) g.pel) outs id p := by
  have hrange : InI64 (now - p.deliveryTimeMs) := by
    unfold IsClock at hnow
    unfold InI64 i64Min i64Max
    omega
  have hmem := @mem_candidates g minIdleMs start id now p hp
  rw [idleSince_eq hrange] at hmem
  have hsucc : saturatingSucc p.deliveryCount = p.deliveryCount + 1 := by
    unfold saturatingSucc
    omega
  unfold SweptRow
  split
  case isTrue hidle =>
    have hin := hmem.mpr hidle
    split
    case isTrue hentry =>
      have hpresent := present_iff.mpr hentry
      refine ⟨?_, h.claims candidates_nodup hin hpresent⟩
      rw [settleAll_mem candidates_nodup hin, if_pos hpresent, hp, Option.map_some, hsucc]
    case isFalse hgone =>
      have habsent : present s id = false := by
        rw [← Bool.not_eq_true, present_iff]
        exact hgone
      refine ⟨?_, h.deletes candidates_nodup hin habsent⟩
      rw [settleAll_mem candidates_nodup hin, habsent]
      rfl
  case isFalse hother =>
    have hout : id ∉ candidates g minIdleMs start now := fun hin => hother (hmem.mp hin)
    exact ⟨(settleAll_other hout).trans hp, h.silent hout⟩

end Reports

open RustyAnt.Stream in
/-- A sweep from any group state ends within one call more than there are rows.  It claims
every idle row with an entry once, drops every idle row without one, and changes nothing
else. -/
theorem autoclaim_sweep_complete (key group consumer : String) (minIdleMs : Int)
    (start : StreamId) {count : Nat} (hcount : 1 ≤ count) (justId : Bool) {now : Int}
    (hnow : IsClock now) {run : StreamRun} {exp : Option Int} {s : StreamValue}
    {g : ConsumerGroup} (hentry : run.entry = some ⟨exp, .stream s⟩)
    (hg : s.groups[group]? = some g)
    (hrows : ∀ (id : StreamId) (p : PendingEntry), g.pel[id]? = some p →
      -2 ^ 62 ≤ p.deliveryTimeMs ∧ p.deliveryTimeMs ≤ 2 ^ 62 ∧ p.deliveryCount < 2 ^ 64 - 1) :
    ∃ run' outs pel,
      pages (StreamRun.autoclaimFrom key group consumer minIdleMs count justId now)
        (g.pel.size + 1) run start = some (run', outs) ∧
      run'.entry = some ⟨exp, .stream (setGroup s group
        (touch { g with pel := pel } consumer now))⟩ ∧
      (∀ (id : StreamId) (p : PendingEntry), g.pel[id]? = some p →
        SweptRow s consumer minIdleMs start now pel outs id p) ∧
      ∀ id : StreamId, g.pel[id]? = none →
        pel[id]? = none ∧ id ∉ claimedIds outs ∧ id ∉ deletedIds outs := by
  have hwork : StreamRun.sweepWork group minIdleMs now run start =
      candidates g minIdleMs start now := by
    unfold StreamRun.sweepWork
    rw [hentry, streamOf_stream, hg]
    rfl
  have hlength : (StreamRun.sweepWork group minIdleMs now run start).length < g.pel.size + 1 := by
    rw [hwork]
    exact Nat.lt_succ_of_le length_candidates_le
  obtain ⟨run', outs, hpages, hsettles⟩ := pages_serve
    (fun _ _ _ _ _ _ _ h h' => StreamRun.Settles.append h h')
    (fun run c => @StreamRun.autoclaimFrom_serves key group consumer minIdleMs now count justId
      hcount run c)
    (g.pel.size + 1) run start ⟨exp, s, g, hentry, hg⟩ hlength
  rw [hwork] at hsettles
  have hreports := hsettles.reports hentry hg
  refine ⟨run', outs, _, hpages, (hsettles exp s g hentry hg).1, ?_, ?_⟩
  · intro id p hp
    obtain ⟨hlow, hhigh, hdelivered⟩ := hrows id p hp
    exact hreports.sweptRow hnow hp hlow hhigh hdelivered
  · intro id hnone
    have hout : id ∉ candidates g minIdleMs start now := by
      intro hin
      obtain ⟨p, hp, -⟩ := mem_candidates_iff.mp hin
      rw [hnone] at hp
      cases hp
    exact ⟨(settleAll_other hout).trans hnone, hreports.silent hout⟩

namespace Abandoned

/-- Three rows of a worker that went away, one of them without its entry. -/
def cmds : List StreamCmd := [
  .xadd (.concrete ⟨1, 0⟩) [("f", [97])] false none 1,
  .xadd (.concrete ⟨2, 0⟩) [("f", [98])] false none 2,
  .xadd (.concrete ⟨3, 0⟩) [("f", [99])] false none 3,
  .xgroup (.create "g" (.concrete .min) false),
  .xreadgroup "g" "alice" .newEntries none false 10,
  .xdel [⟨2, 0⟩]]

def stream : StreamValue := streamOf (StreamRun.exec "k" {} cmds).entry

def group : ConsumerGroup := (stream.groups["g"]?).getD {}

end Abandoned

open Abandoned in
theorem autoclaim_sweep_complete_on_abandoned :
    ∃ run' outs pel,
      pages (StreamRun.autoclaimFrom "k" "g" "bob" 5 1 false 20) (group.pel.size + 1)
        (StreamRun.exec "k" {} cmds) .min = some (run', outs) ∧
      run'.entry = some ⟨none, .stream (Stream.setGroup stream "g"
        (Stream.touch { group with pel := pel } "bob" 20))⟩ ∧
      (∀ (id : StreamId) (p : PendingEntry), group.pel[id]? = some p →
        SweptRow stream "bob" 5 .min 20 pel outs id p) ∧
      ∀ id : StreamId, group.pel[id]? = none →
        pel[id]? = none ∧ id ∉ claimedIds outs ∧ id ∉ deletedIds outs :=
  autoclaim_sweep_complete "k" "g" "bob" 5 .min (le_refl 1) false (by unfold IsClock; omega)
    (by decide +kernel) (by decide +kernel) (by
      have hrows : ∀ row ∈ group.pel.toList, -2 ^ 62 ≤ row.2.deliveryTimeMs ∧
          row.2.deliveryTimeMs ≤ 2 ^ 62 ∧ row.2.deliveryCount < 2 ^ 64 - 1 := by decide +kernel
      intro id p hp
      exact hrows (id, p) (Std.ExtTreeMap.mem_toList_iff_getElem?_eq_some.mpr hp))

end RustyAnt
