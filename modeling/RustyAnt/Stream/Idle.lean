import RustyAnt.Stream.Pending

/-!
# Idle times

`IDLE` and `TIME` of an `XCLAIM` put a delivery time of the client's choice into the
pending list, and later commands subtract it from the clock.  The subtractions fit an
`i64` along a run as long as no claim writes a time before `-2 ^ 62`.
-/

namespace RustyAnt

open Lib

/-- A delivery time which every clock can be compared to. -/
def Comparable (t : Int) : Prop := ∀ now, IsClock now → InI64 (now - t)

theorem comparable_iff {t : Int} : Comparable t ↔ -2 ^ 62 ≤ t ∧ t ≤ 2 ^ 63 := by
  unfold Comparable IsClock InI64 i64Min i64Max
  constructor
  · intro h
    have hfirst := h 0 (by omega)
    have hlast := h (2 ^ 62 - 1) (by omega)
    omega
  · intro h now hnow
    omega

theorem comparable_clock {now : Int} (h : IsClock now) : Comparable now := by
  unfold IsClock at h
  rw [comparable_iff]
  omega

namespace Stream

theorem idleSince_eq {now t : Int} (h : InI64 (now - t)) : idleSince now t = max 0 (now - t) := by
  unfold idleSince
  rw [wrapI64_eq_iff.mpr h, max_comm]

theorem idleSince_anti {now t u : Int} (ht : InI64 (now - t)) (hu : InI64 (now - u)) (h : t ≤ u) :
    idleSince now u ≤ idleSince now t := by
  rw [idleSince_eq ht, idleSince_eq hu]
  omega

/-! ## Where delivery times come from -/

/-- Every row was there before with the same delivery time, or was stamped with `t`. -/
def TimesFrom (t : Int) (pel pel' : BTreeMap StreamId PendingEntry) : Prop :=
  ∀ (id : StreamId) (p : PendingEntry), pel'[id]? = some p →
    p.deliveryTimeMs = t ∨ ∃ q : PendingEntry, pel[id]? = some q ∧
      q.deliveryTimeMs = p.deliveryTimeMs

variable {s s' : StreamValue} {group consumer : String} {g : ConsumerGroup} {t : Int}
  {pel pel' pel'' : BTreeMap StreamId PendingEntry}

theorem TimesFrom.refl (t : Int) (pel : BTreeMap StreamId PendingEntry) : TimesFrom t pel pel :=
  fun _ p hp => .inr ⟨p, hp, rfl⟩

theorem TimesFrom.trans (h : TimesFrom t pel pel') (h' : TimesFrom t pel' pel'') :
    TimesFrom t pel pel'' := by
  intro id p hp
  rcases h' id p hp with hstamp | ⟨q, hq, heq⟩
  · exact .inl hstamp
  · rw [← heq]
    exact h id q hq

theorem TimesFrom.of_subset
    (h : ∀ (id : StreamId) (p : PendingEntry), pel'[id]? = some p → pel[id]? = some p) :
    TimesFrom t pel pel' :=
  fun id p hp => .inr ⟨p, h id p hp, rfl⟩

theorem timesFrom_insert (pel : BTreeMap StreamId PendingEntry) (id : StreamId)
    (p : PendingEntry) : TimesFrom p.deliveryTimeMs pel (pel.insert id p) := by
  intro id' p' hp
  rw [Std.ExtTreeMap.getElem?_insert] at hp
  split at hp
  · cases hp
    exact .inl rfl
  · exact .inr ⟨p', hp, rfl⟩

theorem timesFrom_erase (t : Int) (pel : BTreeMap StreamId PendingEntry) (id : StreamId) :
    TimesFrom t pel (pel.erase id) := by
  apply TimesFrom.of_subset
  intro id' p hp
  rw [Std.ExtTreeMap.getElem?_erase] at hp
  split at hp
  · cases hp
  · exact hp

theorem timesFrom_deliverAll (noack : Bool) (now : Int) (entries : List StreamEntry)
    (g : ConsumerGroup) :
    TimesFrom now g.pel (entries.foldl (deliver consumer noack now) g).pel := by
  induction entries generalizing g with
  | nil => exact .refl now g.pel
  | cons e entries ih =>
      apply TimesFrom.trans _ (ih _)
      rw [deliver_pel]
      split
      · exact .refl now g.pel
      · exact timesFrom_insert g.pel e.id ⟨consumer, now, 1⟩

theorem timesFrom_redeliverAll (now : Int) (rows : List StreamId)
    (pel : BTreeMap StreamId PendingEntry) :
    TimesFrom now pel (rows.foldl (redeliver now) pel) := by
  induction rows generalizing pel with
  | nil => exact .refl now pel
  | cons row rows ih =>
      apply TimesFrom.trans _ (ih _)
      unfold redeliver
      split
      · rename_i p hp
        exact timesFrom_insert pel row
          ⟨p.consumer, now, saturatingSucc p.deliveryCount⟩
      · exact .refl now pel

theorem timesFrom_readGroup {id : XReadGroupId} {count : Option Nat} {noack : Bool} {now : Int}
    {out : List StreamEntry} (h : readGroup s group consumer id count noack now = .ok (s', out)) :
    ∃ g g', s.groups[group]? = some g ∧ s' = setGroup s group g' ∧
      TimesFrom now g.pel g'.pel := by
  unfold readGroup at h
  obtain ⟨g, hg, h⟩ := Result.bind_eq_ok.mp h
  cases id with
  | newEntries =>
      cases h
      exact ⟨g, _, getGroup_ok.mp hg, rfl, timesFrom_deliverAll noack now _ g⟩
  | pending after =>
      cases h
      exact ⟨g, _, getGroup_ok.mp hg, rfl, timesFrom_redeliverAll now _ g.pel⟩

theorem timesFrom_ack {ids : List StreamId} {n : Int} (h : ack s group ids = some (s', n)) :
    ∃ g g', s.groups[group]? = some g ∧ s' = setGroup s group g' ∧ TimesFrom t g.pel g'.pel := by
  unfold ack at h
  split at h
  · cases h
  · rename_i g hg
    dsimp only at h
    split at h
    · cases h
    · cases h
      exact ⟨g, _, hg, rfl, .of_subset fun id p hp => ackAll_row ids id hp⟩

theorem timesFrom_sweep {count : Nat} {justId : Bool} {now : Int} (candidates : List StreamId)
    (pel : BTreeMap StreamId PendingEntry) (out : XAutoClaimResult) :
    TimesFrom now pel (sweep s consumer count justId now candidates pel out).1 := by
  induction candidates generalizing pel out with
  | nil => exact .refl now pel
  | cons id rest ih =>
      unfold sweep
      split
      · exact .refl now pel
      · split
        · split
          · rename_i p hp
            exact (timesFrom_insert pel id ⟨consumer, now, _⟩).trans (ih _ _)
          · exact ih _ _
        · exact (timesFrom_erase now pel id).trans (ih _ _)

theorem timesFrom_autoclaim {minIdleMs : Int} {start : StreamId} {count : Nat} {justId : Bool}
    {now : Int} {out : XAutoClaimResult}
    (h : autoclaim s group consumer minIdleMs start count justId now = .ok (s', out)) :
    ∃ g g', s.groups[group]? = some g ∧ s' = setGroup s group g' ∧
      TimesFrom now g.pel g'.pel := by
  unfold autoclaim at h
  obtain ⟨g, hg, h⟩ := Result.bind_eq_ok.mp h
  cases h
  exact ⟨g, _, getGroup_ok.mp hg, rfl, timesFrom_sweep _ g.pel _⟩

/-! ## The time a claim writes -/

/-- `new_delivery_time`, in the integers. -/
def claimTime (opts : XClaimOpts) : Int := opts.timeMs.getD (opts.nowMs - opts.idleMs.getD 0)

/-- `new_delivery_time`, as the code computes it. -/
def claimStamp (opts : XClaimOpts) : Int :=
  opts.timeMs.getD (wrapI64 (opts.nowMs - opts.idleMs.getD 0))

theorem claimStamp_eq {opts : XClaimOpts}
    (h : opts.timeMs = none → InI64 (opts.nowMs - opts.idleMs.getD 0)) :
    claimStamp opts = claimTime opts := by
  unfold claimStamp claimTime
  cases htime : opts.timeMs with
  | none => exact wrapI64_eq_iff.mpr (h htime)
  | some t => rfl

variable {minIdleMs : Int} {opts : XClaimOpts} {acc : ConsumerGroup × List XClaimResult}

theorem claimOne_skipped {id : StreamId} (h : claimable acc.1 minIdleMs opts id = false) :
    claimOne s consumer minIdleMs opts acc id = acc := by
  unfold claimOne
  dsimp only
  rw [h]
  rfl

variable (s consumer) in
theorem claimOne_pel {id : StreamId} (h : claimable acc.1 minIdleMs opts id = true) :
    ∃ count, (claimOne s consumer minIdleMs opts acc id).1.pel =
      acc.1.pel.insert id ⟨consumer, claimStamp opts, count⟩ := by
  unfold claimOne
  dsimp only
  rw [if_pos h]
  exact ⟨_, rfl⟩

theorem timesFrom_claimOne (acc : ConsumerGroup × List XClaimResult) (id : StreamId) :
    TimesFrom (claimStamp opts) acc.1.pel (claimOne s consumer minIdleMs opts acc id).1.pel := by
  cases hclaim : claimable acc.1 minIdleMs opts id with
  | false =>
      rw [claimOne_skipped hclaim]
      exact .refl _ _
  | true =>
      obtain ⟨count, hpel⟩ := claimOne_pel s consumer hclaim
      rw [hpel]
      exact timesFrom_insert acc.1.pel id ⟨consumer, claimStamp opts, count⟩

theorem timesFrom_claimAll (ids : List StreamId) (acc : ConsumerGroup × List XClaimResult) :
    TimesFrom (claimStamp opts) acc.1.pel
      (ids.foldl (claimOne s consumer minIdleMs opts) acc).1.pel := by
  induction ids generalizing acc with
  | nil => exact .refl _ _
  | cons id ids ih => exact (timesFrom_claimOne acc id).trans (ih _)

theorem claimAll_skipped {ids : List StreamId}
    (h : ∀ id ∈ ids, claimable acc.1 minIdleMs opts id = false) :
    ids.foldl (claimOne s consumer minIdleMs opts) acc = acc := by
  induction ids with
  | nil => rfl
  | cons id ids ih =>
      rw [List.foldl_cons, claimOne_skipped (h id List.mem_cons_self)]
      exact ih fun id' hid => h id' (List.mem_cons_of_mem _ hid)

/-- Some row has the time that the claim writes. -/
def Stamped (opts : XClaimOpts) (g : ConsumerGroup) : Prop :=
  ∃ (id : StreamId) (p : PendingEntry), g.pel[id]? = some p ∧ p.deliveryTimeMs = claimStamp opts

theorem claimOne_stamps {id : StreamId} (h : claimable acc.1 minIdleMs opts id = true) :
    Stamped opts (claimOne s consumer minIdleMs opts acc id).1 := by
  obtain ⟨count, hpel⟩ := claimOne_pel s consumer h
  refine ⟨id, ⟨consumer, claimStamp opts, count⟩, ?_, rfl⟩
  rw [hpel, Std.ExtTreeMap.getElem?_insert_self]

theorem claimOne_stamped (h : Stamped opts acc.1) (id : StreamId) :
    Stamped opts (claimOne s consumer minIdleMs opts acc id).1 := by
  cases hclaim : claimable acc.1 minIdleMs opts id with
  | false =>
      rw [claimOne_skipped hclaim]
      exact h
  | true => exact claimOne_stamps hclaim

theorem claimAll_stamped (h : Stamped opts acc.1) (ids : List StreamId) :
    Stamped opts (ids.foldl (claimOne s consumer minIdleMs opts) acc).1 := by
  induction ids generalizing acc with
  | nil => exact h
  | cons id ids ih => exact ih (claimOne_stamped h id)

variable (s consumer) in
/-- The first id that can be claimed is, and a row keeps the time from then on. -/
theorem claimAll_stamps {ids : List StreamId} {id : StreamId} (hmem : id ∈ ids)
    (h : claimable acc.1 minIdleMs opts id = true) :
    Stamped opts (ids.foldl (claimOne s consumer minIdleMs opts) acc).1 := by
  induction ids with
  | nil => cases hmem
  | cons first ids ih =>
      rw [List.foldl_cons]
      cases hfirst : claimable acc.1 minIdleMs opts first with
      | true => exact claimAll_stamped (claimOne_stamps hfirst) ids
      | false =>
          rw [claimOne_skipped hfirst]
          rcases List.mem_cons.mp hmem with rfl | hrest
          · rw [h] at hfirst
            cases hfirst
          · exact ih hrest

theorem claim_ok {ids : List StreamId} {out : List XClaimResult}
    (h : claim s group consumer minIdleMs ids opts = .ok (s', out)) :
    ∃ g, s.groups[group]? = some g ∧
      s' = setGroup s group (ids.foldl (claimOne s consumer minIdleMs opts) (g, [])).1 := by
  unfold claim at h
  obtain ⟨g, hg, h⟩ := Result.bind_eq_ok.mp h
  cases h
  exact ⟨g, getGroup_ok.mp hg, rfl⟩

/-- The rows an `XAUTOCLAIM` goes through. -/
def candidates (g : ConsumerGroup) (minIdleMs : Int) (start : StreamId) (now : Int) :
    List StreamId :=
  (g.pel.toList.filter fun p =>
    decide (start ≤ p.1) && decide (minIdleMs ≤ idleSince now p.2.deliveryTimeMs)).map Prod.fst

theorem autoclaim_eq (hg : s.groups[group]? = some g) (minIdleMs : Int) (start : StreamId)
    (count : Nat) (justId : Bool) (now : Int) :
    autoclaim s group consumer minIdleMs start count justId now =
      .ok (setGroup s group (touch { g with
          pel := (sweep s consumer count justId now (candidates g minIdleMs start now) g.pel
            ⟨.min, [], []⟩).1 } consumer now),
        (sweep s consumer count justId now (candidates g minIdleMs start now) g.pel
          ⟨.min, [], []⟩).2) := by
  unfold autoclaim
  rw [getGroup_ok.mpr hg]
  rfl

theorem mem_candidates {start id : StreamId} {now : Int} {p : PendingEntry}
    (hp : g.pel[id]? = some p) :
    id ∈ candidates g minIdleMs start now ↔
      start ≤ id ∧ minIdleMs ≤ idleSince now p.deliveryTimeMs := by
  unfold candidates
  rw [List.mem_map]
  constructor
  · rintro ⟨⟨id', q⟩, hmem, rfl⟩
    rw [List.mem_filter, Std.ExtTreeMap.mem_toList_iff_getElem?_eq_some] at hmem
    obtain ⟨hq, hidle⟩ := hmem
    rw [hp] at hq
    cases hq
    simpa using hidle
  · intro h
    refine ⟨(id, p), ?_, rfl⟩
    rw [List.mem_filter, Std.ExtTreeMap.mem_toList_iff_getElem?_eq_some]
    exact ⟨hp, by simpa using h⟩

/-- The rows `XPENDING` lists, with idle times in the integers. -/
def exactDetail (g : ConsumerGroup) (start stop : RangeId) (count : Nat)
    (consumer : Option String) (idleMs : Option Int) (now : Int) : List XPendingDetailRow :=
  let rows := g.pel.toList.filterMap fun (id, p) =>
    let idle := max 0 (now - p.deliveryTimeMs)
    if start.geMin id && stop.leMax id && consumer.all (· == p.consumer) &&
        idleMs.all fun minIdle => decide (minIdle ≤ idle) then
      some ⟨id, p.consumer, idle, p.deliveryCount⟩
    else none
  rows.take (max count 1)

/-- Every row of the group can be compared to every clock. -/
def RowsComparable (g : ConsumerGroup) : Prop :=
  ∀ (id : StreamId) (p : PendingEntry), g.pel[id]? = some p → Comparable p.deliveryTimeMs

theorem pendingDetail_eq (hg : RowsComparable g) {now : Int} (hnow : IsClock now)
    (start stop : RangeId) (count : Nat) (consumer : Option String) (idleMs : Option Int) :
    Storage.pendingDetail g start stop count consumer idleMs now =
      exactDetail g start stop count consumer idleMs now := by
  unfold Storage.pendingDetail exactDetail
  dsimp only
  congr 1
  apply List.filterMap_congr
  rintro ⟨id, p⟩ hmem
  rw [Std.ExtTreeMap.mem_toList_iff_getElem?_eq_some] at hmem
  dsimp only
  rw [idleSince_eq (hg id p hmem now hnow)]

theorem RowsComparable.of_timesFrom {g' : ConsumerGroup} (hg : RowsComparable g)
    (ht : Comparable t) (h : TimesFrom t g.pel g'.pel) : RowsComparable g' := by
  intro id p hp
  rcases h id p hp with rfl | ⟨q, hq, heq⟩
  · exact ht
  · rw [← heq]
    exact hg id q hq

end Stream

/-! ## One command -/

/-- Every row of every group can be compared to every clock. -/
def StreamValue.RowsComparable (s : StreamValue) : Prop :=
  ∀ (group : String) (g : ConsumerGroup), s.groups[group]? = some g → Stream.RowsComparable g

namespace StreamCmd

/-- The clock is in range, and the times that the client names are `i64` values. -/
def Clocked : StreamCmd → Prop
  | .xreadgroup _ _ _ _ _ now => IsClock now
  | .xclaim _ _ _ _ opts =>
      IsClock opts.nowMs ∧ (∀ t ∈ opts.timeMs, InI64 t) ∧ ∀ idle ∈ opts.idleMs, InI64 idle
  | .xautoclaim _ _ _ _ _ _ now => IsClock now
  | _ => True

open RustyAnt.Stream in
/-- The subtractions of the command fit, and it filters by the idle times of the integers. -/
def Exact (s : StreamValue) : StreamCmd → Prop
  | .xclaim group consumer minIdleMs ids opts =>
      ∀ g, s.groups[group]? = some g →
        (opts.timeMs = none → InI64 (opts.nowMs - opts.idleMs.getD 0)) ∧
        claimStamp opts = claimTime opts ∧
        ∀ before id after, ids = before ++ id :: after →
          ∀ g', g' = (before.foldl (claimOne s consumer minIdleMs opts) (g, [])).1 →
          ∀ p, g'.pel[id]? = some p →
            InI64 (opts.nowMs - p.deliveryTimeMs) ∧
            (claimable g' minIdleMs opts id = true ↔
              minIdleMs ≤ max 0 (opts.nowMs - p.deliveryTimeMs))
  | .xautoclaim group _ minIdleMs start _ _ now =>
      ∀ g, s.groups[group]? = some g → ∀ id p, g.pel[id]? = some p → start ≤ id →
        InI64 (now - p.deliveryTimeMs) ∧
        (id ∈ candidates g minIdleMs start now ↔ minIdleMs ≤ max 0 (now - p.deliveryTimeMs))
  | _ => True

open RustyAnt.Stream in
/-- An `XCLAIM` on an existing group whose `IDLE` is not further below zero than the
range allows, and which writes no time before `-2 ^ 62`. -/
def Moderate (s : StreamValue) : StreamCmd → Prop
  | .xclaim group _ minIdleMs ids opts =>
      ∀ g, s.groups[group]? = some g →
        (opts.timeMs = none → opts.nowMs - i64Max ≤ opts.idleMs.getD 0) ∧
        ((∃ id ∈ ids, claimable g minIdleMs opts id = true) →
          (∀ time ∈ opts.timeMs, -2 ^ 62 ≤ time) ∧
          (opts.timeMs = none → opts.idleMs.getD 0 ≤ opts.nowMs + 2 ^ 62))
  | _ => True

end StreamCmd

namespace Stream

variable {s s' : StreamValue} {group consumer : String} {g : ConsumerGroup} {minIdleMs : Int}
  {ids : List StreamId} {opts : XClaimOpts}

theorem rowsComparable_setGroup (hs : s.RowsComparable) (group : String) (hg : RowsComparable g) :
    (setGroup s group g).RowsComparable := groups_setGroup hs group hg

theorem rowsComparable_applyXgroupOp {op : XGroupOp} {existed : Bool} {r : Int}
    (hs : s.RowsComparable) (h : applyXgroupOp s op existed = .ok (s', r)) :
    s'.RowsComparable := by
  refine groups_applyXgroupOp ?_ (fun _ _ hg => hg) (fun _ _ hg => hg) ?_ hs h
  · intro start id p hp
    simp at hp
  · intro g consumer hg id p hp
    rw [Std.ExtTreeMap.getElem?_filter', Option.filter_eq_some_iff] at hp
    exact hg id p hp.1

theorem claimTime_inI64 (hclocked : (StreamCmd.xclaim group consumer minIdleMs ids opts).Clocked)
    (h : opts.timeMs = none → opts.nowMs - i64Max ≤ opts.idleMs.getD 0) :
    opts.timeMs = none → InI64 (opts.nowMs - opts.idleMs.getD 0) := by
  intro hnone
  have hlow := h hnone
  obtain ⟨hnow, -, hidle⟩ := hclocked
  have hrange : InI64 (opts.idleMs.getD 0) := by
    cases hopt : opts.idleMs with
    | none =>
        rw [Option.getD_none]
        unfold InI64 i64Min i64Max
        omega
    | some idle => exact hidle idle hopt
  unfold IsClock at hnow
  unfold InI64 i64Min i64Max at *
  omega

theorem comparable_claimTime
    (hclocked : (StreamCmd.xclaim group consumer minIdleMs ids opts).Clocked)
    (hfits : opts.timeMs = none → InI64 (opts.nowMs - opts.idleMs.getD 0)) :
    Comparable (claimTime opts) ↔ (∀ time ∈ opts.timeMs, -2 ^ 62 ≤ time) ∧
      (opts.timeMs = none → opts.idleMs.getD 0 ≤ opts.nowMs + 2 ^ 62) := by
  rw [comparable_iff]
  unfold claimTime
  cases htime : opts.timeMs with
  | none =>
      have hrange := hfits htime
      unfold InI64 i64Min i64Max at hrange
      simp only [Option.getD_none, Option.mem_def, reduceCtorEq, false_implies, implies_true,
        true_and, forall_const]
      omega
  | some t =>
      have hrange := hclocked.2.1 t htime
      unfold InI64 i64Min i64Max at hrange
      simp only [Option.getD_some, Option.mem_def, Option.some.injEq, forall_eq', reduceCtorEq,
        false_implies, and_true]
      omega

theorem rowsComparable_claimAll
    (hclocked : (StreamCmd.xclaim group consumer minIdleMs ids opts).Clocked)
    (hg : s.groups[group]? = some g)
    (hmoderate : (StreamCmd.xclaim group consumer minIdleMs ids opts).Moderate s)
    (hrows : RowsComparable g) {before : List StreamId} (hbefore : before ⊆ ids) :
    RowsComparable (before.foldl (claimOne s consumer minIdleMs opts) (g, [])).1 := by
  obtain ⟨hlow, htime⟩ := hmoderate g hg
  have hfits := claimTime_inI64 hclocked hlow
  by_cases hsome : ∃ id ∈ ids, claimable g minIdleMs opts id = true
  · have hstamp : Comparable (claimStamp opts) := by
      rw [claimStamp_eq hfits]
      exact (comparable_claimTime hclocked hfits).mpr (htime hsome)
    exact hrows.of_timesFrom hstamp (timesFrom_claimAll before (g, []))
  · rw [claimAll_skipped]
    · exact hrows
    · intro id hid
      rw [← Bool.not_eq_true]
      exact fun hclaim => hsome ⟨id, hbefore hid, hclaim⟩

end Stream

open RustyAnt.Stream in
theorem StreamEffect.rowsComparable {cmd : StreamCmd} {s s' : StreamValue} {r : StreamReply}
    (h : StreamEffect cmd s r s') (hclocked : cmd.Clocked) (hmoderate : cmd.Moderate s)
    (hs : s.RowsComparable) : s'.RowsComparable := by
  cases h with
  | nothing _ => exact hs
  | added h =>
      intro group g hg
      rw [(add_ok h).2.2] at hg
      exact hs group g hg
  | deleted => exact hs
  | trimmed =>
      intro group g hg
      rw [trimInPlace_groups] at hg
      exact hs group g hg
  | grouped h => exact rowsComparable_applyXgroupOp hs h
  | read h =>
      obtain ⟨g, g', hg, rfl, hfrom⟩ := timesFrom_readGroup h
      exact rowsComparable_setGroup hs _
        ((hs _ g hg).of_timesFrom (comparable_clock hclocked) hfrom)
  | acked h =>
      obtain ⟨g, g', hg, rfl, hfrom⟩ := timesFrom_ack (t := 0) h
      have hzero : Comparable 0 := comparable_iff.mpr (by omega)
      exact rowsComparable_setGroup hs _ ((hs _ g hg).of_timesFrom hzero hfrom)
  | claimed h =>
      obtain ⟨g, hg, rfl⟩ := claim_ok h
      exact rowsComparable_setGroup hs _
        (rowsComparable_claimAll hclocked hg hmoderate (hs _ g hg) (List.Subset.refl _))
  | autoclaimed h =>
      obtain ⟨g, g', hg, rfl, hfrom⟩ := timesFrom_autoclaim h
      exact rowsComparable_setGroup hs _
        ((hs _ g hg).of_timesFrom (comparable_clock hclocked) hfrom)

open RustyAnt.Stream in
theorem StreamCmd.exact_of_moderate {cmd : StreamCmd} {s : StreamValue}
    (hclocked : cmd.Clocked) (hmoderate : cmd.Moderate s) (hs : s.RowsComparable) :
    cmd.Exact s := by
  cases cmd with
  | xclaim group consumer minIdleMs ids opts =>
      intro g hg
      have hfits := claimTime_inI64 hclocked (hmoderate g hg).1
      refine ⟨hfits, claimStamp_eq hfits, ?_⟩
      intro before id after hids g' hg' p hp
      have hrows : RowsComparable g' := by
        rw [hg']
        apply rowsComparable_claimAll hclocked hg hmoderate (hs group g hg)
        rw [hids]
        exact List.subset_append_left _ _
      have hrange := hrows id p hp opts.nowMs hclocked.1
      refine ⟨hrange, ?_⟩
      unfold claimable
      rw [hp]
      dsimp only
      rw [idleSince_eq hrange, decide_eq_true_iff]
  | xautoclaim group consumer minIdleMs start count justId now =>
      intro g hg id p hp hstart
      have hrange := hs group g hg id p hp now hclocked
      refine ⟨hrange, ?_⟩
      rw [mem_candidates hp, idleSince_eq hrange]
      exact and_iff_right hstart
  | _ => trivial

/-! ## Whole runs -/

/-- No clock overflows on a row of the entry, and idle times are those of the integers. -/
structure ExactIdle (key : String) (entry : Option StoredValue) : Prop where
  idle : ∀ (group : String) (g : ConsumerGroup), (streamOf entry).groups[group]? = some g →
    ∀ (id : StreamId) (p : PendingEntry), g.pel[id]? = some p → ∀ now, IsClock now →
      InI64 (now - p.deliveryTimeMs) ∧
      Stream.idleSince now p.deliveryTimeMs = max 0 (now - p.deliveryTimeMs)
  order : ∀ (group : String) (g : ConsumerGroup), (streamOf entry).groups[group]? = some g →
    ∀ (id id' : StreamId) (p q : PendingEntry), g.pel[id]? = some p → g.pel[id']? = some q →
      p.deliveryTimeMs ≤ q.deliveryTimeMs → ∀ now, IsClock now →
        Stream.idleSince now q.deliveryTimeMs ≤ Stream.idleSince now p.deliveryTimeMs
  reported : ∀ (group : String) (start stop : RangeId) (count : Nat) (consumer : Option String)
    (idleMs : Option Int) (now : Int), IsClock now →
      answered key entry now
          (Storage.xpendingDetail key group start stop count consumer idleMs now) =
        (Storage.groupOf key group entry).map fun g =>
          Stream.exactDetail g start stop count consumer idleMs now

theorem groupOf_streamOf {key group : String} {entry : Option StoredValue} {g : ConsumerGroup}
    (h : Storage.groupOf key group entry = .ok g) : (streamOf entry).groups[group]? = some g := by
  unfold Storage.groupOf at h
  obtain ⟨found, hfind, h⟩ := Result.bind_eq_ok.mp h
  cases found with
  | none => cases h
  | some p =>
      rw [View.stream.find_some hfind]
      exact Stream.getGroup_ok.mp h

theorem exactIdle_iff {key : String} {entry : Option StoredValue} :
    ExactIdle key entry ↔ (streamOf entry).RowsComparable := by
  constructor
  · intro h group g hg id p hp now hnow
    exact (h.idle group g hg id p hp now hnow).1
  · intro h
    refine ⟨?_, ?_, ?_⟩
    · intro group g hg id p hp now hnow
      have hrange := h group g hg id p hp now hnow
      exact ⟨hrange, Stream.idleSince_eq hrange⟩
    · intro group g hg id id' p q hp hq hle now hnow
      exact Stream.idleSince_anti (h group g hg id p hp now hnow) (h group g hg id' q hq now hnow)
        hle
    · intro group start stop count consumer idleMs now hnow
      unfold Storage.xpendingDetail
      rw [Prog.bind_eq, answered_loadEntry]
      cases hgroup : Storage.groupOf key group entry with
      | error e => rfl
      | ok g =>
          have hrows := h group g (groupOf_streamOf hgroup)
          have heq := Stream.pendingDetail_eq hrows hnow start stop count consumer idleMs
          rw [Prog.ofExcept, Prog.bind_eq, Prog.done_ok_bind, heq]
          rfl

namespace StreamRun

variable {key group consumer : String} {run : StreamRun} {g : ConsumerGroup}

/-- The entry after an `XCLAIM` on a group that exists. -/
theorem step_xclaim {s : StreamValue} {exp : Option Int}
    (hentry : run.entry = some ⟨exp, .stream s⟩) (hg : s.groups[group]? = some g)
    (minIdleMs : Int) (ids : List StreamId) (opts : XClaimOpts) :
    streamOf (run.step key (.xclaim group consumer minIdleMs ids opts)).entry =
      Stream.setGroup s group
        (ids.foldl (Stream.claimOne s consumer minIdleMs opts) (g, [])).1 := by
  have hclaim : Stream.claim s group consumer minIdleMs ids opts =
      .ok (Stream.setGroup s group
          (ids.foldl (Stream.claimOne s consumer minIdleMs opts) (g, [])).1,
        (ids.foldl (Stream.claimOne s consumer minIdleMs opts) (g, [])).2) := by
    unfold Stream.claim
    rw [Stream.getGroup_ok.mpr hg]
    rfl
  have hmodify := StreamCmd.modify_xclaim key group consumer s exp minIdleMs ids opts
  unfold step
  rw [hentry, hmodify, hclaim]
  rfl

theorem moderate_of_exact {cmd : StreamCmd} (hclocked : cmd.Clocked)
    (hexact : cmd.Exact (streamOf run.entry))
    (hafter : (streamOf (run.step key cmd).entry).RowsComparable) :
    cmd.Moderate (streamOf run.entry) := by
  cases cmd with
  | xclaim group consumer minIdleMs ids opts =>
      intro g hg
      obtain ⟨hfits, hstamp, -⟩ := hexact g hg
      refine ⟨?_, ?_⟩
      · intro hnone
        have hrange := (hfits hnone).2
        omega
      · rintro ⟨id, hid, hclaim⟩
        rw [← Stream.comparable_claimTime hclocked hfits, ← hstamp]
        obtain ⟨exp, s, hentry, hs⟩ := entry_of_group hg
        rw [step_xclaim hentry hs] at hafter
        have hset : (Stream.setGroup s group
            (ids.foldl (Stream.claimOne s consumer minIdleMs opts) (g, [])).1).groups[group]? =
              some (ids.foldl (Stream.claimOne s consumer minIdleMs opts) (g, [])).1 := by
          rw [Stream.getElem?_setGroup, if_pos rfl]
        obtain ⟨id', p, hp, htime⟩ := @Stream.claimAll_stamps s consumer minIdleMs opts
          (g, []) ids id hid hclaim
        rw [← htime]
        exact hafter group _ hset id' p hp
  | _ => trivial

theorem rowsComparable_exec {cmds : List StreamCmd} (hclocked : ∀ cmd ∈ cmds, cmd.Clocked)
    (hmoderate : ∀ before cmd, before ++ [cmd] <+: cmds →
      cmd.Moderate (streamOf (exec key {} before).entry)) :
    (streamOf (exec key {} cmds).entry).RowsComparable := by
  apply exec_invariant (P := fun run => (streamOf run.entry).RowsComparable)
  · intro group g hg
    simp at hg
  · intro before cmd hpre hrun
    have hmem : cmd ∈ cmds := hpre.subset (by simp)
    rcases step_cases key (exec key {} before) cmd with ⟨e, he⟩ | ⟨r, -, heffect⟩
    · rw [he]
      exact hrun
    · exact heffect.rowsComparable (hclocked cmd hmem) (hmoderate before cmd hpre) hrun

end StreamRun

/-- Along a run, subtractions fit and idle times are exact in every state reached iff
every claim is moderate. -/
theorem idle_times_exact_iff (key : String) (cmds : List StreamCmd)
    (hclocked : ∀ cmd ∈ cmds, cmd.Clocked) :
    (∀ before cmd, before ++ [cmd] <+: cmds →
        cmd.Exact (streamOf (StreamRun.exec key {} before).entry) ∧
          ExactIdle key (StreamRun.exec key {} (before ++ [cmd])).entry) ↔
      ∀ before cmd, before ++ [cmd] <+: cmds →
        cmd.Moderate (streamOf (StreamRun.exec key {} before).entry) := by
  constructor
  · intro h before cmd hpre
    obtain ⟨hexact, hafter⟩ := h before cmd hpre
    have hmem : cmd ∈ cmds := hpre.subset (by simp)
    rw [exactIdle_iff, StreamRun.exec_snoc] at hafter
    exact StreamRun.moderate_of_exact (hclocked cmd hmem) hexact hafter
  · intro h before cmd hpre
    have hmem : cmd ∈ cmds := hpre.subset (by simp)
    have hreach : ∀ cmds₁, cmds₁ <+: cmds →
        (streamOf (StreamRun.exec key {} cmds₁).entry).RowsComparable := fun cmds₁ hcmds₁ =>
      StreamRun.rowsComparable_exec (fun c hc => hclocked c (hcmds₁.subset hc))
        fun before' c hc => h before' c (hc.trans hcmds₁)
    have hbefore := hreach before ((List.prefix_append before [cmd]).trans hpre)
    exact ⟨StreamCmd.exact_of_moderate (hclocked cmd hmem) (h before cmd hpre) hbefore,
      exactIdle_iff.mpr (hreach _ hpre)⟩

namespace Claimed

/-- One entry is delivered and then claimed with a time. -/
def cmds (time : Int) : List StreamCmd := [
  .xadd (.concrete ⟨1, 0⟩) [("f", [97])] false none 1,
  .xgroup (.create "g" (.concrete .min) false),
  .xreadgroup "g" "alice" .newEntries none false 10,
  .xclaim "g" "bob" 0 [⟨1, 0⟩] { timeMs := some time, nowMs := 20 }]

def group (time : Int) : ConsumerGroup :=
  ((streamOf (StreamRun.exec "k" {} (cmds time)).entry).groups["g"]?).getD {}

end Claimed

theorem Claimed.clocked {time : Int} (h : InI64 time) :
    ∀ cmd ∈ Claimed.cmds time, cmd.Clocked := by
  have htimes : ∀ t ∈ some time, InI64 t := by
    intro t ht
    cases ht
    exact h
  have hclock : IsClock 20 := by unfold IsClock; omega
  have hread : IsClock 10 := by unfold IsClock; omega
  simp only [Claimed.cmds, List.forall_mem_cons, List.not_mem_nil, false_implies, implies_true,
    and_true]
  exact ⟨trivial, trivial, hread, hclock, htimes, by simp⟩

open Claimed in
/-- A row claimed with the least time is reported as not idle at all. -/
theorem idle_times_wrap :
    (∀ cmd ∈ cmds i64Min, cmd.Clocked) ∧
      (group i64Min).pel[(⟨1, 0⟩ : StreamId)]? = some ⟨"bob", i64Min, 2⟩ ∧
      Storage.pendingDetail (group i64Min) .minInf .maxInf 10 none none 30 =
        [⟨⟨1, 0⟩, "bob", 0, 2⟩] ∧
      Stream.exactDetail (group i64Min) .minInf .maxInf 10 none none 30 =
        [⟨⟨1, 0⟩, "bob", 2 ^ 63 + 30, 2⟩] ∧
      ¬ ExactIdle "k" (StreamRun.exec "k" {} (cmds i64Min)).entry := by
  have hrow : (group i64Min).pel[(⟨1, 0⟩ : StreamId)]? = some ⟨"bob", i64Min, 2⟩ := by
    decide +kernel
  have hgroup : (streamOf (StreamRun.exec "k" {} (cmds i64Min)).entry).groups["g"]? =
      some (group i64Min) := by
    have hmem : "g" ∈ (streamOf (StreamRun.exec "k" {} (cmds i64Min)).entry).groups := by
      decide +kernel
    unfold group
    rw [Std.ExtTreeMap.getElem?_eq_some_getElem hmem]
    rfl
  refine ⟨Claimed.clocked (by unfold InI64 i64Min i64Max; omega), hrow, by decide +kernel,
    by decide +kernel, ?_⟩
  intro h
  have hrange := (h.idle "g" _ hgroup _ _ hrow 30 (by unfold IsClock; omega)).1.2
  have htime : (⟨"bob", i64Min, 2⟩ : PendingEntry).deliveryTimeMs = -2 ^ 63 := rfl
  rw [htime] at hrange
  unfold i64Max at hrange
  omega

open Claimed in
/-- The claim of a row with a time within the range. -/
theorem idle_times_exact_on_claim :
    (StreamCmd.xclaim "g" "bob" 0 [⟨1, 0⟩] { timeMs := some 5, nowMs := 20 }).Exact
        (streamOf (StreamRun.exec "k" {} ((cmds 5).take 3)).entry) ∧
      ExactIdle "k" (StreamRun.exec "k" {} (cmds 5)).entry := by
  have hclocked := @Claimed.clocked 5 (by unfold InI64 i64Min i64Max; omega)
  have hmoderate : ∀ cmd ∈ cmds 5, ∀ s, cmd.Moderate s := by
    simp only [cmds, List.forall_mem_cons, List.not_mem_nil, false_implies, implies_true, and_true]
    exact ⟨fun _ => trivial, fun _ => trivial, fun _ => trivial, fun s g hg =>
      ⟨by simp, fun _ => by simp⟩⟩
  have hexact := (idle_times_exact_iff "k" (cmds 5) hclocked).mpr fun before cmd hpre =>
    hmoderate cmd (hpre.subset (by simp)) _
  exact hexact ((cmds 5).take 3) _ (List.prefix_refl _)

end RustyAnt
