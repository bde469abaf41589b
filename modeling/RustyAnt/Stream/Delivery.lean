import RustyAnt.Stream.Monotone

/-!
# Delivery to a consumer group

A group's `>` reads hand out every entry past the group's cursor once, in id order,
whatever the consumers, counts, acknowledgements, claims, deletions and trims in
between.  The cursor only moves over entries that the read returns.
-/

namespace RustyAnt

open Lib

/-! ## The runs in question -/

/-- The command neither moves the group's cursor by hand nor drops the group. -/
def StreamCmd.KeepsGroup (group : String) : StreamCmd → Prop
  | .xgroup (.setId g _) => g ≠ group
  | .xgroup (.destroy g) => g ≠ group
  | _ => True

/-- What one logged command delivered to the group as new entries. -/
def newRead (group : String) : StreamCmd × Result StreamReply → Option (List StreamEntry)
  | (.xreadgroup g _ .newEntries _ _ _, .ok (.delivered entries)) =>
      if g = group then some entries else none
  | _ => none

/-- The answers of the group's `>` reads, in commit order. -/
def newReads (group : String) (log : List (StreamCmd × Result StreamReply)) :
    List (List StreamEntry) :=
  log.filterMap (newRead group)

namespace Stream

theorem getElem?_setGroup (s : StreamValue) (group name : String) (g : ConsumerGroup) :
    (setGroup s group g).groups[name]? = if group = name then some g else s.groups[name]? := by
  simp only [setGroup]
  rw [Std.ExtTreeMap.getElem?_insert]
  simp

def KeepsCursor (group : String) (s s' : StreamValue) : Prop :=
  ∀ g, s.groups[group]? = some g →
    ∃ g', s'.groups[group]? = some g' ∧ g'.lastDeliveredId = g.lastDeliveredId

theorem keepsCursor_of_groups {group : String} {s s' : StreamValue} (h : s'.groups = s.groups) :
    KeepsCursor group s s' := by
  intro g hg
  exact ⟨g, by rw [h, hg], rfl⟩

theorem Regroups.keepsCursor {name : String} {s s' : StreamValue} (h : Regroups name s s')
    (group : String) : KeepsCursor group s s' := by
  obtain ⟨g, g', hg, rfl, hlast⟩ := h
  intro g₁ hg₁
  rw [getElem?_setGroup]
  split
  · rename_i hname
    rw [hname, hg₁, Option.some.injEq] at hg
    exact ⟨g', rfl, by rw [hlast, hg]⟩
  · exact ⟨g₁, hg₁, rfl⟩

theorem setGroup_keepsCursor {s : StreamValue} {name group : String} (h : name ≠ group)
    (g : ConsumerGroup) : KeepsCursor group s (setGroup s name g) := by
  intro g₁ hg₁
  exact ⟨g₁, by rw [getElem?_setGroup, if_neg h, hg₁], rfl⟩

theorem delivered_lastDelivered (consumer : String) (noack : Bool) (now : Int)
    (g : ConsumerGroup) (entries : List StreamEntry) :
    (delivered consumer noack now g entries).lastDeliveredId =
      advance StreamEntry.id g.lastDeliveredId entries := by
  unfold delivered
  show (entries.foldl (deliver consumer noack now) g).lastDeliveredId = _
  induction entries generalizing g with
  | nil => rfl
  | cons e entries ih =>
      rw [List.foldl_cons, ih]
      rfl

theorem newish_eq (s : StreamValue) (g : ConsumerGroup) (count : Option Nat) :
    ∃ n, newish s g count =
      (s.entries.filter fun e => decide (g.lastDeliveredId < e.id)).take n := by
  unfold newish
  cases count with
  | none =>
      refine ⟨(s.entries.filter fun e => decide (g.lastDeliveredId < e.id)).length, ?_⟩
      rw [List.take_length]
      rfl
  | some cap => exact ⟨cap, rfl⟩

theorem sortById_of_sorted {entries : List StreamEntry}
    (h : entries.Pairwise fun a b => a.id < b.id) : sortById entries = entries := by
  apply List.Pairwise.insertionSort_eq
  exact h.imp fun hab => hab.le

end Stream

/-! ## What one command does for the group -/

namespace StreamEffect

open RustyAnt.Stream

variable {cmd : StreamCmd} {s s' : StreamValue} {r : StreamReply} {group : String}

theorem keepsCursor (h : StreamEffect cmd s r s') (hkeeps : cmd.KeepsGroup group)
    (hread : newRead group (cmd, .ok r) = none) : KeepsCursor group s s' := by
  cases h with
  | nothing _ => exact keepsCursor_of_groups rfl
  | added h => exact keepsCursor_of_groups (add_ok h).2.2
  | deleted => exact keepsCursor_of_groups rfl
  | trimmed => exact keepsCursor_of_groups (trimInPlace_groups _ _ _)
  | grouped h =>
      rcases applyXgroupOp_ok h with rfl | ⟨name, hre⟩ | ⟨name, _, _, _, hfree, rfl⟩ |
        ⟨name, _, _, rfl, rfl⟩ | ⟨name, rfl, rfl⟩
      · exact keepsCursor_of_groups rfl
      · exact hre.keepsCursor group
      · intro g hg
        have hne : name ≠ group := by
          rintro rfl
          rw [Std.ExtTreeMap.getElem?_eq_none hfree] at hg
          cases hg
        exact setGroup_keepsCursor hne _ g hg
      · exact setGroup_keepsCursor hkeeps _
      · intro g hg
        refine ⟨g, ?_, rfl⟩
        rw [Std.ExtTreeMap.getElem?_erase]
        have hne : name ≠ group := hkeeps
        simpa [hne] using hg
  | @read s s' name consumer id count noack now out h =>
      cases id with
      | newEntries =>
          obtain ⟨g, -, -, rfl⟩ := readGroup_new h
          have hne : name ≠ group := by
            intro heq
            simp [newRead, heq] at hread
          exact setGroup_keepsCursor hne _
      | pending after => exact (readGroup_pending h).keepsCursor group
  | acked h => exact (ack_regroups h).keepsCursor group
  | claimed h => exact (claim_regroups h).keepsCursor group
  | autoclaimed h => exact (autoclaim_regroups h).keepsCursor group

theorem newRead_inv {out : List StreamEntry} (h : StreamEffect cmd s r s')
    (hread : newRead group (cmd, .ok r) = some out) :
    ∃ g count consumer noack now, s.groups[group]? = some g ∧
      out = sortById (newish s g count) ∧
      s' = setGroup s group (delivered consumer noack now g (newish s g count)) := by
  cases h with
  | @read s s' name consumer id count noack now out' h =>
      cases id with
      | newEntries =>
          simp only [newRead] at hread
          split at hread
          · rename_i hname
            obtain ⟨g, hg, hout, hs⟩ := readGroup_new h
            rw [hname] at hg hs
            exact ⟨g, count, consumer, noack, now, hg, by rw [← hout, ← Option.some.inj hread], hs⟩
          · cases hread
      | pending after => simp [newRead] at hread
  | nothing hr =>
      rcases hr with rfl | rfl <;> cases cmd <;> simp [newRead] at hread
  | _ => simp [newRead] at hread

end StreamEffect

/-- Entries handed out so far against the group's cursor, which started at `g0`. -/
structure HandedOut (g0 last : StreamId) (out entries : List StreamEntry)
    (added : List StreamId) : Prop where
  entries_added : List.Sublist (entries.map StreamEntry.id) added
  out_added : ∀ e ∈ out, e.id ∈ added
  out_increasing : (out.map StreamEntry.id).Pairwise (· < ·)
  out_le : ∀ e ∈ out, e.id ≤ last
  last_eq : last = g0 ∨ ∃ e ∈ out, last = e.id
  start_le : g0 ≤ last
  complete : ∀ e ∈ entries, g0 < e.id → e.id ≤ last → e ∈ out

namespace HandedOut

variable {g0 last : StreamId} {out entries : List StreamEntry} {added : List StreamId}

theorem shrinks {entries' : List StreamEntry} (h : HandedOut g0 last out entries added)
    (hsub : List.Sublist entries' entries) : HandedOut g0 last out entries' added :=
  { h with
    entries_added := (hsub.map StreamEntry.id).trans h.entries_added
    complete := fun e he => h.complete e (hsub.mem he) }

/-- A new entry is past everything handed out, so only a cursor that still
stands at its start can be beyond it. -/
theorem append {id : StreamId} {fields : List (String × Bytes)}
    (h : HandedOut g0 last out entries added) (hinc : (added ++ [id]).Pairwise (· < ·)) :
    HandedOut g0 last out (entries ++ [⟨id, fields⟩]) (added ++ [id]) := by
  have hnew : ∀ i ∈ added, i < id := by
    intro i hi
    exact (List.pairwise_append.mp hinc).2.2 i hi id (List.mem_singleton_self id)
  refine { h with entries_added := ?_, out_added := ?_, complete := ?_ }
  · rw [List.map_append]
    exact h.entries_added.append (List.Sublist.refl [id])
  · intro e he
    exact List.mem_append_left [id] (h.out_added e he)
  · intro e he hstart hle
    rcases List.mem_append.mp he with he | he
    · exact h.complete e he hstart hle
    · rw [List.mem_singleton.mp he] at hstart hle ⊢
      exfalso
      rcases h.last_eq with hlast | ⟨e', he', hlast⟩
      · rw [hlast] at hle
        exact absurd hstart (not_lt.mpr hle)
      · have hlt := hnew e'.id (h.out_added e' he')
        rw [hlast] at hle
        exact absurd hlt (not_lt.mpr hle)

theorem entries_sorted (h : HandedOut g0 last out entries added)
    (hinc : added.Pairwise (· < ·)) : entries.Pairwise fun a b => a.id < b.id :=
  List.pairwise_map.mp (hinc.sublist h.entries_added)

/-- A `>` read of the first entries past the cursor. -/
theorem read {n : Nat} {part : List StreamEntry} (h : HandedOut g0 last out entries added)
    (hinc : added.Pairwise (· < ·))
    (hpart : part = (entries.filter fun e => decide (last < e.id)).take n) :
    HandedOut g0 (advance StreamEntry.id last part) (out ++ part) entries added := by
  have hsorted := h.entries_sorted hinc
  have hsub : List.Sublist part entries := by
    rw [hpart]
    exact (List.take_sublist _ _).trans List.filter_sublist
  have hpast : ∀ e ∈ part, last < e.id := by
    intro e he
    rw [hpart] at he
    exact of_decide_eq_true (List.mem_filter.mp (List.mem_of_mem_take he)).2
  have hadv : last ≤ advance StreamEntry.id last part := le_advance part last
  refine ⟨h.entries_added, ?_, ?_, ?_, ?_, h.start_le.trans hadv, ?_⟩
  · intro e he
    rcases List.mem_append.mp he with he | he
    · exact h.out_added e he
    · exact h.entries_added.mem (List.mem_map_of_mem (hsub.mem he))
  · rw [List.map_append]
    refine List.pairwise_append.mpr
      ⟨h.out_increasing, List.pairwise_map.mpr (hsorted.sublist hsub), ?_⟩
    intro i hi j hj
    obtain ⟨a, ha, rfl⟩ := List.mem_map.mp hi
    obtain ⟨b, hb, rfl⟩ := List.mem_map.mp hj
    exact (h.out_le a ha).trans_lt (hpast b hb)
  · intro e he
    rcases List.mem_append.mp he with he | he
    · exact (h.out_le e he).trans hadv
    · exact le_advance_of_mem he last
  · rcases advance_mem StreamEntry.id part last with heq | ⟨e, he, heq⟩
    · rcases h.last_eq with hlast | ⟨e, he, hlast⟩
      · exact .inl (heq.trans hlast)
      · exact .inr ⟨e, List.mem_append_left part he, heq.trans hlast⟩
    · exact .inr ⟨e, List.mem_append_right out he, heq⟩
  · intro e he hstart hle
    by_cases hold : e.id ≤ last
    · exact List.mem_append_left part (h.complete e he hstart hold)
    · have hlt := not_le.mp hold
      apply List.mem_append_right out
      rw [hpart] at hle ⊢
      exact mem_take_of_le_advance (hsorted.sublist List.filter_sublist)
        (List.mem_filter.mpr ⟨he, decide_eq_true hlt⟩) hlt hle

end HandedOut

/-! ## Runs -/

namespace StreamRun

/-- Entries come from `XADD`s, in the order in which their ids were returned. -/
def EntriesAdded (run : StreamRun) : Prop :=
  List.Sublist ((streamOf run.entry).entries.map StreamEntry.id) (addedIds run.log)

theorem entriesAdded_step (key : String) {run : StreamRun} (cmd : StreamCmd)
    (h : EntriesAdded run) : EntriesAdded (run.step key cmd) := by
  unfold EntriesAdded at h ⊢
  rcases step_cases key run cmd with ⟨e, hstep⟩ | ⟨r, hlog, heff⟩
  · rw [hstep, addedIds_snoc]
    simpa [addedIds] using h
  · rw [hlog, addedIds_snoc]
    by_cases hr : ∃ id, r = .added (some id)
    · obtain ⟨id, rfl⟩ := hr
      obtain ⟨_, fields, _, _, _, _, _, hshrinks, _⟩ := heff.added_inv
      refine (hshrinks.entries.map StreamEntry.id).trans ?_
      simp only [Stream.append, List.map_append]
      exact h.append (List.Sublist.refl [id])
    · have hr' : ∀ id, r ≠ .added (some id) := fun id hid => hr ⟨id, hid⟩
      exact ((heff.shrinks hr').entries.map StreamEntry.id).trans
        (h.trans (List.sublist_append_left _ _))

theorem entriesAdded (key : String) (cmds : List StreamCmd) : EntriesAdded (exec key {} cmds) :=
  exec_invariant (List.Sublist.refl []) fun _ cmd _ h => entriesAdded_step key cmd h

/-- The group's state in a run since its creation at `g0`, where `prev` are the
ids added before. -/
def GroupServed (group : String) (g0 : StreamId) (prev : List StreamId) (run : StreamRun) : Prop :=
  ∃ g, (streamOf run.entry).groups[group]? = some g ∧
    HandedOut g0 g.lastDeliveredId (newReads group run.log).flatten (streamOf run.entry).entries
      (prev ++ addedIds run.log)

theorem newReads_snoc (group : String) (log : List (StreamCmd × Result StreamReply))
    (p : StreamCmd × Result StreamReply) :
    newReads group (log ++ [p]) = newReads group log ++ (newRead group p).toList := by
  unfold newReads
  rw [List.filterMap_append]
  cases h : newRead group p with
  | none => simp [h]
  | some out => simp [h]

theorem newRead_reply {group : String} {cmd : StreamCmd} {r : StreamReply}
    {out : List StreamEntry} (h : newRead group (cmd, .ok r) = some out) :
    ∀ id, r ≠ .added (some id) := by
  rintro id rfl
  unfold newRead at h
  split at h
  · rename_i heq
    simp at heq
  · cases h

theorem groupServed_step {key group : String} {g0 : StreamId} {prev : List StreamId}
    {run : StreamRun} {cmd : StreamCmd} (hkeeps : cmd.KeepsGroup group)
    (hinc : (prev ++ addedIds (run.step key cmd).log).Pairwise (· < ·))
    (h : GroupServed group g0 prev run) : GroupServed group g0 prev (run.step key cmd) := by
  obtain ⟨g, hg, hout⟩ := h
  rcases step_cases key run cmd with ⟨e, hstep⟩ | ⟨r, hlog, heff⟩
  · have hread : newRead group (cmd, .error e) = none := by
      unfold newRead
      split
      · rename_i heq
        simp at heq
      · rfl
    unfold GroupServed
    rw [hstep, newReads_snoc, hread, addedIds_snoc]
    refine ⟨g, hg, ?_⟩
    simpa [addedIds] using hout
  · unfold GroupServed
    rw [hlog, addedIds_snoc] at hinc ⊢
    rw [newReads_snoc]
    cases hread : newRead group (cmd, .ok r) with
    | some part =>
        obtain ⟨g₁, count, consumer, noack, now, hg₁, hpart, hs'⟩ := heff.newRead_inv hread
        obtain rfl : g = g₁ := Option.some.inj (hg.symm.trans hg₁)
        rw [addedIds_single_eq_nil (newRead_reply hread), List.append_nil] at hinc ⊢
        obtain ⟨n, hnewish⟩ := Stream.newish_eq (streamOf run.entry) g count
        have hsorted : (Stream.newish (streamOf run.entry) g count).Pairwise
            fun a b => a.id < b.id := by
          rw [hnewish]
          exact (hout.entries_sorted hinc).sublist
            ((List.take_sublist _ _).trans List.filter_sublist)
        rw [Stream.sortById_of_sorted hsorted] at hpart
        rw [hs']
        refine ⟨_, by rw [Stream.getElem?_setGroup, if_pos rfl], ?_⟩
        rw [Stream.delivered_lastDelivered, ← hpart, Option.toList_some, List.flatten_concat]
        exact hout.read hinc (hpart.trans hnewish)
    | none =>
        obtain ⟨g', hg', hlast⟩ := heff.keepsCursor hkeeps hread g hg
        refine ⟨g', hg', ?_⟩
        rw [hlast, Option.toList_none, List.append_nil]
        by_cases hr : ∃ id, r = .added (some id)
        · obtain ⟨id, rfl⟩ := hr
          obtain ⟨_, fields, _, _, _, _, _, hshrinks, _⟩ := heff.added_inv
          have hadded : addedIds [(cmd, .ok (.added (some id)))] = [id] := rfl
          rw [hadded, ← List.append_assoc] at hinc ⊢
          exact (hout.append hinc).shrinks hshrinks.entries
        · have hr' : ∀ id, r ≠ .added (some id) := fun id hid => hr ⟨id, hid⟩
          rw [addedIds_single_eq_nil hr', List.append_nil]
          exact hout.shrinks (heff.shrinks hr').entries

/-- Right after `XGROUP CREATE` nothing has been handed out. -/
theorem groupServed_create {key group : String} {start : GroupStartId} {mkstream : Bool}
    {run : StreamRun} {action : CasAction StreamReply} (hadded : EntriesAdded run)
    (h : (StreamCmd.xgroup (.create group start mkstream)).modify key run.entry = .ok action) :
    GroupServed group (Stream.startOf (streamOf run.entry) start) (addedIds run.log)
      ⟨action.apply run.entry, []⟩ := by
  obtain ⟨b, hb, rfl⟩ := Result.map_eq_ok.mp h
  obtain ⟨existed, hop⟩ := Storage.xgroupModify_ok hb
  obtain ⟨-, hs'⟩ := Stream.applyXgroupOp_create hop
  unfold GroupServed
  simp only [CasAction.map_apply]
  rw [hs']
  refine ⟨_, by rw [Stream.getElem?_setGroup, if_pos rfl], ?_⟩
  refine ⟨?_, by simp [newReads], List.Pairwise.nil, by simp [newReads], .inl rfl, le_refl _, ?_⟩
  · show List.Sublist _ (addedIds run.log ++ [])
    rw [List.append_nil]
    exact hadded
  · intro e _ hstart hle
    exact absurd hstart (not_lt.mpr hle)

/-- The `>` reads of a group, by any consumers with any count and with or without
`NOACK`, return strictly increasing ids, and each entry between the group's start and
its cursor that is still in the stream has been returned by exactly one of them. -/
theorem delivered_exactly_once {key group : String} {start : GroupStartId} {mkstream : Bool}
    {before after : List StreamCmd} {action : CasAction StreamReply} {made run : StreamRun}
    (hmade : made = exec key {} before)
    (hcreate : (StreamCmd.xgroup (.create group start mkstream)).modify key made.entry =
      .ok action)
    (hrun : run = exec key ⟨action.apply made.entry, []⟩ after)
    (hkeeps : ∀ cmd ∈ after, cmd.KeepsGroup group)
    (hinc : (addedIds made.log ++ addedIds run.log).Pairwise (· < ·)) :
    ((newReads group run.log).flatten.map StreamEntry.id).Pairwise (· < ·) ∧
    ∃ g, (streamOf run.entry).groups[group]? = some g ∧
      ∀ e ∈ (streamOf run.entry).entries,
        Stream.startOf (streamOf made.entry) start < e.id → e.id ≤ g.lastDeliveredId →
          (newReads group run.log).countP (fun part => decide (e ∈ part)) = 1 := by
  have hserved : GroupServed group (Stream.startOf (streamOf made.entry) start)
      (addedIds made.log) run := by
    rw [hrun] at hinc ⊢
    have hadded : EntriesAdded made := by
      rw [hmade]
      exact entriesAdded key before
    apply exec_invariant (groupServed_create hadded hcreate)
    intro cmds cmd hpre hserved
    apply groupServed_step (hkeeps cmd (hpre.subset (by simp))) ?_ hserved
    -- what was added up to here is a first part of all that was added
    obtain ⟨rest, hrest⟩ := hpre
    have hlog := log_exec key (exec key ⟨action.apply made.entry, []⟩ (cmds ++ [cmd])) rest
    rw [← exec_append, hrest, exec_snoc] at hlog
    have hsub : List.Sublist (addedIds (step key (exec key ⟨action.apply made.entry, []⟩ cmds)
        cmd).log) (addedIds (exec key ⟨action.apply made.entry, []⟩ after).log) :=
      hlog.sublist.filterMap _
    exact hinc.sublist ((List.Sublist.refl _).append hsub)
  obtain ⟨g, hg, hout⟩ := hserved
  refine ⟨hout.out_increasing, g, hg, ?_⟩
  intro e he hstart hle
  apply countP_mem_eq_one
  · apply List.Nodup.of_map StreamEntry.id
    exact hout.out_increasing.imp fun hlt => hlt.ne
  · exact hout.complete e he hstart hle

/-- Two consumers read a stream that grows and loses its first entry. -/
def twoReaders : List StreamCmd := [
  .xreadgroup "g" "alice" .newEntries (some 1) false 10,
  .xadd (.concrete ⟨3, 0⟩) [("f", [99])] false none 11,
  .xdel [⟨1, 0⟩],
  .xreadgroup "g" "bob" .newEntries none true 12]

/-- The stream the group is created on. -/
def twoEntries : List StreamCmd := [
  .xadd (.concrete ⟨1, 0⟩) [("f", [97])] false none 1,
  .xadd (.concrete ⟨2, 0⟩) [("f", [98])] false none 2]

/-- The run of the two consumers since the group's creation. -/
def twoReadersRun : StreamRun :=
  let made := exec "k" {} (twoEntries ++ [.xgroup (.create "g" (.concrete .min) false)])
  exec "k" ⟨made.entry, []⟩ twoReaders

theorem delivered_exactly_once_on_twoReaders :
    (newReads "g" twoReadersRun.log).map (·.map StreamEntry.id) = [[⟨1, 0⟩], [⟨2, 0⟩, ⟨3, 0⟩]] ∧
    ((newReads "g" twoReadersRun.log).flatten.map StreamEntry.id).Pairwise (· < ·) ∧
    ∃ g, (streamOf twoReadersRun.entry).groups["g"]? = some g ∧
      ∀ e ∈ (streamOf twoReadersRun.entry).entries,
        StreamId.min < e.id → e.id ≤ g.lastDeliveredId →
          (newReads "g" twoReadersRun.log).countP (fun part => decide (e ∈ part)) = 1 :=
  ⟨by decide, @delivered_exactly_once "k" "g" (.concrete .min) false twoEntries twoReaders _ _
    twoReadersRun rfl rfl rfl (by simp [twoReaders, StreamCmd.KeepsGroup]) (by decide)⟩

end StreamRun

end RustyAnt
