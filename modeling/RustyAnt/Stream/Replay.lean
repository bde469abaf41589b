import RustyAnt.Stream.Sweep

/-!
# Replays of a consumer's history

A consumer that restarts repeats `XREADGROUP` from the last id it received until a reply
is empty.  A page is cut to the count before the rows without an entry are dropped, so
enough deleted entries in a row end the replay early.
-/

namespace RustyAnt

open Lib

namespace Stream

variable {s : StreamValue} {consumer : String} {g g' : ConsumerGroup} {after : StreamId}

def rowsAfter (g : ConsumerGroup) (consumer : String) (after : StreamId) : List StreamId :=
  pendingRows g consumer after none

def PendingFor (g : ConsumerGroup) (consumer : String) (id : StreamId) : Prop :=
  ∃ p : PendingEntry, g.pel[id]? = some p ∧ p.consumer = consumer

theorem mem_rowsAfter {id : StreamId} :
    id ∈ rowsAfter g consumer after ↔ PendingFor g consumer id ∧ after < id := by
  unfold rowsAfter pendingRows PendingFor
  dsimp only [Option.elim]
  rw [List.mem_map]
  constructor
  · rintro ⟨⟨id', p⟩, hmem, rfl⟩
    rw [List.mem_filter, Std.ExtTreeMap.mem_toList_iff_getElem?_eq_some] at hmem
    obtain ⟨hp, hrow⟩ := hmem
    simp only [Bool.and_eq_true, decide_eq_true_eq, beq_iff_eq] at hrow
    exact ⟨⟨p, hp, hrow.2⟩, hrow.1⟩
  · rintro ⟨⟨p, hp, hconsumer⟩, hafter⟩
    refine ⟨(id, p), ?_, rfl⟩
    rw [List.mem_filter, Std.ExtTreeMap.mem_toList_iff_getElem?_eq_some]
    refine ⟨hp, ?_⟩
    simp only [Bool.and_eq_true, decide_eq_true_eq, beq_iff_eq]
    exact ⟨hafter, hconsumer⟩

theorem rowsAfter_sorted : (rowsAfter g consumer after).Pairwise (· < ·) := by
  unfold rowsAfter pendingRows
  dsimp only [Option.elim]
  rw [List.pairwise_map]
  apply List.Pairwise.filter
  exact Std.ExtTreeMap.ordered_keys_toList.imp fun h => compare_lt_iff_lt.mp h

theorem rowsAfter_congr (h : ∀ id, PendingFor g' consumer id ↔ PendingFor g consumer id)
    (after : StreamId) : rowsAfter g' consumer after = rowsAfter g consumer after := by
  apply rowsAfter_sorted.eq_of_mem_iff rowsAfter_sorted
  intro id
  rw [mem_rowsAfter, mem_rowsAfter, h id]

theorem rowsAfter_split {front rest : List StreamId} {id : StreamId}
    (hsplit : rowsAfter g consumer after = front ++ id :: rest) :
    rowsAfter g consumer id = rest := by
  have hsorted := @rowsAfter_sorted consumer g after
  rw [hsplit] at hsorted
  obtain ⟨-, hrest, hcross⟩ := List.pairwise_append.mp hsorted
  obtain ⟨hhead, htail⟩ := List.pairwise_cons.mp hrest
  have hid : id ∈ rowsAfter g consumer after := by
    rw [hsplit]
    simp
  have hafter := (mem_rowsAfter.mp hid).2
  apply rowsAfter_sorted.eq_of_mem_iff htail
  intro id'
  rw [mem_rowsAfter]
  constructor
  · rintro ⟨hpending, hlt⟩
    have hmem : id' ∈ rowsAfter g consumer after :=
      mem_rowsAfter.mpr ⟨hpending, hafter.trans hlt⟩
    rw [hsplit, List.mem_append, List.mem_cons] at hmem
    rcases hmem with hfront | rfl | hmem
    · exact absurd (hcross id' hfront id List.mem_cons_self) (not_lt.mpr hlt.le)
    · exact absurd hlt (lt_irrefl _)
    · exact hmem
  · intro hmem
    have hall : id' ∈ rowsAfter g consumer after := by
      rw [hsplit]
      simp [hmem]
    exact ⟨(mem_rowsAfter.mp hall).1, hhead id' hmem⟩

/-! ## Second deliveries -/

theorem pendingFor_redeliver (now : Int) (pel : BTreeMap StreamId PendingEntry)
    (id id' : StreamId) : ((redeliver now pel id)[id']?).map PendingEntry.consumer =
      (pel[id']?).map PendingEntry.consumer := by
  unfold redeliver
  split
  · rename_i p hp
    rw [Std.ExtTreeMap.getElem?_insert]
    split
    · rename_i heq
      rw [compare_eq_iff_eq] at heq
      rw [← heq, hp]
      rfl
    · rfl
  · rfl

theorem consumer_redeliverAll (now : Int) (rows : List StreamId)
    (pel : BTreeMap StreamId PendingEntry) (id : StreamId) :
    ((rows.foldl (redeliver now) pel)[id]?).map PendingEntry.consumer =
      (pel[id]?).map PendingEntry.consumer := by
  induction rows generalizing pel with
  | nil => rfl
  | cons row rows ih => rw [List.foldl_cons, ih, pendingFor_redeliver]

theorem pendingFor_iff {id : StreamId} :
    PendingFor g consumer id ↔ (g.pel[id]?).map PendingEntry.consumer = some consumer := by
  unfold PendingFor
  rw [Option.map_eq_some_iff]

/-- One page of a history: the rows are stamped again, and their entries are returned. -/
def page (s : StreamValue) (g : ConsumerGroup) (consumer : String) (after : StreamId) (n : Nat) :
    List StreamEntry :=
  ((rowsAfter g consumer after).take n).filterMap (findEntry s)

theorem findEntry_id {id : StreamId} {e : StreamEntry} (h : findEntry s id = some e) :
    e ∈ s.entries ∧ e.id = id := by
  unfold findEntry at h
  exact ⟨List.mem_of_find?_eq_some h, by simpa using List.find?_some h⟩

theorem findEntry_isSome {id : StreamId} : (findEntry s id).isSome = present s id := by
  unfold findEntry present
  rw [Bool.eq_iff_iff, List.find?_isSome, List.any_eq_true]

theorem filterMap_findEntry_ids (s : StreamValue) (ids : List StreamId) :
    (ids.filterMap (findEntry s)).map StreamEntry.id = ids.filter (present s) := by
  induction ids with
  | nil => rfl
  | cons id ids ih =>
      have hsome := @findEntry_isSome s id
      cases hfind : findEntry s id with
      | none =>
          rw [hfind] at hsome
          rw [List.filterMap_cons_none hfind, List.filter_cons, ← hsome, ih]
          rfl
      | some e =>
          rw [hfind] at hsome
          rw [List.filterMap_cons_some hfind, List.filter_cons, ← hsome, List.map_cons, ih,
            (findEntry_id hfind).2]
          rfl

theorem page_ids (s : StreamValue) (g : ConsumerGroup) (consumer : String) (after : StreamId)
    (n : Nat) : (page s g consumer after n).map StreamEntry.id =
      ((rowsAfter g consumer after).take n).filter (present s) :=
  filterMap_findEntry_ids s _

theorem page_sorted (s : StreamValue) (g : ConsumerGroup) (consumer : String) (after : StreamId)
    (n : Nat) : (page s g consumer after n).Pairwise fun a b => a.id < b.id := by
  rw [← List.pairwise_map (f := StreamEntry.id) (R := (· < ·)), page_ids]
  exact (rowsAfter_sorted.sublist (List.take_sublist n _)).filter _

theorem readGroup_page {group : String} (hg : s.groups[group]? = some g) (after : StreamId)
    (n : Nat) (noack : Bool) (now : Int) :
    readGroup s group consumer (.pending after) (some n) noack now =
      .ok (setGroup s group { g with
          pel := ((rowsAfter g consumer after).take n).foldl (redeliver now) g.pel },
        page s g consumer after n) := by
  unfold readGroup
  rw [getGroup_ok.mpr hg]
  show Except.ok (_, sortById (page s g consumer after n)) = _
  rw [sortById_of_sorted (page_sorted s g consumer after n)]
  rfl

end Stream

/-! ## The whole replay -/

namespace StreamRun

open RustyAnt.Stream

/-- The next page of a history of `n` rows at a time; `now` is the clock that each command
of the run reads. -/
def replayFrom (key group consumer : String) (n : Nat) (noack : Bool) (now : Nat → Int)
    (run : StreamRun) (last : StreamId) : StreamRun × List StreamEntry × Option StreamId :=
  let run := run.step key
    (.xreadgroup group consumer (.pending last) (some n) noack (now run.log.length))
  match run.log.getLast? with
  | some (_, .ok (.delivered out)) => (run, out, out.getLast?.map StreamEntry.id)
  | _ => (run, [], none)

/-- The entries of the stream and the owners of the rows are those of a group state. -/
def Unchanged (group : String) (s : StreamValue) (g : ConsumerGroup) (run : StreamRun) : Prop :=
  ∃ exp s' g', run.entry = some ⟨exp, .stream s'⟩ ∧ s'.groups[group]? = some g' ∧
    s'.entries = s.entries ∧
    ∀ id : StreamId, (g'.pel[id]?).map PendingEntry.consumer =
      (g.pel[id]?).map PendingEntry.consumer

variable {key group consumer : String} {n : Nat} {noack : Bool} {now : Nat → Int}
  {run : StreamRun} {s : StreamValue} {g : ConsumerGroup}

theorem replayFrom_eq (h : Unchanged group s g run) (last : StreamId) :
    ∃ run', Unchanged group s g run' ∧
      replayFrom key group consumer n noack now run last =
        (run', page s g consumer last n, (page s g consumer last n).getLast?.map StreamEntry.id) := by
  obtain ⟨exp, s', g', hentry, hg', hentries, howners⟩ := h
  have hrows : rowsAfter g' consumer last = rowsAfter g consumer last := by
    apply rowsAfter_congr
    intro id
    rw [pendingFor_iff, pendingFor_iff, howners]
  have hpage : page s' g' consumer last n = page s g consumer last n := by
    unfold page findEntry
    rw [hrows, hentries]
  have hread := @readGroup_page s' consumer g' group hg' last n noack (now run.log.length)
  have hmodify := StreamCmd.modify_xreadgroup key group consumer s' exp (.pending last) (some n)
    noack (now run.log.length)
  rw [← hentry] at hmodify
  rw [hread, hpage] at hmodify
  refine ⟨run.step key (.xreadgroup group consumer (.pending last) (some n) noack
    (now run.log.length)), ?_, ?_⟩
  · refine ⟨exp, setGroup s' group { g' with
      pel := ((rowsAfter g' consumer last).take n).foldl (redeliver (now run.log.length)) g'.pel },
      _, ?_, by rw [getElem?_setGroup, if_pos rfl], hentries, ?_⟩
    · unfold step
      rw [hmodify]
      rfl
    · intro id
      rw [consumer_redeliverAll, howners]
  · unfold replayFrom step
    rw [hmodify]
    dsimp only [Except.map]
    rw [List.getLast?_concat]
    rfl

/-- What a replay from an id goes on to receive. -/
def replayWork (consumer : String) (n : Nat) (s : StreamValue) (g : ConsumerGroup)
    (last : StreamId) : List StreamId :=
  untilGap (present s) n 0 (rowsAfter g consumer last)

/-- The replies hold entries of the stream, with these ids. -/
def Receives (s : StreamValue) (ids : List StreamId) (replies : List (List StreamEntry)) : Prop :=
  replies.flatten.map StreamEntry.id = ids ∧ ∀ e ∈ replies.flatten, e ∈ s.entries

theorem Receives.append {front rest : List StreamId} {reply : List StreamEntry}
    {replies : List (List StreamEntry)} (h : Receives s front [reply])
    (h' : Receives s rest replies) : Receives s (front ++ rest) (reply :: replies) := by
  obtain ⟨hfront, hreply⟩ := h
  obtain ⟨hrest, hreplies⟩ := h'
  unfold Receives
  rw [List.flatten_singleton] at hfront hreply
  rw [List.flatten_cons, List.map_append, hfront, hrest]
  exact ⟨rfl, List.forall_mem_append.mpr ⟨hreply, hreplies⟩⟩

/-- Every page is the front of what is still received, and the next one goes on behind it. -/
theorem replayFrom_serves (hn : 1 ≤ n) (run : StreamRun) (last : StreamId)
    (h : Unchanged group s g run) :
    ∃ front rest, ServesFront (fun run _ => Unchanged group s g run)
      (fun _ last => replayWork consumer n s g last)
      (fun _ ids replies _ => Receives s ids replies) run last
      (replayFrom key group consumer n noack now run last).1
      (replayFrom key group consumer n noack now run last).2.1
      (replayFrom key group consumer n noack now run last).2.2 front rest := by
  obtain ⟨run', hsame, heq⟩ := @replayFrom_eq key group consumer n noack now run s g h last
  rw [heq]
  have hids := page_ids s g consumer last n
  have hentries : ∀ e ∈ page s g consumer last n, e ∈ s.entries := by
    intro e he
    obtain ⟨id, -, hfind⟩ := List.mem_filterMap.mp he
    exact (findEntry_id hfind).1
  have hserves : Receives s (((rowsAfter g consumer last).take n).filter (present s))
      [page s g consumer last n] := by
    unfold Receives
    rw [List.flatten_singleton]
    exact ⟨hids, hentries⟩
  cases hlast : (page s g consumer last n).getLast? with
  | none =>
      rw [List.getLast?_eq_none_iff] at hlast
      rw [hlast, List.map_nil] at hids
      have hwork := untilGap_empty_page hn hids.symm
      rw [← hids] at hserves
      exact ⟨[], [], hwork, hserves, fun _ => rfl, by simp⟩
  | some e =>
      -- the page up to its last entry, and the rows behind that entry
      obtain ⟨init, hinit⟩ := List.getLast?_eq_some_iff.mp hlast
      have hlastid : ((rowsAfter g consumer last).take n).filter (present s) =
          init.map StreamEntry.id ++ [e.id] := by
        rw [← hids, hinit, List.map_append]
        rfl
      obtain ⟨a, b, hab, ha, hb⟩ := List.filter_eq_append_iff.mp hlastid
      obtain ⟨b₁, b₂, hb₁₂, hgone, hpresent, hrest⟩ := List.filter_eq_cons_iff.mp hb
      have htake : (rowsAfter g consumer last).take n = (a ++ b₁) ++ e.id :: b₂ := by
        rw [hab, hb₁₂, List.append_assoc]
      have hshort : (a ++ b₁).length < n := by
        have hle := List.length_take_le n (rowsAfter g consumer last)
        rw [htake, List.length_append, List.length_cons] at hle
        omega
      have hsplit : rowsAfter g consumer last =
          (a ++ b₁) ++ e.id :: (b₂ ++ (rowsAfter g consumer last).drop n) := by
        conv_lhs => rw [← List.take_append_drop n (rowsAfter g consumer last), htake]
        rw [List.append_assoc, List.cons_append]
      have hbehind := rowsAfter_split hsplit
      have hnone : b₁.filter (present s) = [] := by
        rw [List.filter_eq_nil_iff]
        exact hgone
      refine ⟨((rowsAfter g consumer last).take n).filter (present s),
        replayWork consumer n s g e.id, ?_, hserves, by simp, ?_⟩
      · unfold replayWork
        rw [hbehind, hsplit, untilGap_page hpresent (by omega), ← hsplit, hlastid, ← ha,
          List.filter_append, hnone, List.append_nil, List.append_assoc]
        rfl
      · intro c hc
        rw [Option.map_some, Option.some.injEq] at hc
        rw [hlastid, ← hc]
        exact ⟨by simp, hsame, rfl⟩

end StreamRun

open RustyAnt.Stream in
/-- What was received is what is pending for the consumer and still in the stream. -/
structure Replayed (s : StreamValue) (g : ConsumerGroup) (consumer : String)
    (received : List StreamEntry) : Prop where
  increasing : (received.map StreamEntry.id).Pairwise (· < ·)
  complete : ∀ e, e ∈ received ↔ e ∈ s.entries ∧ PendingFor g consumer e.id

open RustyAnt.Stream in
/-- Fewer than `n` rows without an entry stand in a row before one with an entry, and the
entries of the rows have ids of their own, past `0-0`. -/
structure Replayable (s : StreamValue) (g : ConsumerGroup) (consumer : String) (n : Nat) :
    Prop where
  gaps : GapsBelow (present s) n (rowsAfter g consumer .min)
  positive : ∀ e ∈ s.entries, PendingFor g consumer e.id → e.id ≠ .min
  distinct : ∀ e ∈ s.entries, ∀ e' ∈ s.entries, PendingFor g consumer e.id → e.id = e'.id → e = e'

namespace Stream

variable {s : StreamValue} {g : ConsumerGroup} {consumer : String} {n : Nat}
  {received : List StreamEntry}

theorem replayed_iff (hn : 1 ≤ n)
    (hids : received.map StreamEntry.id =
      untilGap (present s) n 0 (rowsAfter g consumer .min))
    (hentries : ∀ e ∈ received, e ∈ s.entries) :
    Replayed s g consumer received ↔ Replayable s g consumer n := by
  have hsub : (received.map StreamEntry.id).Sublist (rowsAfter g consumer .min) := by
    rw [hids]
    exact (untilGap_sublist 0 _).trans List.filter_sublist
  have hnodup : (rowsAfter g consumer .min).Nodup := rowsAfter_sorted.imp fun h => h.ne
  have hpending : ∀ e ∈ received, PendingFor g consumer e.id ∧ .min < e.id := fun e he =>
    mem_rowsAfter.mp (hsub.subset (List.mem_map_of_mem he))
  constructor
  · rintro ⟨-, hcomplete⟩
    refine ⟨?_, ?_, ?_⟩
    · rw [← untilGap_complete_iff hn hnodup, ← hids]
      intro id hid hpresent
      obtain ⟨e, he, rfl⟩ := present_iff.mp hpresent
      exact List.mem_map_of_mem ((hcomplete e).mpr ⟨he, (mem_rowsAfter.mp hid).1⟩)
    · intro e he hfor
      have hlt := (hpending e ((hcomplete e).mpr ⟨he, hfor⟩)).2
      exact hlt.ne'
    · intro e he e' he' hfor heq
      have hmem := (hcomplete e).mpr ⟨he, hfor⟩
      have hmem' := (hcomplete e').mpr ⟨he', heq ▸ hfor⟩
      exact List.inj_on_of_nodup_map (hnodup.sublist hsub) hmem hmem' heq
  · rintro ⟨hgaps, hpositive, hdistinct⟩
    refine ⟨rowsAfter_sorted.sublist hsub, ?_⟩
    intro e
    constructor
    · intro he
      exact ⟨hentries e he, (hpending e he).1⟩
    · rintro ⟨he, hfor⟩
      have hrow : e.id ∈ rowsAfter g consumer .min :=
        mem_rowsAfter.mpr ⟨hfor, lt_of_le_of_ne (min_le e.id) (hpositive e he hfor).symm⟩
      have hfound := (untilGap_complete_iff hn hnodup).mpr hgaps e.id hrow
        (present_iff.mpr ⟨e, he, rfl⟩)
      rw [← hids, List.mem_map] at hfound
      obtain ⟨e', he', heq⟩ := hfound
      rw [hdistinct e he e' (hentries e' he') hfor heq.symm]
      exact he'

end Stream

open RustyAnt.Stream in
/-- A replay of `n` rows at a time ends, within one call more than there are rows, and it
is complete iff no `n` rows in a row lost their entries in front of one that did not. -/
theorem replay_complete_iff (key group consumer : String) {n : Nat} (hn : 1 ≤ n) (noack : Bool)
    (now : Nat → Int) {run : StreamRun} {exp : Option Int} {s : StreamValue} {g : ConsumerGroup}
    (hentry : run.entry = some ⟨exp, .stream s⟩) (hg : s.groups[group]? = some g) :
    ∃ run' replies,
      pages (StreamRun.replayFrom key group consumer n noack now) (g.pel.size + 1) run .min =
        some (run', replies) ∧
      (Replayed s g consumer replies.flatten ↔ Replayable s g consumer n) := by
  have hlength : (StreamRun.replayWork consumer n s g .min).length < g.pel.size + 1 := by
    have hsub := (untilGap_sublist (p := present s) (n := n) 0 (rowsAfter g consumer .min)).trans
      List.filter_sublist
    have hrows : (rowsAfter g consumer .min).length ≤ g.pel.size := by
      rw [← Std.ExtTreeMap.length_toList]
      unfold rowsAfter pendingRows
      dsimp only [Option.elim]
      rw [List.length_map]
      exact List.length_filter_le _ _
    have hle := hsub.length_le
    unfold StreamRun.replayWork
    omega
  have hstart : StreamRun.Unchanged group s g run := ⟨exp, s, g, hentry, hg, rfl, fun _ => rfl⟩
  obtain ⟨run', replies, hpages, hids, hentries⟩ :=
    @pages_serve StreamRun StreamId StreamId (List StreamEntry) _ _ _
    (fun _ ids replies _ => StreamRun.Receives s ids replies)
    (fun _ _ _ _ _ _ _ h h' => h.append h')
    (fun run last => @StreamRun.replayFrom_serves key group consumer n noack now s g hn run last)
    (g.pel.size + 1) run .min hstart hlength
  exact ⟨run', replies, hpages, replayed_iff hn hids hentries⟩

namespace Restarted

/-- A worker reads three entries, and some of them are deleted before it acknowledges any. -/
def cmds (deleted : List StreamId) : List StreamCmd := [
  .xadd (.concrete ⟨1, 0⟩) [("f", [97])] false none 1,
  .xadd (.concrete ⟨2, 0⟩) [("f", [98])] false none 2,
  .xadd (.concrete ⟨3, 0⟩) [("f", [99])] false none 3,
  .xgroup (.create "g" (.concrete .min) false),
  .xreadgroup "g" "alice" .newEntries none false 10,
  .xdel deleted]

def run (deleted : List StreamId) : StreamRun := StreamRun.exec "k" {} (cmds deleted)

def stream (deleted : List StreamId) : StreamValue := streamOf (run deleted).entry

def group (deleted : List StreamId) : ConsumerGroup :=
  ((stream deleted).groups["g"]?).getD {}

end Restarted

open Restarted in
/-- With two entries gone and two rows a page, the first reply is empty and the third entry is
never received. -/
theorem replay_stops_early :
    (pages (StreamRun.replayFrom "k" "g" "alice" 2 false fun _ => 20) 4
        (run [⟨1, 0⟩, ⟨2, 0⟩]) .min).map Prod.snd = some [[]] ∧
      (⟨⟨3, 0⟩, [("f", [99])]⟩ : StreamEntry) ∈ (stream [⟨1, 0⟩, ⟨2, 0⟩]).entries ∧
      Stream.PendingFor (group [⟨1, 0⟩, ⟨2, 0⟩]) "alice" ⟨3, 0⟩ ∧
      ¬ Replayed (stream [⟨1, 0⟩, ⟨2, 0⟩]) (group [⟨1, 0⟩, ⟨2, 0⟩]) "alice" [] := by
  have hmem : (⟨⟨3, 0⟩, [("f", [99])]⟩ : StreamEntry) ∈ (stream [⟨1, 0⟩, ⟨2, 0⟩]).entries := by
    decide +kernel
  have hrow : Stream.PendingFor (group [⟨1, 0⟩, ⟨2, 0⟩]) "alice" ⟨3, 0⟩ := by
    rw [Stream.pendingFor_iff]
    decide +kernel
  refine ⟨by decide +kernel, hmem, hrow, ?_⟩
  rintro ⟨-, hcomplete⟩
  exact List.not_mem_nil ((hcomplete _).mpr ⟨hmem, hrow⟩)

open Restarted in
theorem replay_complete_on_restart :
    ∃ run' replies,
      pages (StreamRun.replayFrom "k" "g" "alice" 2 false fun _ => 20)
        ((group [⟨2, 0⟩]).pel.size + 1) (run [⟨2, 0⟩]) .min = some (run', replies) ∧
      (Replayed (stream [⟨2, 0⟩]) (group [⟨2, 0⟩]) "alice" replies.flatten ↔
        Replayable (stream [⟨2, 0⟩]) (group [⟨2, 0⟩]) "alice" 2) :=
  @replay_complete_iff "k" "g" "alice" 2 (by decide) false (fun _ => 20) _ none _ _
    (by decide +kernel) (by decide +kernel)

end RustyAnt
