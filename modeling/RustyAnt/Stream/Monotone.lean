import RustyAnt.Stream.Run

/-!
# Ids grow over a run

Stream ids are `<ms>-<seq>`, monotonic within the key, and entries are kept sorted
by id.  This holds along every run in which no generated id has to carry over the
top: an `XADD *` after the greatest id of all, or an `XADD ms-*` after the greatest
id of that millisecond.
-/

namespace RustyAnt

/-- Entries in strictly increasing id order, below `last_generated_id`. -/
structure Ordered (s : StreamValue) : Prop where
  entries : s.entries.Pairwise fun a b => a.id < b.id
  entries_le : ∀ e ∈ s.entries, e.id ≤ s.lastGeneratedId
  maxDeleted_le : s.maxDeletedEntryId ≤ s.lastGeneratedId

/-- The ids that `XADD`s have returned, in order. -/
def addedIds (log : List (StreamCmd × Result StreamReply)) : List StreamId :=
  log.filterMap fun
    | (_, .ok (.added (some id))) => some id
    | _ => none

/-- What clients are told about ids. -/
structure IdsMonotone (run : StreamRun) : Prop where
  ordered : ∀ exp s, run.entry = some ⟨exp, .stream s⟩ → Ordered s
  increasing : (addedIds run.log).Pairwise (· < ·)
  partialMs : ∀ ms fields nomkstream trim now id,
    (.xadd (.partialMs ms) fields nomkstream trim now, .ok (.added (some id))) ∈ run.log →
      id.ms = ms

/-- The id to generate lies past the greatest one there is. -/
def AddIdSpec.Overflows (last : StreamId) : AddIdSpec → Prop
  | .auto => last = .max
  | .partialMs ms => last = ⟨ms, UInt64.ofNat (2 ^ 64 - 1)⟩
  | .concrete _ => False

/-- An `XADD` that cannot generate its id. -/
def Overflows (run : StreamRun) : StreamCmd → Prop
  | .xadd spec _ _ _ _ => spec.Overflows (streamOf run.entry).lastGeneratedId
  | _ => False

/-! ## Resolved ids -/

namespace StreamId

theorem lt_next {i : StreamId} (h : i ≠ .max) : i < i.next := by
  rw [lt_iff_val]
  have hms := i.ms.toNat_lt
  have hseq := i.seq.toNat_lt
  unfold next
  split
  · rename_i htop
    have hne : i.ms.toNat ≠ 2 ^ 64 - 1 := by
      intro heq
      apply h
      apply val_injective
      simp only [val, max, htop, heq]
      rfl
    have hsucc : (i.ms + 1).toNat = i.ms.toNat + 1 := by
      rw [UInt64.toNat_add]
      simp only [UInt64.toNat_one]
      omega
    simp only [val, hsucc, UInt64.toNat_zero]
    omega
  · rename_i htop
    have hne : i.seq.toNat ≠ 2 ^ 64 - 1 := by
      intro heq
      exact htop (UInt64.toNat_inj.mp heq)
    have hsucc : (i.seq + 1).toNat = i.seq.toNat + 1 := by
      rw [UInt64.toNat_add]
      simp only [UInt64.toNat_one]
      omega
    simp only [val, hsucc]
    omega

theorem lt_of_ms_lt {i j : StreamId} (h : i.ms < j.ms) : i < j := by
  rw [lt_iff_val]
  have hseq := i.seq.toNat_lt
  have hms : i.ms.toNat < j.ms.toNat := UInt64.lt_iff_toNat_lt.mp h
  simp only [val]
  omega

theorem next_ms {i : StreamId} (h : i.seq ≠ UInt64.ofNat (2 ^ 64 - 1)) : i.next.ms = i.ms := by
  unfold next
  rw [if_neg h]

end StreamId

namespace Stream

theorem lt_resolveAddId {spec : AddIdSpec} {last id : StreamId} {now : UInt64}
    (h : resolveAddId spec last now = .ok id) (hover : ¬ spec.Overflows last) : last < id := by
  cases spec with
  | auto =>
      simp only [resolveAddId, Except.ok.injEq] at h
      split at h
      · rename_i hlt
        rw [← h]
        exact StreamId.lt_of_ms_lt hlt
      · rw [← h]
        exact StreamId.lt_next hover
  | partialMs ms =>
      simp only [resolveAddId] at h
      split at h
      · cases h
      · rename_i hnlt
        simp only [Except.ok.injEq] at h
        split at h
        · rw [← h]
          rename_i heq
          apply StreamId.lt_next
          rintro rfl
          exact hover (by rw [heq]; rfl)
        · rename_i hne
          rw [← h]
          apply StreamId.lt_of_ms_lt
          have h1 : ¬ ms.toNat < last.ms.toNat := fun hlt => hnlt (UInt64.lt_iff_toNat_lt.mpr hlt)
          have h2 : ms.toNat ≠ last.ms.toNat := fun heq => hne (UInt64.toNat_inj.mp heq)
          apply UInt64.lt_iff_toNat_lt.mpr
          show last.ms.toNat < ms.toNat
          omega
  | concrete i =>
      simp only [resolveAddId] at h
      split at h
      · cases h
      · rename_i hle
        rw [← Except.ok.inj h]
        exact not_le.mp hle

theorem resolveAddId_partialMs {ms : UInt64} {last id : StreamId} {now : UInt64}
    (h : resolveAddId (.partialMs ms) last now = .ok id)
    (hover : ¬ AddIdSpec.Overflows last (.partialMs ms)) : id.ms = ms := by
  simp only [resolveAddId] at h
  split at h
  · cases h
  · rename_i hnlt
    simp only [Except.ok.injEq] at h
    split at h
    · rename_i heq
      rw [← h, heq]
      apply StreamId.next_ms
      intro htop
      apply hover
      rw [AddIdSpec.Overflows, heq, ← htop]
    · rw [← h]

end Stream

/-! ## One step -/

namespace Ordered

theorem shrinks {s s' : StreamValue} (hs : Ordered s) (h : Shrinks s s') : Ordered s' := by
  refine ⟨hs.entries.sublist h.entries, ?_, ?_⟩
  · intro e he
    rw [h.last]
    exact hs.entries_le e (h.entries.mem he)
  · rw [h.last]
    rcases h.maxDeleted with hmax | ⟨e, he, hmax⟩
    · rw [hmax]
      exact hs.maxDeleted_le
    · rw [hmax]
      exact hs.entries_le e he

theorem append {s : StreamValue} (hs : Ordered s) {id : StreamId} (h : s.lastGeneratedId < id)
    (fields : List (String × Bytes)) : Ordered (Stream.append s id fields) := by
  refine ⟨?_, ?_, hs.maxDeleted_le.trans h.le⟩
  · refine List.pairwise_append.mpr ⟨hs.entries, List.pairwise_singleton _ _, ?_⟩
    intro a ha b hb
    rw [List.mem_singleton.mp hb]
    exact (hs.entries_le a ha).trans_lt h
  · intro e he
    rcases List.mem_append.mp he with he | he
    · exact (hs.entries_le e he).trans h.le
    · rw [List.mem_singleton.mp he]
      exact le_refl id

end Ordered

namespace StreamRun

theorem addedIds_snoc (log : List (StreamCmd × Result StreamReply)) (cmd : StreamCmd)
    (r : Result StreamReply) :
    addedIds (log ++ [(cmd, r)]) = addedIds log ++ addedIds [(cmd, r)] :=
  List.filterMap_append

theorem addedIds_single_eq_nil {cmd : StreamCmd} {r : StreamReply}
    (h : ∀ id, r ≠ .added (some id)) : addedIds [(cmd, .ok r)] = [] := by
  cases r with
  | added id =>
      cases id with
      | none => rfl
      | some id => exact absurd rfl (h id)
  | count n => rfl
  | delivered entries => rfl
  | claimed rows => rfl
  | autoclaimed out => rfl

/-- `last_generated_id` is the id returned last. -/
def LastAdded (run : StreamRun) : Prop :=
  (streamOf run.entry).lastGeneratedId = (addedIds run.log).getLast?.getD .min

theorem lastAdded_step (key : String) {run : StreamRun} (cmd : StreamCmd) (h : LastAdded run) :
    LastAdded (run.step key cmd) := by
  unfold LastAdded at h ⊢
  rcases step_cases key run cmd with ⟨e, hstep⟩ | ⟨r, hlog, heff⟩
  · rw [hstep, addedIds_snoc]
    simpa [addedIds] using h
  · rw [hlog, addedIds_snoc]
    by_cases hr : ∃ id, r = .added (some id)
    · obtain ⟨id, rfl⟩ := hr
      obtain ⟨_, _, _, _, _, _, _, hshrinks, _⟩ := heff.added_inv
      rw [hshrinks.last]
      simp [addedIds, Stream.append]
    · have hr' : ∀ id, r ≠ .added (some id) := fun id hid => hr ⟨id, hid⟩
      rw [(heff.shrinks hr').last, addedIds_single_eq_nil hr', List.append_nil, h]

theorem lastAdded (key : String) (cmds : List StreamCmd) : LastAdded (exec key {} cmds) :=
  exec_invariant rfl fun _ cmd _ h => lastAdded_step key cmd h

theorem le_lastGenerated {run : StreamRun} (hlast : LastAdded run)
    (hinc : (addedIds run.log).Pairwise (· < ·)) :
    ∀ id ∈ addedIds run.log, id ≤ (streamOf run.entry).lastGeneratedId := by
  intro id hid
  rw [hlast]
  cases hadded : (addedIds run.log).getLast? with
  | none =>
      rw [List.getLast?_eq_none_iff.mp hadded] at hid
      simp at hid
  | some top =>
      obtain ⟨init, hinit⟩ := List.getLast?_eq_some_iff.mp hadded
      rw [hinit] at hid hinc
      rcases List.mem_append.mp hid with hid | hid
      · exact ((List.pairwise_append.mp hinc).2.2 id hid top (List.mem_singleton_self top)).le
      · exact (List.mem_singleton.mp hid).le

theorem ordered_iff {entry : Option StoredValue} :
    (∀ exp s, entry = some ⟨exp, .stream s⟩ → Ordered s) ↔ Ordered (streamOf entry) := by
  constructor
  · intro h
    unfold streamOf
    split
    · exact h _ _ rfl
    · exact ⟨List.Pairwise.nil, by simp, le_refl _⟩
  · rintro h exp s rfl
    exact h

theorem monotone_empty : IdsMonotone {} :=
  ⟨by simp, List.Pairwise.nil, by simp⟩

/-- A step whose id can be generated keeps the promise. -/
theorem monotone_step {key : String} {run : StreamRun} {cmd : StreamCmd} (hlast : LastAdded run)
    (h : IdsMonotone run) (hover : ¬ Overflows run cmd) : IdsMonotone (run.step key cmd) := by
  have hord := ordered_iff.mp h.ordered
  rcases step_cases key run cmd with ⟨e, hstep⟩ | ⟨r, hlog, heff⟩
  · rw [hstep]
    refine ⟨h.ordered, ?_, ?_⟩
    · rw [addedIds_snoc]
      simpa [addedIds] using h.increasing
    · intro ms fields nomkstream trim now id hmem
      apply h.partialMs ms fields nomkstream trim now id
      simpa using hmem
  · by_cases hr : ∃ id, r = .added (some id)
    · obtain ⟨id, rfl⟩ := hr
      obtain ⟨spec, fields, nomkstream, trim, now, rfl, hid, hshrinks, -⟩ := heff.added_inv
      have hlt := Stream.lt_resolveAddId hid hover
      refine ⟨ordered_iff.mpr ((hord.append hlt fields).shrinks hshrinks), ?_, ?_⟩
      · rw [hlog, addedIds_snoc]
        refine List.pairwise_append.mpr ⟨h.increasing, List.pairwise_singleton _ _, ?_⟩
        intro a ha b hb
        rw [List.mem_singleton.mp hb]
        exact (le_lastGenerated hlast h.increasing a ha).trans_lt hlt
      · intro ms fields' nomkstream' trim' now' id' hmem
        rw [hlog] at hmem
        rcases List.mem_append.mp hmem with hmem | hmem
        · exact h.partialMs ms fields' nomkstream' trim' now' id' hmem
        · simp only [List.mem_singleton, Prod.mk.injEq, StreamCmd.xadd.injEq, Except.ok.injEq,
            StreamReply.added.injEq, Option.some.injEq] at hmem
          obtain ⟨⟨rfl, -⟩, rfl⟩ := hmem
          exact Stream.resolveAddId_partialMs hid hover
    · have hr' : ∀ id, r ≠ .added (some id) := fun id hid => hr ⟨id, hid⟩
      refine ⟨ordered_iff.mpr (hord.shrinks (heff.shrinks hr')), ?_, ?_⟩
      · rw [hlog, addedIds_snoc, addedIds_single_eq_nil hr', List.append_nil]
        exact h.increasing
      · intro ms fields nomkstream trim now id hmem
        rw [hlog] at hmem
        rcases List.mem_append.mp hmem with hmem | hmem
        · exact h.partialMs ms fields nomkstream trim now id hmem
        · simp only [List.mem_singleton, Prod.mk.injEq, Except.ok.injEq] at hmem
          exact absurd hmem.2.symm (hr' id)

theorem step_xadd_log {key : String} {log : List (StreamCmd × Result StreamReply)}
    {exp : Option Int} {s : StreamValue} {spec : AddIdSpec} {fields : List (String × Bytes)}
    {nomkstream : Bool} {trim : Option (TrimBound × Option Nat)} {now : UInt64} {id : StreamId}
    (h : Stream.resolveAddId spec s.lastGeneratedId now = .ok id) :
    (step key ⟨some ⟨exp, .stream s⟩, log⟩ (.xadd spec fields nomkstream trim now)).log =
      log ++ [(.xadd spec fields nomkstream trim now, .ok (.added (some id)))] := by
  have hfind : View.stream.find key (some ⟨exp, .stream s⟩) = .ok (some (s, exp)) := rfl
  have hadd : ∃ s', Stream.add s spec fields now trim = .ok (s', id) := by
    unfold Stream.add
    rw [h, Result.ok_bind]
    cases trim with
    | none => exact ⟨_, rfl⟩
    | some t => exact ⟨_, rfl⟩
  obtain ⟨s', hadd⟩ := hadd
  simp [step, StreamCmd.modify, Storage.xaddModify, hfind, hadd, CasAction.map_result]

theorem resolveAddId_of_overflows {spec : AddIdSpec} {last : StreamId} {now : UInt64}
    (h : spec.Overflows last) : Stream.resolveAddId spec last now = .ok last.next := by
  cases spec with
  | auto =>
      have htop : ¬ last.ms < now := by
        rw [h, UInt64.lt_iff_toNat_lt]
        have hnow := now.toNat_lt
        simp only [StreamId.max, UInt64.toNat_ofNat']
        omega
      simp only [Stream.resolveAddId]
      rw [if_neg htop]
  | partialMs ms =>
      have hms : last.ms = ms := congrArg StreamId.ms h
      simp only [Stream.resolveAddId, hms]
      rw [if_neg (UInt64.lt_irrefl ms), if_pos trivial]
  | concrete id => exact h.elim

theorem entry_of_overflows {spec : AddIdSpec} {entry : Option StoredValue}
    (h : spec.Overflows (streamOf entry).lastGeneratedId) :
    ∃ exp s, entry = some ⟨exp, .stream s⟩ := by
  unfold streamOf at h
  split at h
  · exact ⟨_, _, rfl⟩
  · exfalso
    have hseq : StreamId.min.seq ≠ UInt64.ofNat (2 ^ 64 - 1) := by decide
    cases spec with
    | auto => exact hseq (congrArg StreamId.seq h)
    | partialMs ms => exact hseq (congrArg StreamId.seq h)
    | concrete id => exact h

/-- Past the top, the generated id is smaller than the one before it or of
another millisecond. -/
theorem not_monotone_of_overflows {key : String} {run : StreamRun} {cmd : StreamCmd}
    (hlast : LastAdded run) (hover : Overflows run cmd) : ¬ IdsMonotone (run.step key cmd) := by
  intro h
  cases cmd with
  | xadd spec fields nomkstream trim now =>
      obtain ⟨entry, log⟩ := run
      obtain ⟨exp, s, rfl⟩ := entry_of_overflows hover
      have hlog : (step key ⟨some ⟨exp, .stream s⟩, log⟩
          (.xadd spec fields nomkstream trim now)).log =
          log ++ [(.xadd spec fields nomkstream trim now,
            .ok (.added (some s.lastGeneratedId.next)))] :=
        step_xadd_log (resolveAddId_of_overflows hover)
      cases spec with
      | auto =>
          have hs : s.lastGeneratedId = .max := hover
          -- the greatest id was returned before, so the ids that follow it wrap
          have hmax : StreamId.max ∈ addedIds log := by
            have htop : StreamId.max = (addedIds log).getLast?.getD .min := hs.symm.trans hlast
            cases hget : (addedIds log).getLast? with
            | none =>
                rw [hget] at htop
                exact absurd htop (by decide)
            | some top =>
                rw [hget, Option.getD_some] at htop
                rw [htop]
                exact List.mem_of_getLast? hget
          have hinc := h.increasing
          rw [hlog, addedIds_snoc] at hinc
          have hlt := (List.pairwise_append.mp hinc).2.2 _ hmax s.lastGeneratedId.next
            (by simp [addedIds])
          rw [hs] at hlt
          exact absurd hlt (by decide)
      | partialMs ms =>
          have hs : s.lastGeneratedId = ⟨ms, UInt64.ofNat (2 ^ 64 - 1)⟩ := hover
          have hms := h.partialMs ms fields nomkstream trim now s.lastGeneratedId.next
            (by rw [hlog]; simp)
          rw [hs, StreamId.next, if_pos rfl] at hms
          simp only at hms
          have hnat := congrArg UInt64.toNat hms
          rw [UInt64.toNat_add, UInt64.toNat_one] at hnat
          have := ms.toNat_lt
          omega
      | concrete id => exact hover
  | _ => exact hover

/-- The promise about ids is kept along a run exactly when no `XADD` of the run has
to generate an id past the greatest one. -/
theorem monotone_run_iff (key : String) (cmds : List StreamCmd) :
    (∀ cmds₁, cmds₁ <+: cmds → IdsMonotone (exec key {} cmds₁)) ↔
      ∀ cmds₁ cmd, cmds₁ ++ [cmd] <+: cmds → ¬ Overflows (exec key {} cmds₁) cmd := by
  constructor
  · intro h cmds₁ cmd hpre hover
    have hnext := h (cmds₁ ++ [cmd]) hpre
    rw [exec_snoc] at hnext
    exact not_monotone_of_overflows (lastAdded key cmds₁) hover hnext
  · intro h cmds₁ hpre
    apply exec_invariant monotone_empty
    intro cmds₂ cmd hpre₂ hmono
    exact monotone_step (lastAdded key cmds₂) hmono (h cmds₂ cmd (hpre₂.trans hpre))

/-- `XADD k <max> f v` and then `XADD k * f v` returns `0-0`. -/
theorem monotone_fails_past_max :
    ¬ IdsMonotone (exec "k" {} [
      .xadd (.concrete .max) [("f", [118])] false none 1,
      .xadd .auto [("f", [118])] false none 2]) := by
  intro h
  exact absurd h.increasing (by decide)

end StreamRun

end RustyAnt
