import RustyAnt.Stream.Delivery
import Mathlib.Data.List.Infix

/-!
# The counters of a stream

`entries_added` counts the entries there are and the entries that were taken off, and
`max_deleted_entry_id` is the greatest id that was, along every run of additions,
deletions and trims with increasing ids.
-/

namespace RustyAnt

open Lib

namespace Stream

/-! ## The binary search of a trim -/

section Search

variable {α : Type} {xs : List α} {p : α → Bool} {k : Nat}

/-- Where exactly the first `k` elements satisfy `p`, the search narrows down on `k`. -/
theorem searchFrom_spec (hk : ∀ i, (xs[i]?).any p = true ↔ i < k) :
    ∀ fuel base size, base ≤ k → k ≤ base + size → 0 < size → size ≤ fuel + 1 →
      searchFrom xs p fuel base size ≤ k ∧ k ≤ searchFrom xs p fuel base size + 1 := by
  intro fuel
  induction fuel with
  | zero =>
      intro base size hle hge hpos hfuel
      unfold searchFrom
      omega
  | succ fuel ih =>
      intro base size hle hge hpos hfuel
      unfold searchFrom
      split
      · omega
      · dsimp only
        by_cases hmid : (xs[base + size / 2]?).any p = true
        · have hlt := (hk _).mp hmid
          rw [if_pos hmid]
          apply ih <;> omega
        · have hle' : k ≤ base + size / 2 := Nat.not_lt.mp fun h => hmid ((hk _).mpr h)
          rw [if_neg hmid]
          apply ih <;> omega

theorem partitionPoint_eq (hk : ∀ i, (xs[i]?).any p = true ↔ i < k) : partitionPoint xs p = k := by
  unfold partitionPoint
  have hlen : k ≤ xs.length := by
    by_contra hlt
    have htrue := (hk xs.length).mpr (by omega)
    simp at htrue
  split
  · rename_i hempty
    rw [List.isEmpty_iff] at hempty
    rw [hempty, List.length_nil] at hlen
    omega
  · rename_i hempty
    have hpos : 0 < xs.length := by
      rw [List.isEmpty_iff] at hempty
      exact List.length_pos_iff.mpr hempty
    have hspec := searchFrom_spec hk xs.length 0 xs.length (by omega) (by omega) hpos (by omega)
    dsimp only
    split
    · rename_i htrue
      have hlt := (hk _).mp htrue
      omega
    · rename_i hfalse
      have hge : ¬ searchFrom xs p xs.length 0 xs.length < k := fun h => hfalse ((hk _).mpr h)
      omega

/-- Where the elements that satisfy `p` come first, the search counts them. -/
theorem partitionPoint_eq_length_filter (h : xs.Pairwise fun a b => p b = true → p a = true) :
    partitionPoint xs p = (xs.filter p).length := by
  apply partitionPoint_eq
  induction xs with
  | nil => simp
  | cons x xs ih =>
      intro i
      rw [List.pairwise_cons] at h
      by_cases hx : p x = true
      · rw [List.filter_cons_of_pos hx, List.length_cons]
        cases i with
        | zero => exact iff_of_true hx (Nat.succ_pos _)
        | succ i =>
            rw [List.getElem?_cons_succ, ih h.2]
            omega
      · have hall : xs.filter p = [] := by
          rw [List.filter_eq_nil_iff]
          exact fun y hy hpy => hx (h.1 y hy hpy)
        rw [List.filter_cons_of_neg hx, hall, List.length_nil]
        cases i with
        | zero => exact iff_of_false hx (Nat.lt_irrefl 0)
        | succ i =>
            rw [List.getElem?_cons_succ, ih h.2, hall, List.length_nil]
            omega

theorem take_partitionPoint (h : xs.Pairwise fun a b => p b = true → p a = true) :
    xs.take (partitionPoint xs p) = xs.filter p ∧
      xs.drop (partitionPoint xs p) = xs.filter fun x => !p x := by
  rw [partitionPoint_eq_length_filter h]
  induction xs with
  | nil => simp
  | cons x xs ih =>
      rw [List.pairwise_cons] at h
      obtain ⟨htake, hdrop⟩ := ih h.2
      by_cases hx : p x = true
      · simp [hx, htake, hdrop]
      · have hall : xs.filter p = [] := by
          rw [List.filter_eq_nil_iff]
          exact fun y hy hpy => hx (h.1 y hy hpy)
        rw [hall] at hdrop
        simp only [List.length_nil, List.drop_zero] at hdrop
        simp [hx, hall, ← hdrop]

end Search

/-! ## Three ways to remove entries -/

/-- `n` entries are taken off, and counted in the greatest id removed. -/
structure Removes (s s' : StreamValue) (n : Nat) : Prop where
  entries : List.Sublist s'.entries s.entries
  last : s'.lastGeneratedId = s.lastGeneratedId
  added : s'.entriesAdded = s.entriesAdded
  count : n + s'.entries.length = s.entries.length
  le : s.maxDeletedEntryId ≤ s'.maxDeletedEntryId
  upper : ∀ id ∈ s.entries.map StreamEntry.id, id ∉ s'.entries.map StreamEntry.id →
    id ≤ s'.maxDeletedEntryId
  attained : s'.maxDeletedEntryId = s.maxDeletedEntryId ∨
    s'.maxDeletedEntryId ∈ s.entries.map StreamEntry.id ∧
      s'.maxDeletedEntryId ∉ s'.entries.map StreamEntry.id

theorem Removes.refl (s : StreamValue) : Removes s s 0 :=
  ⟨List.Sublist.refl _, rfl, rfl, Nat.zero_add _, le_refl _, fun _ h hn => absurd h hn, .inl rfl⟩

theorem del_removes (s : StreamValue) (ids : List StreamId) :
    Removes s (del s ids).1 (del s ids).2 := by
  have hgone : ∀ id, id ∉ (del s ids).1.entries.map StreamEntry.id ↔
      ∀ e ∈ s.entries, e.id = id → ids.contains id = true := by
    intro id
    show id ∉ (s.entries.filter fun e => !ids.contains e.id).map StreamEntry.id ↔ _
    simp only [List.mem_map, List.mem_filter, Bool.not_eq_true', not_exists, not_and]
    constructor
    · intro h e he heq
      by_contra hnot
      exact h e ⟨he, by rw [heq]; simpa using hnot⟩ heq
    · intro h e he heq
      have hin := h e he.1 heq
      rw [← heq, he.2] at hin
      cases hin
  refine ⟨List.filter_sublist, rfl, rfl, ?_, Lib.le_advance _ _, ?_, ?_⟩
  · show (s.entries.filter fun e => ids.contains e.id).length +
      (s.entries.filter fun e => !ids.contains e.id).length = _
    rw [← List.length_eq_length_filter_add]
  · intro id hid hnot
    obtain ⟨e, he, rfl⟩ := List.mem_map.mp hid
    have hmem := (hgone e.id).mp hnot e he rfl
    show e.id ≤ Lib.advance StreamEntry.id s.maxDeletedEntryId _
    exact Lib.le_advance_of_mem (List.mem_filter.mpr ⟨he, hmem⟩) _
  · rcases Lib.advance_mem StreamEntry.id (s.entries.filter fun e => ids.contains e.id)
      s.maxDeletedEntryId with h | ⟨e, he, h⟩
    · exact .inl h
    · have hmem := List.mem_filter.mp he
      have heq : (del s ids).1.maxDeletedEntryId = e.id := h
      rw [heq]
      refine .inr ⟨List.mem_map_of_mem hmem.1, (hgone e.id).mpr fun _ _ _ => hmem.2⟩

/-- How many entries a trim takes off the head. -/
def trimCut (s : StreamValue) (bound : TrimBound) (limit : Option Nat) : Nat :=
  limit.elim (trimTarget s.entries bound) fun cap => min (trimTarget s.entries bound) cap

theorem trimInPlace_eq (s : StreamValue) (bound : TrimBound) (limit : Option Nat) :
    trimInPlace s bound limit =
      match (s.entries.take (trimCut s bound limit)).getLast? with
      | none => (s, 0)
      | some last =>
          ({ s with
              entries := s.entries.drop (trimCut s bound limit)
              maxDeletedEntryId := max s.maxDeletedEntryId last.id },
            (s.entries.take (trimCut s bound limit)).length) := rfl

theorem trimInPlace_entries (s : StreamValue) (bound : TrimBound) (limit : Option Nat) :
    (trimInPlace s bound limit).1.entries = s.entries.drop (trimCut s bound limit) := by
  rw [trimInPlace_eq]
  split
  · rename_i hnone
    rw [List.getLast?_eq_none_iff, List.take_eq_nil_iff] at hnone
    rcases hnone with hzero | hnil
    · rw [hzero, List.drop_zero]
    · rw [hnil, List.drop_nil]
  · rfl

/-- The last entry removed has the greatest id removed, since the entries are sorted. -/
theorem trimInPlace_removes {s : StreamValue} (hs : s.entries.Pairwise fun a b => a.id < b.id)
    (bound : TrimBound) (limit : Option Nat) :
    Removes s (trimInPlace s bound limit).1 (trimInPlace s bound limit).2 := by
  rw [trimInPlace_eq]
  split
  · exact .refl s
  · rename_i last hlast
    obtain ⟨init, hinit⟩ := List.getLast?_eq_some_iff.mp hlast
    have hsplit := List.take_append_drop (trimCut s bound limit) s.entries
    rw [hinit] at hsplit
    rw [hinit]
    generalize hrest : s.entries.drop (trimCut s bound limit) = rest at hsplit
    rw [← hsplit] at hs
    obtain ⟨hfront, -, hacross⟩ := List.pairwise_append.mp hs
    have hmax : ∀ e ∈ init ++ [last], e.id ≤ last.id := by
      intro e he
      rcases List.mem_append.mp he with hmem | hmem
      · exact ((List.pairwise_append.mp hfront).2.2 e hmem last (List.mem_singleton_self _)).le
      · rw [List.mem_singleton.mp hmem]
    have hnot : last.id ∉ rest.map StreamEntry.id := by
      intro hmem
      obtain ⟨e, he, heq⟩ := List.mem_map.mp hmem
      have hlt := hacross last (List.mem_append_right _ (List.mem_singleton_self _)) e he
      rw [heq] at hlt
      exact lt_irrefl _ hlt
    refine ⟨?_, rfl, rfl, ?_, le_max_left _ _, ?_, ?_⟩
    · exact hrest ▸ List.drop_sublist _ _
    · rw [← hsplit]
      exact List.length_append.symm
    · intro id hid hgone
      rw [← hsplit, List.map_append, List.mem_append] at hid
      obtain ⟨e, he, rfl⟩ := List.mem_map.mp (hid.resolve_right hgone)
      exact (hmax e he).trans (le_max_right _ _)
    · rcases max_choice s.maxDeletedEntryId last.id with h | h
      · exact .inl h
      · right
        dsimp only
        rw [h, ← hsplit]
        exact ⟨List.mem_map_of_mem (by simp), hnot⟩

/-! ## What a trim without a limit leaves -/

/-- The newest entries stay: at most as many as `MAXLEN` says, or those from `MINID` on. -/
def Trimmed (before after : List StreamEntry) : TrimBound → Prop
  | .maxLen n => after.length ≤ n ∧ after = before.drop (before.length - n)
  | .minId min => after = before.filter fun e => decide (min ≤ e.id)

theorem trimInPlace_trimmed {s : StreamValue} (hs : s.entries.Pairwise fun a b => a.id < b.id)
    (bound : TrimBound) : Trimmed s.entries (trimInPlace s bound none).1.entries bound := by
  rw [trimInPlace_entries]
  unfold trimCut
  dsimp only [Option.elim]
  cases bound with
  | maxLen n =>
      refine ⟨?_, rfl⟩
      rw [List.length_drop]
      show s.entries.length - (s.entries.length - n) ≤ n
      omega
  | minId min =>
      show s.entries.drop (partitionPoint _ _) = _
      have hdown : s.entries.Pairwise fun a b =>
          decide (b.id < min) = true → decide (a.id < min) = true := by
        apply hs.imp
        intro a b hlt hb
        exact decide_eq_true (hlt.trans (decide_eq_true_eq.mp hb))
      rw [(take_partitionPoint hdown).2]
      apply List.filter_congr
      intro e _
      rw [← decide_not, decide_eq_decide]
      exact not_lt

/-! ## The ledger of a stream -/

/-- After the ids in `ids` and the removal of `gone` entries, the counters of the
stream are exact. -/
structure Exact (ids : List StreamId) (gone : Int) (s : StreamValue) : Prop where
  entries : List.Sublist (s.entries.map StreamEntry.id) ids
  added : s.entriesAdded = ids.length
  removed : (s.entriesAdded : Int) = s.entries.length + gone
  upper : ∀ id ∈ ids, id ∉ s.entries.map StreamEntry.id → id ≤ s.maxDeletedEntryId
  attained : s.maxDeletedEntryId = .min ∧ (∀ id ∈ ids, id ∈ s.entries.map StreamEntry.id) ∨
    s.maxDeletedEntryId ∈ ids ∧ s.maxDeletedEntryId ∉ s.entries.map StreamEntry.id

variable {ids : List StreamId} {gone : Int} {s s' : StreamValue}

theorem exact_empty : Exact [] 0 {} :=
  ⟨List.Sublist.refl [], rfl, rfl, nofun, .inl ⟨rfl, nofun⟩⟩

theorem Exact.sorted (h : Exact ids gone s) (hids : ids.Pairwise (· < ·)) :
    s.entries.Pairwise fun a b => a.id < b.id :=
  List.pairwise_map.mp (hids.sublist h.entries)

theorem Exact.append (h : Exact ids gone s) {id : StreamId}
    (hids : (ids ++ [id]).Pairwise (· < ·)) (hroom : (ids ++ [id]).length < 2 ^ 64)
    (fields : List (String × Bytes)) : Exact (ids ++ [id]) gone (Stream.append s id fields) := by
  have hentries : (Stream.append s id fields).entries.map StreamEntry.id =
      s.entries.map StreamEntry.id ++ [id] := List.map_append
  have hcount : (Stream.append s id fields).entriesAdded = s.entriesAdded + 1 := by
    have hadded := h.added
    rw [List.length_append, List.length_singleton] at hroom
    show min (s.entriesAdded + 1) (2 ^ 64 - 1) = _
    omega
  obtain ⟨-, -, hnew⟩ := List.pairwise_append.mp hids
  refine ⟨?_, ?_, ?_, ?_, ?_⟩
  · rw [hentries]
    exact h.entries.append (List.Sublist.refl [id])
  · rw [hcount, h.added, List.length_append, List.length_singleton]
  · have hremoved := h.removed
    rw [hcount]
    show _ = ((s.entries ++ [_]).length : Int) + gone
    rw [List.length_append, List.length_singleton]
    omega
  · intro i hi hgone
    rw [hentries, List.mem_append, not_or] at hgone
    exact h.upper i ((List.mem_append.mp hi).resolve_right hgone.2) hgone.1
  · rw [hentries]
    show s.maxDeletedEntryId = .min ∧ _ ∨ s.maxDeletedEntryId ∈ _ ∧ s.maxDeletedEntryId ∉ _
    rcases h.attained with ⟨hmin, hall⟩ | ⟨hmem, hgone⟩
    · left
      refine ⟨hmin, fun i hi => ?_⟩
      rw [List.mem_append] at hi ⊢
      exact hi.imp_left (hall i)
    · right
      refine ⟨List.mem_append_left _ hmem, ?_⟩
      rw [List.mem_append, not_or]
      -- what was removed is older than what is added
      have hlt := hnew _ hmem id (List.mem_singleton_self id)
      exact ⟨hgone, fun heq => hlt.ne (List.mem_singleton.mp heq)⟩

theorem Exact.removes (h : Exact ids gone s) {n : Nat} (hr : Removes s s' n) :
    Exact ids (gone + n) s' := by
  have hsub := hr.entries.map StreamEntry.id
  refine ⟨hsub.trans h.entries, hr.added.trans h.added, ?_, ?_, ?_⟩
  · have hremoved := h.removed
    have hcount := hr.count
    rw [hr.added]
    omega
  · intro id hid hgone
    by_cases hmem : id ∈ s.entries.map StreamEntry.id
    · exact hr.upper id hmem hgone
    · exact (h.upper id hid hmem).trans hr.le
  · rcases hr.attained with heq | ⟨hmem, hgone⟩
    · rw [heq]
      rcases h.attained with ⟨hmin, hall⟩ | ⟨hmem, hgone⟩
      · by_cases hsame : ∀ id ∈ ids, id ∈ s'.entries.map StreamEntry.id
        · exact .inl ⟨hmin, hsame⟩
        · -- the id removed now cannot be below the least of all
          obtain ⟨id, hnot⟩ := not_forall.mp hsame
          obtain ⟨hid, hgone⟩ := Classical.not_imp.mp hnot
          have hle := hr.upper id (hall id hid) hgone
          rw [heq, hmin] at hle
          have hzero : id = .min := le_antisymm hle (Nat.zero_le _)
          rw [hmin, ← hzero]
          exact .inr ⟨hid, hgone⟩
      · exact .inr ⟨hmem, fun hin => hgone (hsub.subset hin)⟩
    · exact .inr ⟨h.entries.subset hmem, hgone⟩

end Stream

/-! ## Runs -/

/-- The command adds or removes entries. -/
def StreamCmd.Edits : StreamCmd → Prop
  | .xadd _ _ _ _ _ => True
  | .xdel _ => True
  | .xtrim _ _ => True
  | _ => False

/-- How many entries a command has removed: what `XDEL` and `XTRIM` return, and what the
trim clause of an `XADD` takes off. -/
def removedBy (s : StreamValue) : StreamCmd → Result StreamReply → Int
  | .xadd _ fields _ (some (bound, limit)) _, .ok (.added (some id)) =>
      (Stream.trimInPlace (Stream.append s id fields) bound limit).2
  | .xdel _, .ok (.count n) => n
  | .xtrim _ _, .ok (.count n) => n
  | _, _ => 0

/-- How many entries the commands of a run remove. -/
def removedIn (key : String) : StreamRun → List StreamCmd → Int
  | _, [] => 0
  | run, cmd :: cmds =>
      (((run.step key cmd).log.getLast?).elim 0 fun p => removedBy (streamOf run.entry) cmd p.2) +
        removedIn key (run.step key cmd) cmds

/-- The most elements a `Vec` holds. -/
def vecMax : Nat := 2 ^ 63 - 1

namespace Storage

open RustyAnt.Stream

variable {key : String} {entry : Option StoredValue}

theorem xaddModify_added {spec : AddIdSpec} {fields : List (String × Bytes)} {nomkstream : Bool}
    {trim : Option (TrimBound × Option Nat)} {now : UInt64} {b : CasAction (Option StreamId)}
    (h : xaddModify key spec fields nomkstream trim now entry = .ok b) :
    (b.result = none ∧ b.apply entry = entry) ∨
      ∃ id exp, b.result = some id ∧ b.apply entry = some ⟨exp, .stream
        (trim.elim (Stream.append (streamOf entry) id fields, 0) fun t =>
          trimInPlace (Stream.append (streamOf entry) id fields) t.1 t.2).1⟩ := by
  have hadd : ∀ {s s' : StreamValue} {id : StreamId}, add s spec fields now trim = .ok (s', id) →
      s' = (trim.elim (Stream.append s id fields, 0) fun t =>
        trimInPlace (Stream.append s id fields) t.1 t.2).1 := by
    intro s s' id hok
    obtain ⟨i, -, hok⟩ := Result.bind_eq_ok.mp hok
    cases trim with
    | none =>
        cases hok
        rfl
    | some t =>
        cases hok
        rfl
  rcases find_stream h with ⟨rfl, hnone⟩ | ⟨s, exp, rfl, hsome⟩
  · split at hnone
    · cases hnone
      exact .inl ⟨rfl, rfl⟩
    · obtain ⟨p, hp, hb⟩ := Result.bind_eq_ok.mp hnone
      cases hb
      exact .inr ⟨p.2, none, rfl, by rw [streamOf_none, ← hadd hp]; rfl⟩
  · obtain ⟨p, hp, hb⟩ := Result.bind_eq_ok.mp hsome
    cases hb
    exact .inr ⟨p.2, exp, rfl, by rw [streamOf_stream, ← hadd hp]; rfl⟩

/-- A closure that writes only when something was removed leaves what the removal leaves. -/
theorem removal_applied {s s' : StreamValue} {n : Nat} {exp : Option Int} {b : CasAction Int}
    (hzero : n = 0 → s' = s)
    (h : (if n = 0 then .ok (.noOp 0) else .ok (View.stream.write exp s' (toI64 n))) =
      (.ok b : Result (CasAction Int))) :
    b.result = toI64 n ∧ streamOf (b.apply (some ⟨exp, .stream s⟩)) = s' := by
  split at h
  · rename_i hn
    cases h
    rw [hn, hzero hn]
    exact ⟨rfl, rfl⟩
  · cases h
    exact ⟨rfl, rfl⟩

theorem del_zero {s : StreamValue} {ids : List StreamId} (h : (del s ids).2 = 0) :
    (del s ids).1 = s := by
  have hnil : s.entries.filter (fun e => ids.contains e.id) = [] := List.eq_nil_of_length_eq_zero h
  have hall : s.entries.filter (fun e => !ids.contains e.id) = s.entries := by
    rw [List.filter_eq_self]
    intro e he
    have hnot := List.filter_eq_nil_iff.mp hnil e he
    simpa using hnot
  unfold del
  dsimp only
  rw [hnil, hall]
  rfl

theorem trimInPlace_zero {s : StreamValue} {bound : TrimBound} {limit : Option Nat}
    (h : (trimInPlace s bound limit).2 = 0) : (trimInPlace s bound limit).1 = s := by
  rw [trimInPlace_eq] at h ⊢
  split
  · rfl
  · rename_i last hlast
    rw [hlast] at h
    rw [List.eq_nil_of_length_eq_zero h] at hlast
    cases hlast

theorem xdelModify_removed {ids : List StreamId} {b : CasAction Int}
    (h : xdelModify key ids entry = .ok b) :
    b.result = toI64 (del (streamOf entry) ids).2 ∧
      streamOf (b.apply entry) = (del (streamOf entry) ids).1 := by
  rcases find_stream h with ⟨rfl, hnone⟩ | ⟨s, exp, rfl, hsome⟩
  · cases hnone
    exact ⟨rfl, rfl⟩
  · exact removal_applied del_zero hsome

theorem xtrimModify_removed {bound : TrimBound} {limit : Option Nat} {b : CasAction Int}
    (h : xtrimModify key bound limit entry = .ok b) :
    b.result = toI64 (trimInPlace (streamOf entry) bound limit).2 ∧
      streamOf (b.apply entry) = (trimInPlace (streamOf entry) bound limit).1 := by
  rcases find_stream h with ⟨rfl, hnone⟩ | ⟨s, exp, rfl, hsome⟩
  · cases hnone
    rw [trimInPlace_eq, streamOf_none, show ({} : StreamValue).entries = [] from rfl, List.take_nil]
    exact ⟨rfl, rfl⟩
  · exact removal_applied trimInPlace_zero hsome

end Storage

namespace StreamRun

open RustyAnt.Stream

variable {key : String} {run : StreamRun} {gone : Int}

theorem removedBy_error (s : StreamValue) (cmd : StreamCmd) (e : RustyAntError) :
    removedBy s cmd (.error e) = 0 := by
  cases cmd with
  | xadd spec fields nomkstream trim now => cases trim <;> rfl
  | _ => rfl

theorem toI64_of_le {n m : Nat} (h : n + m ≤ vecMax) : toI64 n = n := by
  unfold toI64 i64Max
  unfold vecMax at h
  omega

theorem exact_xadd {spec : AddIdSpec} {fields : List (String × Bytes)} {nomkstream : Bool}
    {trim : Option (TrimBound × Option Nat)} {now : UInt64} {b : CasAction (Option StreamId)}
    (hb : Storage.xaddModify key spec fields nomkstream trim now run.entry = .ok b)
    (h : Exact (addedIds run.log) gone (streamOf run.entry))
    (hids : (addedIds run.log ++ b.result.toList).Pairwise (· < ·))
    (hroom : (addedIds run.log ++ b.result.toList).length < 2 ^ 64) :
    Exact (addedIds run.log ++ b.result.toList)
      (gone + removedBy (streamOf run.entry) (.xadd spec fields nomkstream trim now)
        (.ok (.added b.result))) (streamOf (b.apply run.entry)) := by
  rcases Storage.xaddModify_added hb with ⟨hnone, hsame⟩ | ⟨id, exp, hid, hentry⟩
  · have hzero : removedBy (streamOf run.entry) (.xadd spec fields nomkstream trim now)
        (.ok (.added none)) = 0 := by
      cases trim <;> rfl
    rw [hnone, hsame, hzero, Option.toList_none, List.append_nil, Int.add_zero]
    exact h
  · rw [hid] at hids hroom ⊢
    have happend := h.append hids hroom fields
    rw [hentry, streamOf_stream]
    cases trim with
    | none =>
        rw [show removedBy _ (.xadd spec fields nomkstream none now) _ = 0 from rfl, Int.add_zero]
        exact happend
    | some t => exact happend.removes (trimInPlace_removes (happend.sorted hids) t.1 t.2)

theorem exact_step {cmd : StreamCmd} (hcmd : cmd.Edits)
    (h : Exact (addedIds run.log) gone (streamOf run.entry))
    (hids : (addedIds (run.step key cmd).log).Pairwise (· < ·))
    (hroom : (addedIds (run.step key cmd).log).length < 2 ^ 64)
    (hvec : (streamOf run.entry).entries.length ≤ vecMax) :
    ∃ r, (run.step key cmd).log = run.log ++ [(cmd, r)] ∧
      Exact (addedIds (run.step key cmd).log) (gone + removedBy (streamOf run.entry) cmd r)
        (streamOf (run.step key cmd).entry) := by
  unfold step at hids hroom ⊢
  have hprev : (addedIds run.log).Pairwise (· < ·) := by
    split at hids <;>
      (rw [addedIds_snoc] at hids
       exact (List.pairwise_append.mp hids).1)
  cases hmod : cmd.modify key run.entry with
  | error e =>
      refine ⟨.error e, rfl, ?_⟩
      rw [removedBy_error, Int.add_zero, addedIds_snoc]
      rw [show addedIds [(cmd, .error e)] = [] from rfl, List.append_nil]
      exact h
  | ok action =>
      rw [hmod] at hids hroom
      refine ⟨.ok action.result, rfl, ?_⟩
      dsimp only at hids hroom ⊢
      rw [addedIds_snoc] at hids hroom ⊢
      cases cmd with
      | xadd spec fields nomkstream trim now =>
          obtain ⟨b, hb, rfl⟩ := Result.map_eq_ok.mp hmod
          rw [CasAction.map_result] at hids hroom ⊢
          rw [CasAction.map_apply]
          have hone : addedIds [(.xadd spec fields nomkstream trim now, .ok (.added b.result))] =
              b.result.toList := by
            cases b.result <;> rfl
          rw [hone] at hids hroom ⊢
          exact exact_xadd hb h hids hroom
      | xdel ids =>
          obtain ⟨b, hb, rfl⟩ := Result.map_eq_ok.mp hmod
          obtain ⟨hresult, hstream⟩ := Storage.xdelModify_removed hb
          have hremoves := del_removes (streamOf run.entry) ids
          have hcount := toI64_of_le (hremoves.count.trans_le hvec)
          rw [CasAction.map_result, CasAction.map_apply, hstream, hresult, hcount]
          rw [addedIds_single_eq_nil (fun _ => StreamReply.noConfusion), List.append_nil]
          exact h.removes hremoves
      | xtrim bound limit =>
          obtain ⟨b, hb, rfl⟩ := Result.map_eq_ok.mp hmod
          obtain ⟨hresult, hstream⟩ := Storage.xtrimModify_removed hb
          have hremoves := trimInPlace_removes (h.sorted hprev) bound limit
          have hcount := toI64_of_le (hremoves.count.trans_le hvec)
          rw [CasAction.map_result, CasAction.map_apply, hstream, hresult, hcount]
          rw [addedIds_single_eq_nil (fun _ => StreamReply.noConfusion), List.append_nil]
          exact h.removes hremoves
      | _ => exact hcmd.elim

theorem addedIds_prefix {log log' : List (StreamCmd × Result StreamReply)} (h : log <+: log') :
    addedIds log <+: addedIds log' := h.filterMap _

theorem exact_exec {cmds : List StreamCmd} (hcmds : ∀ cmd ∈ cmds, cmd.Edits)
    (h : Exact (addedIds run.log) gone (streamOf run.entry))
    (hids : (addedIds (run.exec key cmds).log).Pairwise (· < ·))
    (hroom : (addedIds (run.exec key cmds).log).length < 2 ^ 64)
    (hvec : ∀ cmds₁, cmds₁ <+: cmds →
      (streamOf (run.exec key cmds₁).entry).entries.length ≤ vecMax) :
    Exact (addedIds (run.exec key cmds).log) (gone + removedIn key run cmds)
      (streamOf (run.exec key cmds).entry) := by
  induction cmds generalizing run gone with
  | nil =>
      rw [removedIn, Int.add_zero]
      exact h
  | cons cmd cmds ih =>
      have hpre := addedIds_prefix (log_exec key (run.step key cmd) cmds)
      obtain ⟨r, hlog, hstep⟩ := exact_step (hcmds cmd List.mem_cons_self) h
        (hids.sublist hpre.sublist) (hpre.length_le.trans_lt hroom) (hvec [] List.nil_prefix)
      have hlast : (run.step key cmd).log.getLast? = some (cmd, r) := by
        rw [hlog, List.getLast?_append]
        rfl
      rw [removedIn, hlast, ← Int.add_assoc]
      apply ih (fun c hc => hcmds c (List.mem_cons_of_mem _ hc)) hstep hids hroom
      intro cmds₁ hcmds₁
      exact hvec (cmd :: cmds₁) (List.cons_prefix_cons.mpr ⟨rfl, hcmds₁⟩)

theorem step_xtrim_trimmed {bound : TrimBound} {r : StreamReply}
    (hs : (streamOf run.entry).entries.Pairwise fun a b => a.id < b.id)
    (hlog : (run.step key (.xtrim bound none)).log = run.log ++ [(.xtrim bound none, .ok r)]) :
    Trimmed (streamOf run.entry).entries
      (streamOf (run.step key (.xtrim bound none)).entry).entries bound := by
  unfold step at hlog ⊢
  cases hmod : StreamCmd.modify key (.xtrim bound none) run.entry with
  | error e =>
      rw [hmod] at hlog
      simp at hlog
  | ok action =>
      obtain ⟨b, hb, rfl⟩ := Result.map_eq_ok.mp hmod
      dsimp only
      rw [CasAction.map_apply, (Storage.xtrimModify_removed hb).2]
      exact trimInPlace_trimmed hs bound

theorem step_xadd_trimmed {spec : AddIdSpec} {fields : List (String × Bytes)} {nomkstream : Bool}
    {bound : TrimBound} {now : UInt64} {id : StreamId}
    (h : Exact (addedIds run.log) gone (streamOf run.entry))
    (hlog : (run.step key (.xadd spec fields nomkstream (some (bound, none)) now)).log =
      run.log ++ [(.xadd spec fields nomkstream (some (bound, none)) now, .ok (.added (some id)))])
    (hids : (addedIds run.log ++ [id]).Pairwise (· < ·))
    (hroom : (addedIds run.log ++ [id]).length < 2 ^ 64) :
    Trimmed ((streamOf run.entry).entries ++ [⟨id, fields⟩])
      (streamOf (run.step key (.xadd spec fields nomkstream (some (bound, none)) now)).entry).entries
      bound := by
  unfold step at hlog ⊢
  cases hmod : StreamCmd.modify key (.xadd spec fields nomkstream (some (bound, none)) now)
      run.entry with
  | error e =>
      rw [hmod] at hlog
      simp at hlog
  | ok action =>
      rw [hmod] at hlog
      obtain ⟨b, hb, rfl⟩ := Result.map_eq_ok.mp hmod
      dsimp only at hlog ⊢
      have hresult : b.result = some id := by
        simpa using hlog
      rw [CasAction.map_apply]
      rcases Storage.xaddModify_added hb with ⟨hnone, -⟩ | ⟨id', exp, hid, hentry⟩
      · rw [hnone] at hresult
        cases hresult
      · rw [hid] at hresult
        cases hresult
        rw [hentry]
        exact trimInPlace_trimmed ((h.append hids hroom fields).sorted hids) bound

/-- The counters of a stream are exact in every state that a run of additions, deletions
and trims reaches, and a trim without a limit leaves what it says. -/
theorem bookkeeping_exact (key : String) (cmds : List StreamCmd)
    (hcmds : ∀ cmd ∈ cmds, cmd.Edits)
    (hids : (addedIds (exec key {} cmds).log).Pairwise (· < ·))
    (hroom : (addedIds (exec key {} cmds).log).length < 2 ^ 64)
    (hvec : ∀ cmds₁, cmds₁ <+: cmds →
      (streamOf (exec key {} cmds₁).entry).entries.length ≤ vecMax) :
    Exact (addedIds (exec key {} cmds).log) (removedIn key {} cmds)
        (streamOf (exec key {} cmds).entry) ∧
      (∀ cmds₁ bound r, cmds₁ ++ [.xtrim bound none] <+: cmds →
        ((exec key {} cmds₁).step key (.xtrim bound none)).log =
          (exec key {} cmds₁).log ++ [(.xtrim bound none, .ok r)] →
        Trimmed (streamOf (exec key {} cmds₁).entry).entries
          (streamOf ((exec key {} cmds₁).step key (.xtrim bound none)).entry).entries bound) ∧
      ∀ cmds₁ spec fields nomkstream bound now id,
        cmds₁ ++ [.xadd spec fields nomkstream (some (bound, none)) now] <+: cmds →
        ((exec key {} cmds₁).step key (.xadd spec fields nomkstream (some (bound, none)) now)).log =
          (exec key {} cmds₁).log ++
            [(.xadd spec fields nomkstream (some (bound, none)) now, .ok (.added (some id)))] →
        Trimmed ((streamOf (exec key {} cmds₁).entry).entries ++ [⟨id, fields⟩])
          (streamOf ((exec key {} cmds₁).step key
            (.xadd spec fields nomkstream (some (bound, none)) now)).entry).entries bound := by
  have hexact : ∀ cmds₁, cmds₁ <+: cmds → Exact (addedIds (exec key {} cmds₁).log)
      (removedIn key {} cmds₁) (streamOf (exec key {} cmds₁).entry) := by
    intro cmds₁ hpre
    obtain ⟨cmds₂, rfl⟩ := hpre
    have hlog := addedIds_prefix (log_exec key (exec key {} cmds₁) cmds₂)
    rw [← exec_append] at hlog
    have hedits : ∀ cmd ∈ cmds₁, cmd.Edits := fun c hc => hcmds c (List.mem_append_left _ hc)
    have hempty : Exact (addedIds ({} : StreamRun).log) 0 (streamOf ({} : StreamRun).entry) :=
      exact_empty
    have hrun := exact_exec hedits hempty (hids.sublist hlog.sublist)
      (hlog.length_le.trans_lt hroom) fun cmds₃ h₃ => hvec cmds₃ (h₃.trans (List.prefix_append _ _))
    rw [Int.zero_add] at hrun
    exact hrun
  have hbefore : ∀ cmds₁ cmd, cmds₁ ++ [cmd] <+: cmds →
      addedIds ((exec key {} cmds₁).step key cmd).log <+: addedIds (exec key {} cmds).log := by
    intro cmds₁ cmd hpre
    obtain ⟨cmds₂, rfl⟩ := hpre
    rw [exec_append, exec_snoc]
    exact addedIds_prefix (log_exec key _ cmds₂)
  refine ⟨hexact cmds List.prefix_rfl, ?_, ?_⟩
  · intro cmds₁ bound r hpre hlog
    have hsome := hexact cmds₁ ((List.prefix_append _ _).trans hpre)
    have hids₁ := hids.sublist (hbefore cmds₁ _ hpre).sublist
    rw [hlog, addedIds_snoc] at hids₁
    exact step_xtrim_trimmed (hsome.sorted (List.pairwise_append.mp hids₁).1) hlog
  · intro cmds₁ spec fields nomkstream bound now id hpre hlog
    have hsome := hexact cmds₁ ((List.prefix_append _ _).trans hpre)
    have hlast := hbefore cmds₁ _ hpre
    rw [hlog, addedIds_snoc] at hlast
    exact step_xadd_trimmed hsome hlog (hids.sublist hlast.sublist) (hlast.length_le.trans_lt hroom)

namespace TrimmedLog

/-- Three entries, the first trimmed by the third addition, the second deleted. -/
def cmds : List StreamCmd := [
  .xadd (.concrete ⟨1, 0⟩) [("f", [97])] false none 1,
  .xadd (.concrete ⟨2, 0⟩) [("f", [98])] false none 2,
  .xadd (.concrete ⟨3, 0⟩) [("f", [99])] false (some (.maxLen 2, none)) 3,
  .xdel [⟨2, 0⟩]]

end TrimmedLog

open TrimmedLog in
theorem bookkeeping_exact_on_trimmedLog :
    removedIn "k" {} cmds = 2 ∧
      Exact (addedIds (exec "k" {} cmds).log) (removedIn "k" {} cmds)
        (streamOf (exec "k" {} cmds).entry) := by
  refine ⟨by decide +kernel, (bookkeeping_exact "k" cmds ?_ ?_ ?_ ?_).1⟩
  · simp [cmds, StreamCmd.Edits]
  · decide +kernel
  · decide +kernel
  · intro cmds₁ hpre
    have hmem := (List.mem_inits _ _).mpr hpre
    have hall : ∀ c ∈ cmds.inits, (streamOf (exec "k" {} c).entry).entries.length ≤ vecMax := by
      simp only [cmds, List.inits, List.map_cons, List.map_nil, List.forall_mem_cons]
      decide +kernel
    exact hall cmds₁ hmem

end StreamRun

end RustyAnt
