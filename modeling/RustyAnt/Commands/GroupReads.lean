import RustyAnt.Commands.Streams
import RustyAnt.Storage.Solo
import RustyAnt.Stream.Delivery
import RustyAnt.Stream.Pending

/-!
# XREADGROUP over several streams

The streams are read in turn, each with its own write.  An error leaves the streams before
the offending one as their reads have left them.
-/

namespace RustyAnt

open Lib RustyAnt.Stream Commands

namespace GroupRead

/-! ## One group -/

section Group

variable (s : StreamValue) (consumer : String) (count : Option Nat) (noack : Bool) (now : Int)

/-- The group after one read. -/
def regroup (g : ConsumerGroup) : XReadGroupId → ConsumerGroup
  | .newEntries => Stream.delivered consumer noack now g (newish s g count)
  | .pending after => { g with pel := (pendingRows g consumer after count).foldl (redeliver now) g.pel }

/-- One more delivery at `now` shows in the row: in its time, or in a count that can still grow. -/
def Shows (p : PendingEntry) : Prop := p.deliveryTimeMs ≠ now ∨ p.deliveryCount ≠ 2 ^ 64 - 1

/-- What a read takes of a group: new entries, the consumer's seen time, or rows of the consumer
that it delivers again. -/
def Takes (g : ConsumerGroup) : XReadGroupId → Prop
  | .newEntries => newish s g count ≠ [] ∨ g.consumers[consumer]? ≠ some ⟨now⟩
  | .pending after => ∃ id ∈ pendingRows g consumer after count, ∃ p, g.pel[id]? = some p ∧
      Shows now p

/-- The row is one that a read at `now` has delivered again. -/
def Bumped (p₀ p : PendingEntry) : Prop :=
  p.deliveryTimeMs = now ∧ (p₀.deliveryTimeMs ≠ now ∨ p.deliveryCount ≤ 2 ^ 64 - 1 ∧
    (p₀.deliveryCount < p.deliveryCount ∨ 2 ^ 64 - 1 < p₀.deliveryCount))

/-- What a read that changes a group leaves there, and no later read takes back. -/
inductive Touched (g₀ g : ConsumerGroup) : Prop where
  | advanced (h : g₀.lastDeliveredId < g.lastDeliveredId)
  | seen (h₀ : g₀.consumers[consumer]? ≠ some ⟨now⟩) (h : g.consumers[consumer]? = some ⟨now⟩)
      (hle : g₀.lastDeliveredId ≤ g.lastDeliveredId)
  | bumped (id : StreamId) (p₀ p : PendingEntry) (h₀ : g₀.pel[id]? = some p₀)
      (h : g.pel[id]? = some p) (hbumped : Bumped now p₀ p)
      (hle : g₀.lastDeliveredId ≤ g.lastDeliveredId)

variable {s consumer count noack now} {g₀ g : ConsumerGroup}

theorem Touched.ne (h : Touched consumer now g₀ g) : g ≠ g₀ := by
  intro heq
  rw [heq] at h
  cases h with
  | advanced h => exact lt_irrefl _ h
  | seen h₀ h _ => exact h₀ h
  | bumped id p₀ p h₀ h hbumped _ =>
      rw [h₀] at h
      obtain ⟨htime, hrow⟩ := hbumped
      rw [← Option.some.inj h] at htime hrow
      rcases hrow with hrow | hrow
      · exact hrow htime
      · omega

def again (now : Int) (p : PendingEntry) : PendingEntry :=
  { p with deliveryCount := saturatingSucc p.deliveryCount, deliveryTimeMs := now }

theorem again_same {p : PendingEntry} (h : ¬ Shows now p) : again now p = p := by
  obtain ⟨htime, hcount⟩ := not_or.mp h
  unfold again saturatingSucc
  rw [← not_not.mp htime,
    show min (p.deliveryCount + 1) (2 ^ 64 - 1) = p.deliveryCount by omega]

theorem bumped_of_shows {p : PendingEntry} (h : Shows now p) : Bumped now p (again now p) := by
  unfold Bumped again saturatingSucc
  rcases h with htime | hcount
  · exact ⟨rfl, .inl htime⟩
  · dsimp only
    omega

theorem bumped_again {p₀ p : PendingEntry} (h : Bumped now p₀ p) : Bumped now p₀ (again now p) := by
  obtain ⟨-, hrow⟩ := h
  unfold Bumped again saturatingSucc
  dsimp only
  refine ⟨rfl, ?_⟩
  rcases hrow with htime | hrow
  · exact .inl htime
  · omega

theorem redeliver_row {pel : BTreeMap StreamId PendingEntry} {id : StreamId} {p : PendingEntry}
    (h : pel[id]? = some p) : redeliver now pel id = pel.insert id (again now p) := by
  unfold redeliver
  rw [h]
  rfl

theorem redeliver_missing {pel : BTreeMap StreamId PendingEntry} {id : StreamId}
    (h : pel[id]? = none) : redeliver now pel id = pel := by
  unfold redeliver
  rw [h]

theorem redeliver_same {pel : BTreeMap StreamId PendingEntry} {id : StreamId}
    (h : ∀ p, pel[id]? = some p → ¬ Shows now p) : redeliver now pel id = pel := by
  cases hrow : pel[id]? with
  | none => exact redeliver_missing hrow
  | some p =>
      rw [redeliver_row hrow, again_same (h p hrow)]
      apply Std.ExtTreeMap.ext_getElem?
      intro id'
      rw [Std.ExtTreeMap.getElem?_insert]
      split
      · rename_i heq
        rw [← Std.LawfulEqCmp.eq_of_compare heq, hrow]
      · rfl

/-- A second delivery leaves the pending list as it is, or shows in the row. -/
theorem redeliver_cases (now : Int) (pel : BTreeMap StreamId PendingEntry) (id : StreamId) :
    redeliver now pel id = pel ∨
      ∃ p, pel[id]? = some p ∧ Bumped now p (again now p) ∧
        redeliver now pel id = pel.insert id (again now p) := by
  cases hrow : pel[id]? with
  | none => exact .inl (redeliver_missing hrow)
  | some p =>
      by_cases hshows : Shows now p
      · exact .inr ⟨p, rfl, bumped_of_shows hshows, redeliver_row hrow⟩
      · exact .inl (redeliver_same fun q hq => Option.some.inj (hrow.symm.trans hq) ▸ hshows)

theorem redeliver_other {pel : BTreeMap StreamId PendingEntry} {id id' : StreamId} (h : id' ≠ id) :
    (redeliver now pel id')[id]? = pel[id]? := by
  cases hrow : pel[id']? with
  | none => rw [redeliver_missing hrow]
  | some q =>
      rw [redeliver_row hrow, Std.ExtTreeMap.getElem?_insert, if_neg]
      intro hcmp
      exact h (Std.LawfulEqCmp.eq_of_compare hcmp)

theorem bumped_kept (rows : List StreamId) {pel : BTreeMap StreamId PendingEntry} {id : StreamId}
    {p₀ p : PendingEntry} (h : pel[id]? = some p) (hbumped : Bumped now p₀ p) :
    ∃ p', (rows.foldl (redeliver now) pel)[id]? = some p' ∧ Bumped now p₀ p' := by
  induction rows generalizing pel p with
  | nil => exact ⟨p, h, hbumped⟩
  | cons id' rows ih =>
      rw [List.foldl_cons]
      by_cases heq : id' = id
      · refine ih ?_ (bumped_again hbumped)
        rw [heq, redeliver_row h, Std.ExtTreeMap.getElem?_insert_self]
      · exact ih ((redeliver_other heq).trans h) hbumped

theorem redeliverAll_same {rows : List StreamId} {pel : BTreeMap StreamId PendingEntry}
    (h : ∀ id ∈ rows, ∀ p, pel[id]? = some p → ¬ Shows now p) :
    rows.foldl (redeliver now) pel = pel := by
  induction rows with
  | nil => rfl
  | cons id rows ih =>
      rw [List.foldl_cons, redeliver_same (h id List.mem_cons_self)]
      exact ih fun id' hid' => h id' (List.mem_cons_of_mem _ hid')

/-- A row among those delivered again, in which it shows. -/
theorem redeliverAll_bumps {rows : List StreamId} {pel : BTreeMap StreamId PendingEntry}
    {id : StreamId} {p : PendingEntry} (hid : id ∈ rows) (hrow : pel[id]? = some p)
    (hshows : Shows now p) :
    ∃ p', (rows.foldl (redeliver now) pel)[id]? = some p' ∧ Bumped now p p' := by
  induction rows generalizing pel with
  | nil => cases hid
  | cons id' rows ih =>
      rw [List.foldl_cons]
      by_cases heq : id' = id
      · refine bumped_kept rows ?_ (bumped_of_shows hshows)
        rw [heq, redeliver_row hrow, Std.ExtTreeMap.getElem?_insert_self]
      · have hrest := (List.mem_cons.mp hid).resolve_left (Ne.symm heq)
        exact ih hrest ((redeliver_other heq).trans hrow)

theorem redeliverAll_changed (rows : List StreamId) {pel : BTreeMap StreamId PendingEntry}
    (h : rows.foldl (redeliver now) pel ≠ pel) :
    ∃ (id : StreamId) (p₀ p : PendingEntry), pel[id]? = some p₀ ∧ (rows.foldl (redeliver now) pel)[id]? = some p ∧
      Bumped now p₀ p := by
  induction rows with
  | nil => exact absurd rfl h
  | cons id rows ih =>
      rw [List.foldl_cons] at h ⊢
      rcases redeliver_cases now pel id with hsame | ⟨p, hrow, hbumped, hinsert⟩
      · rw [hsame] at h ⊢
        exact ih h
      · rw [hinsert]
        have hself : (pel.insert id (again now p))[id]? = some (again now p) :=
          Std.ExtTreeMap.getElem?_insert_self
        obtain ⟨p', hp', hbumped'⟩ := bumped_kept rows hself hbumped
        exact ⟨id, p, p', hrow, hp', hbumped'⟩

theorem regroup_pending (s : StreamValue) (consumer : String) (count : Option Nat) (noack : Bool)
    (now : Int) (g : ConsumerGroup) (after : StreamId) :
    (regroup s consumer count noack now g (.pending after)).lastDeliveredId = g.lastDeliveredId ∧
    (regroup s consumer count noack now g (.pending after)).consumers = g.consumers := by
  cases g
  exact ⟨rfl, rfl⟩

theorem delivered_consumers (consumer : String) (noack : Bool) (now : Int) (g : ConsumerGroup)
    (entries : List StreamEntry) :
    (Stream.delivered consumer noack now g entries).consumers =
      g.consumers.insert consumer ⟨now⟩ := by
  have hkept : (entries.foldl (deliver consumer noack now) g).consumers = g.consumers := by
    induction entries generalizing g with
    | nil => rfl
    | cons e entries ih => rw [List.foldl_cons, ih, deliver_consumers]
  rw [← hkept]
  unfold Stream.delivered touch
  generalize entries.foldl (deliver consumer noack now) g = g'
  rfl

/-- A read of new entries moves the cursor, or delivers nothing. -/
theorem delivered_cases (s : StreamValue) (consumer : String) (count : Option Nat) (noack : Bool)
    (now : Int) (g : ConsumerGroup) :
    newish s g count = [] ∨
      g.lastDeliveredId < (Stream.delivered consumer noack now g (newish s g count)).lastDeliveredId := by
  cases hnew : newish s g count with
  | nil => exact .inl rfl
  | cons e rest =>
      right
      have hmem : e ∈ newish s g count := by
        rw [hnew]
        exact List.mem_cons_self
      have hlater : g.lastDeliveredId < e.id := by
        obtain ⟨n, heq⟩ := newish_eq s g count
        rw [heq] at hmem
        exact decide_eq_true_eq.mp (List.mem_filter.mp (List.mem_of_mem_take hmem)).2
      rw [delivered_lastDelivered]
      exact hlater.trans_le (le_advance_of_mem List.mem_cons_self g.lastDeliveredId)

theorem le_regroup (s : StreamValue) (consumer : String) (count : Option Nat) (noack : Bool)
    (now : Int) (g : ConsumerGroup) (id : XReadGroupId) :
    g.lastDeliveredId ≤ (regroup s consumer count noack now g id).lastDeliveredId := by
  cases id with
  | newEntries =>
      show _ ≤ (Stream.delivered consumer noack now g (newish s g count)).lastDeliveredId
      rw [delivered_lastDelivered]
      exact le_advance _ _
  | pending after => exact (regroup_pending s consumer count noack now g after).1.ge

/-- A read without new entries, by a consumer seen at this time. -/
theorem regroup_nothing (hnone : newish s g count = [])
    (hseen : g.consumers[consumer]? = some ⟨now⟩) :
    regroup s consumer count noack now g .newEntries = g := by
  have hsame : g.consumers.insert consumer ⟨now⟩ = g.consumers := by
    apply Std.ExtTreeMap.ext_getElem?
    intro name
    rw [Std.ExtTreeMap.getElem?_insert]
    split
    · rename_i heq
      rw [← Std.LawfulEqCmp.eq_of_compare heq, hseen]
    · rfl
  show Stream.delivered consumer noack now g (newish s g count) = g
  rw [hnone]
  cases g
  exact congrArg (fun m => ConsumerGroup.mk _ m _) hsame

theorem touched_of_changed (id : XReadGroupId)
    (h : regroup s consumer count noack now g id ≠ g) :
    Touched consumer now g (regroup s consumer count noack now g id) := by
  cases id with
  | newEntries =>
      rcases delivered_cases s consumer count noack now g with hnone | hlater
      · by_cases hseen : g.consumers[consumer]? = some ⟨now⟩
        · exact absurd (regroup_nothing hnone hseen) h
        · apply Touched.seen hseen
          · show (Stream.delivered consumer noack now g (newish s g count)).consumers[consumer]? = _
            rw [delivered_consumers, Std.ExtTreeMap.getElem?_insert_self]
          · exact le_regroup s consumer count noack now g .newEntries
      · exact .advanced hlater
  | pending after =>
      have hpel : (pendingRows g consumer after count).foldl (redeliver now) g.pel ≠ g.pel := by
        intro heq
        apply h
        cases g
        exact congrArg (fun m => ConsumerGroup.mk _ _ m) heq
      obtain ⟨row, p₀, p, h₀, hrow, hbumped⟩ := redeliverAll_changed _ hpel
      exact .bumped row p₀ p h₀ hrow hbumped (le_regroup s consumer count noack now g _)

/-- A read changes the group exactly when it takes something of it. -/
theorem regroup_ne_iff (s : StreamValue) (consumer : String) (count : Option Nat) (noack : Bool)
    (now : Int) (g : ConsumerGroup) (id : XReadGroupId) :
    regroup s consumer count noack now g id ≠ g ↔ Takes s consumer count now g id := by
  cases id with
  | newEntries =>
      constructor
      · intro hne
        by_contra hnone
        obtain ⟨hnew, hseen⟩ := not_or.mp hnone
        exact hne (regroup_nothing (not_not.mp hnew) (not_not.mp hseen))
      · rintro (hnew | hseen) heq
        · have hlater := (delivered_cases s consumer count noack now g).resolve_left hnew
          rw [show Stream.delivered consumer noack now g (newish s g count) = g from heq] at hlater
          exact lt_irrefl _ hlater
        · apply hseen
          have hconsumers := delivered_consumers consumer noack now g (newish s g count)
          rw [show Stream.delivered consumer noack now g (newish s g count) = g from heq] at hconsumers
          rw [hconsumers, Std.ExtTreeMap.getElem?_insert_self]
  | pending after =>
      constructor
      · intro hne
        by_contra hnone
        apply hne
        have hsame : (pendingRows g consumer after count).foldl (redeliver now) g.pel = g.pel :=
          redeliverAll_same fun row hrow p hp hshows => hnone ⟨row, hrow, p, hp, hshows⟩
        cases g
        exact congrArg (fun m => ConsumerGroup.mk _ _ m) hsame
      · rintro ⟨row, hrow, p, hp, hshows⟩
        obtain ⟨p', hp', hbumped⟩ := redeliverAll_bumps hrow hp hshows
        have hmark : Touched consumer now g
            (regroup s consumer count noack now g (.pending after)) :=
          .bumped row p p' hp hp' hbumped (le_regroup s consumer count noack now g _)
        exact hmark.ne

theorem touched_regroup (id : XReadGroupId) (h : Touched consumer now g₀ g) :
    Touched consumer now g₀ (regroup s consumer count noack now g id) := by
  have hle := le_regroup s consumer count noack now g id
  cases h with
  | advanced h => exact .advanced (h.trans_le hle)
  | seen h₀ h hle₀ =>
      apply Touched.seen h₀ ?_ (hle₀.trans hle)
      cases id with
      | newEntries =>
          show (Stream.delivered consumer noack now g (newish s g count)).consumers[consumer]? = _
          rw [delivered_consumers, Std.ExtTreeMap.getElem?_insert_self]
      | pending after => rw [(regroup_pending s consumer count noack now g after).2, h]
  | bumped row p₀ p h₀ h hbumped hle₀ =>
      cases id with
      | newEntries =>
          rcases delivered_cases s consumer count noack now g with hnone | hlater
          · apply Touched.bumped row p₀ p h₀ ?_ hbumped (hle₀.trans hle)
            show (Stream.delivered consumer noack now g (newish s g count)).pel[row]? = _
            rw [hnone]
            cases g
            exact h
          · exact .advanced (hle₀.trans_lt hlater)
      | pending after =>
          obtain ⟨p', hp', hbumped'⟩ :=
            bumped_kept (pendingRows g consumer after count) h hbumped
          exact .bumped row p₀ p' h₀ hp' hbumped' (hle₀.trans hle)

variable (s count noack) in
theorem touched_reads (ids : List XReadGroupId) (h : Touched consumer now g₀ g) :
    Touched consumer now g₀ (ids.foldl (regroup s consumer count noack now) g) := by
  induction ids generalizing g with
  | nil => exact h
  | cons id ids ih => exact ih (touched_regroup id h)

/-- Reads leave a group as it was exactly when each of them would by itself. -/
theorem reads_ne_iff (ids : List XReadGroupId) :
    ids.foldl (regroup s consumer count noack now) g ≠ g ↔
      ∃ id ∈ ids, regroup s consumer count noack now g id ≠ g := by
  induction ids with
  | nil => simp
  | cons id ids ih =>
      rw [List.foldl_cons, List.exists_mem_cons_iff]
      by_cases hsame : regroup s consumer count noack now g id = g
      · rw [hsame, ih]
        exact ⟨.inr, fun h => h.resolve_left fun hne => hne rfl⟩
      · have hmark := touched_reads s count noack ids (touched_of_changed id hsame)
        exact iff_of_true hmark.ne (.inl hsame)

end Group

/-! ## The streams in turn -/

/-- The stream and the group that a read finds at the backend's `n`-th call. -/
def groupAt (env : Solo) (s : Keyspace) (group : String) (n : Nat) (key : String) :
    Option (StreamValue × ConsumerGroup) :=
  match s key with
  | none => none
  | some p =>
      if p.1.isExpired (env.now n) then none
      else match p.1.value with
        | .stream st => st.groups[group]?.map fun g => (st, g)
        | _ => none

/-- The clock is read first, and each stream is loaded and saved. -/
def turn (i : Nat) : Nat := 2 * i + 1

def idsOf (key : String) (streams : List (String × XReadGroupId)) : List XReadGroupId :=
  (streams.filter fun x => x.1 == key).map Prod.snd

theorem mem_idsOf {key : String} {streams : List (String × XReadGroupId)} {id : XReadGroupId} :
    id ∈ idsOf key streams ↔ (key, id) ∈ streams := by
  unfold idsOf
  rw [List.mem_map]
  constructor
  · rintro ⟨⟨key', id'⟩, hmem, rfl⟩
    obtain ⟨hmem, hkey⟩ := List.mem_filter.mp hmem
    rw [← beq_iff_eq.mp hkey]
    exact hmem
  · intro hmem
    exact ⟨(key, id), List.mem_filter.mpr ⟨hmem, beq_self_eq_true key⟩, rfl⟩

theorem idsOf_snoc (key : String) (streams : List (String × XReadGroupId))
    (x : String × XReadGroupId) :
    idsOf key (streams ++ [x]) = idsOf key streams ++ if x.1 = key then [x.2] else [] := by
  unfold idsOf
  rw [List.filter_append, List.map_append]
  by_cases h : x.1 = key
  · rw [if_pos h, List.filter_cons_of_pos (by simpa using h)]
    rfl
  · rw [if_neg h, List.filter_cons_of_neg (by simpa using h)]
    rfl

theorem setGroup_setGroup (st : StreamValue) (group : String) (g g' : ConsumerGroup) :
    setGroup (setGroup st group g) group g' = setGroup st group g' := by
  unfold setGroup
  dsimp only
  congr 1
  apply Std.ExtTreeMap.ext_getElem?
  intro name
  rw [Std.ExtTreeMap.getElem?_insert, Std.ExtTreeMap.getElem?_insert,
    Std.ExtTreeMap.getElem?_insert]
  split <;> rfl

theorem setGroup_ne_iff {st : StreamValue} {group : String} {g g' : ConsumerGroup}
    (hg : st.groups[group]? = some g) : setGroup st group g' = st ↔ g' = g := by
  constructor
  · intro h
    have hrow := getElem?_setGroup st group group g'
    rw [h, if_pos rfl, hg] at hrow
    exact (Option.some.inj hrow).symm
  · intro h
    rw [h]
    cases st
    unfold setGroup
    congr 1
    apply Std.ExtTreeMap.ext_getElem?
    intro name
    rw [Std.ExtTreeMap.getElem?_insert]
    split
    · rename_i heq
      rw [← Std.LawfulEqCmp.eq_of_compare heq]
      exact hg.symm
    · rfl

section Turns

variable {env : Solo} {r : XReadGroupArgs} {now : Int} {s s' : Keyspace}
variable {pre : List (String × XReadGroupId)}

def reads (r : Commands.XReadGroupArgs) (now : Int) (st : StreamValue) (ids : List XReadGroupId)
    (g : ConsumerGroup) : ConsumerGroup :=
  ids.foldl (regroup st r.consumer r.count r.noack now) g

/-- The reads of `pre` have been served, and nothing else happened. -/
structure Served (r : Commands.XReadGroupArgs) (now : Int) (pre : List (String × XReadGroupId))
    (s s' : Keyspace) : Prop where
  frame : ∀ key, idsOf key pre = [] → s' key = s key
  read : ∀ key, idsOf key pre ≠ [] → ∃ exp st g token token',
    s key = some (⟨exp, .stream st⟩, token) ∧ st.groups[r.group]? = some g ∧
      s' key = some (⟨exp, .stream (setGroup st r.group (reads r now st (idsOf key pre) g))⟩, token')

theorem served_nil (r : Commands.XReadGroupArgs) (now : Int) (s : Keyspace) :
    Served r now [] s s :=
  ⟨fun _ _ => rfl, fun _ h => absurd rfl h⟩

theorem groupAt_eq_some {group key : String} {n : Nat} {st : StreamValue} {g : ConsumerGroup} :
    groupAt env s group n key = some (st, g) ↔
      ∃ exp token, s key = some (⟨exp, .stream st⟩, token) ∧
        StoredValue.isExpired ⟨exp, .stream st⟩ (env.now n) = false ∧
        st.groups[group]? = some g := by
  unfold groupAt
  rcases s key with - | ⟨⟨exp, v⟩, token⟩
  · simp
  · cases hexp : StoredValue.isExpired ⟨exp, v⟩ (env.now n) with
    | true =>
        simp only [hexp, if_true]
        constructor
        · nofun
        · rintro ⟨exp', token', heq, hlive, -⟩
          cases heq
          rw [hexp] at hlive
          cases hlive
    | false =>
        simp only [hexp, Bool.false_eq_true, if_false]
        cases v with
        | stream st' =>
            dsimp only
            constructor
            · intro h
              obtain ⟨g', hg', heq⟩ := Option.map_eq_some_iff.mp h
              cases heq
              exact ⟨exp, token, rfl, hexp, hg'⟩
            · rintro ⟨exp', token', heq, -, hg⟩
              cases heq
              rw [hg]
              rfl
        | _ =>
            constructor
            · nofun
            · rintro ⟨exp', token', heq, -⟩
              cases heq

theorem regroup_congr {st st' : StreamValue} (h : st'.entries = st.entries) (consumer : String)
    (count : Option Nat) (noack : Bool) (now : Int) :
    regroup st' consumer count noack now = regroup st consumer count noack now := by
  funext g id
  cases id with
  | pending after => rfl
  | newEntries =>
      unfold regroup newish
      rw [h]

/-- What a read finds after the reads before it. -/
structure FoundAt (env : Solo) (r : Commands.XReadGroupArgs) (now : Int)
    (pre : List (String × XReadGroupId)) (s s' : Keyspace) (n : Nat) (key : String)
    (exp : Option Int) (st st' : StreamValue) (g g' : ConsumerGroup) : Prop where
  before : ∃ token, s key = some (⟨exp, .stream st⟩, token)
  group : st.groups[r.group]? = some g
  after : ∃ token, s' key = some (⟨exp, .stream st'⟩, token)
  live : StoredValue.isExpired ⟨exp, .stream st'⟩ (env.now n) = false
  entries : st'.entries = st.entries
  set : ∀ g'', setGroup st' r.group g'' = setGroup st r.group g''
  group' : st'.groups[r.group]? = some g'
  reads : g' = GroupRead.reads r now st (idsOf key pre) g

theorem Served.found {key : String} {n : Nat} {st : StreamValue} {g : ConsumerGroup}
    (h : Served r now pre s s') (hfound : groupAt env s r.group n key = some (st, g)) :
    ∃ exp st' g', FoundAt env r now pre s s' n key exp st st' g g' := by
  obtain ⟨exp, token, hkey, hlive, hg⟩ := groupAt_eq_some.mp hfound
  by_cases hids : idsOf key pre = []
  · have hsame := h.frame key hids
    refine ⟨exp, st, g, ⟨token, hkey⟩, hg, ⟨token, hsame.trans hkey⟩, hlive, rfl, fun _ => rfl,
      hg, ?_⟩
    rw [hids]
    rfl
  · obtain ⟨exp', st', g', token', token'', hkey', hg', hread⟩ := h.read key hids
    rw [hkey] at hkey'
    cases hkey'
    rw [hg] at hg'
    cases hg'
    refine ⟨exp, _, _, ⟨token, hkey⟩, hg, ⟨token'', hread⟩, hlive, rfl,
      fun g'' => setGroup_setGroup st r.group _ g'', ?_, rfl⟩
    rw [getElem?_setGroup, if_pos rfl]

theorem xreadgroupModify_found (exp : Option Int) {st : StreamValue} {group : String}
    (consumer : String) {g : ConsumerGroup} (hg : st.groups[group]? = some g) (id : XReadGroupId) (count : Option Nat)
    (noack : Bool) (now : Int) :
    ∃ out, Storage.xreadgroupModify group consumer id count noack now (some ⟨exp, .stream st⟩) =
      .ok (.write ⟨exp, .stream (setGroup st group (regroup st consumer count noack now g id))⟩
        out) := by
  have hfind : View.stream.find "" (some ⟨exp, .stream st⟩) = .ok (some (st, exp)) := rfl
  unfold Storage.xreadgroupModify readGroup
  rw [hfind, Result.ok_bind]
  dsimp only
  rw [getGroup_ok.mpr hg]
  cases id with
  | newEntries => exact ⟨_, rfl⟩
  | pending after => exact ⟨_, rfl⟩

theorem served_snoc (hf : env.Faultless) (h : Served r now pre s s') {x : String × XReadGroupId}
    {n : Nat} {st : StreamValue} {g : ConsumerGroup}
    (hfound : groupAt env s r.group n x.1 = some (st, g)) :
    ∃ out s'', env.runFrom n (cas x.1
        (Storage.xreadgroupModify r.group r.consumer x.2 r.count r.noack now)) s' =
      (.ok out, n + 2, s'') ∧ Served r now (pre ++ [x]) s s'' := by
  obtain ⟨exp, st', g', hat⟩ := h.found hfound
  obtain ⟨token, hbefore⟩ := hat.before
  obtain ⟨token', hafter⟩ := hat.after
  obtain ⟨out, hmodify⟩ := xreadgroupModify_found exp r.consumer hat.group' x.2 r.count
    r.noack now
  rw [hat.set, regroup_congr hat.entries] at hmodify
  refine ⟨out, _, Solo.cas_written hf hafter hat.live hmodify, ?_, ?_⟩
  · intro key hids
    rw [idsOf_snoc, List.append_eq_nil_iff] at hids
    have hne : key ≠ x.1 := by
      intro heq
      rw [if_pos heq.symm] at hids
      exact List.cons_ne_nil _ _ hids.2
    rw [Function.update_of_ne hne, h.frame key hids.1]
  · intro key hids
    by_cases heq : x.1 = key
    · subst heq
      refine ⟨exp, st, g, token, env.token (n + 1), hbefore, ?_, ?_⟩
      · exact hat.group
      · rw [Function.update_self, idsOf_snoc, if_pos rfl, hat.reads]
        unfold reads
        rw [List.foldl_append]
        rfl
    · rw [idsOf_snoc, if_neg heq, List.append_nil] at hids ⊢
      rw [Function.update_of_ne (Ne.symm heq)]
      exact h.read key hids

/-- After some reads, a stream without its group is still one. -/
theorem groupAt_served (h : Served r now pre s s') {n : Nat} {key : String}
    (hnone : groupAt env s r.group n key = none) : groupAt env s' r.group n key = none := by
  by_contra hsome
  obtain ⟨⟨st', g'⟩, hfound⟩ := Option.ne_none_iff_exists'.mp hsome
  by_cases hids : idsOf key pre = []
  · unfold groupAt at hnone hfound
    rw [h.frame key hids, hnone] at hfound
    cases hfound
  · obtain ⟨exp, token, hkey', hlive, -⟩ := groupAt_eq_some.mp hfound
    obtain ⟨exp₀, st, g, token₀, token₁, hkey, hg, hread⟩ := h.read key hids
    rw [hread] at hkey'
    cases hkey'
    have hthere : groupAt env s r.group n key = some _ :=
      groupAt_eq_some.mpr ⟨_, token₀, hkey, hlive, hg⟩
    rw [hnone] at hthere
    cases hthere

/-- What the key holds is no stream with the group. -/
def NoGroup (s : Keyspace) (group key : String) : Prop :=
  ∀ exp st token, s key = some (⟨exp, .stream st⟩, token) → st.groups[group]? = none

/-- The read of a stream that is missing, is no stream or lacks the group. -/
theorem missing_refused (hf : env.Faultless) (r : Commands.XReadGroupArgs) (now : Int)
    (x : String × XReadGroupId) {n : Nat}
    (hnone : groupAt env s r.group n x.1 = none) :
    ∃ e s', env.runFrom n (cas x.1
        (Storage.xreadgroupModify r.group r.consumer x.2 r.count r.noack now)) s =
      (.error e, n + 1, s') ∧ (s' = s ∧ NoGroup s r.group x.1 ∨ env.Missed n x.1 s s') := by
  by_cases hgone : ∀ p, s x.1 = some p → p.1.isExpired (env.now n) = true
  · obtain ⟨s', hmissed, hload⟩ := Solo.load_missed hf hgone
    exact ⟨noGroupError r.group, s', Solo.cas_refused hload rfl, .inr hmissed⟩
  · rw [not_forall] at hgone
    obtain ⟨⟨⟨exp, v⟩, token⟩, hlive⟩ := hgone
    rw [Classical.not_imp, Bool.not_eq_true] at hlive
    obtain ⟨hkey, hexp⟩ := hlive
    have hload := Solo.load_found hf hkey hexp
    cases v with
    | stream st =>
        have hgroup : st.groups[r.group]? = none := by
          cases hg : st.groups[r.group]? with
          | none => rfl
          | some g =>
              have hthere : groupAt env s r.group n x.1 = some _ :=
                groupAt_eq_some.mpr ⟨exp, token, hkey, hexp, hg⟩
              rw [hnone] at hthere
              cases hthere
        refine ⟨noGroupError r.group, s, Solo.cas_refused hload ?_, .inl ⟨rfl, ?_⟩⟩
        · show (readGroup st r.group r.consumer x.2 r.count r.noack now >>= _) = _
          unfold readGroup getGroup
          rw [hgroup]
          rfl
        · intro exp' st' token' heq
          rw [hkey] at heq
          cases heq
          exact hgroup
    | _ =>
        refine ⟨_, s, Solo.cas_refused hload rfl, .inl ⟨rfl, ?_⟩⟩
        intro exp' st' token' heq
        rw [hkey] at heq
        cases heq

/-- Every stream of the list has its group when it is read. -/
def AllFound (env : Solo) (s : Keyspace) (group : String) (streams : List (String × XReadGroupId)) :
    Prop :=
  ∀ i x, streams[i]? = some x → ∃ st g, groupAt env s group (turn i) x.1 = some (st, g)

theorem allFound_snoc {group : String} {x : String × XReadGroupId} {st : StreamValue}
    {g : ConsumerGroup} (h : AllFound env s group pre)
    (hx : groupAt env s group (turn pre.length) x.1 = some (st, g)) :
    AllFound env s group (pre ++ [x]) := by
  intro i y hy
  by_cases hi : i < pre.length
  · rw [List.getElem?_append_left hi] at hy
    exact h i y hy
  · rw [List.getElem?_append_right (by omega)] at hy
    have hzero : i - pre.length = 0 := by
      by_contra hne
      rw [List.getElem?_singleton, if_neg hne] at hy
      cases hy
    rw [hzero] at hy
    cases hy
    rw [show i = pre.length by omega]
    exact ⟨st, g, hx⟩

/-- The command stops at the stream `bad`, after the reads of `pre`. -/
structure StopsAt (env : Solo) (s : Keyspace) (r : Commands.XReadGroupArgs)
    (pre : List (String × XReadGroupId)) (bad : String × XReadGroupId) : Prop where
  split : ∃ post, r.streams = pre ++ bad :: post
  found : AllFound env s r.group pre
  missing : groupAt env s r.group (turn pre.length) bad.1 = none

theorem xreadgroup_run (hf : env.Faultless) {rest : List (String × XReadGroupId)}
    (hsplit : r.streams = pre ++ rest) (hfound : AllFound env s r.group pre)
    (h : Served r now pre s s') :
    (AllFound env s r.group r.streams ∧ ∃ out w,
      env.runFrom (turn pre.length)
        (Storage.xreadgroup r.group r.consumer r.count r.noack now rest) s' = (.ok out, w)) ∨
    ∃ pre' bad e n s₁ s₂, StopsAt env s r pre' bad ∧
      env.runFrom (turn pre.length)
        (Storage.xreadgroup r.group r.consumer r.count r.noack now rest) s' = (.error e, n, s₂) ∧
      Served r now pre' s s₁ ∧
      (s₂ = s₁ ∧ NoGroup s₁ r.group bad.1 ∨ env.Missed (turn pre'.length) bad.1 s₁ s₂) := by
  induction rest generalizing pre s' with
  | nil =>
      rw [List.append_nil] at hsplit
      rw [hsplit]
      exact .inl ⟨hfound, [], _, rfl⟩
  | cons x rest ih =>
      unfold Storage.xreadgroup
      rw [Prog.bind_eq, Solo.runFrom_bind]
      cases hx : groupAt env s r.group (turn pre.length) x.1 with
      | none =>
          obtain ⟨e, s₂, hrun, hend⟩ := missing_refused hf r now x (groupAt_served h hx)
          rw [hrun]
          exact .inr ⟨pre, x, e, _, s', s₂, ⟨⟨rest, hsplit⟩, hfound, hx⟩, rfl, h, hend⟩
      | some p =>
          obtain ⟨st, g⟩ := p
          obtain ⟨out, s'', hrun, hserved⟩ := served_snoc hf h hx
          have hsplit' : r.streams = (pre ++ [x]) ++ rest := by
            rw [hsplit, List.append_assoc]
            rfl
          have hnext : turn pre.length + 2 = turn (pre ++ [x]).length := by
            rw [List.length_append]
            unfold turn
            simp only [List.length_singleton]
            omega
          rw [hrun]
          dsimp only
          rw [Prog.bind_eq, Solo.runFrom_bind, hnext]
          rcases ih hsplit' (allFound_snoc hfound hx) hserved with
            ⟨hall, out', w, hrest⟩ | ⟨pre', bad, e, n, s₁, s₂, hstops, hrest, hend⟩
          · rw [hrest]
            exact .inl ⟨hall, _, w, rfl⟩
          · rw [hrest]
            exact .inr ⟨pre', bad, e, n, s₁, s₂, hstops, rfl, hend⟩

theorem StopsAt.unique {pre' : List (String × XReadGroupId)} {bad bad' : String × XReadGroupId}
    (h : StopsAt env s r pre bad) (h' : StopsAt env s r pre' bad') : pre = pre' ∧ bad = bad' := by
  obtain ⟨post, hsplit⟩ := h.split
  obtain ⟨post', hsplit'⟩ := h'.split
  have hbad : r.streams[pre.length]? = some bad := by
    rw [hsplit, List.getElem?_append_right (le_refl _), Nat.sub_self]
    rfl
  have hbad' : r.streams[pre'.length]? = some bad' := by
    rw [hsplit', List.getElem?_append_right (le_refl _), Nat.sub_self]
    rfl
  rcases Nat.lt_trichotomy pre.length pre'.length with hlt | heq | hlt
  · rw [hsplit', List.getElem?_append_left hlt] at hbad
    obtain ⟨st, g, hfound⟩ := h'.found _ _ hbad
    rw [h.missing] at hfound
    cases hfound
  · have hpre : pre = pre' := by
      rw [hsplit] at hsplit'
      exact (List.append_inj hsplit' heq).1
    rw [← heq, hbad] at hbad'
    exact ⟨hpre, Option.some.inj hbad'⟩
  · rw [hsplit, List.getElem?_append_left hlt] at hbad'
    obtain ⟨st, g, hfound⟩ := h.found _ _ hbad'
    rw [h'.missing] at hfound
    cases hfound

/-- The read of a stream would take something of its group. -/
def Changes (env : Solo) (s : Keyspace) (r : Commands.XReadGroupArgs) (i : Nat)
    (x : String × XReadGroupId) : Prop :=
  ∃ st g, groupAt env s r.group (turn i) x.1 = some (st, g) ∧
    Takes st r.consumer r.count (env.now 0) g x.2

/-- Every key holds what it held, or has lost an expired entry. -/
def Unchanged (env : Solo) (s s' : Keyspace) : Prop :=
  ∀ key, s'.entryAt key = s.entryAt key ∨ env.Old s s' key

theorem changed_of_served (h : Served r (env.now 0) pre s s') {key : String} {id : XReadGroupId}
    (hmem : (key, id) ∈ pre) {i : Nat} (hchanges : Changes env s r i (key, id)) :
    s'.entryAt key ≠ s.entryAt key ∧ s' key ≠ none := by
  obtain ⟨st, g, hfound, hne⟩ := hchanges
  obtain ⟨exp, token, hkey, -, hg⟩ := groupAt_eq_some.mp hfound
  have hid : id ∈ idsOf key pre := mem_idsOf.mpr hmem
  obtain ⟨exp', st', g', token', token'', hkey', hg', hread⟩ :=
    h.read key (List.ne_nil_of_mem hid)
  rw [hkey] at hkey'
  cases hkey'
  rw [hg] at hg'
  cases hg'
  have hreads : reads r (env.now 0) st (idsOf key pre) g ≠ g := (reads_ne_iff _).mpr
    ⟨id, hid, (regroup_ne_iff _ _ _ _ _ _ _).mpr hne⟩
  unfold Keyspace.entryAt
  rw [hread, hkey]
  refine ⟨?_, nofun⟩
  intro heq
  rw [Option.map_some, Option.map_some, Option.some.injEq, StoredValue.mk.injEq,
    Value.stream.injEq, setGroup_ne_iff hg] at heq
  exact hreads heq.2

theorem unchanged_of_served (h : Served r (env.now 0) pre s s') (hfound : AllFound env s r.group pre)
    {key : String} (hnone : ∀ i id, pre[i]? = some (key, id) → ¬ Changes env s r i (key, id)) :
    s'.entryAt key = s.entryAt key := by
  by_cases hids : idsOf key pre = []
  · unfold Keyspace.entryAt
    rw [h.frame key hids]
  · obtain ⟨exp, st, g, token, token', hkey, hg, hread⟩ := h.read key hids
    have hreads : reads r (env.now 0) st (idsOf key pre) g = g := by
      by_contra hne
      obtain ⟨id, hid, hchanges⟩ := (reads_ne_iff _).mp hne
      obtain ⟨i, hi⟩ := List.mem_iff_getElem?.mp (mem_idsOf.mp hid)
      obtain ⟨st', g', hat⟩ := hfound i _ hi
      have hat' := hat
      obtain ⟨exp', token'', hkey', -, hg'⟩ := groupAt_eq_some.mp hat'
      rw [hkey] at hkey'
      cases hkey'
      rw [hg] at hg'
      cases hg'
      exact hnone i id hi ⟨_, _, hat, (regroup_ne_iff _ _ _ _ _ _ _).mp hchanges⟩
    unfold Keyspace.entryAt
    rw [hread, hkey, hreads, (setGroup_ne_iff hg).mpr rfl]
    rfl

/-- What the stream at which the command stops still holds. -/
theorem old_of_missing (hf : env.Faultless) {bad : String × XReadGroupId} {s₁ s₂ : Keyspace}
    (hserved : Served r now pre s s₁)
    (hend : s₂ = s₁ ∧ NoGroup s₁ r.group bad.1 ∨ env.Missed (turn pre.length) bad.1 s₁ s₂) :
    env.Old s s₂ bad.1 := by
  by_cases hids : idsOf bad.1 pre = []
  · have hsame := hserved.frame bad.1 hids
    rcases hend with ⟨rfl, -⟩ | hmissed
    · exact .inl hsame
    · have hold := hmissed.old
      unfold Solo.Old at hold ⊢
      rw [hsame] at hold
      exact hold
  · obtain ⟨exp, st, g, token, token', hkey, hg, hread⟩ := hserved.read bad.1 hids
    rcases hend with ⟨rfl, hnone⟩ | hmissed
    · have hrow := hnone exp _ token' hread
      rw [getElem?_setGroup, if_pos rfl] at hrow
      cases hrow
    · have hexp := hmissed.expired _ hread
      exact .inr ⟨hmissed.collected (hf.collects _), _, turn pre.length, hkey, hexp⟩

theorem unchanged_iff (hf : env.Faultless) {bad : String × XReadGroupId} {s₁ s₂ : Keyspace}
    (hstops : StopsAt env s r pre bad) (hserved : Served r (env.now 0) pre s s₁)
    (hend : s₂ = s₁ ∧ NoGroup s₁ r.group bad.1 ∨ env.Missed (turn pre.length) bad.1 s₁ s₂) :
    Unchanged env s s₂ ↔
      ¬ ∃ i x, pre[i]? = some x ∧ x.1 ≠ bad.1 ∧ Changes env s r i x := by
  have hframe : ∀ key, key ≠ bad.1 → s₂ key = s₁ key := by
    intro key hne
    rcases hend with ⟨rfl, -⟩ | hmissed
    · rfl
    · exact hmissed.frame key hne
  constructor
  · rintro hall ⟨i, ⟨key, id⟩, hi, hne, hchanges⟩
    obtain ⟨hentry, hthere⟩ := changed_of_served hserved (List.mem_of_getElem? hi) hchanges
    have hsame := hframe key hne
    rcases hall key with heq | heq | ⟨hgone, -⟩
    · unfold Keyspace.entryAt at heq hentry
      rw [hsame] at heq
      exact hentry heq
    · rw [hsame] at heq
      apply hentry
      unfold Keyspace.entryAt
      rw [heq]
    · rw [hsame] at hgone
      exact hthere hgone
  · intro hnone key
    by_cases hbad : key = bad.1
    · rw [hbad]
      exact .inr (old_of_missing hf hserved hend)
    · left
      unfold Keyspace.entryAt
      rw [hframe key hbad]
      apply unchanged_of_served hserved hstops.found
      exact fun i id hi hchanges => hnone ⟨i, (key, id), hi, hbad, hchanges⟩

end Turns

/-! ## The command -/

/-- A read that would change its stream stands before the first stream that is missing, is no
stream or lacks the group. -/
def Consumes (env : Solo) (s : Keyspace) (args : List Bytes) : Prop :=
  ∃ r, parseXreadgroup args = .ok r ∧ ∃ pre bad, StopsAt env s r pre bad ∧
    ∃ i x, pre[i]? = some x ∧ x.1 ≠ bad.1 ∧ Changes env s r i x

theorem run_handleXreadgroup (env : Solo) (s : Keyspace) {args : List Bytes}
    {r : Commands.XReadGroupArgs} (hargs : parseXreadgroup args = .ok r) :
    env.run (handleXreadgroup args) s =
      env.runFrom 1 ((Storage.xreadgroup r.group r.consumer r.count r.noack (env.now 0)
        r.streams).bind fun perStream => .done (.ok (perStreamReply perStream))) s := by
  unfold handleXreadgroup
  rw [hargs]
  rfl

/-- A failing XREADGROUP consumes nothing exactly when no read that would change its stream
stands before the first stream that cannot be read. -/
theorem failed_read_consumes_nothing_iff (env : Solo) (hf : env.Faultless) (args : List Bytes)
    (s : Keyspace) :
    ((∃ e, (env.run (handleXreadgroup args) s).1 = .error e) →
      Unchanged env s (env.run (handleXreadgroup args) s).2.2) ↔ ¬ Consumes env s args := by
  cases hargs : parseXreadgroup args with
  | error e =>
      have hrun : env.run (handleXreadgroup args) s = (.error e, 0, s) := by
        unfold handleXreadgroup
        rw [hargs]
        rfl
      rw [hrun]
      refine iff_of_true (fun _ key => .inl rfl) ?_
      rintro ⟨r, hr, -⟩
      rw [hargs] at hr
      cases hr
  | ok r =>
      have hconsumes : Consumes env s args ↔ ∃ pre bad, StopsAt env s r pre bad ∧
          ∃ i x, pre[i]? = some x ∧ x.1 ≠ bad.1 ∧ Changes env s r i x := by
        unfold Consumes
        rw [hargs]
        constructor
        · rintro ⟨r', heq, h⟩
          cases heq
          exact h
        · exact fun h => ⟨r, rfl, h⟩
      rw [hconsumes, run_handleXreadgroup env s hargs, Solo.runFrom_bind]
      have hnil : AllFound env s r.group [] := fun i x h => by simp at h
      rcases xreadgroup_run hf (List.nil_append r.streams).symm hnil (served_nil r (env.now 0) s) with
        ⟨hall, out, w, hrun⟩ | ⟨pre, bad, e, n, s₁, s₂, hstops, hrun, hserved, hend⟩
      · rw [show turn [].length = 1 from rfl] at hrun
        rw [hrun]
        refine iff_of_true (fun ⟨e, he⟩ => by cases he) ?_
        rintro ⟨pre, bad, hstops, -⟩
        obtain ⟨post, hsplit⟩ := hstops.split
        have hbad : r.streams[pre.length]? = some bad := by
          rw [hsplit, List.getElem?_append_right (le_refl _), Nat.sub_self]
          rfl
        obtain ⟨st, g, hfound⟩ := hall _ _ hbad
        rw [hstops.missing] at hfound
        cases hfound
      · rw [show turn [].length = 1 from rfl] at hrun
        rw [hrun]
        have hiff := unchanged_iff hf hstops hserved hend
        constructor
        · rintro h ⟨pre', bad', hstops', hchanges⟩
          obtain ⟨rfl, rfl⟩ := hstops.unique hstops'
          exact hiff.mp (h ⟨e, rfl⟩) hchanges
        · intro h _
          exact hiff.mpr fun hchanges => h ⟨pre, bad, hstops, hchanges⟩

namespace SecondMissing

def env : Solo where
  fails _ := none
  now _ := 7
  collects _ := true
  token _ := "v2"
  other _ := Solo.nothing

/-- A stream of one entry, which the group has not been handed. -/
def stream : StreamValue :=
  { entries := [⟨⟨1, 0⟩, [("f", [97])]⟩]
    groups := (∅ : BTreeMap String ConsumerGroup).insert "g" {} }

def start : Keyspace := fun key =>
  if key = "a" then some (⟨none, .stream stream⟩, "v1") else none

def args : List Bytes :=
  ["GROUP", "g", "c", "STREAMS", "a", "b", ">", ">"].map Rdb.asBytes

def cursorOf (s : Keyspace) (key : String) : Option StreamId :=
  match s.entryAt key with
  | some ⟨_, .stream st⟩ => st.groups["g"]?.map ConsumerGroup.lastDeliveredId
  | _ => none

theorem never_fails : env.Faultless := ⟨fun _ => rfl, fun _ => rfl⟩

theorem cursorOf_unchanged {s s' : Keyspace} (h : Unchanged env s s') (key : String) :
    cursorOf s' key = cursorOf s key ∨ cursorOf s' key = none := by
  unfold cursorOf
  rcases h key with heq | heq | ⟨hnone, -⟩
  · rw [heq]
    exact .inl rfl
  · unfold Keyspace.entryAt
    rw [heq]
    exact .inl rfl
  · unfold Keyspace.entryAt
    rw [hnone]
    exact .inr rfl

end SecondMissing

open SecondMissing in
/-- The read of the first stream stands, and the reply says that there is no group. -/
theorem failed_read_consumes_first_stream :
    (env.run (handleXreadgroup args) start).1 = .error (noGroupError "g") ∧
      ¬ Unchanged env start (env.run (handleXreadgroup args) start).2.2 := by
  constructor
  · have hreply : (match (env.run (handleXreadgroup args) start).1 with
        | .error e => some e
        | .ok _ => none) = some (noGroupError "g") := by decide +kernel
    cases hrun : (env.run (handleXreadgroup args) start).1 with
    | error e =>
        rw [hrun] at hreply
        exact congrArg Except.error (Option.some.inj hreply)
    | ok reply =>
        rw [hrun] at hreply
        cases hreply
  · intro h
    have hbefore : cursorOf start "a" = some ⟨0, 0⟩ := by decide +kernel
    have hafter : cursorOf (env.run (handleXreadgroup args) start).2.2 "a" = some ⟨1, 0⟩ := by
      decide +kernel
    rcases cursorOf_unchanged h "a" with heq | heq
    · rw [hbefore, hafter] at heq
      exact absurd heq (by decide)
    · rw [hafter] at heq
      cases heq

open SecondMissing in
theorem failed_read_consumes_nothing_iff_on_secondMissing :
    ((∃ e, (env.run (handleXreadgroup args) start).1 = .error e) →
      Unchanged env start (env.run (handleXreadgroup args) start).2.2) ↔
        ¬ Consumes env start args :=
  failed_read_consumes_nothing_iff env never_fails args start

end GroupRead
end RustyAnt
