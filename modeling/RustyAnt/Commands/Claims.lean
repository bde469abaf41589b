import RustyAnt.Commands.Between
import RustyAnt.Commands.ByIndex
import RustyAnt.Storage.Solo
import RustyAnt.Stream.Idle
import RustyAnt.Stream.Replay

/-!
# What `XCLAIM` hands over

`XCLAIM` takes the ids it is given one by one: a pending id that has been idle for long
enough, or with `FORCE` one that is not pending.  It does not ask whether the stream still
has an entry with that id.
-/

namespace RustyAnt

open Lib RustyAnt.Stream

namespace Stream

variable {s : StreamValue} {g : ConsumerGroup} {consumer : String} {minIdleMs : Int}
  {opts : XClaimOpts}

/-- Pending and idle for long enough, or forced. -/
def Entitled (g : ConsumerGroup) (minIdleMs : Int) (opts : XClaimOpts) (id : StreamId) : Prop :=
  (∃ p, g.pel[id]? = some p ∧ minIdleMs ≤ max 0 (opts.nowMs - p.deliveryTimeMs)) ∨
    g.pel[id]? = none ∧ opts.force = true

/-- A difference that wraps around counts as not idle at all. -/
theorem idleSince_le {now t : Int} (hnow : 0 ≤ now) (hmax : now ≤ i64Max) (ht : InI64 t) :
    idleSince now t ≤ max 0 (now - t) := by
  unfold InI64 at ht
  unfold idleSince wrapI64
  unfold i64Min i64Max at *
  omega

theorem claimable_entitled (hnow : 0 ≤ opts.nowMs) (hmax : opts.nowMs ≤ i64Max)
    (hrows : ∀ (id : StreamId) (p : PendingEntry), g.pel[id]? = some p → InI64 p.deliveryTimeMs)
    {id : StreamId} (h : claimable g minIdleMs opts id = true) : Entitled g minIdleMs opts id := by
  unfold claimable at h
  cases hp : g.pel[id]? with
  | none =>
      rw [hp] at h
      exact .inr ⟨hp, h⟩
  | some p =>
      rw [hp] at h
      have hidle := of_decide_eq_true h
      have hle := idleSince_le hnow hmax (hrows id p hp)
      exact .inl ⟨p, hp, hidle.trans hle⟩

/-- What the loop over the ids has done so far. -/
structure Claimed (s : StreamValue) (g : ConsumerGroup) (consumer : String) (minIdleMs : Int)
    (opts : XClaimOpts) (ids : List StreamId) (acc : ConsumerGroup × List XClaimResult) : Prop where
  result : ∀ r ∈ acc.2, r.id ∈ ids ∧ claimable g minIdleMs opts r.id = true ∧
    r.fields = claimBody s opts.justId r.id
  owned : ∀ r ∈ acc.2, (acc.1.pel[r.id]?).map PendingEntry.consumer = some consumer
  claimed : ∀ id ∈ ids, claimable g minIdleMs opts id = true → ∃ r ∈ acc.2, r.id = id
  kept : ∀ id, (∀ r ∈ acc.2, r.id ≠ id) → acc.1.pel[id]? = g.pel[id]?

theorem claimable_congr {g' : ConsumerGroup} {id : StreamId} (h : g'.pel[id]? = g.pel[id]?) :
    claimable g' minIdleMs opts id = claimable g minIdleMs opts id := by
  unfold claimable
  rw [h]

theorem claimed_nil : Claimed s g consumer minIdleMs opts [] (g, []) where
  result := by rintro r ⟨⟩
  owned := by rintro r ⟨⟩
  claimed := by rintro id ⟨⟩
  kept := fun _ _ => rfl

/-- An id is judged as it stood before the call: only its own claim changes its row. -/
theorem Claimed.claimable_iff {ids : List StreamId} {acc : ConsumerGroup × List XClaimResult}
    (h : Claimed s g consumer minIdleMs opts ids acc) {id : StreamId}
    (hfresh : ∀ r ∈ acc.2, r.id ≠ id) :
    claimable acc.1 minIdleMs opts id = claimable g minIdleMs opts id :=
  claimable_congr (h.kept id hfresh)

theorem Claimed.step {ids : List StreamId} {acc : ConsumerGroup × List XClaimResult}
    (h : Claimed s g consumer minIdleMs opts ids acc) (id : StreamId) :
    Claimed s g consumer minIdleMs opts (ids ++ [id])
      (claimOne s consumer minIdleMs opts acc id) := by
  have hbefore : (∃ r ∈ acc.2, r.id = id) ∨ ∀ r ∈ acc.2, r.id ≠ id := by
    by_cases hsome : ∃ r ∈ acc.2, r.id = id
    · exact .inl hsome
    · exact .inr fun r hr heq => hsome ⟨r, hr, heq⟩
  cases hclaim : claimable acc.1 minIdleMs opts id with
  | false =>
      rw [claimOne_skipped hclaim]
      refine ⟨?_, h.owned, ?_, h.kept⟩
      · intro r hr
        obtain ⟨hid, hrest⟩ := h.result r hr
        exact ⟨List.mem_append_left _ hid, hrest⟩
      · intro id' hid' hable
        rcases List.mem_append.mp hid' with hold | hnew
        · exact h.claimed id' hold hable
        · rw [List.mem_singleton.mp hnew] at hable ⊢
          rcases hbefore with hdone | hfresh
          · exact hdone
          · rw [h.claimable_iff hfresh, hable] at hclaim
            cases hclaim
  | true =>
      have hable : claimable g minIdleMs opts id = true := by
        rcases hbefore with ⟨r, hr, hrid⟩ | hfresh
        · rw [← hrid]
          exact (h.result r hr).2.1
        · rw [← h.claimable_iff hfresh, hclaim]
      have hout : (claimOne s consumer minIdleMs opts acc id).2 =
          acc.2 ++ [⟨id, claimBody s opts.justId id⟩] := by
        unfold claimOne
        dsimp only
        rw [if_pos hclaim]
      obtain ⟨count, hpel⟩ := claimOne_pel s consumer hclaim
      have hrow : ∀ id' : StreamId, (claimOne s consumer minIdleMs opts acc id).1.pel[id']? =
          if id = id' then some ⟨consumer, claimStamp opts, count⟩ else acc.1.pel[id']? := by
        intro id'
        rw [hpel, Std.ExtTreeMap.getElem?_insert]
        simp only [compare_eq_iff_eq]
      constructor
      · intro r hr
        rw [hout] at hr
        rcases List.mem_append.mp hr with hold | hnew
        · obtain ⟨hid, hrest⟩ := h.result r hold
          exact ⟨List.mem_append_left _ hid, hrest⟩
        · rw [List.mem_singleton.mp hnew]
          exact ⟨List.mem_append_right _ List.mem_cons_self, hable, rfl⟩
      · intro r hr
        rw [hout] at hr
        rw [hrow]
        split
        · rfl
        · rename_i hne
          rcases List.mem_append.mp hr with hold | hnew
          · exact h.owned r hold
          · rw [List.mem_singleton.mp hnew] at hne
            exact absurd rfl hne
      · intro id' hid' hable'
        rw [hout]
        rcases List.mem_append.mp hid' with hold | hnew
        · obtain ⟨r, hr, hrid⟩ := h.claimed id' hold hable'
          exact ⟨r, List.mem_append_left _ hr, hrid⟩
        · rw [List.mem_singleton.mp hnew]
          exact ⟨_, List.mem_append_right _ List.mem_cons_self, rfl⟩
      · intro id' hfresh
        rw [hout] at hfresh
        have hne : id ≠ id' := hfresh _ (List.mem_append_right _ List.mem_cons_self)
        rw [hrow, if_neg hne]
        exact h.kept id' fun r hr => hfresh r (List.mem_append_left _ hr)

theorem Claimed.foldl {ids : List StreamId} {acc : ConsumerGroup × List XClaimResult}
    (h : Claimed s g consumer minIdleMs opts ids acc) (more : List StreamId) :
    Claimed s g consumer minIdleMs opts (ids ++ more)
      (more.foldl (claimOne s consumer minIdleMs opts) acc) := by
  induction more generalizing ids acc with
  | nil => rwa [List.append_nil]
  | cons id more ih =>
      have hstep := ih (h.step id)
      rwa [List.append_assoc, List.singleton_append] at hstep

variable (s g consumer minIdleMs opts) in
/-- The group and the results after a call. -/
def claimAll (ids : List StreamId) : ConsumerGroup × List XClaimResult :=
  ids.foldl (claimOne s consumer minIdleMs opts) (g, [])

theorem claimAll_spec (ids : List StreamId) :
    Claimed s g consumer minIdleMs opts ids (claimAll s g consumer minIdleMs opts ids) := by
  have hnil : Claimed s g consumer minIdleMs opts [] (g, []) := claimed_nil
  have hall := hnil.foldl ids
  rwa [List.nil_append] at hall

theorem claim_eq {group : String} (hg : s.groups[group]? = some g) (ids : List StreamId) :
    claim s group consumer minIdleMs ids opts =
      .ok (setGroup s group (claimAll s g consumer minIdleMs opts ids).1,
        (claimAll s g consumer minIdleMs opts ids).2) := by
  unfold claim
  rw [getGroup_ok.mpr hg]
  rfl

end Stream

namespace Commands

/-- The reply hands over real entries only. -/
structure HandsOver (s : StreamValue) (g g' : ConsumerGroup) (consumer : String) (minIdleMs : Int)
    (opts : XClaimOpts) (items : List RespReply) : Prop where
  item : ∀ item ∈ items, ∃ e ∈ s.entries,
    item = (if opts.justId then streamIdBulk e.id else entryToReply e) ∧
    Entitled g minIdleMs opts e.id ∧
    (g'.pel[e.id]?).map PendingEntry.consumer = some consumer
  /-- Without its entry an id is not claimed. -/
  gone : ∀ id, present s id = false → g'.pel[id]? = g.pel[id]?
  forced : ∀ id ∈ g'.pel, id ∉ g.pel → present s id = true

section HandsOver

variable {s : StreamValue} {g : ConsumerGroup} {consumer : String} {minIdleMs : Int}
  {opts : XClaimOpts} {ids : List StreamId}

theorem display_injective : Function.Injective StreamId.display := by
  intro a b hab
  have hparse := StreamId.parse_display a
  rw [hab, StreamId.parse_display b] at hparse
  exact (Except.ok.inj hparse).symm

theorem claimResultToReply_gone {id : StreamId} (h : present s id = false) :
    claimResultToReply ⟨id, claimBody s opts.justId id⟩ = streamIdBulk id := by
  have hnone : findEntry s id = none := by
    rw [← findEntry_isSome] at h
    exact Option.not_isSome_iff_eq_none.mp (by rw [h]; decide)
  unfold claimBody
  rw [hnone]
  cases opts.justId <;> rfl

theorem claimResultToReply_found {id : StreamId} (h : present s id = true) :
    ∃ e ∈ s.entries, e.id = id ∧ claimResultToReply ⟨id, claimBody s opts.justId id⟩ =
      if opts.justId then streamIdBulk e.id else entryToReply e := by
  rw [← findEntry_isSome] at h
  obtain ⟨e, he⟩ := Option.isSome_iff_exists.mp h
  obtain ⟨hmem, hid⟩ := findEntry_id he
  refine ⟨e, hmem, hid, ?_⟩
  unfold claimBody
  rw [he, ← hid]
  cases opts.justId <;> rfl

/-- The call hands over real entries only exactly when no id that it may take is gone. -/
theorem handsOver_iff (hnow : 0 ≤ opts.nowMs) (hmax : opts.nowMs ≤ i64Max)
    (hrows : ∀ (id : StreamId) (p : PendingEntry), g.pel[id]? = some p → InI64 p.deliveryTimeMs) :
    HandsOver s g (claimAll s g consumer minIdleMs opts ids).1 consumer minIdleMs opts
        ((claimAll s g consumer minIdleMs opts ids).2.map claimResultToReply) ↔
      ∀ id ∈ ids, claimable g minIdleMs opts id = true → present s id = true := by
  have hspec : Claimed s g consumer minIdleMs opts ids (claimAll s g consumer minIdleMs opts ids) :=
    claimAll_spec ids
  generalize claimAll s g consumer minIdleMs opts ids = acc at hspec ⊢
  constructor
  · intro h id hid hable
    by_contra habsent
    rw [Bool.not_eq_true] at habsent
    obtain ⟨r, hr, hrid⟩ := hspec.claimed id hid hable
    have hreply : claimResultToReply r = streamIdBulk id := by
      have hfields := (hspec.result r hr).2.2
      have hr' : r = ⟨id, claimBody s opts.justId id⟩ := by
        rw [← hrid, ← hfields]
      rw [hr', claimResultToReply_gone habsent]
    obtain ⟨e, he, hitem, -, -⟩ := h.item _ (List.mem_map_of_mem hr)
    rw [hreply] at hitem
    split at hitem
    · have hsame : id = e.id := display_injective (Option.some.inj (RespReply.bulkString.inj hitem))
      have hpresent : present s id = true := List.any_eq_true.mpr ⟨e, he, by simp [hsame]⟩
      rw [habsent] at hpresent
      cases hpresent
    · cases hitem
  · intro hall
    have hreal : ∀ r ∈ acc.2, present s r.id = true := by
      intro r hr
      obtain ⟨hid, hable, -⟩ := hspec.result r hr
      exact hall r.id hid hable
    have hgone : ∀ id, present s id = false → acc.1.pel[id]? = g.pel[id]? := by
      intro id habsent
      apply hspec.kept
      rintro r hr rfl
      rw [hreal r hr] at habsent
      cases habsent
    constructor
    · intro item hitem
      obtain ⟨r, hr, rfl⟩ := List.mem_map.mp hitem
      obtain ⟨hid, hable, hfields⟩ := hspec.result r hr
      obtain ⟨e, he, heid, hreply⟩ := @claimResultToReply_found _ opts _ (hreal r hr)
      refine ⟨e, he, ?_, ?_, ?_⟩
      · rw [← hreply, ← hfields]
      · rw [heid]
        exact claimable_entitled hnow hmax hrows hable
      · rw [heid]
        exact hspec.owned r hr
    · exact hgone
    · intro id hmem hnot
      by_contra habsent
      have hsame := hgone id (Bool.not_eq_true _ |>.mp habsent)
      rw [Std.ExtTreeMap.mem_iff_isSome_getElem?] at hmem hnot
      rw [hsame] at hmem
      exact hnot hmem

end HandsOver

/-! ## Run alone -/

theorem parseClaimOpts_nowMs {args : List Bytes} {opts opts' : XClaimOpts}
    (h : parseClaimOpts args opts = .ok opts') : opts'.nowMs = opts.nowMs := by
  induction hlen : args.length using Nat.strong_induction_on generalizing args opts with
  | _ n ih =>
      cases args with
      | nil =>
          cases h
          rfl
      | cons tok rest =>
          rw [parseClaimOpts_cons] at h
          obtain ⟨word, -, h⟩ := Result.bind_eq_ok.mp h
          have hnext : ∀ {rest' : List Bytes} {opts₁ : XClaimOpts}, rest'.length < n →
              parseClaimOpts rest' opts₁ = .ok opts' → opts₁.nowMs = opts.nowMs →
              opts'.nowMs = opts.nowMs := by
            intro rest' opts₁ hlt hparse hnow
            rw [← hnow]
            exact ih _ hlt hparse rfl
          rw [List.length_cons] at hlen
          have hflag : ∀ {opts₁ : XClaimOpts}, parseClaimOpts rest opts₁ = .ok opts' →
              opts₁.nowMs = opts.nowMs → opts'.nowMs = opts.nowMs := hnext (by omega)
          have hvalue : ∀ {α : Type} {read : Result α} (set : α → XClaimOpts)
              {value : Bytes} {rest' : List Bytes}, rest = value :: rest' →
              (∀ v, (set v).nowMs = opts.nowMs) →
              (read >>= fun v => parseClaimOpts rest' (set v)) = .ok opts' →
              opts'.nowMs = opts.nowMs := by
            rintro α read set value rest' rfl hset hparse
            obtain ⟨v, -, hparse⟩ := Result.bind_eq_ok.mp hparse
            rw [List.length_cons] at hlen
            exact hnext (by omega) hparse (hset v)
          split at h
          · cases rest with
            | nil => cases h
            | cons =>
                dsimp only at h
                exact hvalue (fun v => { opts with idleMs := some v }) rfl (fun _ => rfl) h
          split at h
          · cases rest with
            | nil => cases h
            | cons =>
                dsimp only at h
                exact hvalue (fun v => { opts with timeMs := some v }) rfl (fun _ => rfl) h
          split at h
          · cases rest with
            | nil => cases h
            | cons =>
                dsimp only at h
                exact hvalue (fun v => { opts with retryCount := some v }) rfl (fun _ => rfl) h
          split at h
          · exact hflag h rfl
          split at h
          · exact hflag h rfl
          · cases h

/-- The arguments of an `XCLAIM`, read at a clock value. -/
structure ClaimArgs (args : List Bytes) (now : Int) (key group consumer : String) (minIdleMs : Int)
    (ids : List StreamId) (opts : XClaimOpts) : Prop where
  read : ∃ keyArg groupArg consumerArg idleArg idArg rest left,
    args = keyArg :: groupArg :: consumerArg :: idleArg :: idArg :: rest ∧
    argAsStr keyArg = .ok key ∧ argAsStr groupArg = .ok group ∧
    argAsStr consumerArg = .ok consumer ∧ parseI64 idleArg "min-idle-time" = .ok minIdleMs ∧
    parseClaimIds (idArg :: rest) = .ok (ids, left) ∧
    parseClaimOpts left { nowMs := now } = .ok opts

section Run

variable {env : Solo} {k : Keyspace} {args : List Bytes} {key group consumer : String}
  {minIdleMs : Int} {ids : List StreamId} {opts : XClaimOpts} {exp : Option Int} {s : StreamValue}
  {g : ConsumerGroup} {token : String}

theorem handleXclaim_runs (h : env.Faultless)
    (hargs : ClaimArgs args (env.now 0) key group consumer minIdleMs ids opts)
    (hseen : env.seen 1 k key = some (⟨exp, .stream s⟩, token)) (hg : s.groups[group]? = some g) :
    env.run (handleXclaim args) k =
      (.ok (.array ((claimAll s g consumer minIdleMs opts ids).2.map claimResultToReply)), 3,
        Function.update k key (some (⟨exp, .stream (setGroup s group
          (claimAll s g consumer minIdleMs opts ids).1)⟩, env.token 2))) := by
  obtain ⟨keyArg, groupArg, consumerArg, idleArg, idArg, rest, left, rfl, hkey, hgroup, hconsumer,
    hidle, hids, hopts⟩ := hargs.read
  have hmodify : Storage.xclaimModify key group consumer minIdleMs ids opts
      (some ⟨exp, .stream s⟩) =
      .ok (.write ⟨exp, .stream (setGroup s group (claimAll s g consumer minIdleMs opts ids).1)⟩
        (claimAll s g consumer minIdleMs opts ids).2) := by
    show (claim s group consumer minIdleMs ids opts >>= fun p =>
      Except.ok (View.stream.write exp p.1 p.2)) = _
    rw [claim_eq hg]
    rfl
  have hcas : env.runFrom 1 (Storage.xclaim key group consumer minIdleMs ids opts) k = _ :=
    Solo.cas_runs h 1 key _ k
  rw [hseen, Option.map_some, hmodify] at hcas
  unfold Solo.run
  refine (Solo.runFrom_parse hkey).trans ?_
  refine (Solo.runFrom_parse hgroup).trans ?_
  refine (Solo.runFrom_parse hconsumer).trans ?_
  refine (Solo.runFrom_parse hidle).trans ?_
  refine (Solo.runFrom_parse hids).trans ?_
  refine (Solo.runFrom_step (Solo.nowMs_runs env 0 k)).trans ?_
  refine (Solo.runFrom_parse hopts).trans ?_
  exact Solo.runFrom_step hcas

/-- `XCLAIM` hands over real entries only exactly when no id that it may take has lost its
entry. -/
theorem xclaim_real_iff (h : env.Faultless)
    (hargs : ClaimArgs args (env.now 0) key group consumer minIdleMs ids opts)
    (hseen : env.seen 1 k key = some (⟨exp, .stream s⟩, token)) (hg : s.groups[group]? = some g)
    (hnow : 0 ≤ env.now 0) (hmax : env.now 0 ≤ i64Max)
    (hrows : ∀ (id : StreamId) (p : PendingEntry), g.pel[id]? = some p → InI64 p.deliveryTimeMs) :
    ∃ items g' token', env.run (handleXclaim args) k =
        (.ok (.array items), 3,
          Function.update k key (some (⟨exp, .stream (setGroup s group g')⟩, token'))) ∧
      (HandsOver s g g' consumer minIdleMs opts items ↔
        ∀ id ∈ ids, claimable g minIdleMs opts id = true → present s id = true) := by
  have hclock : opts.nowMs = env.now 0 := by
    obtain ⟨_, _, _, _, _, _, left, -, -, -, -, -, -, hopts⟩ := hargs.read
    exact parseClaimOpts_nowMs hopts
  refine ⟨_, _, _, handleXclaim_runs h hargs hseen hg, ?_⟩
  exact handsOver_iff (by omega) (by omega) hrows

end Run

/-! ## One pending row -/

/-- `XCLAIM k g bob 0 1-0` -/
def claimFirst : List Bytes :=
  [Rdb.asBytes "k", Rdb.asBytes "g", Rdb.asBytes "bob", [48], Rdb.asBytes "1-0"]

theorem claimFirst_args : ClaimArgs claimFirst 10 "k" "g" "bob" 0 [⟨1, 0⟩] { nowMs := 10 } where
  read := ⟨_, _, _, _, _, _, [], rfl, argAsStr_asBytes "k", argAsStr_asBytes "g",
    argAsStr_asBytes "bob", rfl, rfl, rfl⟩

/-- The stream of the group, with its entry or without it. -/
def claimStream (entries : List StreamEntry) : Keyspace := fun key =>
  if key = "k" then some (⟨none, .stream { oneRowStream with entries := entries }⟩, "t") else none

theorem oneRow_times (id : StreamId) (p : PendingEntry) (hp : oneRow.pel[id]? = some p) :
    InI64 p.deliveryTimeMs := by
  rw [oneRow, Std.ExtTreeMap.getElem?_insert] at hp
  split at hp
  · cases hp
    exact ⟨by decide, by decide⟩
  · cases hp

theorem xclaim_real_iff_on_oneRow :
    ∃ items g' token', (Solo.still 10).run (handleXclaim claimFirst)
        (claimStream oneRowStream.entries) =
        (.ok (.array items), 3, Function.update (claimStream oneRowStream.entries) "k"
          (some (⟨none, .stream (setGroup oneRowStream "g" g')⟩, token'))) ∧
      (HandsOver oneRowStream oneRow g' "bob" 0 { nowMs := 10 } items ↔
        ∀ id ∈ [(⟨1, 0⟩ : StreamId)], claimable oneRow 0 { nowMs := 10 } id = true →
          present oneRowStream id = true) :=
  xclaim_real_iff (Solo.still_faultless 10) claimFirst_args (Solo.seen_of_live rfl rfl)
    oneRowStream_group (by decide) (by decide) oneRow_times

/-- After the entry is deleted, its id is claimed all the same and replied bare. -/
theorem xclaim_gone :
    ∃ g' token', (Solo.still 10).run (handleXclaim claimFirst) (claimStream []) =
        (.ok (.array [streamIdBulk ⟨1, 0⟩]), 3, Function.update (claimStream []) "k"
          (some (⟨none, .stream (setGroup { oneRowStream with entries := [] } "g" g')⟩, token'))) ∧
      (g'.pel[(⟨1, 0⟩ : StreamId)]?).map PendingEntry.consumer = some "bob" ∧
      ¬ HandsOver { oneRowStream with entries := [] } oneRow g' "bob" 0 { nowMs := 10 }
        [streamIdBulk ⟨1, 0⟩] := by
  have hseen : (Solo.still 10).seen 1 (claimStream []) "k" =
      some (⟨none, .stream { oneRowStream with entries := [] }⟩, "t") := Solo.seen_of_live rfl rfl
  have hrun := handleXclaim_runs (Solo.still_faultless 10) claimFirst_args hseen oneRowStream_group
  refine ⟨_, _, hrun, by decide +kernel, ?_⟩
  intro hreal
  obtain ⟨e, he, -⟩ := hreal.item _ List.mem_cons_self
  cases he

end Commands
end RustyAnt
