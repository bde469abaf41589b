import RustyAnt.Commands.Writers
import RustyAnt.Storage.Solo

/-!
# Which stream commands create a stream

A stream command leaves an absent key absent, unless it is an `XADD` without `NOMKSTREAM` or
an `XGROUP CREATE` with `MKSTREAM`.  `XGROUP DESTROY` is the exception: it writes back the
empty stream that stands for the missing one.
-/

namespace RustyAnt

open Lib RustyAnt.Stream

/-- The key is absent and stays so. -/
abbrev absentAt (key : String) : KeyInv := .only key (· = none)

namespace Storage

variable {α R : Type} {key tracked : String}

/-- A closure that writes nothing where there is nothing. -/
theorem absentAt_find (v : View α) {f : Option (α × Option Int) → Result (CasAction R)}
    (hnone : key = tracked → Leaves (· = none) none (f none)) :
    (cas key fun entry => v.find key entry >>= f).Keeps (absentAt tracked) := by
  apply KV.Keeps.cas
  intro entry hentry action haction hkey
  have hgone := hentry hkey
  subst hgone
  exact hnone hkey action haction

theorem xadd_absentAt {spec : AddIdSpec} {fields : List (String × Bytes)} {nomkstream : Bool}
    {trim : Option (TrimBound × Option Nat)} (h : key = tracked → nomkstream = true) :
    (xadd key spec fields nomkstream trim).Keeps (absentAt tracked) := by
  apply KV.Keeps.bind (KV.ReadOnly.nowMs.keeps _)
  intro now
  apply absentAt_find View.stream
  intro hkey
  have hopt := h hkey
  subst hopt
  simp

theorem xdel_absentAt (ids : List StreamId) : (xdel key ids).Keeps (absentAt tracked) :=
  absentAt_find View.stream (by simp)

theorem xtrim_absentAt (bound : TrimBound) (limit : Option Nat) :
    (xtrim key bound limit).Keeps (absentAt tracked) :=
  absentAt_find View.stream (by simp)

theorem xack_absentAt (group : String) (ids : List StreamId) :
    (xack key group ids).Keeps (absentAt tracked) :=
  absentAt_find View.stream (by simp)

theorem xclaim_absentAt (group consumer : String) (minIdleMs : Int) (ids : List StreamId)
    (opts : XClaimOpts) : (xclaim key group consumer minIdleMs ids opts).Keeps (absentAt tracked) :=
  absentAt_find View.stream (by simp)

theorem xautoclaim_absentAt (group consumer : String) (minIdleMs : Int) (start : StreamId)
    (count : Nat) (justId : Bool) (now : Int) :
    (xautoclaim key group consumer minIdleMs start count justId now).Keeps (absentAt tracked) :=
  absentAt_find View.stream (by simp)

theorem xreadgroup_absentAt (group consumer : String) (count : Option Nat) (noack : Bool) (now : Int)
    (streams : List (String × XReadGroupId)) :
    (xreadgroup group consumer count noack now streams).Keeps (absentAt tracked) := by
  induction streams with
  | nil => exact .done _
  | cons p streams ih =>
      apply KV.Keeps.bind
      · apply KV.Keeps.cas
        intro entry hentry action haction hkey
        have hgone := hentry hkey
        subst hgone
        cases haction
      · intro entries
        exact .reply ih

/-- Without a stream only `CREATE` with `MKSTREAM` and `DESTROY` go through. -/
theorem applyXgroupOp_missing {op : XGroupOp} (hcreate : ∀ group start, op ≠ .create group start true)
    (hdestroy : ∀ group, op ≠ .destroy group) : ∃ e, applyXgroupOp {} op false = .error e := by
  have hgroup : ∀ group, getGroup {} group = .error (noGroupError group) := by
    intro group
    unfold getGroup
    rw [show ({} : StreamValue).groups[group]? = none from Std.ExtTreeMap.getElem?_empty]
  cases op with
  | create group start mkstream =>
      cases mkstream with
      | false => exact ⟨_, rfl⟩
      | true => exact absurd rfl (hcreate group start)
  | setId group start => exact ⟨_, by rw [applyXgroupOp, hgroup]; rfl⟩
  | destroy group => exact absurd rfl (hdestroy group)
  | createConsumer group consumer => exact ⟨_, by rw [applyXgroupOp, hgroup]; rfl⟩
  | delConsumer group consumer => exact ⟨_, by rw [applyXgroupOp, hgroup]; rfl⟩

theorem xgroup_absentAt {op : XGroupOp}
    (hcreate : key = tracked → ∀ group start, op ≠ .create group start true)
    (hdestroy : key = tracked → ∀ group, op ≠ .destroy group) :
    (xgroup key op).Keeps (absentAt tracked) := by
  apply absentAt_find View.stream
  intro hkey
  obtain ⟨e, hop⟩ := applyXgroupOp_missing (hcreate hkey) (hdestroy hkey)
  dsimp only
  rw [hop]
  exact leaves_error e

end Storage

namespace Commands

variable {key name : String} {args : List Bytes}

/-- An `XADD` without `NOMKSTREAM` or an `XGROUP CREATE` with `MKSTREAM`, on the key. -/
def Creates (key name : String) (args : List Bytes) : Prop :=
  name = "XADD" ∧ argIs args 0 key ∧ NomkstreamIs args false ∨
    name = "XGROUP" ∧ ∃ group start, XgroupAsks args key (.create group start true)

def Destroys (key name : String) (args : List Bytes) : Prop :=
  name = "XGROUP" ∧ ∃ group, XgroupAsks args key (.destroy group)

theorem streamWriters_absentAt : ∀ c ∈ streamWriters, ∀ args, ¬ Creates key c.1 args →
    ¬ Destroys key c.1 args → (c.2 args).Keeps (absentAt key) := by
  simp only [streamWriters, List.forall_mem_cons]
  refine ⟨?_, ?_, ?_, ?_, ?_, ?_, ?_, ?_, List.forall_mem_nil _⟩
  · intro args hcreate _
    apply handleXadd_keeps
    intro name spec fields nomkstream trim hname hopt
    apply Storage.xadd_absentAt
    rintro rfl
    cases nomkstream with
    | false => exact absurd (.inl ⟨rfl, hname, hopt⟩) hcreate
    | true => rfl
  · exact fun args _ _ => handleXdel_keeps (fun _ => Storage.xdel_absentAt) args
  · exact fun args _ _ => handleXtrim_keeps (fun _ => Storage.xtrim_absentAt) args
  · intro args hcreate hdestroy
    apply handleXgroup_keeps
    intro name op hasks
    apply Storage.xgroup_absentAt
    · rintro rfl group start rfl
      exact hcreate (.inr ⟨rfl, group, start, hasks⟩)
    · rintro rfl group rfl
      exact hdestroy ⟨rfl, group, hasks⟩
  · exact fun args _ _ => handleXreadgroup_keeps Storage.xreadgroup_absentAt args
  · exact fun args _ _ => handleXack_keeps (fun _ => Storage.xack_absentAt) args
  · exact fun args _ _ => handleXclaim_keeps (fun _ => Storage.xclaim_absentAt) args
  · exact fun args _ _ => handleXautoclaim_keeps (fun _ => Storage.xautoclaim_absentAt) args

theorem streamCommands_absentAt {handler : Handler} (hcmd : (name, handler) ∈ streamCommands)
    (hcreate : ¬ Creates key name args) (hdestroy : ¬ Destroys key name args) :
    (handler args).Keeps (absentAt key) := by
  rcases streamCommands_read _ hcmd with hread | hwriter
  · exact (hread args).keeps _
  · exact streamWriters_absentAt _ hwriter args hcreate hdestroy

/-! ## Runs -/

variable {env : Solo} {s : Keyspace}

/-- No load finds the key, at any time. -/
def Absent (env : Solo) (s : Keyspace) (key : String) : Prop := ∀ n, env.seen n s key = none

theorem live_eq_seen (n : Nat) : Solo.live (env.now n) (s key) = (env.seen n s key).map Prod.fst := by
  unfold Solo.live
  cases hkey : s key with
  | none =>
      rw [Solo.seen_of_none hkey]
      rfl
  | some p =>
      rw [Option.bind_some]
      split
      · rename_i hexp
        rw [Solo.seen_of_expired hkey hexp]
        rfl
      · rename_i hlive
        rw [Solo.seen_of_live hkey (Bool.not_eq_true _ |>.mp hlive)]
        rfl

theorem Absent.admits (h : Absent env s key) (bound : Nat) :
    env.Admits (absentAt key) bound s where
  start := by
    rintro key' m _ rfl
    rw [live_eq_seen, h m]
    rfl
  expired := fun _ _ _ _ _ _ _ => rfl

theorem Absent.of_kept {s' : Keyspace} (h : Absent env s key)
    (hkept : Solo.Kept (absentAt key) s s') : Absent env s' key := by
  intro n
  rcases hkept key with hsame | hgone
  · have hseen := h n
    unfold Solo.seen at hseen ⊢
    rwa [hsame]
  · exact Solo.seen_of_none (Option.map_eq_none_iff.mp (hgone rfl))

theorem xgroupModify_destroy (group : String) :
    Storage.xgroupModify key (.destroy group) none = .ok (.write ⟨none, .stream {}⟩ 0) := by
  have herase : (∅ : BTreeMap String ConsumerGroup).erase group = ∅ :=
    Std.ExtTreeMap.erase_empty
  show Except.ok (CasAction.write ⟨none, .stream { groups := (∅ : BTreeMap _ _).erase group }⟩ _) = _
  rw [herase]
  rfl

/-- `DESTROY` writes an empty stream where there is none. -/
theorem xgroup_destroy_runs (henv : env.Faultless) {sub keyArg : Bytes} {rest : List Bytes}
    {word group : String} {isOk : Bool} (hsub : optionWord sub = .ok word)
    (hkey : argAsStr keyArg = .ok key)
    (hparsed : parseXgroup word rest = .ok (some (.destroy group, isOk)))
    (habsent : env.seen 0 s key = none) :
    env.run (handleXgroup (sub :: keyArg :: rest)) s =
      (.ok (if isOk then .ok else .integer 0), 2,
        Function.update s key (some (⟨none, .stream {}⟩, env.token 1))) := by
  have hcas : env.runFrom 0 (Storage.xgroup key (.destroy group)) s = _ :=
    Solo.cas_runs henv 0 key (Storage.xgroupModify key (.destroy group)) s
  rw [habsent, Option.map_none, xgroupModify_destroy] at hcas
  refine (Solo.runFrom_parse hsub).trans ?_
  refine (Solo.runFrom_parse hkey).trans ?_
  refine (Solo.runFrom_parse hparsed).trans ?_
  exact Solo.runFrom_step hcas

/-- A stream command that is not to create a stream, run alone, leaves an absent key absent if
and only if it is not an `XGROUP DESTROY` on that key.  Where requests fail, the key is left
absent all the more. -/
theorem stays_absent_iff {handler : Handler} (hcmd : (name, handler) ∈ streamCommands)
    (hcreate : ¬ Creates key name args) (habsent : Absent env s key) :
    (¬ Destroys key name args → Absent env (env.run (handler args) s).2.2 key) ∧
    (env.Faultless →
      (Absent env (env.run (handler args) s).2.2 key ↔ ¬ Destroys key name args)) := by
  have hstays : ¬ Destroys key name args → Absent env (env.run (handler args) s).2.2 key := by
    intro hdestroy
    have hkeeps := streamCommands_absentAt hcmd hcreate hdestroy
    exact habsent.of_kept (Solo.kept_run hkeeps (habsent.admits _))
  refine ⟨hstays, fun henv => ⟨?_, hstays⟩⟩
  rintro hgone ⟨rfl, group, hasks⟩
  have hhandler : handler = handleXgroup := by
    simpa [streamCommands] using hcmd
  subst hhandler
  obtain ⟨sub, keyArg, rest, word, isOk, rfl, hsub, hkey, hparsed⟩ := hasks
  rw [xgroup_destroy_runs henv hsub hkey hparsed (habsent 0)] at hgone
  have hseen := hgone 0
  rw [Solo.seen_of_live (Function.update_self _ _ _) rfl] at hseen
  cases hseen

/-! ## An empty keyspace -/

/-- `DESTROY k g` -/
def destroyGroup : List Bytes := [Rdb.asBytes "DESTROY", Rdb.asBytes "k", Rdb.asBytes "g"]

/-- `DELCONSUMER k g c` -/
def delConsumer : List Bytes :=
  [Rdb.asBytes "DELCONSUMER", Rdb.asBytes "k", Rdb.asBytes "g", Rdb.asBytes "c"]

theorem XgroupAsks.eq {sub keyArg : Bytes} {rest : List Bytes} {word : String} {op op' : XGroupOp}
    {isOk : Bool} (hsub : optionWord sub = .ok word)
    (hparsed : parseXgroup word rest = .ok (some (op, isOk)))
    (h : XgroupAsks (sub :: keyArg :: rest) key op') : op' = op := by
  obtain ⟨sub', keyArg', rest', word', isOk', hargs, hsub', -, hparsed'⟩ := h
  cases hargs
  cases hsub.symm.trans hsub'
  cases hparsed.symm.trans hparsed'
  rfl

theorem not_creates_xgroup {sub keyArg : Bytes} {rest : List Bytes} {word : String}
    {op : XGroupOp} {isOk : Bool} (hsub : optionWord sub = .ok word)
    (hparsed : parseXgroup word rest = .ok (some (op, isOk)))
    (hop : ∀ group start, op ≠ .create group start true) :
    ¬ Creates key "XGROUP" (sub :: keyArg :: rest) := by
  rintro (⟨hname, -⟩ | ⟨-, group, start, hasks⟩)
  · exact absurd hname (by decide)
  · exact hop group start (hasks.eq hsub hparsed).symm

theorem delConsumer_parsed : parseXgroup "DELCONSUMER" [Rdb.asBytes "g", Rdb.asBytes "c"] =
    .ok (some (.delConsumer "g" "c", false)) := rfl

theorem destroyGroup_parsed : parseXgroup "DESTROY" [Rdb.asBytes "g"] =
    .ok (some (.destroy "g", false)) := rfl

theorem stays_absent_iff_on_delConsumer :
    (¬ Destroys "k" "XGROUP" delConsumer →
      Absent (.still 10) ((Solo.still 10).run (handleXgroup delConsumer) fun _ => none).2.2 "k") ∧
    ((Solo.still 10).Faultless →
      (Absent (.still 10) ((Solo.still 10).run (handleXgroup delConsumer) fun _ => none).2.2 "k" ↔
        ¬ Destroys "k" "XGROUP" delConsumer)) := by
  have hcmd : ("XGROUP", handleXgroup) ∈ streamCommands := by simp [streamCommands]
  have hcreate : ¬ Creates "k" "XGROUP" delConsumer :=
    not_creates_xgroup rfl delConsumer_parsed fun _ _ h => XGroupOp.noConfusion h
  exact stays_absent_iff hcmd hcreate fun _ => rfl

/-- `XGROUP DESTROY` on an absent key stores an empty stream. -/
theorem destroy_creates :
    (("XGROUP", handleXgroup) : String × Handler) ∈ streamCommands ∧
    ¬ Creates "k" "XGROUP" destroyGroup ∧ Absent (.still 10) (fun _ => none) "k" ∧
    (Solo.still 10).run (handleXgroup destroyGroup) (fun _ => none) =
      (.ok (.integer 0), 2,
        Function.update (fun _ => none) "k" (some (⟨none, .stream {}⟩, toString 1))) ∧
    ¬ Absent (.still 10)
      ((Solo.still 10).run (handleXgroup destroyGroup) fun _ => none).2.2 "k" := by
  have hrun : (Solo.still 10).run (handleXgroup destroyGroup) (fun _ => none) = _ :=
    xgroup_destroy_runs (Solo.still_faultless 10) rfl (argAsStr_asBytes "k") destroyGroup_parsed rfl
  have hcreate : ¬ Creates "k" "XGROUP" destroyGroup :=
    not_creates_xgroup rfl destroyGroup_parsed nofun
  refine ⟨by simp [streamCommands], hcreate, fun _ => rfl, hrun, ?_⟩
  intro hgone
  have hseen := hgone 0
  rw [hrun, Solo.seen_of_live (Function.update_self _ _ _) rfl] at hseen
  cases hseen

end Commands
end RustyAnt
