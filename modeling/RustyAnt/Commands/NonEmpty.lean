import RustyAnt.Commands.Writers
import RustyAnt.Storage.NonEmpty

/-!
# No empty collections

No command stores an empty collection, but for `RESTORE`, which stores whatever its payload
decodes to.
-/

namespace RustyAnt

open Lib

namespace Commands

/-- A `RESTORE` that is well formed and whose payload decodes to an empty collection. -/
def PayloadEmpty (fo : FloatOps) (args : List Bytes) : Prop :=
  ∃ key ttl payload opts value, args = key :: ttl :: payload :: opts ∧
    (∃ name, argAsStr key = .ok name) ∧ (∃ n, parseRestoreTtl ttl = .ok n) ∧
    (∃ flags, parseRestoreOpts opts (false, false) = .ok flags) ∧
    Rdb.restoreValue fo payload = .ok value ∧ value.isEmptyCollection = true

/-- The command is a `RESTORE` of an empty collection. -/
def RestoresEmpty (fo : FloatOps) : List Bytes → Prop
  | [] => False
  | cmdBytes :: args => commandName cmdBytes = .ok "RESTORE" ∧ PayloadEmpty fo args

/-- The command stores no empty collection, unless it restores one. -/
def NeverEmpty (p : Process) (c : String × Handler) : Prop :=
  ∀ args, (c.1 = "RESTORE" → ¬ PayloadEmpty p.externs.fo args) → (c.2 args).Keeps noEmpty

/-! ## The table -/

section Table

variable (p : Process)

theorem geoWriters_noEmpty : ∀ c ∈ geoWriters p, NeverEmpty p c := by
  simp only [geoWriters, List.forall_mem_cons]
  refine ⟨?_, ?_, List.forall_mem_nil _⟩
  · exact fun args _ => handleGeoadd_keeps _ _ (fun _ _ _ _ => Storage.zaddExt_noEmpty _ _) args
  · exact fun _ _ => handleGeosearchstore_keeps _ _ fun _ _ =>
      ⟨Storage.delete_noEmpty, fun _ hne => Storage.zadd_noEmpty hne⟩

theorem keyWriters_noEmpty : ∀ c ∈ keyWriters p, NeverEmpty p c := by
  simp only [keyWriters, List.forall_mem_cons]
  refine ⟨?_, ?_, ?_, ?_, ?_, ?_, ?_, ?_, ?_, ?_, ?_, ?_, ?_, List.forall_mem_nil _⟩
  · exact fun args _ => handleFlushall_keeps Storage.flushall_noEmpty args
  · exact fun args _ => handleFlushall_keeps Storage.flushall_noEmpty args
  · exact fun args _ => handleDel_keeps (fun _ => Storage.delete_noEmpty) args
  · exact fun args _ => handleDel_keeps (fun _ => Storage.delete_noEmpty) args
  · exact fun _ _ => handleCopy_keeps fun _ _ _ _ => Storage.copy_noEmpty _ _ _
  · exact fun _ hspared => handleRestore_keeps _
      fun _ _ payload _ _ _ _ _ hargs hkey httl hopts => Storage.restore_noEmpty _ _ _ _ _
        fun value hvalue => Bool.eq_false_iff.mpr fun hempty => hspared rfl
          ⟨_, _, payload, _, value, hargs, ⟨_, hkey⟩, ⟨_, httl⟩, ⟨_, hopts⟩, hvalue, hempty⟩
  · exact fun args _ => handleExpiry_keeps (fun _ => .reply .nowMs)
      (fun _ _ => Storage.expireAt_noEmpty _) args
  · exact fun args _ => handleExpiry_keeps (fun _ => .done _)
      (fun _ _ => Storage.expireAt_noEmpty _) args
  · exact fun args _ => handleExpiry_keeps (fun _ => .reply .nowMs)
      (fun _ _ => Storage.expireAt_noEmpty _) args
  · exact fun args _ => handleExpiry_keeps (fun _ => .done _)
      (fun _ _ => Storage.expireAt_noEmpty _) args
  · exact fun args _ => handlePersist_keeps (fun _ => Storage.persist_noEmpty) args
  · exact fun _ _ => handleRename_keeps fun _ _ _ => Storage.rename_noEmpty _ _
  · exact fun _ _ => handleRenamenx_keeps fun _ _ _ => Storage.renamenx_noEmpty _ _

theorem stringWriters_noEmpty : ∀ c ∈ stringWriters p, NeverEmpty p c := by
  simp only [stringWriters, List.forall_mem_cons]
  refine ⟨?_, ?_, ?_, ?_, ?_, ?_, ?_, ?_, ?_, ?_, ?_, ?_, ?_, ?_, ?_, ?_, ?_, ?_, ?_,
    List.forall_mem_nil _⟩
  · exact fun args _ => handleSetbit_keeps (fun _ _ _ => Storage.setbit_noEmpty _ _) args
  · exact fun _ _ => handleBitop_keeps fun _ _ =>
      ⟨Storage.delete_noEmpty, fun _ => Storage.setString_noEmpty _ _⟩
  · exact fun args _ => handlePfadd_keeps (fun _ _ => Storage.pfadd_noEmpty _) args
  · exact fun args _ => handlePfmerge_keeps (fun _ _ => Storage.pfmerge_noEmpty _) args
  · exact fun _ _ => handleGetex_keeps fun _ _ _ _ => Storage.getStringWithTtl_noEmpty _
  · exact fun args _ => handleGetset_keeps (fun _ _ => Storage.getset_noEmpty _) args
  · exact fun args _ => handleGetdel_keeps (fun _ => Storage.getAndDelete_noEmpty) args
  · exact fun args _ => handleSetrange_keeps (fun _ _ _ => Storage.setrange_noEmpty _ _) args
  · exact fun args _ => handleAppend_keeps (fun _ _ => Storage.append_noEmpty _) args
  · exact fun args _ => handleSet_keeps (fun _ _ _ => Storage.setString_noEmpty _ _) args
  · exact fun args _ => handleSetnx_keeps (fun _ _ => Storage.setStringNx_noEmpty _ _) args
  · exact fun args _ => handleSetex_keeps (fun _ _ _ => Storage.setString_noEmpty _ _) args
  · exact fun args _ => handleMset_keeps (fun _ => Storage.mset_noEmpty _) args
  · exact fun args _ => handleMsetnx_keeps (fun _ => Storage.msetnx_noEmpty _) args
  · exact fun args _ => handleIncrby_keeps (fun _ => Storage.incrBy_noEmpty _) args
  · exact fun args _ =>
      .parse fun _ _ => handleIncrby_keeps (fun _ => Storage.incrBy_noEmpty _) args
  · exact fun args _ => handleIncrbyfloat_keeps _ (fun _ _ => Storage.incrByFloat_noEmpty _ _) args
  · exact fun args _ => handleIncrby_keeps (fun _ => Storage.incrBy_noEmpty _) args
  · exact fun args _ => handleDecrby_keeps (fun _ _ => Storage.incrBy_noEmpty _) args

theorem hashWriters_noEmpty : ∀ c ∈ hashWriters p, NeverEmpty p c := by
  simp only [hashWriters, List.forall_mem_cons]
  refine ⟨?_, ?_, ?_, ?_, ?_, List.forall_mem_nil _⟩
  · exact fun args _ => handleHset_keeps (fun _ _ hne => Storage.hset_noEmpty hne) args
  · exact fun args _ => handleHsetnx_keeps (fun _ _ _ => Storage.hsetnx_noEmpty _ _) args
  · exact fun args _ => handleHdel_keeps (fun _ _ => Storage.hdel_noEmpty _) args
  · exact fun args _ => handleHincrby_keeps (fun _ _ _ => Storage.hincrBy_noEmpty _ _) args
  · exact fun args _ => handleHincrbyfloat_keeps _
      (fun _ _ _ => Storage.hincrByFloat_noEmpty _ _ _) args

theorem listWriters_noEmpty : ∀ c ∈ listWriters, NeverEmpty p c := by
  simp only [listWriters, List.forall_mem_cons]
  refine ⟨?_, ?_, ?_, ?_, ?_, ?_, ?_, ?_, ?_, ?_, ?_, ?_, List.forall_mem_nil _⟩
  · exact fun args _ => handlePush_keeps (fun _ _ hne => Storage.listPush_noEmpty hne _) args
  · exact fun args _ => handlePush_keeps (fun _ _ hne => Storage.listPush_noEmpty hne _) args
  · exact fun args _ => handlePushx_keeps (fun _ _ hne => Storage.listPushx_noEmpty hne _) args
  · exact fun args _ => handlePushx_keeps (fun _ _ hne => Storage.listPushx_noEmpty hne _) args
  · exact fun args _ => handlePop_keeps (fun _ _ => Storage.listPop_noEmpty _ _) args
  · exact fun args _ => handlePop_keeps (fun _ _ => Storage.listPop_noEmpty _ _) args
  · exact fun args _ => handleLset_keeps (fun _ _ _ => Storage.lset_noEmpty _ _) args
  · exact fun args _ => handleLrem_keeps (fun _ _ _ => Storage.lrem_noEmpty _ _) args
  · exact fun args _ => handleLinsert_keeps (fun _ _ _ _ => Storage.linsert_noEmpty _ _ _) args
  · exact fun args _ => handleLtrim_keeps (fun _ _ _ => Storage.ltrim_noEmpty _ _) args
  · exact fun _ _ => handleLmove_keeps fun _ _ _ _ _ _ => Storage.listMove_noEmpty _ _ _ _
  · exact fun _ _ => handleRpoplpush_keeps fun _ _ _ _ _ _ => Storage.listMove_noEmpty _ _ _ _

theorem setWriters_noEmpty : ∀ c ∈ setWriters, NeverEmpty p c := by
  simp only [setWriters, List.forall_mem_cons]
  refine ⟨?_, ?_, ?_, ?_, ?_, ?_, ?_, List.forall_mem_nil _⟩
  · exact fun args _ => handleSadd_keeps (fun _ _ hne => Storage.sadd_noEmpty hne) args
  · exact fun args _ => handleSrem_keeps (fun _ _ => Storage.srem_noEmpty _) args
  · exact fun _ _ => handleSstore_keeps fun _ _ =>
      ⟨Storage.delete_noEmpty, fun _ hne => Storage.sadd_noEmpty hne⟩
  · exact fun _ _ => handleSstore_keeps fun _ _ =>
      ⟨Storage.delete_noEmpty, fun _ hne => Storage.sadd_noEmpty hne⟩
  · exact fun _ _ => handleSstore_keeps fun _ _ =>
      ⟨Storage.delete_noEmpty, fun _ hne => Storage.sadd_noEmpty hne⟩
  · exact fun _ _ => handleSmove_keeps fun _ _ _ _ _ _ =>
      ⟨Storage.srem_noEmpty _, Storage.sadd_noEmpty (List.cons_ne_nil _ _)⟩
  · exact fun args _ => handleSpop_keeps (fun _ _ => Storage.spop_noEmpty _) args

theorem zsetWriters_noEmpty : ∀ c ∈ zsetWriters p, NeverEmpty p c := by
  simp only [zsetWriters, List.forall_mem_cons]
  refine ⟨?_, ?_, ?_, ?_, ?_, ?_, ?_, ?_, ?_, ?_, ?_, List.forall_mem_nil _⟩
  · exact fun args _ => handleZadd_keeps _ (fun _ _ _ _ => Storage.zaddExtIncr_noEmpty _ _ _ _)
      (fun _ _ _ _ => Storage.zaddExt_noEmpty _ _) (fun _ _ hne => Storage.zadd_noEmpty hne) args
  · exact fun _ _ => handleZstore_keeps _ fun _ _ =>
      ⟨Storage.delete_noEmpty, fun _ hne => Storage.zadd_noEmpty hne⟩
  · exact fun _ _ => handleZstore_keeps _ fun _ _ =>
      ⟨Storage.delete_noEmpty, fun _ hne => Storage.zadd_noEmpty hne⟩
  · exact fun _ _ => handleZstore_keeps _ fun _ _ =>
      ⟨Storage.delete_noEmpty, fun _ hne => Storage.zadd_noEmpty hne⟩
  · exact fun args _ => handleZrem_keeps (fun _ _ => Storage.zrem_noEmpty _) args
  · exact fun args _ => handleZincrby_keeps _ (fun _ _ _ => Storage.zincrBy_noEmpty _ _ _) args
  · exact fun args _ => handleZremrangebylex_keeps (fun _ _ _ => Storage.zremrange_noEmpty _) args
  · exact fun args _ => handleZremrangebyrank_keeps (fun _ _ _ => Storage.zremrange_noEmpty _) args
  · exact fun args _ => handleZremrangebyscore_keeps _
      (fun _ _ _ => Storage.zremrange_noEmpty _) args
  · exact fun args _ => handleZpop_keeps _ (fun _ _ _ => Storage.zpopImpl_noEmpty _ _) args
  · exact fun args _ => handleZpop_keeps _ (fun _ _ _ => Storage.zpopImpl_noEmpty _ _) args

theorem streamWriters_noEmpty : ∀ c ∈ streamWriters, NeverEmpty p c := by
  simp only [streamWriters, List.forall_mem_cons]
  refine ⟨?_, ?_, ?_, ?_, ?_, ?_, ?_, ?_, List.forall_mem_nil _⟩
  · exact fun _ _ => handleXadd_keeps fun _ _ _ _ _ _ _ => Storage.xadd_noEmpty _ _ _ _
  · exact fun args _ => handleXdel_keeps (fun _ _ => Storage.xdel_noEmpty _) args
  · exact fun args _ => handleXtrim_keeps (fun _ _ _ => Storage.xtrim_noEmpty _ _) args
  · exact fun _ _ => handleXgroup_keeps fun _ _ _ => Storage.xgroup_noEmpty _
  · exact fun args _ => handleXreadgroup_keeps
      (fun _ _ _ _ _ _ => Storage.xreadgroup_noEmpty _ _ _ _ _ _) args
  · exact fun args _ => handleXack_keeps (fun _ _ _ => Storage.xack_noEmpty _ _) args
  · exact fun args _ => handleXclaim_keeps
      (fun _ _ _ _ _ _ => Storage.xclaim_noEmpty _ _ _ _ _) args
  · exact fun args _ => handleXautoclaim_keeps
      (fun _ _ _ _ _ _ _ _ => Storage.xautoclaim_noEmpty _ _ _ _ _ _ _) args

theorem writers_noEmpty : ∀ c ∈ writers p, NeverEmpty p c := by
  unfold writers
  simp only [List.forall_mem_append]
  exact ⟨⟨⟨⟨⟨⟨⟨geoWriters_noEmpty p, keyWriters_noEmpty p⟩,
    stringWriters_noEmpty p⟩,
    hashWriters_noEmpty p⟩,
    listWriters_noEmpty p⟩,
    setWriters_noEmpty p⟩,
    zsetWriters_noEmpty p⟩,
    streamWriters_noEmpty p⟩

theorem dispatch_noEmpty {tokens : List Bytes} (h : ¬ RestoresEmpty p.externs.fo tokens) :
    (dispatch p tokens).Keeps noEmpty := by
  apply KV.Keeps.reply
  apply KV.Keeps.attempt
  apply run_cases p fun q => q.Keeps noEmpty
  · exact fun e => .done _
  · rintro cmdBytes args cmd handler rfl hname hmem
    rcases commandTable_read p _ hmem with hread | hwriter
    · exact (hread args).keeps _
    · apply writers_noEmpty p _ hwriter args
      intro hcmd hempty
      have hcmd' : cmd = "RESTORE" := hcmd
      subst hcmd'
      exact h ⟨hname, hempty⟩

end Table

/-! ## Runs -/

/-- Any number of clients, from an empty keyspace, in any order of their steps: no key
ever holds an empty collection, as long as no command restores one. -/
theorem never_stores_empty (p : Process) {ι : Type} [DecidableEq ι] {tokens : ι → List Bytes}
    {evs : List (KVEvent ι)} {d : Pool KVOp KVOp.Res RustyAntError Keyspace fun _ : ι => RespReply}
    (h : ∀ i, ¬ RestoresEmpty p.externs.fo (tokens i))
    (hrun : Pool.Run lazyService ⟨fun _ => none, fun i => dispatch p (tokens i)⟩ evs d) :
    ∀ key e token, d.state key = some (e, token) → e.value.isEmptyCollection = false := by
  have hprogs : ∀ i, (dispatch p (tokens i)).Keeps noEmpty := fun i => dispatch_noEmpty p (h i)
  have hinit : KeyInv.Holds noEmpty fun _ => none := fun _ => trivial
  have hholds := keeps_together (fun _ => nonEmpty_none) hprogs hinit hrun
  intro key e token hkey
  have hentry := hholds key
  unfold Keyspace.entryAt at hentry
  rw [hkey] at hentry
  exact hentry

namespace EmptySet

def process : Process where
  externs := ⟨.integral, fun _ _ => true⟩
  libm := ⟨fun _ _ _ => .zero, id, id, id, id, id, fun _ => id, fun _ _ => [], fun _ _ => ""⟩
  info := ⟨1, 0⟩

def env : Solo where
  fails _ := none
  now _ := 7
  collects _ := true
  token _ := "v1"
  other _ := Solo.nothing

/-- The type byte of a set, no members, the version and the checksum. -/
def payload : Bytes := [2, 0, 11, 0, 83, 17, 132, 115, 102, 22, 208, 97]

def restore (_ : Unit) : List Bytes :=
  [Rdb.asBytes "RESTORE", Rdb.asBytes "s", Rdb.asBytes "0", payload]

/-- One client pushes two elements, another pops one. -/
def pushAndPop : Bool → List Bytes
  | true => ["LPUSH", "l", "a", "b"].map Rdb.asBytes
  | false => ["LPOP", "l"].map Rdb.asBytes

/-- The push, then the pop. -/
def order : List Bool := [true, true, false, false]

end EmptySet

open EmptySet in
/-- A list that is pushed to and popped from is never empty. -/
theorem never_stores_empty_on_pushAndPop :
    ((Pool.exec (env.answer 0) order
        ⟨fun _ => none, fun i => dispatch process (pushAndPop i)⟩).state "l").map
      (fun p => p.1.value.isEmptyCollection) = some false := by
  have hthere : ((Pool.exec (env.answer 0) order
      ⟨fun _ => none, fun i => dispatch process (pushAndPop i)⟩).state "l").isSome = true := by
    decide +kernel
  obtain ⟨⟨e, token⟩, hstate⟩ := Option.isSome_iff_exists.mp hthere
  have hspared : ∀ i, ¬ RestoresEmpty process.externs.fo (pushAndPop i) := by
    intro i
    cases i with
    | true =>
        rintro ⟨hname, -⟩
        revert hname
        decide +kernel
    | false =>
        rintro ⟨hname, -⟩
        revert hname
        decide +kernel
  rw [hstate]
  exact congrArg some (never_stores_empty process hspared
    (Pool.exec_trace (env.answer_lazy 0) order _) "l" e token hstate)

open EmptySet in
/-- `RESTORE` of a set without members stores it. -/
theorem stores_empty_by_restore :
    ¬ ∀ (p : Process) (tokens : Unit → List Bytes) (evs : List (KVEvent Unit))
      (d : Pool KVOp KVOp.Res RustyAntError Keyspace fun _ : Unit => RespReply),
      Pool.Run lazyService ⟨fun _ => none, fun i => dispatch p (tokens i)⟩ evs d →
        ∀ key e token, d.state key = some (e, token) → e.value.isEmptyCollection = false := by
  intro h
  have hrun := h process restore _ _ (Pool.exec_trace (env.answer_lazy 0) [()] _) "s"
  have hstored : ((Pool.exec (env.answer 0) [()]
      ⟨fun _ => none, fun i => dispatch process (restore i)⟩).state "s").map
        (fun p => p.1.value.isEmptyCollection) = some true := by
    decide +kernel
  cases hstate : (Pool.exec (env.answer 0) [()]
      ⟨fun _ => none, fun i => dispatch process (restore i)⟩).state "s" with
  | none =>
      rw [hstate] at hstored
      cases hstored
  | some q =>
      rw [hstate] at hstored
      have hempty := hrun q.1 q.2 hstate
      rw [Option.map_some, hempty] at hstored
      cases hstored

end Commands

end RustyAnt
