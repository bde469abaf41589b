import RustyAnt.Commands.Dispatch
import RustyAnt.Storage.OneCall

/-!
# Commands of one call

Most commands are about one key, and their handlers call the storage at most once.  The others
work on several keys or list the store.
-/

namespace RustyAnt

open Lib

namespace Commands

theorem oneStep_kind (key : String) : OneStep (Storage.kind key) :=
  oneStep_entry fun _ => Prog.Requests.done _

theorem oneStep_existsKey (key : String) : OneStep (Storage.existsKey key) :=
  oneStep_entry fun _ => Prog.Requests.done _

theorem deadline_clocked (ms : Int) : Clocked (deadline ms) := .clock fun _ => .done _

/-! ## Server -/

theorem pureHandler_oneCall (f : List Bytes → Result RespReply) (args : List Bytes) :
    OneCall (pureHandler f args) := .done _

theorem handleTime_oneCall (args : List Bytes) : OneCall (handleTime args) := by
  unfold handleTime
  split
  · exact .clock (.inr rfl) fun _ => .done _
  · exact .done _

theorem objectStat_oneCall (n : Int) (key : String) : OneCall (objectStat n key) := by
  refine .ends (oneStep_existsKey key) fun found => ?_
  split
  · exact ⟨_, rfl⟩
  · exact ⟨_, rfl⟩

theorem objectOf_oneCall (key sub : String) : OneCall (objectOf key sub) := by
  unfold objectOf
  split
  · refine .ends (oneStep_kind key) fun kind => ?_
    cases kind with
    | none => exact ⟨_, rfl⟩
    | some kind => exact ⟨_, rfl⟩
  · exact objectStat_oneCall 0 key
  · exact objectStat_oneCall 1 key
  · exact .done _
  · exact .done _

theorem handleObject_oneCall (args : List Bytes) : OneCall (handleObject args) := by
  apply OneCall.parse
  intro sub
  split
  · exact .done _
  · split
    · exact .parse fun key => objectOf_oneCall key sub
    · exact .done _

theorem oneStep_memUsage (fo : FloatOps) (key : String) : OneStep (Storage.memUsage fo key) :=
  oneStep_entry fun _ => Prog.Requests.done _

theorem handleMemory_oneCall (fo : FloatOps) (args : List Bytes) :
    OneCall (handleMemory fo args) := by
  apply OneCall.parse
  intro sub
  split
  · exact .parse fun key => .reply (oneStep_memUsage fo key)
  all_goals exact .done _

/-! ## Geo -/

theorem handleGeoadd_oneCall (fo : FloatOps) (lm : Libm) (args : List Bytes) :
    OneCall (handleGeoadd fo lm args) := by
  unfold handleGeoadd
  split
  · apply OneCall.parse
    intro key
    apply OneCall.parse
    intro parsed
    dsimp only
    split
    · exact .done _
    · split
      · exact .done _
      · exact .parse fun _ => .reply (oneStep_cas _ _)
  · exact .done _

theorem handleGeopos_oneCall (fo : FloatOps) (lm : Libm) (args : List Bytes) :
    OneCall (handleGeopos fo lm args) := by
  unfold handleGeopos
  split
  · exact .parse fun _ => .parse fun _ => .reply oneStep_read
  · exact .done _

theorem geodist_oneCall (fo : FloatOps) (lm : Libm) (key m1 m2 : String) (unit : GeoUnit) :
    OneCall (geodist fo lm key m1 m2 unit) := by
  refine .ends oneStep_read fun scores => ?_
  split
  · exact ⟨_, rfl⟩
  · exact ⟨_, rfl⟩

theorem handleGeodist_oneCall (fo : FloatOps) (lm : Libm) (args : List Bytes) :
    OneCall (handleGeodist fo lm args) := by
  unfold handleGeodist
  split
  · exact .parse fun _ => .parse fun _ => .parse fun _ => geodist_oneCall fo lm _ _ _ _
  · exact .parse fun _ => .parse fun _ => .parse fun _ => .parse fun _ => .parse fun _ =>
      geodist_oneCall fo lm _ _ _ _
  · exact .done _

theorem handleGeohash_oneCall (fo : FloatOps) (lm : Libm) (args : List Bytes) :
    OneCall (handleGeohash fo lm args) := by
  unfold handleGeohash
  split
  · exact .parse fun _ => .parse fun _ => .reply oneStep_read
  · exact .done _

/-! ## Keys -/

theorem handleDump_oneCall (fo : FloatOps) (args : List Bytes) : OneCall (handleDump fo args) := by
  unfold handleDump
  split
  · refine .parse fun key => .reply (oneStep_entry fun entry => ?_)
    cases entry with
    | none => exact Prog.Requests.done _
    | some e => exact .bind (Prog.Requests.done _) fun _ => Prog.Requests.done _
  · exact .done _

theorem handleExpiry_oneCall {cmd label : String} {expiresAt : Int → KV Int}
    (h : ∀ n, Clocked (expiresAt n)) (args : List Bytes) :
    OneCall (handleExpiry cmd label expiresAt args) := by
  unfold handleExpiry
  split
  · exact .parse fun _ => .parse fun n => .after (h n) fun _ => .reply (oneStep_cas _ _)
  · exact .done _

theorem handlePersist_oneCall (args : List Bytes) : OneCall (handlePersist args) := by
  unfold handlePersist
  split
  · exact .parse fun _ => .reply (oneStep_cas _ _)
  · exact .done _

theorem handleTtlOf_oneCall {cmd : String} {look : String → KV TtlResult} {scale : Int → Int}
    (hlook : ∀ key, OneStep (look key)) (args : List Bytes) :
    OneCall (handleTtlOf cmd look scale args) := by
  unfold handleTtlOf
  split
  · exact .parse fun key => .reply (hlook key)
  · exact .done _

theorem oneStep_ttlMs (key : String) : OneStep (Storage.ttlMs key) :=
  (KeyMethod.ttlMs key).oneStep (x := ⟨.integral, fun _ _ => false⟩) rfl

theorem oneStep_expireTimeMs (key : String) : OneStep (Storage.expireTimeMs key) :=
  (KeyMethod.expireTimeMs key).oneStep (x := ⟨.integral, fun _ _ => false⟩) rfl

theorem handleType_oneCall (args : List Bytes) : OneCall (handleType args) := by
  unfold handleType
  split
  · exact .parse fun _ => .reply (oneStep_kind _)
  · exact .done _

/-! ## Strings and bits -/

theorem handleGet_oneCall (args : List Bytes) : OneCall (handleGet args) := by
  unfold handleGet
  split
  · exact .parse fun _ => .reply oneStep_read
  · exact .done _

theorem handleStrlen_oneCall (args : List Bytes) : OneCall (handleStrlen args) := by
  unfold handleStrlen
  split
  · exact .parse fun _ => .reply oneStep_read
  · exact .done _

theorem handleGetrange_oneCall (args : List Bytes) : OneCall (handleGetrange args) := by
  unfold handleGetrange
  split
  · exact .parse fun _ => .parse fun _ => .parse fun _ => .reply oneStep_read
  · exact .done _

theorem handleGetbit_oneCall (args : List Bytes) : OneCall (handleGetbit args) := by
  unfold handleGetbit
  split
  · exact .parse fun _ => .parse fun _ => .reply oneStep_read
  · exact .done _

theorem handleSetbit_oneCall (args : List Bytes) : OneCall (handleSetbit args) := by
  unfold handleSetbit
  split
  · exact .parse fun _ => .parse fun _ => .parse fun _ => .reply (oneStep_cas _ _)
  · exact .done _

theorem handleSetrange_oneCall (args : List Bytes) : OneCall (handleSetrange args) := by
  unfold handleSetrange
  split
  · exact .parse fun _ => .parse fun _ => .reply (oneStep_cas _ _)
  · exact .done _

theorem handleGetset_oneCall (args : List Bytes) : OneCall (handleGetset args) := by
  unfold handleGetset
  split
  · exact .parse fun _ => .reply (oneStep_cas _ _)
  · exact .done _

theorem handleGetdel_oneCall (args : List Bytes) : OneCall (handleGetdel args) := by
  unfold handleGetdel
  split
  · exact .parse fun _ => .reply (oneStep_cas _ _)
  · exact .done _

theorem handleAppend_oneCall (args : List Bytes) : OneCall (handleAppend args) := by
  unfold handleAppend
  split
  · exact .parse fun _ => .reply (oneStep_cas _ _)
  · exact .done _

theorem handleSetnx_oneCall (args : List Bytes) : OneCall (handleSetnx args) := by
  unfold handleSetnx
  split
  · exact .parse fun _ => .reply (.create _ _ _)
  · exact .done _

theorem handleIncrby_oneCall (delta : Int) (args : List Bytes) :
    OneCall (handleIncrby delta args) := by
  unfold handleIncrby
  split
  · exact .parse fun _ => .reply (oneStep_cas _ _)
  · exact .done _

theorem handleIncrbyfloat_oneCall (fo : FloatOps) (args : List Bytes) :
    OneCall (handleIncrbyfloat fo args) := by
  unfold handleIncrbyfloat
  split
  · exact .parse fun _ => .parse fun _ => .reply (oneStep_cas _ _)
  · exact .done _

theorem handlePfadd_oneCall (args : List Bytes) : OneCall (handlePfadd args) := by
  unfold handlePfadd
  split
  · exact .parse fun _ => .reply (oneStep_cas _ _)
  · exact .done _

theorem handleBitcount_oneCall (args : List Bytes) : OneCall (handleBitcount args) := by
  unfold handleBitcount
  split
  · exact .parse fun _ => .reply oneStep_read
  · split
    · exact .done _
    · refine .parse fun key => .ends oneStep_read fun data => ?_
      cases data with
      | none => exact ⟨_, rfl⟩
      | some data =>
          refine Prog.ends_ofExcept_bind fun start => Prog.ends_ofExcept_bind fun stop =>
            Prog.ends_ofExcept_bind fun inBits => ?_
          dsimp only
          split
          · exact ⟨_, rfl⟩
          · exact ⟨_, rfl⟩
  · exact .done _

theorem handleBitpos_oneCall (args : List Bytes) : OneCall (handleBitpos args) := by
  unfold handleBitpos
  split
  · split
    · exact .done _
    · refine .parse fun key => .parse fun target => .ends oneStep_read fun data => ?_
      dsimp only
      split
      · exact ⟨_, rfl⟩
      · exact Prog.ends_ofExcept_bind fun inBits => Prog.ends_ofExcept_bind fun range => ⟨_, rfl⟩
  · exact .done _

theorem parseGetexOp_clocked (opts : List Bytes) : Clocked (parseGetexOp opts) := by
  unfold parseGetexOp
  split
  · exact .done _
  · apply Clocked.parse
    intro name
    split
    · exact .done _
    · exact .done _
    · exact .done _
    · apply Clocked.parse
      intro n
      split
      · exact .bind (deadline_clocked _) fun _ => .done _
      · exact .bind (deadline_clocked _) fun _ => .done _
      all_goals exact .done _
    · exact .done _

theorem oneStep_getStringWithTtl (key : String) (op : GetExOp) :
    OneStep (Storage.getStringWithTtl key op) :=
  (StringMethod.getStringWithTtl key op).oneStep (x := ⟨.integral, fun _ _ => false⟩) rfl

theorem handleGetex_oneCall (args : List Bytes) : OneCall (handleGetex args) := by
  unfold handleGetex
  split
  · split
    · exact .done _
    · exact .parse fun _ => .after (parseGetexOp_clocked _) fun _ =>
        .reply (oneStep_getStringWithTtl _ _)
  · exact .done _

theorem parseSetOpts_clocked (opts : List Bytes) (exp : Option Int) :
    Clocked (parseSetOpts opts exp) := by
  induction opts using List.twoStepInduction generalizing exp with
  | nil => exact .done _
  | singleton word =>
      rw [parseSetOpts]
      refine .parse fun option => ?_
      split
      all_goals exact .done _
  | cons_cons word arg rest ih _ =>
      rw [parseSetOpts]
      refine .parse fun option => ?_
      split
      · exact .parse fun _ => .bind (deadline_clocked _) fun t => ih (some t)
      · exact .parse fun _ => .bind (deadline_clocked _) fun t => ih (some t)
      · exact .done _

theorem handleSet_oneCall (args : List Bytes) : OneCall (handleSet args) := by
  unfold handleSet
  split
  · exact .parse fun _ => .after (parseSetOpts_clocked _ _) fun _ => .reply (.save _ _)
  · exact .done _

theorem handleSetex_oneCall (args : List Bytes) : OneCall (handleSetex args) := by
  unfold handleSetex
  split
  · refine .parse fun key => .parse fun secs => ?_
    split
    · exact .done _
    · exact .after (deadline_clocked _) fun _ => .reply (.save _ _)
  · exact .done _

theorem handleDecrby_oneCall (args : List Bytes) : OneCall (handleDecrby args) := by
  apply OneCall.parse
  intro delta
  split
  · exact .done _
  · exact handleIncrby_oneCall _ args

/-! ## Hashes -/

theorem handleHsetnx_oneCall (args : List Bytes) : OneCall (handleHsetnx args) := by
  unfold handleHsetnx
  split
  · exact .parse fun _ => .parse fun _ => .reply (oneStep_cas _ _)
  · exact .done _

theorem handleHget_oneCall (args : List Bytes) : OneCall (handleHget args) := by
  unfold handleHget
  split
  · exact .parse fun _ => .parse fun _ => .reply oneStep_read
  · exact .done _

theorem handleHdel_oneCall (args : List Bytes) : OneCall (handleHdel args) := by
  unfold handleHdel
  split
  · exact .parse fun _ => .parse fun _ => .reply (oneStep_cas _ _)
  · exact .done _

theorem handleHgetall_oneCall (args : List Bytes) : OneCall (handleHgetall args) := by
  unfold handleHgetall
  split
  · exact .parse fun _ => .reply oneStep_read
  · exact .done _

theorem handleHlen_oneCall (args : List Bytes) : OneCall (handleHlen args) := by
  unfold handleHlen
  split
  · exact .parse fun _ => .reply oneStep_read
  · exact .done _

theorem handleHkeys_oneCall (args : List Bytes) : OneCall (handleHkeys args) := by
  unfold handleHkeys
  split
  · exact .parse fun _ => .reply oneStep_read
  · exact .done _

theorem handleHvals_oneCall (args : List Bytes) : OneCall (handleHvals args) := by
  unfold handleHvals
  split
  · exact .parse fun _ => .reply oneStep_read
  · exact .done _

theorem handleHexists_oneCall (args : List Bytes) : OneCall (handleHexists args) := by
  unfold handleHexists
  split
  · exact .parse fun _ => .parse fun _ => .reply oneStep_read
  · exact .done _

theorem handleHstrlen_oneCall (args : List Bytes) : OneCall (handleHstrlen args) := by
  unfold handleHstrlen
  split
  · exact .parse fun _ => .parse fun _ => .reply oneStep_read
  · exact .done _

theorem handleHmget_oneCall (args : List Bytes) : OneCall (handleHmget args) := by
  unfold handleHmget
  split
  · exact .parse fun _ => .parse fun _ => .reply oneStep_read
  · exact .done _

theorem handleHincrby_oneCall (args : List Bytes) : OneCall (handleHincrby args) := by
  unfold handleHincrby
  split
  · exact .parse fun _ => .parse fun _ => .parse fun _ => .reply (oneStep_cas _ _)
  · exact .done _

theorem handleHset_oneCall (args : List Bytes) : OneCall (handleHset args) := by
  unfold handleHset
  split
  · split
    · exact .done _
    · exact .parse fun _ => .parse fun _ => .reply (oneStep_cas _ _)
  · exact .done _

theorem handleHincrbyfloat_oneCall (fo : FloatOps) (args : List Bytes) :
    OneCall (handleHincrbyfloat fo args) := by
  unfold handleHincrbyfloat
  split
  · refine .parse fun _ => .parse fun _ => .parse fun _ => ?_
    split
    · exact .done _
    · exact .reply (oneStep_cas _ _)
  · exact .done _

theorem hrandfield_oneCall (key : String) (count : Int) (withValues : Bool) :
    OneCall (hrandfield key count withValues) :=
  .parse fun _ => .reply oneStep_readRand

theorem handleHrandfield_oneCall (args : List Bytes) : OneCall (handleHrandfield args) := by
  unfold handleHrandfield
  split
  · exact .parse fun _ => .reply oneStep_readRand
  · exact .parse fun _ => .parse fun _ => hrandfield_oneCall _ _ _
  · refine .parse fun _ => .parse fun _ => .parse fun _ => ?_
    split
    · exact hrandfield_oneCall _ _ _
    · exact .done _
  · exact .done _

theorem handleHscan_oneCall (wild : String → String → Bool) (args : List Bytes) :
    OneCall (handleHscan wild args) :=
  .parse fun _ => .reply oneStep_read

/-! ## Lists -/

theorem handlePush_oneCall (left : Bool) (args : List Bytes) : OneCall (handlePush left args) := by
  unfold handlePush
  split
  · exact .parse fun _ => .reply (oneStep_cas _ _)
  · exact .done _

theorem handlePushx_oneCall (left : Bool) (args : List Bytes) :
    OneCall (handlePushx left args) := by
  unfold handlePushx
  split
  · exact .parse fun _ => .reply (oneStep_cas _ _)
  · exact .done _

theorem handlePop_oneCall (left : Bool) (args : List Bytes) : OneCall (handlePop left args) := by
  unfold handlePop
  split
  · exact .parse fun _ => .reply (oneStep_cas _ _)
  · exact .parse fun _ => .parse fun _ => .reply (oneStep_cas _ _)
  · exact .done _

theorem handleLrange_oneCall (args : List Bytes) : OneCall (handleLrange args) := by
  unfold handleLrange
  split
  · exact .parse fun _ => .parse fun _ => .parse fun _ => .reply oneStep_read
  · exact .done _

theorem handleLlen_oneCall (args : List Bytes) : OneCall (handleLlen args) := by
  unfold handleLlen
  split
  · exact .parse fun _ => .reply oneStep_read
  · exact .done _

theorem handleLindex_oneCall (args : List Bytes) : OneCall (handleLindex args) := by
  unfold handleLindex
  split
  · exact .parse fun _ => .parse fun _ => .reply oneStep_read
  · exact .done _

theorem handleLset_oneCall (args : List Bytes) : OneCall (handleLset args) := by
  unfold handleLset
  split
  · exact .parse fun _ => .parse fun _ => .reply (oneStep_cas _ _)
  · exact .done _

theorem handleLrem_oneCall (args : List Bytes) : OneCall (handleLrem args) := by
  unfold handleLrem
  split
  · exact .parse fun _ => .parse fun _ => .reply (oneStep_cas _ _)
  · exact .done _

theorem handleLinsert_oneCall (args : List Bytes) : OneCall (handleLinsert args) := by
  unfold handleLinsert
  split
  · exact .parse fun _ => .parse fun _ => .reply (oneStep_cas _ _)
  · exact .done _

theorem handleLtrim_oneCall (args : List Bytes) : OneCall (handleLtrim args) := by
  unfold handleLtrim
  split
  · exact .parse fun _ => .parse fun _ => .parse fun _ => .reply (oneStep_cas _ _)
  · exact .done _

theorem handleLpos_oneCall (args : List Bytes) : OneCall (handleLpos args) := by
  unfold handleLpos
  split
  · exact .parse fun _ => .parse fun _ => .reply oneStep_read
  · exact .done _

/-! ## Sets -/

theorem handleSadd_oneCall (args : List Bytes) : OneCall (handleSadd args) := by
  unfold handleSadd
  split
  · exact .parse fun _ => .parse fun _ => .reply (oneStep_cas _ _)
  · exact .done _

theorem handleSrem_oneCall (args : List Bytes) : OneCall (handleSrem args) := by
  unfold handleSrem
  split
  · exact .parse fun _ => .parse fun _ => .reply (oneStep_cas _ _)
  · exact .done _

theorem handleSmembers_oneCall (args : List Bytes) : OneCall (handleSmembers args) := by
  unfold handleSmembers
  split
  · exact .parse fun _ => .reply oneStep_read
  · exact .done _

theorem handleSismember_oneCall (args : List Bytes) : OneCall (handleSismember args) := by
  unfold handleSismember
  split
  · exact .parse fun _ => .parse fun _ => .reply oneStep_read
  · exact .done _

theorem handleSmismember_oneCall (args : List Bytes) : OneCall (handleSmismember args) := by
  unfold handleSmismember
  split
  · exact .parse fun _ => .parse fun _ => .reply oneStep_read
  · exact .done _

theorem handleScard_oneCall (args : List Bytes) : OneCall (handleScard args) := by
  unfold handleScard
  split
  · exact .parse fun _ => .reply oneStep_read
  · exact .done _

theorem handleSrandmember_oneCall (args : List Bytes) : OneCall (handleSrandmember args) := by
  unfold handleSrandmember
  split
  · exact .parse fun _ => .reply oneStep_readRand
  · exact .parse fun _ => .parse fun _ => .parse fun _ => .reply oneStep_readRand
  · exact .done _

theorem oneStep_spop (key : String) (count : Nat) : OneStep (Storage.spop key count) :=
  (SetMethod.spop key count).oneStep (x := ⟨.integral, fun _ _ => false⟩) rfl

theorem handleSpop_oneCall (args : List Bytes) : OneCall (handleSpop args) := by
  unfold handleSpop
  split
  · exact .parse fun _ => .reply (oneStep_spop _ _)
  · exact .parse fun _ => .parse fun _ => .reply (oneStep_spop _ _)
  · exact .done _

theorem handleSscan_oneCall (x : Externs) (args : List Bytes) : OneCall (handleSscan x args) :=
  .parse fun _ => .reply oneStep_read

/-! ## Sorted sets -/

theorem handleZadd_oneCall (fo : FloatOps) (args : List Bytes) : OneCall (handleZadd fo args) := by
  refine .parse fun parsed => ?_
  dsimp only
  split
  · split
    · exact .reply (oneStep_cas _ _)
    · exact .done _
  · split
    · exact .reply (oneStep_cas _ _)
    · exact .reply (oneStep_cas _ _)

theorem rangeByRank_oneCall (key : String) (start stop : Int) (rev : Bool) :
    OneCall (rangeByRank key start stop rev) := by
  refine .ends oneStep_read fun items => ?_
  dsimp only
  split
  · exact ⟨_, rfl⟩
  · exact ⟨_, rfl⟩

theorem rangeByScore_oneCall (key : String) (min max : ScoreBound) (rev : Bool)
    (limit : Option (Int × Int)) : OneCall (rangeByScore key min max rev limit) :=
  .reply oneStep_read

theorem rangeByLex_oneCall (key : String) (min max : LexBound) (rev : Bool)
    (limit : Option (Int × Int)) : OneCall (rangeByLex key min max rev limit) :=
  .reply oneStep_read

theorem pairsToReply_oneCall (fo : FloatOps) {pairs : KV (List (String × F64))} (h : OneCall pairs)
    (withScores : Bool) : OneCall (pairs.bind fun found => .done (.ok (pairsToReply fo found withScores))) :=
  h.bind fun _ => ⟨_, rfl⟩

theorem executeZrange_oneCall (fo : FloatOps) (key : String) (lo hi : Bytes) (opts : ZRangeOpts) :
    OneCall (executeZrange fo key lo hi opts) := by
  unfold executeZrange
  dsimp only
  cases opts.mode with
  | rank =>
      exact .parse fun _ => .parse fun _ => pairsToReply_oneCall fo (rangeByRank_oneCall _ _ _ _) _
  | score =>
      exact .parse fun _ => .parse fun _ =>
        pairsToReply_oneCall fo (rangeByScore_oneCall _ _ _ _ _) _
  | lex =>
      exact .parse fun _ => .parse fun _ => pairsToReply_oneCall fo (rangeByLex_oneCall _ _ _ _ _) _

theorem handleZrange_oneCall (fo : FloatOps) (args : List Bytes) :
    OneCall (handleZrange fo args) := by
  unfold handleZrange
  split
  · exact .parse fun _ => .parse fun _ => executeZrange_oneCall fo _ _ _ _
  · exact .done _

theorem handleZrevrange_oneCall (fo : FloatOps) (args : List Bytes) :
    OneCall (handleZrevrange fo args) := by
  unfold handleZrevrange
  split
  · exact .parse fun _ => .parse fun _ => executeZrange_oneCall fo _ _ _ _
  · exact .done _

theorem handleZrangebyscore_oneCall (fo : FloatOps) (args : List Bytes) :
    OneCall (handleZrangebyscore fo args) := by
  unfold handleZrangebyscore
  split
  · exact .parse fun _ => .parse fun _ => .parse fun _ => .parse fun _ =>
      pairsToReply_oneCall fo (rangeByScore_oneCall _ _ _ _ _) _
  · exact .done _

theorem handleZrevrangebyscore_oneCall (fo : FloatOps) (args : List Bytes) :
    OneCall (handleZrevrangebyscore fo args) := by
  unfold handleZrevrangebyscore
  split
  · exact .parse fun _ => .parse fun _ => .parse fun _ => .parse fun _ =>
      pairsToReply_oneCall fo (rangeByScore_oneCall _ _ _ _ _) _
  · exact .done _

theorem handleZrangebylex_oneCall (args : List Bytes) : OneCall (handleZrangebylex args) := by
  unfold handleZrangebylex
  split
  · split
    · exact .parse fun _ => .parse fun _ => .parse fun _ => .parse fun _ => .reply oneStep_read
    · exact .done _
  · exact .done _

theorem handleZrevrangebylex_oneCall (args : List Bytes) : OneCall (handleZrevrangebylex args) := by
  unfold handleZrevrangebylex
  split
  · split
    · exact .parse fun _ => .parse fun _ => .parse fun _ => .parse fun _ => .reply oneStep_read
    · exact .done _
  · exact .done _

theorem handleZrem_oneCall (args : List Bytes) : OneCall (handleZrem args) := by
  unfold handleZrem
  split
  · exact .parse fun _ => .parse fun _ => .reply (oneStep_cas _ _)
  · exact .done _

theorem handleZremrangebyrank_oneCall (args : List Bytes) :
    OneCall (handleZremrangebyrank args) := by
  unfold handleZremrangebyrank
  split
  · exact .parse fun _ => .parse fun _ => .parse fun _ => .reply (oneStep_zremrange _ _)
  · exact .done _

theorem handleZremrangebylex_oneCall (args : List Bytes) : OneCall (handleZremrangebylex args) := by
  unfold handleZremrangebylex
  split
  · exact .parse fun _ => .parse fun _ => .parse fun _ => .reply (oneStep_zremrange _ _)
  · exact .done _

theorem handleZlexcount_oneCall (args : List Bytes) : OneCall (handleZlexcount args) := by
  unfold handleZlexcount
  split
  · exact .parse fun _ => .parse fun _ => .parse fun _ => .reply oneStep_read
  · exact .done _

theorem handleZcard_oneCall (args : List Bytes) : OneCall (handleZcard args) := by
  unfold handleZcard
  split
  · exact .parse fun _ => .reply oneStep_read
  · exact .done _

theorem handleZremrangebyscore_oneCall (fo : FloatOps) (args : List Bytes) :
    OneCall (handleZremrangebyscore fo args) := by
  unfold handleZremrangebyscore
  split
  · exact .parse fun _ => .parse fun _ => .parse fun _ => .reply (oneStep_zremrange _ _)
  · exact .done _

theorem handleZincrby_oneCall (fo : FloatOps) (args : List Bytes) :
    OneCall (handleZincrby fo args) := by
  unfold handleZincrby
  split
  · exact .parse fun _ => .parse fun _ => .parse fun _ => .reply (oneStep_cas _ _)
  · exact .done _

theorem handleZscore_oneCall (fo : FloatOps) (args : List Bytes) :
    OneCall (handleZscore fo args) := by
  unfold handleZscore
  split
  · exact .parse fun _ => .parse fun _ => .reply oneStep_read
  · exact .done _

theorem handleZmscore_oneCall (fo : FloatOps) (args : List Bytes) :
    OneCall (handleZmscore fo args) := by
  unfold handleZmscore
  split
  · exact .parse fun _ => .parse fun _ => .reply oneStep_read
  · exact .done _

theorem handleZcount_oneCall (fo : FloatOps) (args : List Bytes) :
    OneCall (handleZcount fo args) := by
  unfold handleZcount
  split
  · exact .parse fun _ => .parse fun _ => .parse fun _ => .reply oneStep_read
  · exact .done _

theorem zpop_oneCall (fo : FloatOps) (key : String) (count : Nat) (fromMax : Bool) :
    OneCall (zpop fo key count fromMax) := by
  unfold zpop
  cases fromMax with
  | true => exact .reply (oneStep_zpop key count true)
  | false => exact .reply (oneStep_zpop key count false)

theorem handleZpop_oneCall (fo : FloatOps) (fromMax : Bool) (args : List Bytes) :
    OneCall (handleZpop fo fromMax args) := by
  unfold handleZpop
  split
  · exact .parse fun _ => zpop_oneCall fo _ _ _
  · exact .parse fun _ => .parse fun _ => zpop_oneCall fo _ _ _
  · exact .done _

theorem handleZrank_oneCall (reverse : Bool) (args : List Bytes) :
    OneCall (handleZrank reverse args) := by
  unfold handleZrank
  split
  · refine .parse fun key => .parse fun member => ?_
    cases reverse with
    | true => exact .reply oneStep_read
    | false => exact .reply oneStep_read
  · exact .done _

theorem zrandmember_oneCall (fo : FloatOps) (key : String) (count : Int) (withScores : Bool) :
    OneCall (zrandmember fo key count withScores) :=
  .parse fun _ => .reply oneStep_readRand

theorem handleZrandmember_oneCall (fo : FloatOps) (args : List Bytes) :
    OneCall (handleZrandmember fo args) := by
  unfold handleZrandmember
  split
  · exact .parse fun _ => .reply oneStep_readRand
  · exact .parse fun _ => .parse fun _ => zrandmember_oneCall fo _ _ _
  · refine .parse fun _ => .parse fun _ => .parse fun _ => ?_
    split
    · exact zrandmember_oneCall fo _ _ _
    · exact .done _
  · exact .done _

theorem handleZscan_oneCall (fo : FloatOps) (wild : String → String → Bool) (args : List Bytes) :
    OneCall (handleZscan fo wild args) :=
  .parse fun _ => .reply oneStep_read

/-! ## Streams -/

theorem handleXlen_oneCall (args : List Bytes) : OneCall (handleXlen args) := by
  unfold handleXlen
  split
  · exact .parse fun _ => .reply oneStep_read
  · exact .done _

theorem handleXdel_oneCall (args : List Bytes) : OneCall (handleXdel args) := by
  unfold handleXdel
  split
  · exact .parse fun _ => .parse fun _ => .reply (oneStep_cas _ _)
  · exact .done _

theorem handleXack_oneCall (args : List Bytes) : OneCall (handleXack args) := by
  unfold handleXack
  split
  · exact .parse fun _ => .parse fun _ => .parse fun _ => .reply (oneStep_cas _ _)
  · exact .done _

theorem handleXadd_oneCall (args : List Bytes) : OneCall (handleXadd args) := by
  unfold handleXadd
  split
  · refine .parse fun key => .parse fun nomkstream => .parse fun trim => ?_
    dsimp only
    split
    · exact .done _
    · refine .parse fun _ => .parse fun spec => ?_
      split
      · exact .done _
      · exact .parse fun _ => .reply (.timed _ (pure ()) (Prog.Requests.done _) fun now _ => _)
  · exact .done _

theorem xrangeReply_oneCall (key first second : Bytes) (count : Option (Bytes × Bytes))
    (reverse : Bool) : OneCall (xrangeReply key first second count reverse) :=
  .parse fun _ => .parse fun _ => .parse fun _ => .reply oneStep_read

theorem handleXrange_oneCall (reverse : Bool) (args : List Bytes) :
    OneCall (handleXrange reverse args) := by
  unfold handleXrange
  split
  · exact xrangeReply_oneCall _ _ _ _ _
  · exact xrangeReply_oneCall _ _ _ _ _
  · exact .done _

theorem handleXtrim_oneCall (args : List Bytes) : OneCall (handleXtrim args) := by
  unfold handleXtrim
  split
  · refine .parse fun _ => .parse fun _ => .parse fun parsed => ?_
    dsimp only
    split
    · exact .done _
    · exact .reply (oneStep_cas _ _)
  · exact .done _

theorem oneStep_group {key group : String} {f : ConsumerGroup → KV β}
    (h : ∀ g, ReadsClock (f g)) : OneStep (do
      let entry ← KV.loadEntry key
      let g ← Prog.ofExcept (Storage.groupOf key group entry)
      f g) :=
  oneStep_entry fun _ => readsClock_group h

theorem handleXinfo_oneCall (args : List Bytes) : OneCall (handleXinfo args) := by
  unfold handleXinfo
  split
  · exact .done _
  · refine .parse fun sub => ?_
    split
    · exact .done _
    · refine .parse fun key => .parse fun _ => .ends oneStep_read fun s => ?_
      cases s with
      | none => exact ⟨_, rfl⟩
      | some s => exact ⟨_, rfl⟩
    · exact .parse fun _ => .reply oneStep_read
    · exact .done _
    · exact .parse fun _ => .parse fun _ =>
        .reply (oneStep_group fun _ => .bind (.perform (.inl rfl)) fun _ => Prog.Requests.done _)
    · exact .done _
    · exact .done _
    · exact .done _

theorem handleXgroup_oneCall (args : List Bytes) : OneCall (handleXgroup args) := by
  unfold handleXgroup
  split
  · refine .parse fun _ => .parse fun _ => .parse fun op => ?_
    split
    · exact .done _
    · exact .reply (oneStep_cas _ _)
  · exact .done _

theorem handleXclaim_oneCall (args : List Bytes) : OneCall (handleXclaim args) := by
  unfold handleXclaim
  split
  · exact .parse fun _ => .parse fun _ => .parse fun _ => .parse fun _ => .parse fun _ =>
      .after .nowMs fun _ => .parse fun _ => .reply (oneStep_cas _ _)
  · exact .done _

theorem oneStep_xpendingSummary (key group : String) :
    OneStep (Storage.xpendingSummary key group) :=
  (StreamMethod.xpendingSummary key group).oneStep rfl

theorem pendingDetailReply_oneCall (key group : String) (idleMs : Option Int)
    (args : List Bytes) : OneCall (pendingDetailReply key group idleMs args) := by
  unfold pendingDetailReply
  split
  · exact .parse fun _ => .parse fun _ => .parse fun _ => .parse fun _ => .after .nowMs fun _ =>
      .reply (oneStep_group fun _ => Prog.Requests.done _)
  · exact .done _

theorem handleXpending_oneCall (args : List Bytes) : OneCall (handleXpending args) := by
  unfold handleXpending
  split
  · exact .parse fun _ => .parse fun _ => .reply (oneStep_xpendingSummary _ _)
  · refine .parse fun key => .parse fun group => .parse fun idle => ?_
    split
    · split
      · exact .done _
      · exact .parse fun _ => pendingDetailReply_oneCall _ _ _ _
    · exact pendingDetailReply_oneCall _ _ _ _
  · exact .done _

theorem handleXautoclaim_oneCall (args : List Bytes) : OneCall (handleXautoclaim args) := by
  unfold handleXautoclaim
  split
  · exact .parse fun _ => .parse fun _ => .parse fun _ => .parse fun _ => .parse fun _ =>
      .parse fun _ => .after .nowMs fun _ => .reply (oneStep_cas _ _)
  · exact .done _

/-! ## The table -/

/-- Commands about several keys, or about the store as a whole. -/
def severalCalls : List String :=
  ["INFO", "GEOSEARCH", "GEOSEARCHSTORE", "DBSIZE", "FLUSHDB", "FLUSHALL", "RANDOMKEY", "DEL",
    "UNLINK", "COPY", "RESTORE", "EXISTS", "TOUCH", "RENAME", "RENAMENX", "KEYS", "SCAN", "BITOP",
    "PFCOUNT", "PFMERGE", "LCS", "MGET", "MSET", "MSETNX", "LMOVE", "RPOPLPUSH", "SINTER",
    "SUNION", "SDIFF", "SINTERCARD", "SINTERSTORE", "SUNIONSTORE", "SDIFFSTORE", "SMOVE", "ZINTER",
    "ZUNION", "ZDIFF", "ZINTERCARD", "ZINTERSTORE", "ZUNIONSTORE", "ZDIFFSTORE", "XREAD",
    "XREADGROUP"]

section Table

variable (p : Process)

theorem serverCommands_oneCall : ∀ c ∈ serverCommands p,
    (∀ args, OneCall (c.2 args)) ∨ c.1 ∈ severalCalls := by
  simp only [serverCommands, List.forall_mem_cons]
  exact ⟨.inl (pureHandler_oneCall _), .inl (pureHandler_oneCall _), .inl handleTime_oneCall,
    .inr (by decide), .inl (pureHandler_oneCall _), .inl (pureHandler_oneCall _),
    .inl (pureHandler_oneCall _), .inl (pureHandler_oneCall _), .inl handleObject_oneCall,
    .inl (pureHandler_oneCall _), .inl (pureHandler_oneCall _), .inl (pureHandler_oneCall _),
    .inl (pureHandler_oneCall _), .inl (pureHandler_oneCall _), .inl (pureHandler_oneCall _),
    .inl (pureHandler_oneCall _), .inl (pureHandler_oneCall _), .inl (pureHandler_oneCall _),
    .inl (pureHandler_oneCall _), .inl (handleMemory_oneCall _), .inl (pureHandler_oneCall _),
    .inl (pureHandler_oneCall _), .inl (pureHandler_oneCall _), .inl (pureHandler_oneCall _),
    .inl (pureHandler_oneCall _), .inl (pureHandler_oneCall _), .inl (pureHandler_oneCall _),
    .inl (pureHandler_oneCall _), .inl (pureHandler_oneCall _), .inl (pureHandler_oneCall _),
    .inl (pureHandler_oneCall _), .inl (pureHandler_oneCall _), nofun⟩

theorem geoCommands_oneCall : ∀ c ∈ geoCommands p,
    (∀ args, OneCall (c.2 args)) ∨ c.1 ∈ severalCalls := by
  simp only [geoCommands, List.forall_mem_cons]
  exact ⟨.inl (handleGeoadd_oneCall _ _), .inl (handleGeopos_oneCall _ _),
    .inl (handleGeodist_oneCall _ _), .inl (handleGeohash_oneCall _ _), .inr (by decide),
    .inr (by decide), nofun⟩

theorem keyCommands_oneCall : ∀ c ∈ keyCommands p,
    (∀ args, OneCall (c.2 args)) ∨ c.1 ∈ severalCalls := by
  simp only [keyCommands, List.forall_mem_cons]
  exact ⟨.inr (by decide), .inr (by decide), .inr (by decide), .inr (by decide), .inr (by decide),
    .inr (by decide), .inr (by decide), .inl (handleDump_oneCall _), .inr (by decide),
    .inr (by decide), .inr (by decide), .inl (handleExpiry_oneCall fun _ => deadline_clocked _),
    .inl (handleExpiry_oneCall fun _ => .done _), .inl (handleExpiry_oneCall deadline_clocked),
    .inl (handleExpiry_oneCall fun _ => .done _), .inl handlePersist_oneCall,
    .inl (handleTtlOf_oneCall oneStep_ttlMs), .inl (handleTtlOf_oneCall oneStep_ttlMs),
    .inl (handleTtlOf_oneCall oneStep_expireTimeMs),
    .inl (handleTtlOf_oneCall oneStep_expireTimeMs), .inr (by decide), .inr (by decide),
    .inr (by decide), .inr (by decide), .inl handleType_oneCall, nofun⟩

theorem stringCommands_oneCall : ∀ c ∈ stringCommands p,
    (∀ args, OneCall (c.2 args)) ∨ c.1 ∈ severalCalls := by
  simp only [stringCommands, List.forall_mem_cons]
  exact ⟨.inl handleGetbit_oneCall, .inl handleSetbit_oneCall, .inl handleBitcount_oneCall,
    .inl handleBitpos_oneCall, .inr (by decide), .inl handlePfadd_oneCall, .inr (by decide),
    .inr (by decide), .inl handleGet_oneCall, .inl handleGetex_oneCall, .inl handleGetset_oneCall,
    .inl handleGetdel_oneCall, .inl handleGetrange_oneCall, .inl handleSetrange_oneCall,
    .inl handleStrlen_oneCall, .inr (by decide), .inl handleAppend_oneCall, .inl handleSet_oneCall,
    .inl handleSetnx_oneCall, .inl handleSetex_oneCall, .inr (by decide), .inr (by decide),
    .inr (by decide), .inl (handleIncrby_oneCall _),
    .inl fun args => .parse fun delta => handleIncrby_oneCall delta args,
    .inl (handleIncrbyfloat_oneCall _), .inl (handleIncrby_oneCall _), .inl handleDecrby_oneCall,
    nofun⟩

theorem hashCommands_oneCall : ∀ c ∈ hashCommands p,
    (∀ args, OneCall (c.2 args)) ∨ c.1 ∈ severalCalls := by
  simp only [hashCommands, List.forall_mem_cons]
  exact ⟨.inl handleHset_oneCall, .inl handleHsetnx_oneCall, .inl handleHget_oneCall,
    .inl handleHdel_oneCall, .inl handleHgetall_oneCall, .inl handleHlen_oneCall,
    .inl handleHkeys_oneCall, .inl handleHvals_oneCall, .inl handleHexists_oneCall,
    .inl handleHstrlen_oneCall, .inl handleHmget_oneCall, .inl handleHincrby_oneCall,
    .inl (handleHincrbyfloat_oneCall _), .inl handleHrandfield_oneCall,
    .inl (handleHscan_oneCall _), nofun⟩

theorem listCommands_oneCall : ∀ c ∈ listCommands,
    (∀ args, OneCall (c.2 args)) ∨ c.1 ∈ severalCalls := by
  simp only [listCommands, List.forall_mem_cons]
  exact ⟨.inl (handlePush_oneCall _), .inl (handlePush_oneCall _), .inl (handlePushx_oneCall _),
    .inl (handlePushx_oneCall _), .inl (handlePop_oneCall _), .inl (handlePop_oneCall _),
    .inl handleLrange_oneCall, .inl handleLlen_oneCall, .inl handleLindex_oneCall,
    .inl handleLset_oneCall, .inl handleLrem_oneCall, .inl handleLinsert_oneCall,
    .inl handleLtrim_oneCall, .inr (by decide), .inr (by decide), .inl handleLpos_oneCall, nofun⟩

theorem setCommands_oneCall : ∀ c ∈ setCommands p,
    (∀ args, OneCall (c.2 args)) ∨ c.1 ∈ severalCalls := by
  simp only [setCommands, List.forall_mem_cons]
  exact ⟨.inl handleSadd_oneCall, .inl handleSrem_oneCall, .inl handleSmembers_oneCall,
    .inl handleSismember_oneCall, .inl handleSmismember_oneCall, .inl handleScard_oneCall,
    .inr (by decide), .inr (by decide), .inr (by decide), .inr (by decide), .inr (by decide),
    .inr (by decide), .inr (by decide), .inr (by decide), .inl handleSpop_oneCall,
    .inl handleSrandmember_oneCall, .inl (handleSscan_oneCall _), nofun⟩

theorem zsetCommands_oneCall : ∀ c ∈ zsetCommands p,
    (∀ args, OneCall (c.2 args)) ∨ c.1 ∈ severalCalls := by
  simp only [zsetCommands, List.forall_mem_cons]
  exact ⟨.inl (handleZadd_oneCall _), .inr (by decide), .inr (by decide), .inr (by decide),
    .inr (by decide), .inr (by decide), .inr (by decide), .inr (by decide),
    .inl handleZrem_oneCall, .inl (handleZincrby_oneCall _), .inl (handleZrange_oneCall _),
    .inl (handleZrevrange_oneCall _), .inl (handleZrangebyscore_oneCall _),
    .inl (handleZrevrangebyscore_oneCall _), .inl handleZrangebylex_oneCall,
    .inl handleZrevrangebylex_oneCall, .inl handleZlexcount_oneCall,
    .inl handleZremrangebylex_oneCall, .inl handleZremrangebyrank_oneCall,
    .inl (handleZremrangebyscore_oneCall _), .inl (handleZpop_oneCall _ _),
    .inl (handleZpop_oneCall _ _), .inl (handleZscore_oneCall _), .inl handleZcard_oneCall,
    .inl (handleZrank_oneCall _), .inl (handleZrank_oneCall _), .inl (handleZcount_oneCall _),
    .inl (handleZmscore_oneCall _), .inl (handleZrandmember_oneCall _),
    .inl (handleZscan_oneCall _ _), nofun⟩

theorem streamCommands_oneCall : ∀ c ∈ streamCommands,
    (∀ args, OneCall (c.2 args)) ∨ c.1 ∈ severalCalls := by
  simp only [streamCommands, List.forall_mem_cons]
  exact ⟨.inl handleXadd_oneCall, .inl handleXlen_oneCall, .inl (handleXrange_oneCall _),
    .inl (handleXrange_oneCall _), .inl handleXdel_oneCall, .inl handleXtrim_oneCall,
    .inr (by decide), .inl handleXinfo_oneCall, .inl handleXgroup_oneCall, .inr (by decide),
    .inl handleXack_oneCall, .inl handleXclaim_oneCall, .inl handleXpending_oneCall,
    .inl handleXautoclaim_oneCall, nofun⟩

theorem commandTable_oneCall : ∀ c ∈ commandTable p,
    (∀ args, OneCall (c.2 args)) ∨ c.1 ∈ severalCalls := by
  intro c hc
  simp only [commandTable, List.mem_append] at hc
  rcases hc with (((((((hc | hc) | hc) | hc) | hc) | hc) | hc) | hc) | hc
  · exact serverCommands_oneCall p c hc
  · exact geoCommands_oneCall p c hc
  · exact keyCommands_oneCall p c hc
  · exact stringCommands_oneCall p c hc
  · exact hashCommands_oneCall p c hc
  · exact listCommands_oneCall c hc
  · exact setCommands_oneCall p c hc
  · exact zsetCommands_oneCall p c hc
  · exact streamCommands_oneCall c hc

/-- The command is about one key, or it is refused. -/
def AboutOneKey (tokens : List Bytes) : Prop :=
  ∀ cmdBytes args cmd, tokens = cmdBytes :: args → commandName cmdBytes = .ok cmd →
    cmd ∉ severalCalls

theorem run_oneCall {tokens : List Bytes} (h : AboutOneKey tokens) : OneCall (run p tokens) := by
  refine run_cases p OneCall (fun e => .done _) fun cmdBytes args cmd handler htokens hname hmem => ?_
  rcases commandTable_oneCall p _ hmem with hone | hseveral
  · exact hone args
  · exact absurd hseveral (h cmdBytes args cmd htokens hname)

end Table

end Commands

end RustyAnt
