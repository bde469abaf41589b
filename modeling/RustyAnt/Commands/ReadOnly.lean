import RustyAnt.Commands.Dispatch
import RustyAnt.Storage.Keeps

/-!
# Commands that write nothing
-/

namespace RustyAnt

open Lib

namespace Commands

open KV (ReadOnly)

/-! ## Programs that the handlers share -/

theorem kind_readOnly (key : String) : (Storage.kind key).ReadOnly := .reply (.loadEntry key)

theorem existsKey_readOnly (key : String) : (Storage.existsKey key).ReadOnly :=
  .reply (.loadEntry key)

theorem countKeysWhere_readOnly {f : String → KV Bool} (hf : ∀ key, (f key).ReadOnly)
    (args : List Bytes) (count : Int) : (countKeysWhere f args count).ReadOnly := by
  induction args generalizing count with
  | nil => exact .done _
  | cons arg args ih => exact .parse fun key => .bind (hf key) fun hit => ih _

theorem mget_readOnly (keys : List String) : (Storage.mget keys).ReadOnly := by
  induction keys with
  | nil => exact .done _
  | cons key keys ih => exact .bind (.read _ _ _ _) fun _ => .reply ih

theorem loadStrings_readOnly (keys : List String) : (loadStrings keys).ReadOnly := by
  induction keys with
  | nil => exact .done _
  | cons key keys ih => exact .bind (.read _ _ _ _) fun _ => .reply ih

theorem loadSetsSeq_readOnly (keys : List String) : (Storage.loadSetsSeq keys).ReadOnly := by
  induction keys with
  | nil => exact .done _
  | cons key keys ih => exact .bind (.read _ _ _ _) fun _ => .reply ih

theorem compute_readOnly (op : SetOp) (keys : List String) : (op.compute keys).ReadOnly := by
  cases op with
  | inter => exact .reply (loadSetsSeq_readOnly keys)
  | union => exact .reply (loadSetsSeq_readOnly keys)
  | diff => exact .reply (loadSetsSeq_readOnly keys)

theorem loadZsetOrSet_readOnly (key : String) : (loadZsetOrSet key).ReadOnly := by
  apply KV.ReadOnly.bind (kind_readOnly key)
  intro kind
  split
  · exact .read _ _ _ _
  · exact .reply (.read _ _ _ _)
  · exact .done _
  · exact .done _

theorem loadWeighted_readOnly (fo : FloatOps) (inputs : List (String × F64)) :
    (loadWeighted fo inputs).ReadOnly := by
  induction inputs with
  | nil => exact .done _
  | cons input inputs ih => exact .bind (loadZsetOrSet_readOnly input.1) fun _ => .reply ih

theorem loadAll_readOnly (keys : List String) : (loadAll keys).ReadOnly := by
  induction keys with
  | nil => exact .done _
  | cons key keys ih => exact .bind (loadZsetOrSet_readOnly key) fun _ => .reply ih

theorem computeZsetAggregate_readOnly (fo : FloatOps) (op : ZStoreOp) (cmdName : String)
    (allowWithscores : Bool) (args : List Bytes) :
    (computeZsetAggregate fo op cmdName allowWithscores args).ReadOnly := by
  cases args with
  | nil => exact .done _
  | cons numkeys rest =>
      exact .parse fun _ => .parse fun _ => .parse fun _ => .reply (loadWeighted_readOnly fo _)

theorem runGeoSearch_readOnly (fo : FloatOps) (lm : Libm) (key : String) (opts : GeoSearchOpts) :
    (runGeoSearch fo lm key opts).ReadOnly := by
  have hcentre : (resolveCentre fo lm key opts.centre).ReadOnly := by
    cases opts.centre with
    | lonLat lon lat => exact .done _
    | member m =>
        apply KV.ReadOnly.bind (.read _ _ _ _)
        intro score
        cases score with
        | none => exact .done _
        | some score => exact .done _
  exact .bind hcentre fun _ => .reply (.read _ _ _ _)

theorem groupOf_readOnly {α : Type} {key group : String} {f : ConsumerGroup → KV α}
    (hf : ∀ g, (f g).ReadOnly) :
    KV.ReadOnly (do
      let entry ← KV.loadEntry key
      let g ← Prog.ofExcept (Storage.groupOf key group entry)
      f g) :=
  .bind (.loadEntry key) fun _ => .parse hf

/-! ## Server -/

theorem handleTime_readOnly (args : List Bytes) : (handleTime args).ReadOnly := by
  unfold handleTime
  split
  · exact .reply .nanos
  · exact .done _

theorem handleInfo_readOnly (info : ServerInfo) (args : List Bytes) :
    (handleInfo info args).ReadOnly := by
  apply KV.ReadOnly.parse
  intro requested
  have hkeyspace : ∀ server clients stats : String, KV.ReadOnly (do
      if infoSectionIncluded requested "keyspace" then
        let keyspace := keyspaceSection (← Storage.keyspaceStats)
        return RespReply.text (server ++ clients ++ stats ++ keyspace)
      else
        return RespReply.text (server ++ clients ++ stats ++ "")) := by
    intro server clients stats
    split
    · exact .reply (.reply (.perform trivial))
    · exact .done _
  dsimp only
  split
  · exact .bind .nowMs fun _ => hkeyspace _ _ _
  · exact hkeyspace _ _ _

theorem objectStat_readOnly (n : Int) (key : String) : (objectStat n key).ReadOnly := by
  apply KV.ReadOnly.bind (existsKey_readOnly key)
  intro found
  split
  · exact .done _
  · exact .done _

theorem objectOf_readOnly (key sub : String) : (objectOf key sub).ReadOnly := by
  unfold objectOf
  split
  · apply KV.ReadOnly.bind (kind_readOnly key)
    intro kind
    cases kind with
    | none => exact .done _
    | some kind => exact .done _
  · exact objectStat_readOnly 0 key
  · exact objectStat_readOnly 1 key
  · exact .done _
  · exact .done _

theorem handleObject_readOnly (args : List Bytes) : (handleObject args).ReadOnly := by
  apply KV.ReadOnly.parse
  intro sub
  split
  · exact .done _
  · split
    · exact .parse fun key => objectOf_readOnly key sub
    · exact .done _

theorem handleMemory_readOnly (fo : FloatOps) (args : List Bytes) :
    (handleMemory fo args).ReadOnly := by
  apply KV.ReadOnly.parse
  intro sub
  split
  · exact .parse fun key => .reply (.reply (.loadEntry key))
  all_goals exact .done _

/-! ## Geo -/

theorem handleGeopos_readOnly (fo : FloatOps) (lm : Libm) (args : List Bytes) :
    (handleGeopos fo lm args).ReadOnly := by
  unfold handleGeopos
  split
  · exact .parse fun _ => .parse fun _ => .reply (.read _ _ _ _)
  · exact .done _

theorem geodist_readOnly (fo : FloatOps) (lm : Libm) (key m1 m2 : String) (unit : GeoUnit) :
    (geodist fo lm key m1 m2 unit).ReadOnly := by
  apply KV.ReadOnly.bind (.read _ _ _ _)
  intro scores
  split
  · exact .done _
  · exact .done _

theorem handleGeodist_readOnly (fo : FloatOps) (lm : Libm) (args : List Bytes) :
    (handleGeodist fo lm args).ReadOnly := by
  unfold handleGeodist
  split
  · exact .parse fun _ => .parse fun _ => .parse fun _ => geodist_readOnly fo lm _ _ _ _
  · exact .parse fun _ => .parse fun _ => .parse fun _ => .parse fun _ => .parse fun _ =>
      geodist_readOnly fo lm _ _ _ _
  · exact .done _

theorem handleGeohash_readOnly (fo : FloatOps) (lm : Libm) (args : List Bytes) :
    (handleGeohash fo lm args).ReadOnly := by
  unfold handleGeohash
  split
  · exact .parse fun _ => .parse fun _ => .reply (.read _ _ _ _)
  · exact .done _

theorem handleGeosearch_readOnly (fo : FloatOps) (lm : Libm) (args : List Bytes) :
    (handleGeosearch fo lm args).ReadOnly := by
  unfold handleGeosearch
  split
  · split
    · exact .done _
    · exact .parse fun _ => .parse fun _ => .reply (runGeoSearch_readOnly fo lm _ _)
  · exact .done _

/-! ## Keys -/

theorem handleDbsize_readOnly (args : List Bytes) : (handleDbsize args).ReadOnly := by
  unfold handleDbsize
  split
  · exact .reply (.perform trivial)
  · exact .done _

theorem handleRandomkey_readOnly (wild : String → String → Bool) (args : List Bytes) :
    (handleRandomkey wild args).ReadOnly := by
  unfold handleRandomkey
  split
  · apply KV.ReadOnly.reply
    apply KV.ReadOnly.bind (.reply .walk)
    intro all
    split
    · exact .done _
    · exact .reply .nanos
  · exact .done _

theorem handleDump_readOnly (fo : FloatOps) (args : List Bytes) :
    (handleDump fo args).ReadOnly := by
  unfold handleDump
  split
  · apply KV.ReadOnly.parse
    intro key
    apply KV.ReadOnly.reply
    apply KV.ReadOnly.bind (.loadEntry key)
    intro entry
    cases entry with
    | none => exact .done _
    | some e => exact .reply (.done _)
  · exact .done _

theorem handleExists_readOnly (args : List Bytes) : (handleExists args).ReadOnly := by
  unfold handleExists
  split
  · exact .done _
  · exact .reply (countKeysWhere_readOnly existsKey_readOnly args 0)

theorem handleTouch_readOnly (args : List Bytes) : (handleTouch args).ReadOnly := by
  unfold handleTouch
  split
  · exact .done _
  · exact .reply (countKeysWhere_readOnly existsKey_readOnly args 0)

theorem handleTtlOf_readOnly {cmd : String} {look : String → KV TtlResult} {scale : Int → Int}
    (hlook : ∀ key, (look key).ReadOnly) (args : List Bytes) :
    (handleTtlOf cmd look scale args).ReadOnly := by
  unfold handleTtlOf
  split
  · exact .parse fun key => .reply (hlook key)
  · exact .done _

theorem ttlMs_readOnly (key : String) : (Storage.ttlMs key).ReadOnly := by
  apply KV.ReadOnly.bind (.loadEntry key)
  intro entry
  split
  · exact .done _
  · split
    · exact .done _
    · exact .reply .nowMs

theorem expireTimeMs_readOnly (key : String) : (Storage.expireTimeMs key).ReadOnly := by
  apply KV.ReadOnly.bind (.loadEntry key)
  intro entry
  cases entry with
  | none => exact .done _
  | some e => exact .done _

theorem handleKeys_readOnly (wild : String → String → Bool) (args : List Bytes) :
    (handleKeys wild args).ReadOnly := by
  unfold handleKeys
  split
  · exact .parse fun _ => .reply (.reply .walk)
  · exact .done _

theorem handleScan_readOnly (wild : String → String → Bool) (args : List Bytes) :
    (handleScan wild args).ReadOnly := by
  unfold handleScan
  split
  · exact .parse fun _ => .parse fun _ => .reply (.reply (.perform trivial))
  · exact .done _

theorem handleType_readOnly (args : List Bytes) : (handleType args).ReadOnly := by
  unfold handleType
  split
  · exact .parse fun _ => .reply (kind_readOnly _)
  · exact .done _

/-! ## Strings -/

theorem handleGetbit_readOnly (args : List Bytes) : (handleGetbit args).ReadOnly := by
  unfold handleGetbit
  split
  · exact .parse fun _ => .parse fun _ => .reply (.read _ _ _ _)
  · exact .done _

theorem handleBitcount_readOnly (args : List Bytes) : (handleBitcount args).ReadOnly := by
  unfold handleBitcount
  split
  · exact .parse fun _ => .reply (.read _ _ _ _)
  · split
    · exact .done _
    · apply KV.ReadOnly.parse
      intro key
      apply KV.ReadOnly.bind (.read _ _ _ _)
      intro data
      cases data with
      | none => exact .done _
      | some data =>
          apply KV.ReadOnly.parse
          intro start
          apply KV.ReadOnly.parse
          intro stop
          apply KV.ReadOnly.parse
          intro inBits
          dsimp only
          split
          · exact .done _
          · exact .done _
  · exact .done _

theorem handleBitpos_readOnly (args : List Bytes) : (handleBitpos args).ReadOnly := by
  unfold handleBitpos
  split
  · split
    · exact .done _
    · apply KV.ReadOnly.parse
      intro key
      apply KV.ReadOnly.parse
      intro target
      apply KV.ReadOnly.bind (.read _ _ _ _)
      intro data
      dsimp only
      split
      · exact .done _
      · exact .parse fun _ => .parse fun _ => .done _
  · exact .done _

theorem pfcount_readOnly (fo : FloatOps) (keys : List String) :
    (Storage.pfcount fo keys).ReadOnly := by
  unfold Storage.pfcount
  split
  · apply KV.ReadOnly.bind (.loadEntry _)
    intro entry
    apply KV.ReadOnly.parse
    intro found
    cases found with
    | none => exact .done _
    | some p => exact .done _
  · exact .bind (Storage.mergeKeys_readOnly _ _) fun _ => .done _

theorem handlePfcount_readOnly (fo : FloatOps) (args : List Bytes) :
    (handlePfcount fo args).ReadOnly := by
  unfold handlePfcount
  split
  · exact .parse fun _ => .reply (pfcount_readOnly fo _)
  · exact .done _

theorem handleGet_readOnly (args : List Bytes) : (handleGet args).ReadOnly := by
  unfold handleGet
  split
  · exact .parse fun _ => .reply (.read _ _ _ _)
  · exact .done _

theorem handleGetrange_readOnly (args : List Bytes) : (handleGetrange args).ReadOnly := by
  unfold handleGetrange
  split
  · exact .parse fun _ => .parse fun _ => .parse fun _ => .reply (.read _ _ _ _)
  · exact .done _

theorem handleStrlen_readOnly (args : List Bytes) : (handleStrlen args).ReadOnly := by
  unfold handleStrlen
  split
  · exact .parse fun _ => .reply (.read _ _ _ _)
  · exact .done _

theorem handleLcs_readOnly (args : List Bytes) : (handleLcs args).ReadOnly := by
  unfold handleLcs
  split
  · exact .parse fun _ => .parse fun _ => .parse fun _ => .parse fun _ =>
      .bind (.read _ _ _ _) fun _ => .reply (.read _ _ _ _)
  · exact .done _

theorem handleMget_readOnly (args : List Bytes) : (handleMget args).ReadOnly := by
  unfold handleMget
  split
  · exact .parse fun _ => .reply (mget_readOnly _)
  · exact .done _

/-! ## Hashes -/

theorem handleHget_readOnly (args : List Bytes) : (handleHget args).ReadOnly := by
  unfold handleHget
  split
  · exact .parse fun _ => .parse fun _ => .reply (.read _ _ _ _)
  · exact .done _

theorem handleHgetall_readOnly (args : List Bytes) : (handleHgetall args).ReadOnly := by
  unfold handleHgetall
  split
  · exact .parse fun _ => .reply (.read _ _ _ _)
  · exact .done _

theorem handleHlen_readOnly (args : List Bytes) : (handleHlen args).ReadOnly := by
  unfold handleHlen
  split
  · exact .parse fun _ => .reply (.read _ _ _ _)
  · exact .done _

theorem handleHkeys_readOnly (args : List Bytes) : (handleHkeys args).ReadOnly := by
  unfold handleHkeys
  split
  · exact .parse fun _ => .reply (.read _ _ _ _)
  · exact .done _

theorem handleHvals_readOnly (args : List Bytes) : (handleHvals args).ReadOnly := by
  unfold handleHvals
  split
  · exact .parse fun _ => .reply (.read _ _ _ _)
  · exact .done _

theorem handleHexists_readOnly (args : List Bytes) : (handleHexists args).ReadOnly := by
  unfold handleHexists
  split
  · exact .parse fun _ => .parse fun _ => .reply (.read _ _ _ _)
  · exact .done _

theorem handleHstrlen_readOnly (args : List Bytes) : (handleHstrlen args).ReadOnly := by
  unfold handleHstrlen
  split
  · exact .parse fun _ => .parse fun _ => .reply (.read _ _ _ _)
  · exact .done _

theorem handleHmget_readOnly (args : List Bytes) : (handleHmget args).ReadOnly := by
  unfold handleHmget
  split
  · exact .parse fun _ => .parse fun _ => .reply (.read _ _ _ _)
  · exact .done _

theorem hrandfield_readOnly (key : String) (count : Int) (withValues : Bool) :
    (hrandfield key count withValues).ReadOnly :=
  .parse fun _ => .reply (.readRand _ _ _ _)

theorem handleHrandfield_readOnly (args : List Bytes) : (handleHrandfield args).ReadOnly := by
  unfold handleHrandfield
  split
  · exact .parse fun _ => .reply (.readRand _ _ _ _)
  · exact .parse fun _ => .parse fun _ => hrandfield_readOnly _ _ _
  · apply KV.ReadOnly.parse
    intro key
    apply KV.ReadOnly.parse
    intro count
    apply KV.ReadOnly.parse
    intro isWord
    split
    · exact hrandfield_readOnly _ _ _
    · exact .done _
  · exact .done _

theorem handleHscan_readOnly (wild : String → String → Bool) (args : List Bytes) :
    (handleHscan wild args).ReadOnly :=
  .parse fun _ => .reply (.read _ _ _ _)

/-! ## Lists -/

theorem handleLrange_readOnly (args : List Bytes) : (handleLrange args).ReadOnly := by
  unfold handleLrange
  split
  · exact .parse fun _ => .parse fun _ => .parse fun _ => .reply (.read _ _ _ _)
  · exact .done _

theorem handleLlen_readOnly (args : List Bytes) : (handleLlen args).ReadOnly := by
  unfold handleLlen
  split
  · exact .parse fun _ => .reply (.read _ _ _ _)
  · exact .done _

theorem handleLindex_readOnly (args : List Bytes) : (handleLindex args).ReadOnly := by
  unfold handleLindex
  split
  · exact .parse fun _ => .parse fun _ => .reply (.read _ _ _ _)
  · exact .done _

theorem handleLpos_readOnly (args : List Bytes) : (handleLpos args).ReadOnly := by
  unfold handleLpos
  split
  · exact .parse fun _ => .parse fun _ => .reply (.read _ _ _ _)
  · exact .done _

/-! ## Sets -/

theorem handleSmembers_readOnly (args : List Bytes) : (handleSmembers args).ReadOnly := by
  unfold handleSmembers
  split
  · exact .parse fun _ => .reply (.read _ _ _ _)
  · exact .done _

theorem handleSismember_readOnly (args : List Bytes) : (handleSismember args).ReadOnly := by
  unfold handleSismember
  split
  · exact .parse fun _ => .parse fun _ => .reply (.read _ _ _ _)
  · exact .done _

theorem handleSmismember_readOnly (args : List Bytes) : (handleSmismember args).ReadOnly := by
  unfold handleSmismember
  split
  · exact .parse fun _ => .parse fun _ => .reply (.read _ _ _ _)
  · exact .done _

theorem handleScard_readOnly (args : List Bytes) : (handleScard args).ReadOnly := by
  unfold handleScard
  split
  · exact .parse fun _ => .reply (.read _ _ _ _)
  · exact .done _

theorem handleSetAlgebra_readOnly (op : SetOp) (args : List Bytes) :
    (handleSetAlgebra op args).ReadOnly := by
  unfold handleSetAlgebra
  split
  · exact .done _
  · exact .parse fun _ => .reply (compute_readOnly op _)

theorem handleSintercard_readOnly (args : List Bytes) : (handleSintercard args).ReadOnly := by
  unfold handleSintercard
  split
  · exact .done _
  · exact .parse fun _ => .parse fun _ => .reply (.reply (loadSetsSeq_readOnly _))

theorem handleSrandmember_readOnly (args : List Bytes) : (handleSrandmember args).ReadOnly := by
  unfold handleSrandmember
  split
  · exact .parse fun _ => .reply (.readRand _ _ _ _)
  · exact .parse fun _ => .parse fun _ => .parse fun _ => .reply (.readRand _ _ _ _)
  · exact .done _

theorem handleSscan_readOnly (x : Externs) (args : List Bytes) : (handleSscan x args).ReadOnly :=
  .parse fun _ => .reply (.read _ _ _ _)

/-! ## Sorted sets -/

theorem handleZsetAggregate_readOnly (fo : FloatOps) (op : ZStoreOp) (args : List Bytes) :
    (handleZsetAggregate fo op args).ReadOnly :=
  .reply (computeZsetAggregate_readOnly fo op _ _ args)

theorem handleZintercard_readOnly (fo : FloatOps) (args : List Bytes) :
    (handleZintercard fo args).ReadOnly := by
  unfold handleZintercard
  split
  · exact .done _
  · exact .parse fun _ => .parse fun _ => .reply (loadAll_readOnly _)

theorem rangeByRank_readOnly (key : String) (start stop : Int) (rev : Bool) :
    (rangeByRank key start stop rev).ReadOnly := by
  apply KV.ReadOnly.bind (.read _ _ _ _)
  intro items
  dsimp only
  split
  · exact .done _
  · exact .done _

theorem executeZrange_readOnly (fo : FloatOps) (key : String) (lo hi : Bytes) (opts : ZRangeOpts) :
    (executeZrange fo key lo hi opts).ReadOnly := by
  unfold executeZrange
  dsimp only
  cases opts.mode with
  | rank => exact .parse fun _ => .parse fun _ => .reply (rangeByRank_readOnly _ _ _ _)
  | score => exact .parse fun _ => .parse fun _ => .reply (.reply (.read _ _ _ _))
  | lex => exact .parse fun _ => .parse fun _ => .reply (.reply (.read _ _ _ _))

theorem handleZrange_readOnly (fo : FloatOps) (args : List Bytes) :
    (handleZrange fo args).ReadOnly := by
  unfold handleZrange
  split
  · exact .parse fun _ => .parse fun _ => executeZrange_readOnly fo _ _ _ _
  · exact .done _

theorem handleZrevrange_readOnly (fo : FloatOps) (args : List Bytes) :
    (handleZrevrange fo args).ReadOnly := by
  unfold handleZrevrange
  split
  · exact .parse fun _ => .parse fun _ => executeZrange_readOnly fo _ _ _ _
  · exact .done _

theorem handleZrangebyscore_readOnly (fo : FloatOps) (args : List Bytes) :
    (handleZrangebyscore fo args).ReadOnly := by
  unfold handleZrangebyscore
  split
  · exact .parse fun _ => .parse fun _ => .parse fun _ => .parse fun _ => .reply (.reply (.read _ _ _ _))
  · exact .done _

theorem handleZrevrangebyscore_readOnly (fo : FloatOps) (args : List Bytes) :
    (handleZrevrangebyscore fo args).ReadOnly := by
  unfold handleZrevrangebyscore
  split
  · exact .parse fun _ => .parse fun _ => .parse fun _ => .parse fun _ => .reply (.reply (.read _ _ _ _))
  · exact .done _

theorem handleZrangebylex_readOnly (args : List Bytes) : (handleZrangebylex args).ReadOnly := by
  unfold handleZrangebylex
  split
  · split
    · exact .parse fun _ => .parse fun _ => .parse fun _ => .parse fun _ => .reply (.read _ _ _ _)
    · exact .done _
  · exact .done _

theorem handleZrevrangebylex_readOnly (args : List Bytes) :
    (handleZrevrangebylex args).ReadOnly := by
  unfold handleZrevrangebylex
  split
  · split
    · exact .parse fun _ => .parse fun _ => .parse fun _ => .parse fun _ => .reply (.read _ _ _ _)
    · exact .done _
  · exact .done _

theorem handleZlexcount_readOnly (args : List Bytes) : (handleZlexcount args).ReadOnly := by
  unfold handleZlexcount
  split
  · exact .parse fun _ => .parse fun _ => .parse fun _ => .reply (.read _ _ _ _)
  · exact .done _

theorem handleZcount_readOnly (fo : FloatOps) (args : List Bytes) :
    (handleZcount fo args).ReadOnly := by
  unfold handleZcount
  split
  · exact .parse fun _ => .parse fun _ => .parse fun _ => .reply (.read _ _ _ _)
  · exact .done _

theorem handleZscore_readOnly (fo : FloatOps) (args : List Bytes) :
    (handleZscore fo args).ReadOnly := by
  unfold handleZscore
  split
  · exact .parse fun _ => .parse fun _ => .reply (.read _ _ _ _)
  · exact .done _

theorem handleZmscore_readOnly (fo : FloatOps) (args : List Bytes) :
    (handleZmscore fo args).ReadOnly := by
  unfold handleZmscore
  split
  · exact .parse fun _ => .parse fun _ => .reply (.read _ _ _ _)
  · exact .done _

theorem handleZcard_readOnly (args : List Bytes) : (handleZcard args).ReadOnly := by
  unfold handleZcard
  split
  · exact .parse fun _ => .reply (.read _ _ _ _)
  · exact .done _

theorem handleZrank_readOnly (reverse : Bool) (args : List Bytes) :
    (handleZrank reverse args).ReadOnly := by
  unfold handleZrank
  split
  · apply KV.ReadOnly.parse
    intro key
    apply KV.ReadOnly.parse
    intro member
    dsimp only
    split
    · exact .reply (.read _ _ _ _)
    · exact .reply (.read _ _ _ _)
  · exact .done _

theorem zrandmember_readOnly (fo : FloatOps) (key : String) (count : Int) (withScores : Bool) :
    (zrandmember fo key count withScores).ReadOnly :=
  .parse fun _ => .reply (.readRand _ _ _ _)

theorem handleZrandmember_readOnly (fo : FloatOps) (args : List Bytes) :
    (handleZrandmember fo args).ReadOnly := by
  unfold handleZrandmember
  split
  · exact .parse fun _ => .reply (.readRand _ _ _ _)
  · exact .parse fun _ => .parse fun _ => zrandmember_readOnly fo _ _ _
  · apply KV.ReadOnly.parse
    intro key
    apply KV.ReadOnly.parse
    intro count
    apply KV.ReadOnly.parse
    intro isWord
    split
    · exact zrandmember_readOnly fo _ _ _
    · exact .done _
  · exact .done _

theorem handleZscan_readOnly (fo : FloatOps) (wild : String → String → Bool) (args : List Bytes) :
    (handleZscan fo wild args).ReadOnly :=
  .parse fun _ => .reply (.read _ _ _ _)

/-! ## Streams -/

theorem handleXlen_readOnly (args : List Bytes) : (handleXlen args).ReadOnly := by
  unfold handleXlen
  split
  · exact .parse fun _ => .reply (.read _ _ _ _)
  · exact .done _

theorem xrangeReply_readOnly (key first second : Bytes) (count : Option (Bytes × Bytes))
    (reverse : Bool) : (xrangeReply key first second count reverse).ReadOnly :=
  .parse fun _ => .parse fun _ => .parse fun _ => .reply (.read _ _ _ _)

theorem handleXrange_readOnly (reverse : Bool) (args : List Bytes) :
    (handleXrange reverse args).ReadOnly := by
  unfold handleXrange
  split
  · exact xrangeReply_readOnly _ _ _ _ _
  · exact xrangeReply_readOnly _ _ _ _ _
  · exact .done _

theorem xread_readOnly (count : Option Nat) (keys : List (String × StreamId)) :
    (Storage.xread count keys).ReadOnly := by
  induction keys with
  | nil => exact .done _
  | cons key keys ih => exact .bind (.read _ _ _ _) fun _ => .reply ih

theorem handleXread_readOnly (args : List Bytes) : (handleXread args).ReadOnly := by
  unfold handleXread
  split
  · exact .done _
  · exact .parse fun _ => .parse fun _ => .parse fun _ => .parse fun _ =>
      .reply (xread_readOnly _ _)

theorem handleXinfo_readOnly (args : List Bytes) : (handleXinfo args).ReadOnly := by
  unfold handleXinfo
  split
  · exact .done _
  · apply KV.ReadOnly.parse
    intro sub
    split
    · exact .done _
    · apply KV.ReadOnly.parse
      intro key
      apply KV.ReadOnly.parse
      intro _
      apply KV.ReadOnly.bind (.read _ _ _ _)
      intro s
      cases s with
      | none => exact .done _
      | some s => exact .done _
    · exact .parse fun _ => .reply (.read _ _ _ _)
    · exact .done _
    · exact .parse fun _ => .parse fun _ => .reply (groupOf_readOnly fun _ => .reply .nowMs)
    · exact .done _
    · exact .done _
    · exact .done _

theorem xpendingSummary_readOnly (key group : String) :
    (Storage.xpendingSummary key group).ReadOnly := by
  apply groupOf_readOnly
  intro g
  split
  · exact .done _
  · exact .done _

theorem pendingDetailReply_readOnly (key group : String) (idleMs : Option Int) (args : List Bytes) :
    (pendingDetailReply key group idleMs args).ReadOnly := by
  unfold pendingDetailReply
  split
  · exact .parse fun _ => .parse fun _ => .parse fun _ => .parse fun _ => .bind .nowMs fun _ =>
      .reply (groupOf_readOnly fun _ => .done _)
  · exact .done _

theorem handleXpending_readOnly (args : List Bytes) : (handleXpending args).ReadOnly := by
  unfold handleXpending
  split
  · exact .parse fun _ => .parse fun _ => .reply (xpendingSummary_readOnly _ _)
  · apply KV.ReadOnly.parse
    intro key
    apply KV.ReadOnly.parse
    intro group
    apply KV.ReadOnly.parse
    intro idle
    split
    · split
      · exact .done _
      · exact .parse fun _ => pendingDetailReply_readOnly _ _ _ _
    · exact pendingDetailReply_readOnly _ _ _ _
  · exact .done _

/-! ## The table -/

theorem pureHandler_readOnly (f : List Bytes → Result RespReply) (args : List Bytes) :
    (pureHandler f args).ReadOnly := .done _

section Table

variable (p : Process)

theorem serverCommands_read : ∀ c ∈ serverCommands p, (∀ args, (c.2 args).ReadOnly) := by
  simp only [serverCommands, List.forall_mem_cons]
  exact ⟨pureHandler_readOnly _, pureHandler_readOnly _, handleTime_readOnly, handleInfo_readOnly _,
    pureHandler_readOnly _, pureHandler_readOnly _, pureHandler_readOnly _, pureHandler_readOnly _,
    handleObject_readOnly, pureHandler_readOnly _, pureHandler_readOnly _, pureHandler_readOnly _,
    pureHandler_readOnly _, pureHandler_readOnly _, pureHandler_readOnly _, pureHandler_readOnly _,
    pureHandler_readOnly _, pureHandler_readOnly _, pureHandler_readOnly _, handleMemory_readOnly _,
    pureHandler_readOnly _, pureHandler_readOnly _, pureHandler_readOnly _, pureHandler_readOnly _,
    pureHandler_readOnly _, pureHandler_readOnly _, pureHandler_readOnly _, pureHandler_readOnly _,
    pureHandler_readOnly _, pureHandler_readOnly _, pureHandler_readOnly _, pureHandler_readOnly _,
    nofun⟩

def geoWriters : List (String × Handler) := [
  ("GEOADD", handleGeoadd p.externs.fo p.libm),
  ("GEOSEARCHSTORE", handleGeosearchstore p.externs.fo p.libm)]

theorem geoCommands_read : ∀ c ∈ geoCommands p,
    (∀ args, (c.2 args).ReadOnly) ∨ c ∈ geoWriters p := by
  simp only [geoCommands, List.forall_mem_cons]
  exact ⟨.inr (by simp [geoWriters]), .inl (handleGeopos_readOnly _ _),
    .inl (handleGeodist_readOnly _ _), .inl (handleGeohash_readOnly _ _),
    .inl (handleGeosearch_readOnly _ _), .inr (by simp [geoWriters]), nofun⟩

def keyWriters : List (String × Handler) := [
  ("FLUSHDB", handleFlushall "FLUSHDB"),
  ("FLUSHALL", handleFlushall "FLUSHALL"),
  ("DEL", handleDel),
  ("UNLINK", handleDel),
  ("COPY", handleCopy),
  ("RESTORE", handleRestore p.externs.fo),
  ("EXPIRE", handleExpire),
  ("EXPIREAT", handleExpireat),
  ("PEXPIRE", handlePexpire),
  ("PEXPIREAT", handlePexpireat),
  ("PERSIST", handlePersist),
  ("RENAME", handleRename),
  ("RENAMENX", handleRenamenx)]

theorem keyCommands_read : ∀ c ∈ keyCommands p,
    (∀ args, (c.2 args).ReadOnly) ∨ c ∈ keyWriters p := by
  simp only [keyCommands, List.forall_mem_cons]
  exact ⟨.inl handleDbsize_readOnly, .inr (by simp [keyWriters]), .inr (by simp [keyWriters]),
    .inl (handleRandomkey_readOnly _), .inr (by simp [keyWriters]), .inr (by simp [keyWriters]),
    .inr (by simp [keyWriters]), .inl (handleDump_readOnly _), .inr (by simp [keyWriters]),
    .inl handleExists_readOnly, .inl handleTouch_readOnly, .inr (by simp [keyWriters]),
    .inr (by simp [keyWriters]), .inr (by simp [keyWriters]), .inr (by simp [keyWriters]),
    .inr (by simp [keyWriters]), .inl (handleTtlOf_readOnly ttlMs_readOnly),
    .inl (handleTtlOf_readOnly ttlMs_readOnly), .inl (handleTtlOf_readOnly expireTimeMs_readOnly),
    .inl (handleTtlOf_readOnly expireTimeMs_readOnly), .inr (by simp [keyWriters]),
    .inr (by simp [keyWriters]), .inl (handleKeys_readOnly _), .inl (handleScan_readOnly _),
    .inl handleType_readOnly, nofun⟩

def stringWriters : List (String × Handler) := [
  ("SETBIT", handleSetbit),
  ("BITOP", handleBitop),
  ("PFADD", handlePfadd),
  ("PFMERGE", handlePfmerge),
  ("GETEX", handleGetex),
  ("GETSET", handleGetset),
  ("GETDEL", handleGetdel),
  ("SETRANGE", handleSetrange),
  ("APPEND", handleAppend),
  ("SET", handleSet),
  ("SETNX", handleSetnx),
  ("SETEX", handleSetex),
  ("MSET", handleMset),
  ("MSETNX", handleMsetnx),
  ("INCR", handleIncrby 1),
  ("INCRBY", fun args => do handleIncrby (← parseDelta args) args),
  ("INCRBYFLOAT", handleIncrbyfloat p.externs.fo),
  ("DECR", handleIncrby (-1)),
  ("DECRBY", handleDecrby)]

theorem stringCommands_read : ∀ c ∈ stringCommands p,
    (∀ args, (c.2 args).ReadOnly) ∨ c ∈ stringWriters p := by
  simp only [stringCommands, List.forall_mem_cons]
  exact ⟨.inl handleGetbit_readOnly, .inr (by simp [stringWriters]), .inl handleBitcount_readOnly,
    .inl handleBitpos_readOnly, .inr (by simp [stringWriters]), .inr (by simp [stringWriters]),
    .inl (handlePfcount_readOnly _), .inr (by simp [stringWriters]), .inl handleGet_readOnly,
    .inr (by simp [stringWriters]), .inr (by simp [stringWriters]), .inr (by simp [stringWriters]),
    .inl handleGetrange_readOnly, .inr (by simp [stringWriters]), .inl handleStrlen_readOnly,
    .inl handleLcs_readOnly, .inr (by simp [stringWriters]), .inr (by simp [stringWriters]),
    .inr (by simp [stringWriters]), .inr (by simp [stringWriters]), .inl handleMget_readOnly,
    .inr (by simp [stringWriters]), .inr (by simp [stringWriters]), .inr (by simp [stringWriters]),
    .inr (by simp [stringWriters]), .inr (by simp [stringWriters]), .inr (by simp [stringWriters]),
    .inr (by simp [stringWriters]), nofun⟩

def hashWriters : List (String × Handler) := [
  ("HSET", handleHset),
  ("HSETNX", handleHsetnx),
  ("HDEL", handleHdel),
  ("HINCRBY", handleHincrby),
  ("HINCRBYFLOAT", handleHincrbyfloat p.externs.fo)]

theorem hashCommands_read : ∀ c ∈ hashCommands p,
    (∀ args, (c.2 args).ReadOnly) ∨ c ∈ hashWriters p := by
  simp only [hashCommands, List.forall_mem_cons]
  exact ⟨.inr (by simp [hashWriters]), .inr (by simp [hashWriters]), .inl handleHget_readOnly,
    .inr (by simp [hashWriters]), .inl handleHgetall_readOnly, .inl handleHlen_readOnly,
    .inl handleHkeys_readOnly, .inl handleHvals_readOnly, .inl handleHexists_readOnly,
    .inl handleHstrlen_readOnly, .inl handleHmget_readOnly, .inr (by simp [hashWriters]),
    .inr (by simp [hashWriters]), .inl handleHrandfield_readOnly, .inl (handleHscan_readOnly _),
    nofun⟩

def listWriters : List (String × Handler) := [
  ("LPUSH", handlePush true),
  ("RPUSH", handlePush false),
  ("LPUSHX", handlePushx true),
  ("RPUSHX", handlePushx false),
  ("LPOP", handlePop true),
  ("RPOP", handlePop false),
  ("LSET", handleLset),
  ("LREM", handleLrem),
  ("LINSERT", handleLinsert),
  ("LTRIM", handleLtrim),
  ("LMOVE", handleLmove),
  ("RPOPLPUSH", handleRpoplpush)]

theorem listCommands_read : ∀ c ∈ listCommands,
    (∀ args, (c.2 args).ReadOnly) ∨ c ∈ listWriters := by
  simp only [listCommands, List.forall_mem_cons]
  exact ⟨.inr (by simp [listWriters]), .inr (by simp [listWriters]), .inr (by simp [listWriters]),
    .inr (by simp [listWriters]), .inr (by simp [listWriters]), .inr (by simp [listWriters]),
    .inl handleLrange_readOnly, .inl handleLlen_readOnly, .inl handleLindex_readOnly,
    .inr (by simp [listWriters]), .inr (by simp [listWriters]), .inr (by simp [listWriters]),
    .inr (by simp [listWriters]), .inr (by simp [listWriters]), .inr (by simp [listWriters]),
    .inl handleLpos_readOnly, nofun⟩

def setWriters : List (String × Handler) := [
  ("SADD", handleSadd),
  ("SREM", handleSrem),
  ("SINTERSTORE", handleSstore .inter),
  ("SUNIONSTORE", handleSstore .union),
  ("SDIFFSTORE", handleSstore .diff),
  ("SMOVE", handleSmove),
  ("SPOP", handleSpop)]

theorem setCommands_read : ∀ c ∈ setCommands p, (∀ args, (c.2 args).ReadOnly) ∨ c ∈ setWriters := by
  simp only [setCommands, List.forall_mem_cons]
  exact ⟨.inr (by simp [setWriters]), .inr (by simp [setWriters]), .inl handleSmembers_readOnly,
    .inl handleSismember_readOnly, .inl handleSmismember_readOnly, .inl handleScard_readOnly,
    .inl (handleSetAlgebra_readOnly _), .inl (handleSetAlgebra_readOnly _),
    .inl (handleSetAlgebra_readOnly _), .inl handleSintercard_readOnly, .inr (by simp [setWriters]),
    .inr (by simp [setWriters]), .inr (by simp [setWriters]), .inr (by simp [setWriters]),
    .inr (by simp [setWriters]), .inl handleSrandmember_readOnly, .inl (handleSscan_readOnly _),
    nofun⟩

def zsetWriters : List (String × Handler) := [
  ("ZADD", handleZadd p.externs.fo),
  ("ZINTERSTORE", handleZstore p.externs.fo .inter),
  ("ZUNIONSTORE", handleZstore p.externs.fo .union),
  ("ZDIFFSTORE", handleZstore p.externs.fo .diff),
  ("ZREM", handleZrem),
  ("ZINCRBY", handleZincrby p.externs.fo),
  ("ZREMRANGEBYLEX", handleZremrangebylex),
  ("ZREMRANGEBYRANK", handleZremrangebyrank),
  ("ZREMRANGEBYSCORE", handleZremrangebyscore p.externs.fo),
  ("ZPOPMIN", handleZpop p.externs.fo false),
  ("ZPOPMAX", handleZpop p.externs.fo true)]

theorem zsetCommands_read : ∀ c ∈ zsetCommands p,
    (∀ args, (c.2 args).ReadOnly) ∨ c ∈ zsetWriters p := by
  simp only [zsetCommands, List.forall_mem_cons]
  exact ⟨.inr (by simp [zsetWriters]), .inl (handleZsetAggregate_readOnly _ _),
    .inl (handleZsetAggregate_readOnly _ _), .inl (handleZsetAggregate_readOnly _ _),
    .inl (handleZintercard_readOnly _), .inr (by simp [zsetWriters]), .inr (by simp [zsetWriters]),
    .inr (by simp [zsetWriters]), .inr (by simp [zsetWriters]), .inr (by simp [zsetWriters]),
    .inl (handleZrange_readOnly _), .inl (handleZrevrange_readOnly _),
    .inl (handleZrangebyscore_readOnly _), .inl (handleZrevrangebyscore_readOnly _),
    .inl handleZrangebylex_readOnly, .inl handleZrevrangebylex_readOnly,
    .inl handleZlexcount_readOnly, .inr (by simp [zsetWriters]), .inr (by simp [zsetWriters]),
    .inr (by simp [zsetWriters]), .inr (by simp [zsetWriters]), .inr (by simp [zsetWriters]),
    .inl (handleZscore_readOnly _), .inl handleZcard_readOnly, .inl (handleZrank_readOnly _),
    .inl (handleZrank_readOnly _), .inl (handleZcount_readOnly _), .inl (handleZmscore_readOnly _),
    .inl (handleZrandmember_readOnly _), .inl (handleZscan_readOnly _ _), nofun⟩

def streamWriters : List (String × Handler) := [
  ("XADD", handleXadd),
  ("XDEL", handleXdel),
  ("XTRIM", handleXtrim),
  ("XGROUP", handleXgroup),
  ("XREADGROUP", handleXreadgroup),
  ("XACK", handleXack),
  ("XCLAIM", handleXclaim),
  ("XAUTOCLAIM", handleXautoclaim)]

theorem streamCommands_read : ∀ c ∈ streamCommands,
    (∀ args, (c.2 args).ReadOnly) ∨ c ∈ streamWriters := by
  simp only [streamCommands, List.forall_mem_cons]
  exact ⟨.inr (by simp [streamWriters]), .inl handleXlen_readOnly, .inl (handleXrange_readOnly _),
    .inl (handleXrange_readOnly _), .inr (by simp [streamWriters]), .inr (by simp [streamWriters]),
    .inl handleXread_readOnly, .inl handleXinfo_readOnly, .inr (by simp [streamWriters]),
    .inr (by simp [streamWriters]), .inr (by simp [streamWriters]), .inr (by simp [streamWriters]),
    .inl handleXpending_readOnly, .inr (by simp [streamWriters]), nofun⟩

/-- The arms of the match in `run` that can write. -/
def writers : List (String × Handler) :=
  geoWriters p ++ keyWriters p ++ stringWriters p ++ hashWriters p ++ listWriters ++ setWriters ++ zsetWriters p ++ streamWriters

theorem commandTable_read : ∀ c ∈ commandTable p,
    (∀ args, (c.2 args).ReadOnly) ∨ c ∈ writers p := by
  intro c hc
  simp only [commandTable, List.mem_append] at hc
  simp only [writers, List.mem_append]
  rcases hc with (((((((hc | hc) | hc) | hc) | hc) | hc) | hc) | hc) | hc
  · exact .inl (serverCommands_read p c hc)
  · exact (geoCommands_read p c hc).imp_right (by tauto)
  · exact (keyCommands_read p c hc).imp_right (by tauto)
  · exact (stringCommands_read p c hc).imp_right (by tauto)
  · exact (hashCommands_read p c hc).imp_right (by tauto)
  · exact (listCommands_read c hc).imp_right (by tauto)
  · exact (setCommands_read p c hc).imp_right (by tauto)
  · exact (zsetCommands_read p c hc).imp_right (by tauto)
  · exact (streamCommands_read c hc).imp_right (by tauto)

end Table

end Commands

end RustyAnt
