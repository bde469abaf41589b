import RustyAnt.Commands.CreateOnly
import RustyAnt.Commands.NonEmpty
import RustyAnt.Commands.Refusals
import RustyAnt.Mirror.Lookups

/-!
# Keys of the wrong kind

A command on typed values that finds a key of a kind it does not accept replies with an
error and writes nothing.  The table gives, for each such command, the arguments that name
its keys and the kinds it accepts there; the destination that `BITOP`, `GEOSEARCHSTORE` and
the `*STORE` commands overwrite is not among them.
-/

namespace RustyAnt

open Lib

namespace Commands

variable {args : List Bytes} {key : String} {e : StoredValue}

/-! ## Sorted sets -/

section ZSets

variable {fo : FloatOps} (hkind : e.kind ≠ .zset)
include hkind

theorem handleZadd_refuses (h : Named key (args.take 1)) :
    (handleZadd fo args).Refuses key e := by
  apply KV.Refuses.parse
  rintro ⟨key', flags, incr, pairs⟩ hparse
  cases parseZadd_key h hparse
  dsimp only
  split
  · split
    · exact .head (.cas (.bind (.findOr hkind _)))
    · exact .error _
  · split
    · exact .head (.cas (.bind (.findOr hkind _)))
    · exact .head (.cas (.bind (.findOr hkind _)))

theorem executeZrange_refuses {lo hi : Bytes} {opts : ZRangeOpts} :
    (executeZrange fo key lo hi opts).Refuses key e := by
  unfold executeZrange
  dsimp only
  cases opts.mode with
  | rank => exact .parse fun _ _ => .parse fun _ _ => .head (.head (.read hkind _ _))
  | score => exact .parse fun _ _ => .parse fun _ _ => .head (.head (.read hkind _ _))
  | lex => exact .parse fun _ _ => .parse fun _ _ => .head (.head (.read hkind _ _))

theorem handleZrange_refuses (h : Named key (args.take 1)) :
    (handleZrange fo args).Refuses key e := by
  unfold handleZrange
  split
  · exact h.one (.parse fun _ _ => executeZrange_refuses hkind)
  · exact .error _

theorem handleZrevrange_refuses (h : Named key (args.take 1)) :
    (handleZrevrange fo args).Refuses key e := by
  unfold handleZrevrange
  split
  · exact h.one (.parse fun _ _ => executeZrange_refuses hkind)
  · exact .error _

theorem handleZrangebyscore_refuses (h : Named key (args.take 1)) :
    (handleZrangebyscore fo args).Refuses key e := by
  unfold handleZrangebyscore
  split
  · exact h.one (.parse fun _ _ => .parse fun _ _ => .parse fun _ _ => .head (
      .head (.read hkind _ _)))
  · exact .error _

theorem handleZrevrangebyscore_refuses (h : Named key (args.take 1)) :
    (handleZrevrangebyscore fo args).Refuses key e := by
  unfold handleZrevrangebyscore
  split
  · exact h.one (.parse fun _ _ => .parse fun _ _ => .parse fun _ _ => .head (
      .head (.read hkind _ _)))
  · exact .error _

theorem handleZrangebylex_refuses (h : Named key (args.take 1)) :
    (handleZrangebylex args).Refuses key e := by
  unfold handleZrangebylex
  split
  · split
    · exact h.one (.parse fun _ _ => .parse fun _ _ => .parse fun _ _ => .head (.read hkind _ _))
    · exact .error _
  · exact .error _

theorem handleZrevrangebylex_refuses (h : Named key (args.take 1)) :
    (handleZrevrangebylex args).Refuses key e := by
  unfold handleZrevrangebylex
  split
  · split
    · exact h.one (.parse fun _ _ => .parse fun _ _ => .parse fun _ _ => .head (.read hkind _ _))
    · exact .error _
  · exact .error _

theorem handleZlexcount_refuses (h : Named key (args.take 1)) :
    (handleZlexcount args).Refuses key e := by
  unfold handleZlexcount
  split
  · exact h.one (.parse fun _ _ => .parse fun _ _ => .head (.read hkind _ _))
  · exact .error _

theorem handleZcount_refuses (h : Named key (args.take 1)) :
    (handleZcount fo args).Refuses key e := by
  unfold handleZcount
  split
  · exact h.one (.parse fun _ _ => .parse fun _ _ => .head (.read hkind _ _))
  · exact .error _

theorem handleZrem_refuses (h : Named key (args.take 1)) : (handleZrem args).Refuses key e := by
  unfold handleZrem
  split
  · exact h.one (.parse fun _ _ => .head (.cas (.bind (.find hkind))))
  · exact .error _

theorem zremrange_refuses {split : Storage.ZMap → Storage.ZMap × Nat} :
    (Storage.zremrange key split).Refuses key e := .cas (.bind (.find hkind))

theorem handleZremrangebylex_refuses (h : Named key (args.take 1)) :
    (handleZremrangebylex args).Refuses key e := by
  unfold handleZremrangebylex
  split
  · exact h.one (.parse fun _ _ => .parse fun _ _ => .head (zremrange_refuses hkind))
  · exact .error _

theorem handleZremrangebyrank_refuses (h : Named key (args.take 1)) :
    (handleZremrangebyrank args).Refuses key e := by
  unfold handleZremrangebyrank
  split
  · exact h.one (.parse fun _ _ => .parse fun _ _ => .head (zremrange_refuses hkind))
  · exact .error _

theorem handleZremrangebyscore_refuses (h : Named key (args.take 1)) :
    (handleZremrangebyscore fo args).Refuses key e := by
  unfold handleZremrangebyscore
  split
  · exact h.one (.parse fun _ _ => .parse fun _ _ => .head (zremrange_refuses hkind))
  · exact .error _

theorem zpop_refuses {count : Nat} {fromMax : Bool} : (zpop fo key count fromMax).Refuses key e := by
  have hpop : (Storage.zpopImpl key count fromMax).Refuses key e := by
    unfold Storage.zpopImpl
    split
    · exact .read hkind _ _
    · exact .cas (.bind (.find hkind))
  cases fromMax with
  | true => exact .head hpop
  | false => exact .head hpop

theorem handleZpop_refuses {fromMax : Bool} (h : Named key (args.take 1)) :
    (handleZpop fo fromMax args).Refuses key e := by
  unfold handleZpop
  split
  · exact h.one (zpop_refuses hkind)
  · exact h.one (.parse fun _ _ => zpop_refuses hkind)
  · exact .error _

theorem handleZincrby_refuses (h : Named key (args.take 1)) :
    (handleZincrby fo args).Refuses key e := by
  unfold handleZincrby
  split
  · exact h.one (.parse fun _ _ => .parse fun _ _ => .head (.cas (.bind (.findOr hkind _))))
  · exact .error _

theorem handleZscore_refuses (h : Named key (args.take 1)) :
    (handleZscore fo args).Refuses key e := by
  unfold handleZscore
  split
  · exact h.one (.parse fun _ _ => .head (.read hkind _ _))
  · exact .error _

theorem handleZmscore_refuses (h : Named key (args.take 1)) :
    (handleZmscore fo args).Refuses key e := by
  unfold handleZmscore
  split
  · exact h.one (.parse fun _ _ => .head (.read hkind _ _))
  · exact .error _

theorem handleZcard_refuses (h : Named key (args.take 1)) : (handleZcard args).Refuses key e := by
  unfold handleZcard
  split
  · exact h.one (.head (.read hkind _ _))
  · exact .error _

theorem handleZrank_refuses {reverse : Bool} (h : Named key (args.take 1)) :
    (handleZrank reverse args).Refuses key e := by
  unfold handleZrank
  split
  · apply h.one
    apply KV.Refuses.parse
    intro member _
    cases reverse with
    | true => exact .head (.read hkind _ _)
    | false => exact .head (.read hkind _ _)
  · exact .error _

theorem zrandmember_refuses {count : Int} {withScores : Bool} :
    (zrandmember fo key count withScores).Refuses key e :=
  .parse fun _ _ => .head (.readRand hkind _ _)

theorem handleZrandmember_refuses (h : Named key (args.take 1)) :
    (handleZrandmember fo args).Refuses key e := by
  unfold handleZrandmember
  split
  · exact h.one (.head (.readRand hkind _ _))
  · exact h.one (.parse fun _ _ => zrandmember_refuses hkind)
  · apply h.one
    apply KV.Refuses.parse
    intro count _
    apply KV.Refuses.parse
    intro isWord _
    split
    · exact zrandmember_refuses hkind
    · exact .error _
  · exact .error _

theorem handleZscan_refuses {wild : String → String → Bool} (h : Named key (args.take 1)) :
    (handleZscan fo wild args).Refuses key e :=
  collectionScan_refuses h fun _ _ _ => .head (.read hkind _ _)

end ZSets

/-! ### Aggregates -/

section Aggregates

variable {fo : FloatOps} (hzset : e.kind ≠ .zset) (hset : e.kind ≠ .set)
include hzset hset

theorem loadZsetOrSet_refuses : (loadZsetOrSet key).Refuses key e := by
  apply kind_refuses
  have hne : ∀ k : ValueKind, e.kind ≠ k → e.kind.asStr ≠ k.asStr := fun k hk heq =>
    hk (ValueKind.asStr_injective heq)
  split
  · rename_i heq
    exact absurd (Option.some.inj heq) (hne .zset hzset)
  · rename_i heq
    exact absurd (Option.some.inj heq) (hne .set hset)
  · exact .error _
  · rename_i hnone
    cases hnone

theorem loadWeighted_refuses {inputs : List (String × F64)} (hmem : key ∈ inputs.map Prod.fst) :
    (loadWeighted fo inputs).Refuses key e := by
  induction inputs with
  | nil => exact absurd hmem List.not_mem_nil
  | cons p inputs ih =>
      apply refuses_round hmem (loadZsetOrSet_readOnly _)
      · rintro rfl
        exact loadZsetOrSet_refuses hzset hset
      · intro hlater items
        exact .head (ih hlater)

theorem loadAll_refuses {keys : List String} (hmem : key ∈ keys) :
    (loadAll keys).Refuses key e := by
  induction keys with
  | nil => exact absurd hmem List.not_mem_nil
  | cons k keys ih =>
      apply refuses_round hmem (loadZsetOrSet_readOnly _)
      · rintro rfl
        exact loadZsetOrSet_refuses hzset hset
      · intro hlater items
        exact .head (ih hlater)

theorem computeZsetAggregate_refuses {op : ZStoreOp} {cmdName : String} {allowWithscores : Bool}
    (h : Named key (numkeysArgs args)) :
    (computeZsetAggregate fo op cmdName allowWithscores args).Refuses key e := by
  unfold computeZsetAggregate
  split
  · exact .error _
  · apply numkeys_refuses h
    intro keys tail hmem
    apply KV.Refuses.parse
    intro tail' _
    apply KV.Refuses.parse
    rintro ⟨weights, aggregate⟩ hparse
    apply KV.Refuses.head
    apply loadWeighted_refuses hzset hset
    rw [List.map_fst_zip (parseAggregateTail_length hparse)]
    exact hmem

theorem handleZsetAggregate_refuses {op : ZStoreOp} (h : Named key (numkeysArgs args)) :
    (handleZsetAggregate fo op args).Refuses key e :=
  .head (computeZsetAggregate_refuses hzset hset h)

theorem handleZintercard_refuses (h : Named key (numkeysArgs args)) :
    (handleZintercard fo args).Refuses key e := by
  unfold handleZintercard
  split
  · exact .error _
  · exact numkeys_refuses h fun keys tail hmem => .parse fun _ _ =>
      .head (loadAll_refuses hzset hset hmem)

/-- The inputs come before anything is written to the destination. -/
theorem handleZstore_refuses {op : ZStoreOp} (h : Named key (numkeysArgs (args.drop 1))) :
    (handleZstore fo op args).Refuses key e := by
  unfold handleZstore
  split
  · exact .parse fun _ _ => .head (computeZsetAggregate_refuses hzset hset h)
  · exact .error _

end Aggregates

/-! ## Geo -/

section Geo

variable {fo : FloatOps} {lm : Libm} (hkind : e.kind ≠ .zset)
include hkind

theorem handleGeoadd_refuses (h : Named key (args.take 1)) :
    (handleGeoadd fo lm args).Refuses key e := by
  unfold handleGeoadd
  split
  · apply h.one
    apply KV.Refuses.parse
    rintro ⟨flags, remaining⟩ _
    dsimp only
    split
    · exact .error _
    · split
      · exact .error _
      · exact .parse fun _ _ => .head (.cas (.bind (.findOr hkind _)))
  · exact .error _

theorem handleGeopos_refuses (h : Named key (args.take 1)) :
    (handleGeopos fo lm args).Refuses key e := by
  unfold handleGeopos
  split
  · exact h.one (.parse fun _ _ => .head (.read hkind _ _))
  · exact .error _

theorem handleGeohash_refuses (h : Named key (args.take 1)) :
    (handleGeohash fo lm args).Refuses key e := by
  unfold handleGeohash
  split
  · exact h.one (.parse fun _ _ => .head (.read hkind _ _))
  · exact .error _

theorem handleGeodist_refuses (h : Named key (args.take 1)) :
    (handleGeodist fo lm args).Refuses key e := by
  unfold handleGeodist
  split
  · exact h.one (.parse fun _ _ => .parse fun _ _ => .head (.read hkind _ _))
  · exact h.one (.parse fun _ _ => .parse fun _ _ => .parse fun _ _ => .parse fun _ _ =>
      .head (.read hkind _ _))
  · exact .error _

theorem runGeoSearch_refuses {opts : GeoSearchOpts} :
    (runGeoSearch fo lm key opts).Refuses key e := by
  unfold runGeoSearch
  cases opts.centre with
  | member m => exact .head (.head (.read hkind _ _))
  | lonLat lon lat => exact .after (.done _) fun _ => .head (.read hkind _ _)

theorem handleGeosearch_refuses (h : Named key (args.take 1)) :
    (handleGeosearch fo lm args).Refuses key e := by
  unfold handleGeosearch
  split
  · split
    · exact .error _
    · exact h.one (.parse fun _ _ => .head (runGeoSearch_refuses hkind))
  · exact .error _

/-- The source comes before anything is written to the destination. -/
theorem handleGeosearchstore_refuses (h : Named key ((args.drop 1).take 1)) :
    (handleGeosearchstore fo lm args).Refuses key e := by
  unfold handleGeosearchstore
  split
  · split
    · exact .error _
    · exact .parse fun _ _ => h.one (.parse fun _ _ => .head (runGeoSearch_refuses hkind))
  · exact .error _

end Geo

/-! ## Streams -/

section Streams

variable (hkind : e.kind ≠ .stream)
include hkind

theorem handleXadd_refuses (h : Named key (args.take 1)) : (handleXadd args).Refuses key e := by
  unfold handleXadd
  split
  · apply h.one
    apply KV.Refuses.parse
    intro nomkstream _
    apply KV.Refuses.parse
    rintro ⟨trim, opts⟩ _
    dsimp only
    split
    · exact .error _
    · apply KV.Refuses.parse
      intro text _
      apply KV.Refuses.parse
      intro spec _
      split
      · exact .error _
      · apply KV.Refuses.parse
        intro fields _
        apply KV.Refuses.head
        apply KV.Refuses.after .nowMs
        intro now
        apply KV.Refuses.cas
        exact .bind (.find (v := View.stream) hkind)
  · exact .error _

theorem handleXlen_refuses (h : Named key (args.take 1)) : (handleXlen args).Refuses key e := by
  unfold handleXlen
  split
  · exact h.one (.head (.read hkind _ _))
  · exact .error _

theorem xrangeReply_refuses {arg first second : Bytes} {count : Option (Bytes × Bytes)}
    {reverse : Bool} (h : Named key [arg]) :
    (xrangeReply arg first second count reverse).Refuses key e :=
  h.one (.parse fun _ _ => .parse fun _ _ => .head (.read hkind _ _))

theorem handleXrange_refuses {reverse : Bool} (h : Named key (args.take 1)) :
    (handleXrange reverse args).Refuses key e := by
  unfold handleXrange
  split
  · exact xrangeReply_refuses hkind h
  · exact xrangeReply_refuses hkind h
  · exact .error _

theorem handleXdel_refuses (h : Named key (args.take 1)) : (handleXdel args).Refuses key e := by
  unfold handleXdel
  split
  · exact h.one (.parse fun _ _ => .head (.cas (.bind (.find hkind))))
  · exact .error _

theorem handleXtrim_refuses (h : Named key (args.take 1)) : (handleXtrim args).Refuses key e := by
  unfold handleXtrim
  split
  · apply h.one
    apply KV.Refuses.parse
    intro remaining _
    apply KV.Refuses.parse
    rintro ⟨bound, limit, left⟩ _
    dsimp only
    split
    · exact .error _
    · exact .head (.cas (.bind (.find hkind)))
  · exact .error _

theorem xread_refuses {count : Option Nat} {streams : List (String × StreamId)}
    (hmem : key ∈ streams.map Prod.fst) : (Storage.xread count streams).Refuses key e := by
  induction streams with
  | nil => exact absurd hmem List.not_mem_nil
  | cons p streams ih =>
      apply refuses_round hmem (.read _ _ _ _)
      · rintro rfl
        exact .read hkind _ _
      · intro hlater entries
        exact .head (ih hlater)

theorem handleXread_refuses (h : Named key (streamsArgs args)) :
    (handleXread args).Refuses key e := by
  unfold handleXread
  split
  · exact .error _
  · apply KV.Refuses.parse
    rintro ⟨count, rest⟩ hopts
    apply KV.Refuses.parse
    rintro ⟨keyArgs, idArgs⟩ hsplit
    apply KV.Refuses.parse
    intro keys hkeys
    apply KV.Refuses.parse
    intro ids hids
    apply KV.Refuses.head
    apply xread_refuses hkind
    have hopts' : parseXreadOpts args none = .ok (count, rest) := hopts
    have hsplit' : splitStreams _ rest = .ok (keyArgs, idArgs) := hsplit
    unfold splitStreams at hsplit'
    split at hsplit'
    · cases hsplit'
    · rename_i heven
      rw [List.splitAt_eq] at hsplit'
      cases hsplit'
      have hlength : keys.length ≤ ids.length := by
        rw [Result.mapM_ok_length hkeys, Result.mapM_ok_length hids, List.length_take,
          List.length_drop]
        omega
      rw [List.map_fst_zip hlength]
      unfold streamsArgs at h
      rw [hopts'] at h
      exact h.mem hkeys

theorem handleXinfo_refuses (h : Named key (subcommandArgs args)) :
    (handleXinfo args).Refuses key e := by
  unfold handleXinfo
  split
  · exact .error _
  · rename_i sub rest
    apply KV.Refuses.parse
    intro word hword
    have hword' : optionWord sub = .ok word := hword
    split
    · exact .error _
    · have harg := (subcommandArgs_cases h hword').2
      exact harg.one (.parse fun _ _ => .head (.read hkind _ _))
    · have harg := (subcommandArgs_cases h hword').2
      exact harg.one (.head (.read hkind _ _))
    · exact .error _
    · apply (subcommandArgs_cases h hword').2.one
      apply KV.Refuses.parse
      intro group _
      apply KV.Refuses.head
      apply KV.Refuses.loadEntry
      exact .head (.ofExcept (RefusesEntry.groupOf hkind))
    · exact .error _
    · cases rest with
      | nil => exact absurd h Named.not_nil
      | cons arg rest => exact absurd rfl (subcommandArgs_cases h hword').1
    · exact .error _

theorem handleXgroup_refuses (h : Named key (subcommandArgs args)) :
    (handleXgroup args).Refuses key e := by
  unfold handleXgroup
  split
  · rename_i sub arg rest
    apply KV.Refuses.parse
    intro word hword
    obtain ⟨hhelp, harg⟩ := subcommandArgs_cases h hword
    apply harg.one
    apply KV.Refuses.parse
    intro parsed hparsed
    cases parsed with
    | none => exact absurd (parseXgroup_none hparsed) hhelp
    | some p => exact .head (.cas (.bind (.find hkind)))
  · exact .error _

theorem handleXack_refuses (h : Named key (args.take 1)) : (handleXack args).Refuses key e := by
  unfold handleXack
  split
  · exact h.one (.parse fun _ _ => .parse fun _ _ => .head (.cas (.bind (.find hkind))))
  · exact .error _

theorem handleXclaim_refuses (h : Named key (args.take 1)) : (handleXclaim args).Refuses key e := by
  unfold handleXclaim
  split
  · apply h.one
    apply KV.Refuses.parse
    intro group _
    apply KV.Refuses.parse
    intro consumer _
    apply KV.Refuses.parse
    intro minIdle _
    apply KV.Refuses.parse
    rintro ⟨ids, rest⟩ _
    apply KV.Refuses.after .nowMs
    intro now
    exact .parse fun _ _ => .head (.cas (.bind (.find hkind)))
  · exact .error _

theorem handleXautoclaim_refuses (h : Named key (args.take 1)) :
    (handleXautoclaim args).Refuses key e := by
  unfold handleXautoclaim
  split
  · apply h.one
    apply KV.Refuses.parse
    intro group _
    apply KV.Refuses.parse
    intro consumer _
    apply KV.Refuses.parse
    intro minIdle _
    apply KV.Refuses.parse
    intro start _
    apply KV.Refuses.parse
    rintro ⟨count, justId⟩ _
    apply KV.Refuses.after .nowMs
    intro now
    exact .head (.cas (.bind (.find hkind)))
  · exact .error _

theorem xpendingSummary_refuses {group : String} :
    (Storage.xpendingSummary key group).Refuses key e := by
  apply KV.Refuses.loadEntry
  exact .head (.ofExcept (RefusesEntry.groupOf hkind))

theorem pendingDetailReply_refuses {group : String} {idleMs : Option Int} {left : List Bytes} :
    (pendingDetailReply key group idleMs left).Refuses key e := by
  unfold pendingDetailReply
  split
  · apply KV.Refuses.parse
    intro start _
    apply KV.Refuses.parse
    intro stop _
    apply KV.Refuses.parse
    intro count _
    apply KV.Refuses.parse
    intro consumer _
    apply KV.Refuses.after .nowMs
    intro now
    apply KV.Refuses.head
    apply KV.Refuses.loadEntry
    exact .head (.ofExcept (RefusesEntry.groupOf hkind))
  · exact .error _

theorem handleXpending_refuses (h : Named key (args.take 1)) :
    (handleXpending args).Refuses key e := by
  unfold handleXpending
  split
  · exact h.one (.parse fun _ _ => .head (xpendingSummary_refuses hkind))
  · apply h.one
    apply KV.Refuses.parse
    intro group _
    apply KV.Refuses.parse
    intro isIdle _
    split
    · split
      · exact .error _
      · exact .parse fun _ _ => pendingDetailReply_refuses hkind
    · exact pendingDetailReply_refuses hkind
  · exact .error _

end Streams

/-! ## The table -/

/-- Which arguments of a command name its keys, and the kinds it accepts there. -/
structure Signature where
  keyArgs : List Bytes → List Bytes
  accepts : List ValueKind

namespace Signature

def first (kind : ValueKind) : Signature := ⟨List.take 1, [kind]⟩

def firstTwo (kind : ValueKind) : Signature := ⟨List.take 2, [kind]⟩

def all (kind : ValueKind) : Signature := ⟨id, [kind]⟩

/-- The arguments after `n` others. -/
def behind (n : Nat) (kind : ValueKind) : Signature := ⟨List.drop n, [kind]⟩

/-- The sorted-set aggregates work on sets as well. -/
def zsetOrSet (keyArgs : List Bytes → List Bytes) : Signature := ⟨keyArgs, [.zset, .set]⟩

/-- The handler refuses the entries that the command does not accept. -/
def Refuses (sig : Signature) (handler : Handler) : Prop :=
  ∀ {args key e}, Named key (sig.keyArgs args) → e.kind ∉ sig.accepts →
    (handler args).Refuses key e

end Signature

/-- A command of the table; `none` where a key of any kind is taken, and for `XREADGROUP`. -/
abbrev Entry := String × Option Signature

def geoSignatures : List Entry := [
  ("GEOADD", some (.first .zset)),
  ("GEOPOS", some (.first .zset)),
  ("GEODIST", some (.first .zset)),
  ("GEOHASH", some (.first .zset)),
  ("GEOSEARCH", some (.first .zset)),
  ("GEOSEARCHSTORE", some ⟨fun args => (args.drop 1).take 1, [.zset]⟩)]

def stringSignatures : List Entry := [
  ("GETBIT", some (.first .string)),
  ("SETBIT", some (.first .string)),
  ("BITCOUNT", some (.first .string)),
  ("BITPOS", some (.first .string)),
  ("BITOP", some (.behind 2 .string)),
  ("PFADD", some (.first .string)),
  ("PFCOUNT", some (.all .string)),
  ("PFMERGE", some (.all .string)),
  ("GET", some (.first .string)),
  ("GETEX", some (.first .string)),
  ("GETSET", some (.first .string)),
  ("GETDEL", some (.first .string)),
  ("GETRANGE", some (.first .string)),
  ("SETRANGE", some (.first .string)),
  ("STRLEN", some (.first .string)),
  ("LCS", some (.firstTwo .string)),
  ("APPEND", some (.first .string)),
  ("SET", none),
  ("SETNX", none),
  ("SETEX", none),
  ("MGET", none),
  ("MSET", none),
  ("MSETNX", none),
  ("INCR", some (.first .string)),
  ("INCRBY", some (.first .string)),
  ("INCRBYFLOAT", some (.first .string)),
  ("DECR", some (.first .string)),
  ("DECRBY", some (.first .string))]

def hashSignatures : List Entry := [
  ("HSET", some (.first .hash)),
  ("HSETNX", some (.first .hash)),
  ("HGET", some (.first .hash)),
  ("HDEL", some (.first .hash)),
  ("HGETALL", some (.first .hash)),
  ("HLEN", some (.first .hash)),
  ("HKEYS", some (.first .hash)),
  ("HVALS", some (.first .hash)),
  ("HEXISTS", some (.first .hash)),
  ("HSTRLEN", some (.first .hash)),
  ("HMGET", some (.first .hash)),
  ("HINCRBY", some (.first .hash)),
  ("HINCRBYFLOAT", some (.first .hash)),
  ("HRANDFIELD", some (.first .hash)),
  ("HSCAN", some (.first .hash))]

def listSignatures : List Entry := [
  ("LPUSH", some (.first .list)),
  ("RPUSH", some (.first .list)),
  ("LPUSHX", some (.first .list)),
  ("RPUSHX", some (.first .list)),
  ("LPOP", some (.first .list)),
  ("RPOP", some (.first .list)),
  ("LRANGE", some (.first .list)),
  ("LLEN", some (.first .list)),
  ("LINDEX", some (.first .list)),
  ("LSET", some (.first .list)),
  ("LREM", some (.first .list)),
  ("LINSERT", some (.first .list)),
  ("LTRIM", some (.first .list)),
  ("LMOVE", some (.firstTwo .list)),
  ("RPOPLPUSH", some (.firstTwo .list)),
  ("LPOS", some (.first .list))]

def setSignatures : List Entry := [
  ("SADD", some (.first .set)),
  ("SREM", some (.first .set)),
  ("SMEMBERS", some (.first .set)),
  ("SISMEMBER", some (.first .set)),
  ("SMISMEMBER", some (.first .set)),
  ("SCARD", some (.first .set)),
  ("SINTER", some (.all .set)),
  ("SUNION", some (.all .set)),
  ("SDIFF", some (.all .set)),
  ("SINTERCARD", some ⟨numkeysArgs, [.set]⟩),
  ("SINTERSTORE", some (.behind 1 .set)),
  ("SUNIONSTORE", some (.behind 1 .set)),
  ("SDIFFSTORE", some (.behind 1 .set)),
  ("SMOVE", some (.firstTwo .set)),
  ("SPOP", some (.first .set)),
  ("SRANDMEMBER", some (.first .set)),
  ("SSCAN", some (.first .set))]

def zsetSignatures : List Entry := [
  ("ZADD", some (.first .zset)),
  ("ZINTER", some (.zsetOrSet numkeysArgs)),
  ("ZUNION", some (.zsetOrSet numkeysArgs)),
  ("ZDIFF", some (.zsetOrSet numkeysArgs)),
  ("ZINTERCARD", some (.zsetOrSet numkeysArgs)),
  ("ZINTERSTORE", some (.zsetOrSet fun args => numkeysArgs (args.drop 1))),
  ("ZUNIONSTORE", some (.zsetOrSet fun args => numkeysArgs (args.drop 1))),
  ("ZDIFFSTORE", some (.zsetOrSet fun args => numkeysArgs (args.drop 1))),
  ("ZREM", some (.first .zset)),
  ("ZINCRBY", some (.first .zset)),
  ("ZRANGE", some (.first .zset)),
  ("ZREVRANGE", some (.first .zset)),
  ("ZRANGEBYSCORE", some (.first .zset)),
  ("ZREVRANGEBYSCORE", some (.first .zset)),
  ("ZRANGEBYLEX", some (.first .zset)),
  ("ZREVRANGEBYLEX", some (.first .zset)),
  ("ZLEXCOUNT", some (.first .zset)),
  ("ZREMRANGEBYLEX", some (.first .zset)),
  ("ZREMRANGEBYRANK", some (.first .zset)),
  ("ZREMRANGEBYSCORE", some (.first .zset)),
  ("ZPOPMIN", some (.first .zset)),
  ("ZPOPMAX", some (.first .zset)),
  ("ZSCORE", some (.first .zset)),
  ("ZCARD", some (.first .zset)),
  ("ZRANK", some (.first .zset)),
  ("ZREVRANK", some (.first .zset)),
  ("ZCOUNT", some (.first .zset)),
  ("ZMSCORE", some (.first .zset)),
  ("ZRANDMEMBER", some (.first .zset)),
  ("ZSCAN", some (.first .zset))]

def streamSignatures : List Entry := [
  ("XADD", some (.first .stream)),
  ("XLEN", some (.first .stream)),
  ("XRANGE", some (.first .stream)),
  ("XREVRANGE", some (.first .stream)),
  ("XDEL", some (.first .stream)),
  ("XTRIM", some (.first .stream)),
  ("XREAD", some ⟨streamsArgs, [.stream]⟩),
  ("XINFO", some ⟨subcommandArgs, [.stream]⟩),
  ("XGROUP", some ⟨subcommandArgs, [.stream]⟩),
  ("XREADGROUP", none),
  ("XACK", some (.first .stream)),
  ("XCLAIM", some (.first .stream)),
  ("XPENDING", some (.first .stream)),
  ("XAUTOCLAIM", some (.first .stream))]

section Rows

variable (p : Process)

/-- A command under its name, with what it refuses. -/
def Row (c : String × Handler) (entry : Entry) : Prop :=
  c.1 = entry.1 ∧ ∀ sig, entry.2 = some sig → sig.Refuses c.2

namespace Row

variable {name : String} {handler : Handler} {keyArgs : List Bytes → List Bytes}

theorem any : Row (name, handler) (name, none) := ⟨rfl, nofun⟩

theorem one {kind : ValueKind}
    (h : ∀ {args key e}, e.kind ≠ kind → Named key (keyArgs args) → (handler args).Refuses key e) :
    Row (name, handler) (name, some ⟨keyArgs, [kind]⟩) := by
  refine ⟨rfl, ?_⟩
  rintro _ ⟨⟩
  intro args key e hnamed hkind
  exact h (fun heq => hkind (List.mem_singleton.mpr heq)) hnamed

theorem two {kind kind' : ValueKind}
    (h : ∀ {args key e}, e.kind ≠ kind → e.kind ≠ kind' → Named key (keyArgs args) →
      (handler args).Refuses key e) :
    Row (name, handler) (name, some ⟨keyArgs, [kind, kind']⟩) := by
  refine ⟨rfl, ?_⟩
  rintro _ ⟨⟩
  intro args key e hnamed hkind
  rw [List.mem_cons, List.mem_singleton, not_or] at hkind
  exact h hkind.1 hkind.2 hnamed

end Row

theorem row_of_mem {cs : List (String × Handler)} {entries : List Entry} {entry : Entry}
    (h : List.Forall₂ Row cs entries) (hmem : entry ∈ entries) : ∃ c ∈ cs, Row c entry := by
  induction h with
  | nil => exact absurd hmem List.not_mem_nil
  | cons hrow hrows ih =>
      rcases List.mem_cons.mp hmem with rfl | hlater
      · exact ⟨_, List.mem_cons_self, hrow⟩
      · obtain ⟨c, hc, hrow'⟩ := ih hlater
        exact ⟨c, List.mem_cons_of_mem _ hc, hrow'⟩

theorem names_of_rows {cs : List (String × Handler)} {entries : List Entry}
    (h : List.Forall₂ Row cs entries) : cs.map Prod.fst = entries.map Prod.fst := by
  induction h with
  | nil => rfl
  | cons hrow hrows ih => rw [List.map_cons, List.map_cons, hrow.1, ih]

theorem lookup_of_mem {β : Type} {cs : List (String × β)} {name : String} {x : β}
    (hnodup : (cs.map Prod.fst).Nodup) (hmem : (name, x) ∈ cs) : cs.lookup name = some x := by
  obtain ⟨before, after, rfl⟩ := List.append_of_mem hmem
  rw [List.map_append, List.map_cons] at hnodup
  refine List.lookup_eq_some_iff.mpr ⟨before, after, rfl, ?_⟩
  intro c hc
  rw [bne_iff_ne]
  intro heq
  have hname : name ∈ before.map Prod.fst := List.mem_map.mpr ⟨c, hc, heq.symm⟩
  exact (List.nodup_append.mp hnodup).2.2 name hname name List.mem_cons_self rfl

theorem geo_rows : List.Forall₂ Row (geoCommands p) geoSignatures := by
  unfold geoCommands geoSignatures
  exact .cons (.one handleGeoadd_refuses) <| .cons (.one handleGeopos_refuses) <|
    .cons (.one handleGeodist_refuses) <| .cons (.one handleGeohash_refuses) <|
    .cons (.one handleGeosearch_refuses) <| .cons (.one handleGeosearchstore_refuses) <| .nil

theorem string_rows : List.Forall₂ Row (stringCommands p) stringSignatures := by
  unfold stringCommands stringSignatures
  exact .cons (.one handleGetbit_refuses) <| .cons (.one handleSetbit_refuses) <|
    .cons (.one handleBitcount_refuses) <| .cons (.one handleBitpos_refuses) <|
    .cons (.one handleBitop_refuses) <| .cons (.one handlePfadd_refuses) <|
    .cons (.one (handlePfcount_refuses _)) <| .cons (.one handlePfmerge_refuses) <|
    .cons (.one handleGet_refuses) <| .cons (.one handleGetex_refuses) <|
    .cons (.one handleGetset_refuses) <| .cons (.one handleGetdel_refuses) <|
    .cons (.one handleGetrange_refuses) <| .cons (.one handleSetrange_refuses) <|
    .cons (.one handleStrlen_refuses) <| .cons (.one handleLcs_refuses) <|
    .cons (.one handleAppend_refuses) <| .cons .any <| .cons .any <| .cons .any <| .cons .any <|
    .cons .any <| .cons .any <| .cons (.one fun hkind => handleIncrby_refuses hkind) <|
    .cons (.one fun hkind h => .parse fun _ _ => handleIncrby_refuses hkind h) <|
    .cons (.one (handleIncrbyfloat_refuses _)) <|
    .cons (.one fun hkind => handleIncrby_refuses hkind) <| .cons (.one handleDecrby_refuses) <|
    .nil

theorem hash_rows : List.Forall₂ Row (hashCommands p) hashSignatures := by
  unfold hashCommands hashSignatures
  exact .cons (.one handleHset_refuses) <| .cons (.one handleHsetnx_refuses) <|
    .cons (.one handleHget_refuses) <| .cons (.one handleHdel_refuses) <|
    .cons (.one handleHgetall_refuses) <| .cons (.one handleHlen_refuses) <|
    .cons (.one handleHkeys_refuses) <| .cons (.one handleHvals_refuses) <|
    .cons (.one handleHexists_refuses) <| .cons (.one handleHstrlen_refuses) <|
    .cons (.one handleHmget_refuses) <| .cons (.one handleHincrby_refuses) <|
    .cons (.one (handleHincrbyfloat_refuses _)) <| .cons (.one handleHrandfield_refuses) <|
    .cons (.one fun hkind => handleHscan_refuses hkind) <| .nil

theorem list_rows : List.Forall₂ Row listCommands listSignatures := by
  unfold listCommands listSignatures
  exact .cons (.one fun hkind => handlePush_refuses hkind) <|
    .cons (.one fun hkind => handlePush_refuses hkind) <|
    .cons (.one fun hkind => handlePushx_refuses hkind) <|
    .cons (.one fun hkind => handlePushx_refuses hkind) <|
    .cons (.one fun hkind => handlePop_refuses hkind) <|
    .cons (.one fun hkind => handlePop_refuses hkind) <| .cons (.one handleLrange_refuses) <|
    .cons (.one handleLlen_refuses) <| .cons (.one handleLindex_refuses) <|
    .cons (.one handleLset_refuses) <| .cons (.one handleLrem_refuses) <|
    .cons (.one handleLinsert_refuses) <| .cons (.one handleLtrim_refuses) <|
    .cons (.one handleLmove_refuses) <| .cons (.one handleRpoplpush_refuses) <|
    .cons (.one handleLpos_refuses) <| .nil

theorem set_rows : List.Forall₂ Row (setCommands p) setSignatures := by
  unfold setCommands setSignatures
  exact .cons (.one handleSadd_refuses) <| .cons (.one handleSrem_refuses) <|
    .cons (.one handleSmembers_refuses) <| .cons (.one handleSismember_refuses) <|
    .cons (.one handleSmismember_refuses) <| .cons (.one handleScard_refuses) <|
    .cons (.one fun hkind => handleSetAlgebra_refuses hkind) <|
    .cons (.one fun hkind => handleSetAlgebra_refuses hkind) <|
    .cons (.one fun hkind => handleSetAlgebra_refuses hkind) <|
    .cons (.one handleSintercard_refuses) <|
    .cons (.one fun hkind => handleSstore_refuses hkind) <|
    .cons (.one fun hkind => handleSstore_refuses hkind) <|
    .cons (.one fun hkind => handleSstore_refuses hkind) <| .cons (.one handleSmove_refuses) <|
    .cons (.one handleSpop_refuses) <| .cons (.one handleSrandmember_refuses) <|
    .cons (.one fun hkind => handleSscan_refuses hkind) <| .nil

theorem zset_rows : List.Forall₂ Row (zsetCommands p) zsetSignatures := by
  unfold zsetCommands zsetSignatures
  exact .cons (.one handleZadd_refuses) <|
    .cons (.two fun hzset hset => handleZsetAggregate_refuses hzset hset) <|
    .cons (.two fun hzset hset => handleZsetAggregate_refuses hzset hset) <|
    .cons (.two fun hzset hset => handleZsetAggregate_refuses hzset hset) <|
    .cons (.two handleZintercard_refuses) <|
    .cons (.two fun hzset hset => handleZstore_refuses hzset hset) <|
    .cons (.two fun hzset hset => handleZstore_refuses hzset hset) <|
    .cons (.two fun hzset hset => handleZstore_refuses hzset hset) <|
    .cons (.one handleZrem_refuses) <| .cons (.one handleZincrby_refuses) <|
    .cons (.one handleZrange_refuses) <| .cons (.one handleZrevrange_refuses) <|
    .cons (.one handleZrangebyscore_refuses) <| .cons (.one handleZrevrangebyscore_refuses) <|
    .cons (.one handleZrangebylex_refuses) <| .cons (.one handleZrevrangebylex_refuses) <|
    .cons (.one handleZlexcount_refuses) <| .cons (.one handleZremrangebylex_refuses) <|
    .cons (.one handleZremrangebyrank_refuses) <| .cons (.one handleZremrangebyscore_refuses) <|
    .cons (.one fun hkind => handleZpop_refuses hkind) <|
    .cons (.one fun hkind => handleZpop_refuses hkind) <| .cons (.one handleZscore_refuses) <|
    .cons (.one handleZcard_refuses) <| .cons (.one fun hkind => handleZrank_refuses hkind) <|
    .cons (.one fun hkind => handleZrank_refuses hkind) <| .cons (.one handleZcount_refuses) <|
    .cons (.one handleZmscore_refuses) <| .cons (.one handleZrandmember_refuses) <|
    .cons (.one fun hkind => handleZscan_refuses hkind) <| .nil

theorem stream_rows : List.Forall₂ Row streamCommands streamSignatures := by
  unfold streamCommands streamSignatures
  exact .cons (.one handleXadd_refuses) <| .cons (.one handleXlen_refuses) <|
    .cons (.one fun hkind => handleXrange_refuses hkind) <|
    .cons (.one fun hkind => handleXrange_refuses hkind) <| .cons (.one handleXdel_refuses) <|
    .cons (.one handleXtrim_refuses) <| .cons (.one handleXread_refuses) <|
    .cons (.one handleXinfo_refuses) <| .cons (.one handleXgroup_refuses) <| .cons .any <|
    .cons (.one handleXack_refuses) <| .cons (.one handleXclaim_refuses) <|
    .cons (.one handleXpending_refuses) <| .cons (.one handleXautoclaim_refuses) <| .nil

/-- The commands on typed values. -/
def typedCommands : List (String × Handler) :=
  geoCommands p ++ stringCommands p ++ hashCommands p ++ listCommands ++ setCommands p ++
    zsetCommands p ++ streamCommands

def signatures : List Entry :=
  geoSignatures ++ stringSignatures ++ hashSignatures ++ listSignatures ++ setSignatures ++
    zsetSignatures ++ streamSignatures

theorem typedCommands_rows : List.Forall₂ Row (typedCommands p) signatures := by
  unfold typedCommands signatures
  exact List.rel_append (List.rel_append (List.rel_append (List.rel_append (List.rel_append
    (List.rel_append (geo_rows p) (string_rows p)) (hash_rows p)) list_rows) (set_rows p))
    (zset_rows p)) stream_rows

theorem typedCommands_names : (typedCommands p).map Prod.fst = signatures.map Prod.fst :=
  names_of_rows (typedCommands_rows p)

/-- The commands that take a key of any kind, and `XREADGROUP`. -/
def exempt : List String := ["SET", "SETNX", "SETEX", "MGET", "MSET", "MSETNX", "XREADGROUP"]

theorem exempt_signatures : (signatures.filter fun c => c.2.isNone).map Prod.fst = exempt := rfl

/-! ## The handler of a command -/

theorem commandTable_nodup : ((commandTable p).map Prod.fst).Nodup := by
  simp only [commandTable, serverCommands, geoCommands, keyCommands, stringCommands, hashCommands,
    listCommands, setCommands, zsetCommands, streamCommands, List.map_append, List.map_cons,
    List.map_nil]
  decide +kernel

theorem typedCommands_mem {c : String × Handler} (h : c ∈ typedCommands p) :
    c ∈ commandTable p := by
  unfold typedCommands at h
  unfold commandTable
  simp only [List.mem_append] at h ⊢
  tauto

theorem run_eq {cmdBytes : Bytes} {cmd : String} {handler : Handler}
    (hname : commandName cmdBytes = .ok cmd) (hmem : (cmd, handler) ∈ commandTable p) :
    run p (cmdBytes :: args) = handler args := by
  have hlookup := lookup_of_mem (commandTable_nodup p) hmem
  unfold run
  dsimp only
  rw [hname, Prog.bind_eq]
  show Prog.bind (.done (.ok cmd)) _ = handler args
  rw [Prog.done_ok_bind, hlookup]

theorem run_refuses {cmdBytes : Bytes} {cmd : String} {sig : Signature}
    (hsig : (cmd, some sig) ∈ signatures) (hname : commandName cmdBytes = .ok cmd)
    (hkey : Named key (sig.keyArgs args)) (hkind : e.kind ∉ sig.accepts) :
    (run p (cmdBytes :: args)).Refuses key e := by
  obtain ⟨⟨cmd', handler⟩, hmem, hcmd, hrow⟩ := row_of_mem (typedCommands_rows p) hsig
  have hcmd' : cmd' = cmd := hcmd
  subst hcmd'
  rw [run_eq p hname (typedCommands_mem p hmem)]
  exact hrow sig rfl hkey hkind

/-- The reply of a command is that of its handler's outcome. -/
theorem run_dispatch {σ : Type} (serve : (op : KVOp) → σ → Result op.Res × σ) (tokens : List Bytes)
    (s : σ) : (dispatch p tokens).run serve s =
      (.ok (replyOf ((run p tokens).run serve s).1), ((run p tokens).run serve s).2) := by
  unfold dispatch
  rw [Prog.bind_eq, Prog.run_bind, Prog.run_attempt]
  rfl

end Rows

/-! ## Commands run alone -/

/-- The reply is an error, and each key keeps its entry. -/
def Harmless {clock : Clock} {L : Lookups clock} (s : L.State) (out : Result RespReply × L.State) :
    Prop :=
  (∃ text, out.1 = .ok (.err text)) ∧ L.Unwritten s out.2

/-- Each typed command, but for those that take any kind and for `XREADGROUP`, run alone on
either backend: where one of its keys holds a live entry of a kind that it does not accept,
it is harmless. -/
theorem wrongKind_harmless (S : Setup) (p : Process) (clock : Clock) (b : BackendName) :
    (typedCommands p).map Prod.fst = signatures.map Prod.fst ∧
    (signatures.filter fun c => c.2.isNone).map Prod.fst = exempt ∧
    ∀ cmd sig, (cmd, some sig) ∈ signatures → ∀ (cmdBytes : Bytes) (args : List Bytes)
      (key : String) (e : StoredValue) (s : (S.lookups clock b).State),
      commandName cmdBytes = .ok cmd → Named key (sig.keyArgs args) →
      (S.lookups clock b).Valid s → (S.lookups clock b).entries s key = some (.ok e) →
      e.kind ∉ sig.accepts →
      (S.lookups clock b).LiveThrough e s
        ((dispatch p (cmdBytes :: args)).run (S.lookups clock b).serve s).2 →
      Harmless s ((dispatch p (cmdBytes :: args)).run (S.lookups clock b).serve s) := by
  refine ⟨typedCommands_names p, exempt_signatures, ?_⟩
  intro cmd sig hsig cmdBytes args key e s hname hkey hvalid hentry hkind hlive
  rw [run_dispatch] at hlive ⊢
  have hrefuses := run_refuses p hsig hname hkey hkind
  obtain ⟨⟨err, herr⟩, hunwritten⟩ := Lookups.refuses_alone hrefuses hvalid hentry hlive
  refine ⟨⟨"ERR " ++ err.display, ?_⟩, hunwritten⟩
  dsimp only
  rw [herr]
  rfl

namespace WrongDestination

def clock : Clock := ⟨fun n => n, 0⟩

def members : StoredValue := ⟨none, .set (Std.ExtTreeSet.ofList ["m"] compare)⟩

def elements : StoredValue := ⟨none, .list [[97]]⟩

/-- A set at `s` and a list at `l`. -/
def bucket : S3World :=
  ⟨((∅ : BTreeMap String S3Object).insert "s" ⟨Codec.storedValue.enc members, "e"⟩).insert "l"
    ⟨Codec.storedValue.enc elements, "e"⟩, 0⟩

def keysAndMember : List Bytes := ["s", "l", "m"].map Rdb.asBytes

theorem holdsDocuments : bucket.HoldsDocuments := by
  have hempty : (⟨∅, 0⟩ : S3World).HoldsDocuments := by
    intro key obj hobj
    simp at hobj
  exact (hempty.insert "s" members "e" 0).insert "l" elements "e" 0

theorem entries_l : bucket.entries "l" = some (.ok elements) := by
  rw [S3World.entries_stored Std.ExtTreeMap.getElem?_insert_self]
  exact congrArg some (Codec.storedValue_dec_enc elements |>.mpr rfl)

end WrongDestination

open WrongDestination in
/-- A member is not moved to a list. -/
theorem wrongKind_harmless_on_smove :
    Harmless (L := ExpiredTarget.setup.lookups clock .s3) bucket
      ((dispatch EmptySet.process (Rdb.asBytes "SMOVE" :: keysAndMember)).run
        (ExpiredTarget.setup.lookups clock .s3).serve bucket) := by
  apply (wrongKind_harmless ExpiredTarget.setup EmptySet.process clock .s3).2.2 "SMOVE"
    (.firstTwo .set) ?_ _ _ "l" elements bucket (by decide +kernel) ?_ holdsDocuments entries_l
    (by decide) fun _ _ _ => rfl
  · simp [signatures, setSignatures]
  · exact ⟨Rdb.asBytes "l", by simp [keysAndMember, Signature.firstTwo], argAsStr_asBytes "l"⟩

end Commands

end RustyAnt
