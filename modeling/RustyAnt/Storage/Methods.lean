import RustyAnt.Storage.Keys
import RustyAnt.Storage.Sets
import RustyAnt.Storage.Streams
import RustyAnt.Storage.ZSets

/-!
# The `Storage` trait

The methods of the trait with their arguments as data, so that sequences of calls
can be formed.  `prog` is the method's body in `KVStorage`.
-/

namespace RustyAnt

/-- What the methods leave to crates and to the floating-point library. -/
structure Externs where
  fo : FloatOps
  /-- `wildmatch::WildMatch::matches`, pattern first -/
  wild : String → String → Bool

inductive StringMethod : Type → Type where
  | getString (key : String) : StringMethod (Option Bytes)
  | getStringWithTtl (key : String) (op : GetExOp) : StringMethod (Option Bytes)
  | setString (key : String) (value : Bytes) (expiresAtMs : Option Int) : StringMethod Unit
  | setStringNx (key : String) (value : Bytes) (expiresAtMs : Option Int) : StringMethod Bool
  | getset (key : String) (value : Bytes) : StringMethod (Option Bytes)
  | getAndDelete (key : String) : StringMethod (Option Bytes)
  | strlen (key : String) : StringMethod Int
  | append (key : String) (value : Bytes) : StringMethod Int
  | mget (keys : List String) : StringMethod (List (Option Bytes))
  | mset (pairs : List (String × Bytes)) : StringMethod Unit
  | msetnx (pairs : List (String × Bytes)) : StringMethod Bool
  | incrBy (key : String) (delta : Int) : StringMethod Int
  | incrByFloat (key : String) (delta : F64) : StringMethod F64
  | getrange (key : String) (start stop : Int) : StringMethod Bytes
  | setrange (key : String) (offset : Nat) (value : Bytes) : StringMethod Int
  | getbit (key : String) (offset : Nat) : StringMethod Int
  | setbit (key : String) (offset : Nat) (value : Bool) : StringMethod Int
  | pfadd (key : String) (elements : List Bytes) : StringMethod Bool
  | pfcount (keys : List String) : StringMethod UInt64
  | pfmerge (dest : String) (sources : List String) : StringMethod Unit

inductive HashMethod : Type → Type where
  | hset (key : String) (pairs : List (String × Bytes)) : HashMethod Int
  | hsetnx (key field : String) (value : Bytes) : HashMethod Bool
  | hget (key field : String) : HashMethod (Option Bytes)
  | hdel (key : String) (fields : List String) : HashMethod Int
  | hgetall (key : String) : HashMethod (List (String × Bytes))
  | hscan (key : String) (cursor : UInt64) (pattern : Option String) (count : Nat) :
      HashMethod (UInt64 × List (String × Bytes))
  | hlen (key : String) : HashMethod Int
  | hkeys (key : String) : HashMethod (List String)
  | hvals (key : String) : HashMethod (List Bytes)
  | hexists (key field : String) : HashMethod Bool
  | hstrlen (key field : String) : HashMethod Int
  | hmget (key : String) (fields : List String) : HashMethod (List (Option Bytes))
  | hincrBy (key field : String) (delta : Int) : HashMethod Int
  | hincrByFloat (key field : String) (delta : F64) : HashMethod F64
  | hrandfield (key : String) (count : Int) (allowDuplicates : Bool) :
      HashMethod (List (String × Bytes))

inductive ListMethod : Type → Type where
  | listPush (key : String) (values : List Bytes) (left : Bool) : ListMethod Int
  | listPushx (key : String) (values : List Bytes) (left : Bool) : ListMethod Int
  | listPop (key : String) (count : Nat) (left : Bool) : ListMethod (List Bytes)
  | lrange (key : String) (start stop : Int) : ListMethod (List Bytes)
  | llen (key : String) : ListMethod Int
  | lindex (key : String) (index : Int) : ListMethod (Option Bytes)
  | lset (key : String) (index : Int) (value : Bytes) : ListMethod Unit
  | lrem (key : String) (count : Int) (value : Bytes) : ListMethod Int
  | linsert (key : String) (before : Bool) (pivot value : Bytes) : ListMethod Int
  | ltrim (key : String) (start stop : Int) : ListMethod Unit
  | listMove (source dest : String) (fromLeft toLeft : Bool) : ListMethod (Option Bytes)
  | lpos (key : String) (element : Bytes) (rank : Int) (count : Option Nat) (maxlen : Nat) :
      ListMethod (List Int)

inductive SetMethod : Type → Type where
  | sadd (key : String) (members : List String) : SetMethod Int
  | srem (key : String) (members : List String) : SetMethod Int
  | smembers (key : String) : SetMethod (List String)
  | sismember (key member : String) : SetMethod Bool
  | smismember (key : String) (members : List String) : SetMethod (List Bool)
  | scard (key : String) : SetMethod Int
  | sinter (keys : List String) : SetMethod (List String)
  | sunion (keys : List String) : SetMethod (List String)
  | sdiff (keys : List String) : SetMethod (List String)
  | spop (key : String) (count : Nat) : SetMethod (List String)
  | srandmember (key : String) (count : Int) (allowDuplicates : Bool) : SetMethod (List String)
  | sscan (key : String) (cursor : UInt64) (pattern : Option String) (count : Nat) :
      SetMethod (UInt64 × List String)

inductive ZSetMethod : Type → Type where
  | zadd (key : String) (pairs : List (F64 × String)) : ZSetMethod Int
  | zaddExt (key : String) (pairs : List (F64 × String)) (flags : ZAddFlags) : ZSetMethod Int
  | zaddExtIncr (key : String) (delta : F64) (member : String) (flags : ZAddFlags) :
      ZSetMethod (Option F64)
  | zitems (key : String) : ZSetMethod (List (String × F64))
  | zrem (key : String) (members : List String) : ZSetMethod Int
  | zincrBy (key member : String) (delta : F64) : ZSetMethod F64
  | zrange (key : String) (start stop : Int) : ZSetMethod (List String)
  | zrevrange (key : String) (start stop : Int) : ZSetMethod (List String)
  | zrangebyscore (key : String) (min max : ScoreBound) : ZSetMethod (List String)
  | zrevrangebyscore (key : String) (max min : ScoreBound) : ZSetMethod (List String)
  | zremrangebyrank (key : String) (start stop : Int) : ZSetMethod Int
  | zremrangebyscore (key : String) (min max : ScoreBound) : ZSetMethod Int
  | zrangebylex (key : String) (min max : LexBound) (limit : Option (Int × Int)) :
      ZSetMethod (List String)
  | zrevrangebylex (key : String) (max min : LexBound) (limit : Option (Int × Int)) :
      ZSetMethod (List String)
  | zlexcount (key : String) (min max : LexBound) : ZSetMethod Int
  | zremrangebylex (key : String) (min max : LexBound) : ZSetMethod Int
  | zpopmin (key : String) (count : Nat) : ZSetMethod (List (String × F64))
  | zpopmax (key : String) (count : Nat) : ZSetMethod (List (String × F64))
  | zscore (key member : String) : ZSetMethod (Option F64)
  | zcard (key : String) : ZSetMethod Int
  | zrank (key member : String) : ZSetMethod (Option Int)
  | zrevrank (key member : String) : ZSetMethod (Option Int)
  | zcount (key : String) (min max : ScoreBound) : ZSetMethod Int
  | zmscore (key : String) (members : List String) : ZSetMethod (List (Option F64))
  | zrandmember (key : String) (count : Int) (allowDuplicates : Bool) :
      ZSetMethod (List (String × F64))
  | zscan (key : String) (cursor : UInt64) (pattern : Option String) (count : Nat) :
      ZSetMethod (UInt64 × List (String × F64))

inductive StreamMethod : Type → Type where
  | xadd (key : String) (spec : AddIdSpec) (fields : List (String × Bytes)) (nomkstream : Bool)
      (trim : Option (TrimBound × Option Nat)) : StreamMethod (Option StreamId)
  | xlen (key : String) : StreamMethod Int
  | xrange (key : String) (start stop : RangeId) (count : Option Nat) (reverse : Bool) :
      StreamMethod (List StreamEntry)
  | xdel (key : String) (ids : List StreamId) : StreamMethod Int
  | xtrim (key : String) (bound : TrimBound) (limit : Option Nat) : StreamMethod Int
  | xread (keys : List (String × StreamId)) (count : Option Nat) :
      StreamMethod (List (String × List StreamEntry))
  | xinfoStream (key : String) : StreamMethod (Option StreamValue)
  | xgroup (key : String) (op : XGroupOp) : StreamMethod Int
  | xreadgroup (group consumer : String) (streams : List (String × XReadGroupId))
      (count : Option Nat) (noack : Bool) (now : Int) :
      StreamMethod (List (String × List StreamEntry))
  | xack (key group : String) (ids : List StreamId) : StreamMethod Int
  | xclaim (key group consumer : String) (minIdleMs : Int) (ids : List StreamId)
      (opts : XClaimOpts) : StreamMethod (List XClaimResult)
  | xpendingSummary (key group : String) : StreamMethod (Option XPendingSummary)
  | xpendingDetail (key group : String) (start stop : RangeId) (count : Nat)
      (consumer : Option String) (idleMs : Option Int) (now : Int) :
      StreamMethod (List XPendingDetailRow)
  | xautoclaim (key group consumer : String) (minIdleMs : Int) (start : StreamId) (count : Nat)
      (justId : Bool) (now : Int) : StreamMethod XAutoClaimResult
  | xinfoGroups (key : String) : StreamMethod (List XInfoGroup)
  | xinfoConsumers (key group : String) : StreamMethod (List XInfoConsumer)

inductive KeyMethod : Type → Type where
  | delete (key : String) : KeyMethod Bool
  | existsKey (key : String) : KeyMethod Bool
  | expireAt (key : String) (expiresAtMs : Int) : KeyMethod Bool
  | ttlMs (key : String) : KeyMethod TtlResult
  | expireTimeMs (key : String) : KeyMethod TtlResult
  | kind (key : String) : KeyMethod (Option String)
  | memUsage (key : String) : KeyMethod (Option Int)
  | persist (key : String) : KeyMethod Bool
  | rename (src dst : String) : KeyMethod Unit
  | renamenx (src dst : String) : KeyMethod Bool
  | copy (src dst : String) (replace : Bool) : KeyMethod Bool
  | keys (pattern : String) : KeyMethod (List String)
  | scan (cursor pattern : Option String) (count : Nat) :
      KeyMethod (List String × Option String)
  | dbsize : KeyMethod Int
  | keyspaceStats : KeyMethod KeyspaceStats
  | flushall : KeyMethod Unit
  | randomKey : KeyMethod (Option String)
  | dump (key : String) : KeyMethod (Option Bytes)
  | restore (key : String) (payload : Bytes) (ttl : Int) (replace absTtl : Bool) : KeyMethod Unit

/-- A call of a `Storage` method, by the type of its reply. -/
inductive Method : Type → Type 1 where
  | string {α : Type} (m : StringMethod α) : Method α
  | hash {α : Type} (m : HashMethod α) : Method α
  | list {α : Type} (m : ListMethod α) : Method α
  | set {α : Type} (m : SetMethod α) : Method α
  | zset {α : Type} (m : ZSetMethod α) : Method α
  | stream {α : Type} (m : StreamMethod α) : Method α
  | key {α : Type} (m : KeyMethod α) : Method α

section Prog

variable {α : Type} (x : Externs)

def StringMethod.prog : StringMethod α → KV α
  | getString key => Storage.getString key
  | getStringWithTtl key op => Storage.getStringWithTtl key op
  | setString key value exp => Storage.setString key value exp
  | setStringNx key value exp => Storage.setStringNx key value exp
  | getset key value => Storage.getset key value
  | getAndDelete key => Storage.getAndDelete key
  | strlen key => Storage.strlen key
  | append key value => Storage.append key value
  | mget keys => Storage.mget keys
  | mset pairs => Storage.mset pairs
  | msetnx pairs => Storage.msetnx pairs
  | incrBy key delta => Storage.incrBy key delta
  | incrByFloat key delta => Storage.incrByFloat x.fo key delta
  | getrange key start stop => Storage.getrange key start stop
  | setrange key offset value => Storage.setrange key offset value
  | getbit key offset => Storage.getbit key offset
  | setbit key offset value => Storage.setbit key offset value
  | pfadd key elements => Storage.pfadd key elements
  | pfcount keys => Storage.pfcount x.fo keys
  | pfmerge dest sources => Storage.pfmerge dest sources

def HashMethod.prog : HashMethod α → KV α
  | hset key pairs => Storage.hset key pairs
  | hsetnx key field value => Storage.hsetnx key field value
  | hget key field => Storage.hget key field
  | hdel key fields => Storage.hdel key fields
  | hgetall key => Storage.hgetall key
  | hscan key cursor pattern count => Storage.hscan x.wild key cursor pattern count
  | hlen key => Storage.hlen key
  | hkeys key => Storage.hkeys key
  | hvals key => Storage.hvals key
  | hexists key field => Storage.hexists key field
  | hstrlen key field => Storage.hstrlen key field
  | hmget key fields => Storage.hmget key fields
  | hincrBy key field delta => Storage.hincrBy key field delta
  | hincrByFloat key field delta => Storage.hincrByFloat x.fo key field delta
  | hrandfield key count allowDuplicates => Storage.hrandfield key count allowDuplicates

def ListMethod.prog : ListMethod α → KV α
  | listPush key values left => Storage.listPush key values left
  | listPushx key values left => Storage.listPushx key values left
  | listPop key count left => Storage.listPop key count left
  | lrange key start stop => Storage.lrange key start stop
  | llen key => Storage.llen key
  | lindex key index => Storage.lindex key index
  | lset key index value => Storage.lset key index value
  | lrem key count value => Storage.lrem key count value
  | linsert key before pivot value => Storage.linsert key before pivot value
  | ltrim key start stop => Storage.ltrim key start stop
  | listMove source dest fromLeft toLeft => Storage.listMove source dest fromLeft toLeft
  | lpos key element rank count maxlen => Storage.lpos key element rank count maxlen

def SetMethod.prog : SetMethod α → KV α
  | sadd key members => Storage.sadd key members
  | srem key members => Storage.srem key members
  | smembers key => Storage.smembers key
  | sismember key member => Storage.sismember key member
  | smismember key members => Storage.smismember key members
  | scard key => Storage.scard key
  | sinter keys => Storage.sinter keys
  | sunion keys => Storage.sunion keys
  | sdiff keys => Storage.sdiff keys
  | spop key count => Storage.spop key count
  | srandmember key count allowDuplicates => Storage.srandmember key count allowDuplicates
  | sscan key cursor pattern count => Storage.sscan x.wild key cursor pattern count

def ZSetMethod.prog : ZSetMethod α → KV α
  | zadd key pairs => Storage.zadd key pairs
  | zaddExt key pairs flags => Storage.zaddExt key pairs flags
  | zaddExtIncr key delta member flags => Storage.zaddExtIncr x.fo key delta member flags
  | zitems key => Storage.zitems key
  | zrem key members => Storage.zrem key members
  | zincrBy key member delta => Storage.zincrBy x.fo key member delta
  | zrange key start stop => Storage.zrange key start stop
  | zrevrange key start stop => Storage.zrevrange key start stop
  | zrangebyscore key min max => Storage.zrangebyscore key min max
  | zrevrangebyscore key max min => Storage.zrevrangebyscore key max min
  | zremrangebyrank key start stop => Storage.zremrangebyrank key start stop
  | zremrangebyscore key min max => Storage.zremrangebyscore key min max
  | zrangebylex key min max limit => Storage.zrangebylex key min max limit
  | zrevrangebylex key max min limit => Storage.zrevrangebylex key max min limit
  | zlexcount key min max => Storage.zlexcount key min max
  | zremrangebylex key min max => Storage.zremrangebylex key min max
  | zpopmin key count => Storage.zpopmin key count
  | zpopmax key count => Storage.zpopmax key count
  | zscore key member => Storage.zscore key member
  | zcard key => Storage.zcard key
  | zrank key member => Storage.zrank key member
  | zrevrank key member => Storage.zrevrank key member
  | zcount key min max => Storage.zcount key min max
  | zmscore key members => Storage.zmscore key members
  | zrandmember key count allowDuplicates => Storage.zrandmember key count allowDuplicates
  | zscan key cursor pattern count => Storage.zscan x.wild key cursor pattern count

def StreamMethod.prog : StreamMethod α → KV α
  | xadd key spec fields nomkstream trim => Storage.xadd key spec fields nomkstream trim
  | xlen key => Storage.xlen key
  | xrange key start stop count reverse => Storage.xrange key start stop count reverse
  | xdel key ids => Storage.xdel key ids
  | xtrim key bound limit => Storage.xtrim key bound limit
  | xread keys count => Storage.xread count keys
  | xinfoStream key => Storage.xinfoStream key
  | xgroup key op => Storage.xgroup key op
  | xreadgroup group consumer streams count noack now =>
      Storage.xreadgroup group consumer count noack now streams
  | xack key group ids => Storage.xack key group ids
  | xclaim key group consumer minIdleMs ids opts =>
      Storage.xclaim key group consumer minIdleMs ids opts
  | xpendingSummary key group => Storage.xpendingSummary key group
  | xpendingDetail key group start stop count consumer idleMs now =>
      Storage.xpendingDetail key group start stop count consumer idleMs now
  | xautoclaim key group consumer minIdleMs start count justId now =>
      Storage.xautoclaim key group consumer minIdleMs start count justId now
  | xinfoGroups key => Storage.xinfoGroups key
  | xinfoConsumers key group => Storage.xinfoConsumers key group

def KeyMethod.prog : KeyMethod α → KV α
  | delete key => Storage.delete key
  | existsKey key => Storage.existsKey key
  | expireAt key expiresAtMs => Storage.expireAt key expiresAtMs
  | ttlMs key => Storage.ttlMs key
  | expireTimeMs key => Storage.expireTimeMs key
  | kind key => Storage.kind key
  | memUsage key => Storage.memUsage x.fo key
  | persist key => Storage.persist key
  | rename src dst => Storage.rename src dst
  | renamenx src dst => Storage.renamenx src dst
  | copy src dst replace => Storage.copy src dst replace
  | keys pattern => Storage.keys x.wild pattern
  | scan cursor pattern count => Storage.scan x.wild cursor pattern count
  | dbsize => Storage.dbsize
  | keyspaceStats => Storage.keyspaceStats
  | flushall => Storage.flushall
  | randomKey => Storage.randomKey x.wild
  | dump key => Storage.dump x.fo key
  | restore key payload ttl replace absTtl => Storage.restore x.fo key payload ttl replace absTtl

def Method.prog : Method α → KV α
  | string m => m.prog x
  | hash m => m.prog x
  | list m => m.prog
  | set m => m.prog x
  | zset m => m.prog x
  | stream m => m.prog
  | key m => m.prog x

end Prog

end RustyAnt
