import RustyAnt.Commands.Geo
import RustyAnt.Commands.Moves
import RustyAnt.Commands.Server
import RustyAnt.Commands.Streams

/-!
# Dispatch

`run` finds the handler of a command by its name, `dispatch` makes a reply of its outcome.
The log line and the metrics of `dispatch` are left out.
-/

namespace RustyAnt

open Lib

/-- What the commands take from the process and from its libraries. -/
structure Process where
  externs : Externs
  libm : Libm
  info : ServerInfo

namespace Commands

abbrev Handler := List Bytes → KV RespReply

/-- A handler that makes no call of the storage. -/
def pureHandler (f : List Bytes → Result RespReply) : Handler := fun args => Prog.ofExcept (f args)

/-- The reply of a command that takes no argument. -/
def fixedReply (command : String) (reply : RespReply) (args : List Bytes) : Result RespReply := do
  arity command args.isEmpty
  return reply

section Table

variable (p : Process)

def serverCommands : List (String × Handler) := [
  ("PING", pureHandler fun _ => .ok (.simpleString "PONG")),
  ("ECHO", pureHandler handleEcho),
  ("TIME", handleTime),
  ("INFO", handleInfo p.info),
  ("COMMAND", pureHandler handleCommand),
  ("CONFIG", pureHandler (handleConfig p.externs.wild)),
  ("HELLO", pureHandler handleHello),
  ("CLIENT", pureHandler handleClient),
  ("OBJECT", handleObject),
  ("RESET", pureHandler fun _ => .ok (.simpleString "RESET")),
  ("QUIT", pureHandler (fixedReply "QUIT" .ok)),
  ("SELECT", pureHandler handleSelect),
  ("AUTH", pureHandler handleAuth),
  ("WAIT", pureHandler handleWait),
  ("SAVE", pureHandler (fixedReply "SAVE" .ok)),
  ("BGSAVE", pureHandler handleBgsave),
  ("BGREWRITEAOF", pureHandler (fixedReply "BGREWRITEAOF"
    (.simpleString "Background append only file rewriting started"))),
  ("LASTSAVE", pureHandler (fixedReply "LASTSAVE" (.integer (p.info.startedAtMs.tdiv 1000)))),
  ("LATENCY", pureHandler handleLatency),
  ("MEMORY", handleMemory p.externs.fo),
  ("DEBUG", pureHandler (handleDebug p.externs.fo)),
  ("MULTI", pureHandler handleMulti),
  ("EXEC", pureHandler handleExec),
  ("DISCARD", pureHandler handleDiscard),
  ("WATCH", pureHandler handleWatch),
  ("UNWATCH", pureHandler handleUnwatch),
  ("SUBSCRIBE", pureHandler handleSubscribe),
  ("PSUBSCRIBE", pureHandler handlePsubscribe),
  ("UNSUBSCRIBE", pureHandler handleUnsubscribe),
  ("PUNSUBSCRIBE", pureHandler handlePunsubscribe),
  ("PUBLISH", pureHandler handlePublish),
  ("PUBSUB", pureHandler handlePubsub)]

def geoCommands : List (String × Handler) := [
  ("GEOADD", handleGeoadd p.externs.fo p.libm),
  ("GEOPOS", handleGeopos p.externs.fo p.libm),
  ("GEODIST", handleGeodist p.externs.fo p.libm),
  ("GEOHASH", handleGeohash p.externs.fo p.libm),
  ("GEOSEARCH", handleGeosearch p.externs.fo p.libm),
  ("GEOSEARCHSTORE", handleGeosearchstore p.externs.fo p.libm)]

def keyCommands : List (String × Handler) := [
  ("DBSIZE", handleDbsize),
  ("FLUSHDB", handleFlushall "FLUSHDB"),
  ("FLUSHALL", handleFlushall "FLUSHALL"),
  ("RANDOMKEY", handleRandomkey p.externs.wild),
  ("DEL", handleDel),
  ("UNLINK", handleDel),
  ("COPY", handleCopy),
  ("DUMP", handleDump p.externs.fo),
  ("RESTORE", handleRestore p.externs.fo),
  ("EXISTS", handleExists),
  ("TOUCH", handleTouch),
  ("EXPIRE", handleExpire),
  ("EXPIREAT", handleExpireat),
  ("PEXPIRE", handlePexpire),
  ("PEXPIREAT", handlePexpireat),
  ("PERSIST", handlePersist),
  ("TTL", handleTtl),
  ("PTTL", handlePttl),
  ("EXPIRETIME", handleExpiretime),
  ("PEXPIRETIME", handlePexpiretime),
  ("RENAME", handleRename),
  ("RENAMENX", handleRenamenx),
  ("KEYS", handleKeys p.externs.wild),
  ("SCAN", handleScan p.externs.wild),
  ("TYPE", handleType)]

def stringCommands : List (String × Handler) := [
  ("GETBIT", handleGetbit),
  ("SETBIT", handleSetbit),
  ("BITCOUNT", handleBitcount),
  ("BITPOS", handleBitpos),
  ("BITOP", handleBitop),
  ("PFADD", handlePfadd),
  ("PFCOUNT", handlePfcount p.externs.fo),
  ("PFMERGE", handlePfmerge),
  ("GET", handleGet),
  ("GETEX", handleGetex),
  ("GETSET", handleGetset),
  ("GETDEL", handleGetdel),
  ("GETRANGE", handleGetrange),
  ("SETRANGE", handleSetrange),
  ("STRLEN", handleStrlen),
  ("LCS", handleLcs),
  ("APPEND", handleAppend),
  ("SET", handleSet),
  ("SETNX", handleSetnx),
  ("SETEX", handleSetex),
  ("MGET", handleMget),
  ("MSET", handleMset),
  ("MSETNX", handleMsetnx),
  ("INCR", handleIncrby 1),
  ("INCRBY", fun args => do handleIncrby (← parseDelta args) args),
  ("INCRBYFLOAT", handleIncrbyfloat p.externs.fo),
  ("DECR", handleIncrby (-1)),
  ("DECRBY", handleDecrby)]

def hashCommands : List (String × Handler) := [
  ("HSET", handleHset),
  ("HSETNX", handleHsetnx),
  ("HGET", handleHget),
  ("HDEL", handleHdel),
  ("HGETALL", handleHgetall),
  ("HLEN", handleHlen),
  ("HKEYS", handleHkeys),
  ("HVALS", handleHvals),
  ("HEXISTS", handleHexists),
  ("HSTRLEN", handleHstrlen),
  ("HMGET", handleHmget),
  ("HINCRBY", handleHincrby),
  ("HINCRBYFLOAT", handleHincrbyfloat p.externs.fo),
  ("HRANDFIELD", handleHrandfield),
  ("HSCAN", handleHscan p.externs.wild)]

def listCommands : List (String × Handler) := [
  ("LPUSH", handlePush true),
  ("RPUSH", handlePush false),
  ("LPUSHX", handlePushx true),
  ("RPUSHX", handlePushx false),
  ("LPOP", handlePop true),
  ("RPOP", handlePop false),
  ("LRANGE", handleLrange),
  ("LLEN", handleLlen),
  ("LINDEX", handleLindex),
  ("LSET", handleLset),
  ("LREM", handleLrem),
  ("LINSERT", handleLinsert),
  ("LTRIM", handleLtrim),
  ("LMOVE", handleLmove),
  ("RPOPLPUSH", handleRpoplpush),
  ("LPOS", handleLpos)]

def setCommands : List (String × Handler) := [
  ("SADD", handleSadd),
  ("SREM", handleSrem),
  ("SMEMBERS", handleSmembers),
  ("SISMEMBER", handleSismember),
  ("SMISMEMBER", handleSmismember),
  ("SCARD", handleScard),
  ("SINTER", handleSetAlgebra .inter),
  ("SUNION", handleSetAlgebra .union),
  ("SDIFF", handleSetAlgebra .diff),
  ("SINTERCARD", handleSintercard),
  ("SINTERSTORE", handleSstore .inter),
  ("SUNIONSTORE", handleSstore .union),
  ("SDIFFSTORE", handleSstore .diff),
  ("SMOVE", handleSmove),
  ("SPOP", handleSpop),
  ("SRANDMEMBER", handleSrandmember),
  ("SSCAN", handleSscan p.externs)]

def zsetCommands : List (String × Handler) := [
  ("ZADD", handleZadd p.externs.fo),
  ("ZINTER", handleZsetAggregate p.externs.fo .inter),
  ("ZUNION", handleZsetAggregate p.externs.fo .union),
  ("ZDIFF", handleZsetAggregate p.externs.fo .diff),
  ("ZINTERCARD", handleZintercard p.externs.fo),
  ("ZINTERSTORE", handleZstore p.externs.fo .inter),
  ("ZUNIONSTORE", handleZstore p.externs.fo .union),
  ("ZDIFFSTORE", handleZstore p.externs.fo .diff),
  ("ZREM", handleZrem),
  ("ZINCRBY", handleZincrby p.externs.fo),
  ("ZRANGE", handleZrange p.externs.fo),
  ("ZREVRANGE", handleZrevrange p.externs.fo),
  ("ZRANGEBYSCORE", handleZrangebyscore p.externs.fo),
  ("ZREVRANGEBYSCORE", handleZrevrangebyscore p.externs.fo),
  ("ZRANGEBYLEX", handleZrangebylex),
  ("ZREVRANGEBYLEX", handleZrevrangebylex),
  ("ZLEXCOUNT", handleZlexcount),
  ("ZREMRANGEBYLEX", handleZremrangebylex),
  ("ZREMRANGEBYRANK", handleZremrangebyrank),
  ("ZREMRANGEBYSCORE", handleZremrangebyscore p.externs.fo),
  ("ZPOPMIN", handleZpop p.externs.fo false),
  ("ZPOPMAX", handleZpop p.externs.fo true),
  ("ZSCORE", handleZscore p.externs.fo),
  ("ZCARD", handleZcard),
  ("ZRANK", handleZrank false),
  ("ZREVRANK", handleZrank true),
  ("ZCOUNT", handleZcount p.externs.fo),
  ("ZMSCORE", handleZmscore p.externs.fo),
  ("ZRANDMEMBER", handleZrandmember p.externs.fo),
  ("ZSCAN", handleZscan p.externs.fo p.externs.wild)]

def streamCommands : List (String × Handler) := [
  ("XADD", handleXadd),
  ("XLEN", handleXlen),
  ("XRANGE", handleXrange false),
  ("XREVRANGE", handleXrange true),
  ("XDEL", handleXdel),
  ("XTRIM", handleXtrim),
  ("XREAD", handleXread),
  ("XINFO", handleXinfo),
  ("XGROUP", handleXgroup),
  ("XREADGROUP", handleXreadgroup),
  ("XACK", handleXack),
  ("XCLAIM", handleXclaim),
  ("XPENDING", handleXpending),
  ("XAUTOCLAIM", handleXautoclaim)]

/-- The arms of the match in `run`. -/
def commandTable : List (String × Handler) :=
  serverCommands p ++ geoCommands p ++ keyCommands p ++ stringCommands p ++ hashCommands p ++
    listCommands ++ setCommands p ++ zsetCommands p ++ streamCommands

/-- The name of a command, in upper case. -/
def commandName (cmdBytes : Bytes) : Result String :=
  match String.fromUTF8? cmdBytes.toByteArray with
  | some name => .ok (toUpper name)
  | none => .error (.respParse "command not utf8")

def run : List Bytes → KV RespReply
  | [] => Prog.fail (.respParse "empty command array")
  | cmdBytes :: args => do
      let cmd ← commandName cmdBytes
      match (commandTable p).lookup cmd with
      | some handler => handler args
      | none => Prog.fail (.unknownCommand cmd)

/-- A command is refused, or it is an arm of the match. -/
theorem run_cases (Q : KV RespReply → Prop) {tokens : List Bytes}
    (herror : ∀ e, Q (.done (.error e)))
    (harm : ∀ cmdBytes args cmd handler, tokens = cmdBytes :: args →
      commandName cmdBytes = .ok cmd → (cmd, handler) ∈ commandTable p → Q (handler args)) :
    Q (run p tokens) := by
  cases tokens with
  | nil => exact herror _
  | cons cmdBytes args =>
      show Q ((Prog.ofExcept (commandName cmdBytes)).bind fun cmd =>
        match (commandTable p).lookup cmd with
        | some handler => handler args
        | none => Prog.fail (.unknownCommand cmd))
      cases hname : commandName cmdBytes with
      | error e => exact herror e
      | ok cmd =>
          show Q (match (commandTable p).lookup cmd with
            | some handler => handler args
            | none => Prog.fail (.unknownCommand cmd))
          cases hlookup : (commandTable p).lookup cmd with
          | none => exact herror _
          | some handler =>
              obtain ⟨before, after, htable, -⟩ := List.lookup_eq_some_iff.mp hlookup
              apply harm cmdBytes args cmd handler rfl hname
              rw [htable]
              exact List.mem_append_right _ List.mem_cons_self

/-- The reply to an outcome of `run`. -/
def replyOf : Result RespReply → RespReply
  | .ok reply => reply
  | .error e => .err ("ERR " ++ e.display)

def dispatch (tokens : List Bytes) : KV RespReply := do
  let result ← (run p tokens).attempt
  return replyOf result

end Table

end Commands

end RustyAnt
