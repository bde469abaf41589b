import RustyAnt.Commands.Keys

/-!
# Server commands

The handshake, introspection and administration commands of `src/commands.rs`.  Most of them
touch no key and are plain functions of their arguments.
-/

namespace RustyAnt

open Lib

/-- What the process knows of itself. -/
structure ServerInfo where
  processId : Nat
  startedAtMs : Int

namespace Commands

/-- `env!("CARGO_PKG_VERSION")` -/
def packageVersion : String := "0.1.0"

/-- `to_ascii_lowercase`. -/
def toLower (s : String) : String := String.ofList (s.toList.map Char.toLower)

/-- The subcommand, which is the first argument. -/
def subcommand (command : String) : List Bytes → Result String
  | [] => .error (.wrongArity command)
  | sub :: _ => optionWord sub

/-! ## Connection -/

def handleEcho : List Bytes → Result RespReply
  | [msg] => .ok (.bulkString (some msg))
  | _ => .error (.wrongArity "ECHO")

/-- The `[AUTH user password] [SETNAME name]` tail of `HELLO`. -/
def parseHelloOpts : List Bytes → Result Unit
  | [] => .ok ()
  | arg :: rest => do
      match ← optionWord arg, rest with
      | "AUTH", _ :: _ :: rest => parseHelloOpts rest
      | "AUTH", _ => .error (.parse "AUTH requires username and password")
      | "SETNAME", _ :: rest => parseHelloOpts rest
      | "SETNAME", [] => .error (.parse "SETNAME requires a value")
      | other, _ => .error (.parse ("unsupported HELLO option: " ++ other))

def parseProtocol (arg : Bytes) : Result Unit := do
  let text ← argAsStr arg
  match Storage.parseI64 arg with
  | none => .error (.parse ("Protocol version is not an integer or out of range: " ++ text))
  | some proto =>
      if proto ≠ 2 then
        .error (.parse "NOPROTO unsupported protocol version — rustyant speaks RESP2 only")
      else return ()

def helloInfoReply : RespReply :=
  .array [.text "server", .text "rustyant", .text "version", .text packageVersion, .text "proto",
    .integer 2, .text "id", .integer 1, .text "mode", .text "standalone", .text "role",
    .text "master", .text "modules", .array []]

def handleHello : List Bytes → Result RespReply
  | [] => .ok helloInfoReply
  | first :: rest => do
      parseProtocol first
      parseHelloOpts rest
      return helloInfoReply

def handleClient (args : List Bytes) : Result RespReply := do
  match ← subcommand "CLIENT" args with
  | "SETINFO" | "SETNAME" | "NO-EVICT" | "NO-TOUCH" | "REPLY" | "UNPAUSE" | "PAUSE" | "TRACKING"
  | "TRACKINGINFO" => return .ok
  | "ID" => return .integer 1
  | "GETNAME" => return .bulkString (some [])
  | "INFO" | "LIST" => return .text "id=1 addr=lambda name= age=0 idle=0 flags=N db=0\r\n"
  | other => .error (.parse ("unsupported CLIENT subcommand: " ++ other))

def handleAuth (args : List Bytes) : Result RespReply := do
  arity "AUTH" (args.length = 1 ∨ args.length = 2)
  return .ok

def handleSelect : List Bytes → Result RespReply
  | [index] => do
      let idx ← parseI64 index "DB index"
      if idx = 0 then return .ok else .error (.parse "DB index is out of range")
  | _ => .error (.wrongArity "SELECT")

def handleWait : List Bytes → Result RespReply
  | [numreplicas, timeout] => do
      let _ ← parseI64 numreplicas "numreplicas"
      let _ ← parseI64 timeout "timeout"
      return .integer 0
  | _ => .error (.wrongArity "WAIT")

/-! ## Administration -/

def handleBgsave : List Bytes → Result RespReply
  | [] => .ok (.simpleString "Background saving started")
  | [opt] => do
      match ← optionWord opt with
      | "SCHEDULE" => return .simpleString "Background saving started"
      | other => .error (.parse ("unsupported BGSAVE option: " ++ other))
  | _ => .error (.wrongArity "BGSAVE")

def handleLatency (args : List Bytes) : Result RespReply := do
  match ← subcommand "LATENCY" args with
  | "RESET" => return .integer 0
  | "HISTORY" => do
      arity "LATENCY HISTORY" (args.length = 2)
      return .array []
  | "GRAPH" => do
      arity "LATENCY GRAPH" (args.length = 2)
      return .bulkString (some [])
  | "LATEST" => return .array []
  | "DOCTOR" =>
      return .text ("Dave, I have observed the system for a while and I have no latency issues " ++
        "to report.\n")
  | other => .error (.parse ("unsupported LATENCY subcommand: " ++ other))

/-- The sleep touches no state. -/
def handleDebug (fo : FloatOps) (args : List Bytes) : Result RespReply := do
  match ← subcommand "DEBUG" args, args with
  | "SLEEP", [_, secs] => do
      let _ ← argAsStr secs
      match fo.parse secs with
      | none => .error (.parse "DEBUG SLEEP takes a number")
      | some secs =>
          if !secs.isFinite || secs.lt .zero then
            .error (.parse "DEBUG SLEEP takes a non-negative number")
          else return .ok
  | "SLEEP", _ => .error (.wrongArity "DEBUG SLEEP")
  | other, _ => .error (.parse ("DEBUG " ++ other ++
      " is not supported on rustyant (S3-backed; no engine-internal state to inspect)"))

def configStub : List (String × String) :=
  [("maxmemory", "0"),
   ("maxmemory-policy", "noeviction"),
   ("save", ""),
   ("appendonly", "no"),
   ("timeout", "0"),
   ("tcp-keepalive", "0"),
   ("databases", "1"),
   ("hash-max-listpack-entries", "0"),
   ("list-max-listpack-size", "0"),
   ("zset-max-listpack-entries", "0")]

/-- The stubs that one pattern of `CONFIG GET` matches. -/
def configMatches (wild : String → String → Bool) (pattern : String) : List RespReply :=
  (configStub.filter fun p => wild pattern p.1).flatMap fun p => [.text p.1, .text p.2]

def handleConfig (wild : String → String → Bool) (args : List Bytes) : Result RespReply := do
  match ← subcommand "CONFIG" args with
  | "GET" => do
      arity "CONFIG GET" (2 ≤ args.length)
      let patterns ← argsAsStrings args.tail
      return .array (patterns.flatMap (configMatches wild))
  | "SET" | "RESETSTAT" | "REWRITE" => return .ok
  | other => .error (.parse ("unsupported CONFIG subcommand: " ++ other))

/-! ## Commands that the transport cannot serve -/

def notSupportedOnThisTransport (cmd : String) : RustyAntError :=
  .parse (cmd ++ " is not supported on rustyant: requires connection-level state or " ++
    "server-initiated push, which rustyant's one-command-per-request transport does not provide")

def handleMulti (args : List Bytes) : Result RespReply := do
  arity "MULTI" args.isEmpty
  .error (notSupportedOnThisTransport "MULTI")

def handleExec (args : List Bytes) : Result RespReply := do
  arity "EXEC" args.isEmpty
  .error (.parse "EXEC without MULTI")

def handleDiscard (args : List Bytes) : Result RespReply := do
  arity "DISCARD" args.isEmpty
  .error (.parse "DISCARD without MULTI")

def handleWatch (args : List Bytes) : Result RespReply := do
  arity "WATCH" (!args.isEmpty)
  .error (notSupportedOnThisTransport "WATCH")

def handleUnwatch (args : List Bytes) : Result RespReply := do
  arity "UNWATCH" args.isEmpty
  return .ok

def handleSubscribe (args : List Bytes) : Result RespReply := do
  arity "SUBSCRIBE" (!args.isEmpty)
  .error (notSupportedOnThisTransport "SUBSCRIBE")

def handlePsubscribe (args : List Bytes) : Result RespReply := do
  arity "PSUBSCRIBE" (!args.isEmpty)
  .error (notSupportedOnThisTransport "PSUBSCRIBE")

def handleUnsubscribe (_args : List Bytes) : Result RespReply :=
  .error (notSupportedOnThisTransport "UNSUBSCRIBE")

def handlePunsubscribe (_args : List Bytes) : Result RespReply :=
  .error (notSupportedOnThisTransport "PUNSUBSCRIBE")

def handlePublish (args : List Bytes) : Result RespReply := do
  arity "PUBLISH" (args.length = 2)
  return .integer 0

def handlePubsub (args : List Bytes) : Result RespReply := do
  match ← subcommand "PUBSUB" args with
  | "CHANNELS" => do
      arity "PUBSUB CHANNELS" (args.length ≤ 2)
      return .array []
  | "NUMSUB" =>
      return .array (args.tail.flatMap fun name => [.bulkString (some name), .integer 0])
  | "NUMPAT" => do
      arity "PUBSUB NUMPAT" (args.length = 1)
      return .integer 0
  | other => .error (.parse ("unsupported PUBSUB subcommand: " ++ other))

/-! ## `COMMAND` -/

structure CommandMeta where
  name : String
  arity : Int
  flags : List String
  firstKey : Int
  lastKey : Int
  step : Int

def commandMeta : List CommandMeta := [
  ⟨"ping", -1, ["fast"], 0, 0, 0⟩,
  ⟨"echo", 2, ["fast"], 0, 0, 0⟩,
  ⟨"time", 1, ["fast", "loading", "stale"], 0, 0, 0⟩,
  ⟨"info", -1, ["loading", "stale"], 0, 0, 0⟩,
  ⟨"command", -1, ["loading", "stale"], 0, 0, 0⟩,
  ⟨"hello", -1, ["fast", "loading", "stale"], 0, 0, 0⟩,
  ⟨"client", -2, ["admin", "noscript"], 0, 0, 0⟩,
  ⟨"reset", 1, ["fast", "loading", "stale"], 0, 0, 0⟩,
  ⟨"auth", -2, ["fast", "loading", "stale"], 0, 0, 0⟩,
  ⟨"wait", 3, ["admin"], 0, 0, 0⟩,
  ⟨"save", 1, ["admin", "noscript"], 0, 0, 0⟩,
  ⟨"bgsave", -1, ["admin"], 0, 0, 0⟩,
  ⟨"bgrewriteaof", 1, ["admin"], 0, 0, 0⟩,
  ⟨"lastsave", 1, ["readonly", "fast", "admin"], 0, 0, 0⟩,
  ⟨"latency", -2, ["admin", "noscript", "loading", "stale"], 0, 0, 0⟩,
  ⟨"debug", -2, ["admin", "noscript"], 0, 0, 0⟩,
  ⟨"multi", 1, ["noscript", "loading", "stale", "fast"], 0, 0, 0⟩,
  ⟨"exec", 1, ["noscript", "loading", "stale", "skip_monitor", "skip_slowlog"], 0, 0, 0⟩,
  ⟨"discard", 1, ["noscript", "loading", "stale", "fast"], 0, 0, 0⟩,
  ⟨"watch", -2, ["noscript", "loading", "stale", "fast"], 1, -1, 1⟩,
  ⟨"unwatch", 1, ["noscript", "loading", "stale", "fast"], 0, 0, 0⟩,
  ⟨"subscribe", -2, ["pubsub", "loading", "stale", "fast"], 0, 0, 0⟩,
  ⟨"psubscribe", -2, ["pubsub", "loading", "stale", "fast"], 0, 0, 0⟩,
  ⟨"unsubscribe", -1, ["pubsub", "loading", "stale", "fast"], 0, 0, 0⟩,
  ⟨"punsubscribe", -1, ["pubsub", "loading", "stale", "fast"], 0, 0, 0⟩,
  ⟨"publish", 3, ["pubsub", "loading", "stale", "fast"], 0, 0, 0⟩,
  ⟨"pubsub", -2, ["pubsub", "admin", "loading", "stale"], 0, 0, 0⟩,
  ⟨"geoadd", -5, ["write", "denyoom"], 1, 1, 1⟩,
  ⟨"geopos", -3, ["readonly"], 1, 1, 1⟩,
  ⟨"geodist", -4, ["readonly"], 1, 1, 1⟩,
  ⟨"geohash", -3, ["readonly"], 1, 1, 1⟩,
  ⟨"geosearch", -7, ["readonly"], 1, 1, 1⟩,
  ⟨"geosearchstore", -8, ["write", "denyoom"], 1, 2, 1⟩,
  ⟨"dbsize", 1, ["readonly", "fast"], 0, 0, 0⟩,
  ⟨"flushdb", -1, ["write"], 0, 0, 0⟩,
  ⟨"flushall", -1, ["write"], 0, 0, 0⟩,
  ⟨"randomkey", 1, ["readonly"], 0, 0, 0⟩,
  ⟨"del", -2, ["write"], 1, -1, 1⟩,
  ⟨"unlink", -2, ["write", "fast"], 1, -1, 1⟩,
  ⟨"copy", -3, ["write"], 1, 2, 1⟩,
  ⟨"exists", -2, ["readonly", "fast"], 1, -1, 1⟩,
  ⟨"expire", -3, ["write", "fast"], 1, 1, 1⟩,
  ⟨"expireat", -3, ["write", "fast"], 1, 1, 1⟩,
  ⟨"pexpire", -3, ["write", "fast"], 1, 1, 1⟩,
  ⟨"pexpireat", -3, ["write", "fast"], 1, 1, 1⟩,
  ⟨"persist", 2, ["write", "fast"], 1, 1, 1⟩,
  ⟨"ttl", 2, ["readonly", "fast"], 1, 1, 1⟩,
  ⟨"pttl", 2, ["readonly", "fast"], 1, 1, 1⟩,
  ⟨"expiretime", 2, ["readonly", "fast"], 1, 1, 1⟩,
  ⟨"pexpiretime", 2, ["readonly", "fast"], 1, 1, 1⟩,
  ⟨"keys", 2, ["readonly"], 0, 0, 0⟩,
  ⟨"scan", -2, ["readonly"], 0, 0, 0⟩,
  ⟨"type", 2, ["readonly", "fast"], 1, 1, 1⟩,
  ⟨"rename", 3, ["write"], 1, 2, 1⟩,
  ⟨"renamenx", 3, ["write", "fast"], 1, 2, 1⟩,
  ⟨"get", 2, ["readonly", "fast"], 1, 1, 1⟩,
  ⟨"getex", -2, ["write", "fast"], 1, 1, 1⟩,
  ⟨"getset", 3, ["write", "fast"], 1, 1, 1⟩,
  ⟨"getdel", 2, ["write", "fast"], 1, 1, 1⟩,
  ⟨"getrange", 4, ["readonly"], 1, 1, 1⟩,
  ⟨"setrange", 4, ["write", "denyoom"], 1, 1, 1⟩,
  ⟨"strlen", 2, ["readonly", "fast"], 1, 1, 1⟩,
  ⟨"append", 3, ["write", "denyoom", "fast"], 1, 1, 1⟩,
  ⟨"set", -3, ["write", "denyoom"], 1, 1, 1⟩,
  ⟨"setnx", 3, ["write", "denyoom", "fast"], 1, 1, 1⟩,
  ⟨"setex", 4, ["write", "denyoom"], 1, 1, 1⟩,
  ⟨"mget", -2, ["readonly", "fast"], 1, -1, 1⟩,
  ⟨"mset", -3, ["write", "denyoom"], 1, -1, 2⟩,
  ⟨"msetnx", -3, ["write", "denyoom"], 1, -1, 2⟩,
  ⟨"incr", 2, ["write", "denyoom", "fast"], 1, 1, 1⟩,
  ⟨"incrby", 3, ["write", "denyoom", "fast"], 1, 1, 1⟩,
  ⟨"incrbyfloat", 3, ["write", "denyoom", "fast"], 1, 1, 1⟩,
  ⟨"decr", 2, ["write", "denyoom", "fast"], 1, 1, 1⟩,
  ⟨"decrby", 3, ["write", "denyoom", "fast"], 1, 1, 1⟩,
  ⟨"getbit", 3, ["readonly", "fast"], 1, 1, 1⟩,
  ⟨"setbit", 4, ["write", "denyoom"], 1, 1, 1⟩,
  ⟨"bitcount", -2, ["readonly"], 1, 1, 1⟩,
  ⟨"bitpos", -3, ["readonly"], 1, 1, 1⟩,
  ⟨"bitop", -4, ["write", "denyoom"], 2, -1, 1⟩,
  ⟨"hset", -4, ["write", "denyoom", "fast"], 1, 1, 1⟩,
  ⟨"hsetnx", 4, ["write", "denyoom", "fast"], 1, 1, 1⟩,
  ⟨"hget", 3, ["readonly", "fast"], 1, 1, 1⟩,
  ⟨"hdel", -3, ["write", "fast"], 1, 1, 1⟩,
  ⟨"hexists", 3, ["readonly", "fast"], 1, 1, 1⟩,
  ⟨"hgetall", 2, ["readonly"], 1, 1, 1⟩,
  ⟨"hincrby", 4, ["write", "denyoom", "fast"], 1, 1, 1⟩,
  ⟨"hkeys", 2, ["readonly"], 1, 1, 1⟩,
  ⟨"hlen", 2, ["readonly", "fast"], 1, 1, 1⟩,
  ⟨"hmget", -3, ["readonly", "fast"], 1, 1, 1⟩,
  ⟨"hscan", -3, ["readonly"], 1, 1, 1⟩,
  ⟨"hstrlen", 3, ["readonly", "fast"], 1, 1, 1⟩,
  ⟨"hvals", 2, ["readonly"], 1, 1, 1⟩,
  ⟨"lpush", -3, ["write", "denyoom", "fast"], 1, 1, 1⟩,
  ⟨"lpushx", -3, ["write", "denyoom", "fast"], 1, 1, 1⟩,
  ⟨"rpush", -3, ["write", "denyoom", "fast"], 1, 1, 1⟩,
  ⟨"rpushx", -3, ["write", "denyoom", "fast"], 1, 1, 1⟩,
  ⟨"lpop", -2, ["write", "fast"], 1, 1, 1⟩,
  ⟨"rpop", -2, ["write", "fast"], 1, 1, 1⟩,
  ⟨"lrange", 4, ["readonly"], 1, 1, 1⟩,
  ⟨"lindex", 3, ["readonly"], 1, 1, 1⟩,
  ⟨"llen", 2, ["readonly", "fast"], 1, 1, 1⟩,
  ⟨"lset", 4, ["write", "denyoom"], 1, 1, 1⟩,
  ⟨"ltrim", 4, ["write"], 1, 1, 1⟩,
  ⟨"linsert", 5, ["write", "denyoom"], 1, 1, 1⟩,
  ⟨"lrem", 4, ["write"], 1, 1, 1⟩,
  ⟨"lmove", 5, ["write"], 1, 2, 1⟩,
  ⟨"rpoplpush", 3, ["write", "denyoom"], 1, 2, 1⟩,
  ⟨"lpos", -3, ["readonly"], 1, 1, 1⟩,
  ⟨"sadd", -3, ["write", "denyoom", "fast"], 1, 1, 1⟩,
  ⟨"srem", -3, ["write", "fast"], 1, 1, 1⟩,
  ⟨"scard", 2, ["readonly", "fast"], 1, 1, 1⟩,
  ⟨"sismember", 3, ["readonly", "fast"], 1, 1, 1⟩,
  ⟨"smismember", -3, ["readonly", "fast"], 1, 1, 1⟩,
  ⟨"smembers", 2, ["readonly"], 1, 1, 1⟩,
  ⟨"srandmember", -2, ["readonly"], 1, 1, 1⟩,
  ⟨"spop", -2, ["write", "fast"], 1, 1, 1⟩,
  ⟨"sinter", -2, ["readonly"], 1, -1, 1⟩,
  ⟨"sunion", -2, ["readonly"], 1, -1, 1⟩,
  ⟨"sdiff", -2, ["readonly"], 1, -1, 1⟩,
  ⟨"sinterstore", -3, ["write", "denyoom"], 1, -1, 1⟩,
  ⟨"sunionstore", -3, ["write", "denyoom"], 1, -1, 1⟩,
  ⟨"sdiffstore", -3, ["write", "denyoom"], 1, -1, 1⟩,
  ⟨"sscan", -3, ["readonly"], 1, 1, 1⟩,
  ⟨"zadd", -4, ["write", "denyoom", "fast"], 1, 1, 1⟩,
  ⟨"zrem", -3, ["write", "fast"], 1, 1, 1⟩,
  ⟨"zcard", 2, ["readonly", "fast"], 1, 1, 1⟩,
  ⟨"zcount", 4, ["readonly", "fast"], 1, 1, 1⟩,
  ⟨"zrange", -4, ["readonly"], 1, 1, 1⟩,
  ⟨"zrevrange", -4, ["readonly"], 1, 1, 1⟩,
  ⟨"zrangebyscore", -4, ["readonly"], 1, 1, 1⟩,
  ⟨"zrevrangebyscore", -4, ["readonly"], 1, 1, 1⟩,
  ⟨"zscore", 3, ["readonly", "fast"], 1, 1, 1⟩,
  ⟨"zmscore", -3, ["readonly", "fast"], 1, 1, 1⟩,
  ⟨"zrank", -3, ["readonly", "fast"], 1, 1, 1⟩,
  ⟨"zrevrank", -3, ["readonly", "fast"], 1, 1, 1⟩,
  ⟨"zincrby", 4, ["write", "denyoom", "fast"], 1, 1, 1⟩,
  ⟨"zpopmin", -2, ["write", "fast"], 1, 1, 1⟩,
  ⟨"zpopmax", -2, ["write", "fast"], 1, 1, 1⟩,
  ⟨"zremrangebyrank", 4, ["write"], 1, 1, 1⟩,
  ⟨"zremrangebyscore", 4, ["write"], 1, 1, 1⟩,
  ⟨"zinterstore", -4, ["write", "denyoom"], 1, 1, 1⟩,
  ⟨"zunionstore", -4, ["write", "denyoom"], 1, 1, 1⟩,
  ⟨"zdiffstore", -4, ["write", "denyoom"], 1, 1, 1⟩,
  ⟨"zscan", -3, ["readonly"], 1, 1, 1⟩]

def commandMetaReply (m : CommandMeta) : RespReply :=
  .array [.text m.name, .integer m.arity, .texts m.flags, .integer m.firstKey, .integer m.lastKey,
    .integer m.step]

def handleCommand (args : List Bytes) : Result RespReply := do
  if args.isEmpty then return .array (commandMeta.map commandMetaReply)
  else
    match ← subcommand "COMMAND" args with
    | "COUNT" => do
        arity "COMMAND COUNT" (args.length = 1)
        return .integer commandMeta.length
    | "LIST" => do
        arity "COMMAND LIST" (args.length = 1)
        return .texts (commandMeta.map CommandMeta.name)
    | "INFO" =>
        if args.length = 1 then return .array (commandMeta.map commandMetaReply)
        else do
          let wanted ← argsAsStrings args.tail
          return .array (wanted.map fun want =>
            (commandMeta.find? fun m => m.name == toLower want).elim .nil commandMetaReply)
    | other => .error (.parse ("unsupported COMMAND subcommand: " ++ other))

/-! ## Commands that read the clock or a key -/

def handleTime : List Bytes → KV RespReply
  | [] => do
      let nanos ← KV.nanos
      return .array [.bulkString (some (Decimal.natBytes (nanos.toNat / 10 ^ 9))),
        .bulkString (some (Decimal.natBytes (nanos.toNat % 10 ^ 9 / 1000)))]
  | _ => Prog.fail (.wrongArity "TIME")

def infoSectionIncluded (requested : Option String) (section_ : String) : Bool :=
  requested.elim true fun r => r == section_ || r == "everything" || r == "default" || r == "all"

/-- The `[section]` of `INFO`. -/
def parseInfoSection : List Bytes → Result (Option String)
  | [] => .ok none
  | [section_] => do return some (toLower (← argAsStr section_))
  | _ => .error (.wrongArity "INFO")

def serverSection (info : ServerInfo) (now : Int) : String :=
  "# Server\r\n" ++ "redis_version:7.4.0\r\n" ++ "rustyant_version:" ++ packageVersion ++ "\r\n" ++
    "process_id:" ++ toString info.processId ++ "\r\n" ++
    "uptime_in_seconds:" ++ toString ((saturatingAdd now (-info.startedAtMs)).tdiv 1000) ++
    "\r\n" ++
    "os:Linux-lambda\r\n" ++ "arch_bits:64\r\n" ++ "\r\n"

def clientsSection : String := "# Clients\r\n" ++ "connected_clients:1\r\n" ++ "\r\n"

def statsSection : String :=
  "# Stats\r\n" ++ "total_connections_received:0\r\n" ++ "total_commands_processed:0\r\n" ++
    "instantaneous_ops_per_sec:0\r\n" ++ "\r\n"

def keyspaceSection (ks : KeyspaceStats) : String :=
  "# Keyspace\r\n" ++
    (if 0 < ks.totalKeys then "db0:keys=" ++ toString ks.totalKeys ++ ",expires=" ++
      toString ks.keysWithExpire ++ ",avg_ttl=0\r\n" else "") ++ "\r\n"

def handleInfo (info : ServerInfo) (args : List Bytes) : KV RespReply := do
  let requested ← parseInfoSection args
  let included := infoSectionIncluded requested
  let server ← if included "server" then do
      let now ← KV.nowMs
      pure (serverSection info now)
    else pure ""
  let clients := if included "clients" then clientsSection else ""
  let stats := if included "stats" then statsSection else ""
  let keyspace ← if included "keyspace" then do
      let ks ← Storage.keyspaceStats
      pure (keyspaceSection ks)
    else pure ""
  return .text (server ++ clients ++ stats ++ keyspace)

def objectHelp : List String := [
  "OBJECT ENCODING <key> -- Return the kind of internal representation used in order to store " ++
    "the value.",
  "OBJECT FREQ <key> -- Return the access frequency index of the key (LFU-only, not supported).",
  "OBJECT IDLETIME <key> -- Return the idle time of the key (seconds).",
  "OBJECT REFCOUNT <key> -- Return the number of references of the value.",
  "OBJECT HELP -- Prints this help."]

def encodingOf : String → RespReply
  | "string" => .text "raw"
  | "hash" | "list" | "zset" => .text "listpack"
  | "set" => .text "hashtable"
  | other => .text other

/-- `OBJECT IDLETIME` and `OBJECT REFCOUNT`. -/
def objectStat (n : Int) (key : String) : KV RespReply := do
  let found ← Storage.existsKey key
  if found then return .integer n else Prog.fail Storage.noSuchKey

def lfuNotSelected : RustyAntError :=
  .parse ("An LFU maxmemory policy is not selected, access frequency not tracked. Please note " ++
    "that when switching between maxmemory policies at runtime LFU and LRU data will take some " ++
    "time to adjust.")

/-- `OBJECT` with a key. -/
def objectOf (key : String) : String → KV RespReply
  | "ENCODING" => do
      match ← Storage.kind key with
      | some kind => return encodingOf kind
      | none => Prog.fail Storage.noSuchKey
  | "IDLETIME" => objectStat 0 key
  | "REFCOUNT" => objectStat 1 key
  | "FREQ" => Prog.fail lfuNotSelected
  | other => Prog.fail (.parse ("unsupported OBJECT subcommand: " ++ other))

def handleObject (args : List Bytes) : KV RespReply := do
  let sub ← subcommand "OBJECT" args
  if sub = "HELP" then return .texts objectHelp
  else
    match args with
    | [_, key] => do objectOf (← argAsStr key) sub
    | _ => Prog.fail (.wrongArity ("OBJECT " ++ sub))

/-- The key of `MEMORY USAGE`; `SAMPLES n` is checked and ignored. -/
def parseMemoryUsage : List Bytes → Result String
  | [_, key] => argAsStr key
  | [_, key, samples, n] => do
      let key ← argAsStr key
      if ← isWord samples "SAMPLES" then
        let _ ← parseI64 n "SAMPLES"
        return key
      else .error (.parse "syntax error")
  | _ => .error (.wrongArity "MEMORY USAGE")

def handleMemory (fo : FloatOps) (args : List Bytes) : KV RespReply := do
  match ← subcommand "MEMORY" args with
  | "USAGE" => do
      let key ← parseMemoryUsage args
      let size ← Storage.memUsage fo key
      return size.elim .nil .integer
  | "DOCTOR" =>
      return .text ("Sam, I detected a few issues in this Redis instance memory implants:\n\n" ++
        " * rustyant runs on S3, so no in-process heap signals are collected.\n")
  | "PURGE" => return .ok
  | "STATS" | "MALLOC-STATS" => return .array []
  | other => Prog.fail (.parse ("unsupported MEMORY subcommand: " ++ other))

end Commands

end RustyAnt
