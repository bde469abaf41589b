import RustyAnt.Commands.Strings

/-!
# Key commands

The handlers of `src/commands.rs` that work on any kind of value: existence and
expiry, listing, RENAME and COPY, DUMP and RESTORE, and the keyspace as a whole.
-/

namespace RustyAnt

open Lib

namespace Commands

/-! ## Existence and expiry -/

/-- The keys for which `f` answers true, the arguments decoded one by one. -/
def countKeysWhere (f : String → KV Bool) : List Bytes → Int → KV Int
  | [], count => return count
  | arg :: args, count => do
      let hit ← f (← argAsStr arg)
      countKeysWhere f args (if hit then count + 1 else count)

/-- `DEL` and `UNLINK`. -/
def handleDel (args : List Bytes) : KV RespReply :=
  if args.isEmpty then Prog.fail (.wrongArity "DEL")
  else do
    let deleted ← countKeysWhere Storage.delete args 0
    return .integer deleted

def handleExists (args : List Bytes) : KV RespReply :=
  if args.isEmpty then Prog.fail (.wrongArity "EXISTS")
  else do
    let count ← countKeysWhere Storage.existsKey args 0
    return .integer count

def handleTouch (args : List Bytes) : KV RespReply :=
  if args.isEmpty then Prog.fail (.wrongArity "TOUCH")
  else do
    let count ← countKeysWhere Storage.existsKey args 0
    return .integer count

/-- The four commands that set a deadline: what their argument is called and the
deadline it stands for. -/
def handleExpiry (cmd label : String) (expiresAt : Int → KV Int) : List Bytes → KV RespReply
  | [key, n] => do
      let key ← argAsStr key
      let n ← parseI64 n label
      let at_ ← expiresAt n
      let set ← Storage.expireAt key at_
      return .flag set
  | _ => Prog.fail (.wrongArity cmd)

def handleExpire : List Bytes → KV RespReply :=
  handleExpiry "EXPIRE" "seconds" fun secs => deadline (wrapI64 (secs * 1000))

def handleExpireat : List Bytes → KV RespReply :=
  handleExpiry "EXPIREAT" "unix-time-seconds" fun secs => return saturatingSeconds secs

def handlePexpire : List Bytes → KV RespReply :=
  handleExpiry "PEXPIRE" "milliseconds" deadline

def handlePexpireat : List Bytes → KV RespReply :=
  handleExpiry "PEXPIREAT" "unix-time-milliseconds" fun ms => return ms

def ttlReply (scale : Int → Int) : TtlResult → RespReply
  | .noKey => .integer (-2)
  | .noExpire => .integer (-1)
  | .ms t => .integer (scale t)

/-- The four commands that report a deadline. -/
def handleTtlOf (cmd : String) (look : String → KV TtlResult) (scale : Int → Int) :
    List Bytes → KV RespReply
  | [key] => do
      let t ← look (← argAsStr key)
      return ttlReply scale t
  | _ => Prog.fail (.wrongArity cmd)

/-- `(ms + 999) / 1000`, an `i64` sum and a truncating division. -/
def handleTtl : List Bytes → KV RespReply :=
  handleTtlOf "TTL" Storage.ttlMs fun ms => Int.tdiv (wrapI64 (ms + 999)) 1000

def handlePttl : List Bytes → KV RespReply := handleTtlOf "PTTL" Storage.ttlMs id

def handleExpiretime : List Bytes → KV RespReply :=
  handleTtlOf "EXPIRETIME" Storage.expireTimeMs fun ms => Int.tdiv ms 1000

def handlePexpiretime : List Bytes → KV RespReply :=
  handleTtlOf "PEXPIRETIME" Storage.expireTimeMs id

def handlePersist : List Bytes → KV RespReply
  | [key] => do
      let cleared ← Storage.persist (← argAsStr key)
      return .flag cleared
  | _ => Prog.fail (.wrongArity "PERSIST")

def handleType : List Bytes → KV RespReply
  | [key] => do
      let kind ← Storage.kind (← argAsStr key)
      return .simpleString (kind.getD "none")
  | _ => Prog.fail (.wrongArity "TYPE")

/-! ## Listing -/

section Listing

variable (wild : String → String → Bool)

def handleKeys : List Bytes → KV RespReply
  | [pattern] => do
      let keys ← Storage.keys wild (← argAsStr pattern)
      return .texts keys
  | _ => Prog.fail (.wrongArity "KEYS")

/-- The cursor `0` is the start, and the end in the reply. -/
def handleScan : List Bytes → KV RespReply
  | cursor :: opts => do
      let cursor ← argAsStr cursor
      let (pattern, count) ← parseScanOpts "SCAN" opts (none, 10)
      let (keys, next) ← Storage.scan wild (if cursor = "0" then none else some cursor) pattern count
      return .array [.text (next.getD "0"), .texts keys]
  | [] => Prog.fail (.wrongArity "SCAN")

def handleRandomkey (args : List Bytes) : KV RespReply :=
  if args.isEmpty then do
    let key ← Storage.randomKey wild
    return key.elim .nil .text
  else Prog.fail (.wrongArity "RANDOMKEY")

end Listing

def handleDbsize (args : List Bytes) : KV RespReply :=
  if args.isEmpty then do
    let n ← Storage.dbsize
    return .integer n
  else Prog.fail (.wrongArity "DBSIZE")

/-- The optional `ASYNC` or `SYNC` is ignored. -/
def parseFlushMode (cmd : String) : List Bytes → Result Unit
  | [] => .ok ()
  | [mode] => do
      match ← optionWord mode with
      | "ASYNC" => return ()
      | "SYNC" => return ()
      | other => .error (.parse ("unsupported " ++ cmd ++ " option: " ++ other))
  | _ => .error (.wrongArity cmd)

/-- `FLUSHALL` and `FLUSHDB`. -/
def handleFlushall (cmd : String) (args : List Bytes) : KV RespReply := do
  let _ ← parseFlushMode cmd args
  Storage.flushall
  return .ok

/-! ## RENAME and COPY -/

def handleRename : List Bytes → KV RespReply
  | [source, dest] => do
      let source ← argAsStr source
      let dest ← argAsStr dest
      Storage.rename source dest
      return .ok
  | _ => Prog.fail (.wrongArity "RENAME")

def handleRenamenx : List Bytes → KV RespReply
  | [source, dest] => do
      let source ← argAsStr source
      let dest ← argAsStr dest
      let renamed ← Storage.renamenx source dest
      return .flag renamed
  | _ => Prog.fail (.wrongArity "RENAMENX")

/-- The `[REPLACE] [DB 0]` tail of `COPY`. -/
def parseCopyOpts : List Bytes → Bool → Result Bool
  | [], replace => .ok replace
  | arg :: rest, replace => do
      match ← optionWord arg, rest with
      | "REPLACE", rest => parseCopyOpts rest true
      | "DB", [] => .error (.parse "DB requires a value")
      | "DB", v :: rest => do
          let db ← parseI64 v "DB"
          if db ≠ 0 then .error (.parse "DB must be 0 — rustyant exposes a single namespace")
          else parseCopyOpts rest replace
      | other, _ => .error (.parse ("unsupported COPY option: " ++ other))

def handleCopy : List Bytes → KV RespReply
  | source :: dest :: opts => do
      let source ← argAsStr source
      let dest ← argAsStr dest
      let replace ← parseCopyOpts opts false
      let copied ← Storage.copy source dest replace
      return .flag copied
  | _ => Prog.fail (.wrongArity "COPY")

/-! ## DUMP and RESTORE -/

section Float

variable (fo : FloatOps)

def handleDump : List Bytes → KV RespReply
  | [key] => do
      let payload ← Storage.dump fo (← argAsStr key)
      return .bulkOrNil payload
  | _ => Prog.fail (.wrongArity "DUMP")

/-- The options of `RESTORE`: `REPLACE` and `ABSTTL`; `IDLETIME` and `FREQ` are read
and ignored. -/
def parseRestoreOpts : List Bytes → Bool × Bool → Result (Bool × Bool)
  | [], opts => .ok opts
  | arg :: rest, (replace, absTtl) => do
      match ← optionWord arg, rest with
      | "REPLACE", rest => parseRestoreOpts rest (true, absTtl)
      | "ABSTTL", rest => parseRestoreOpts rest (replace, true)
      | "IDLETIME", [] => .error (.parse "IDLETIME requires a value")
      | "IDLETIME", v :: rest => do
          let _ ← parseI64 v "IDLETIME"
          parseRestoreOpts rest (replace, absTtl)
      | "FREQ", [] => .error (.parse "FREQ requires a value")
      | "FREQ", v :: rest => do
          let _ ← parseI64 v "FREQ"
          parseRestoreOpts rest (replace, absTtl)
      | other, _ => .error (.parse ("unsupported RESTORE option: " ++ other))

def parseRestoreTtl (arg : Bytes) : Result Int := do
  let ttl ← parseI64 arg "ttl"
  if ttl < 0 then .error (.parse "Invalid TTL value, must be >= 0") else return ttl

def handleRestore : List Bytes → KV RespReply
  | key :: ttl :: payload :: opts => do
      let key ← argAsStr key
      let ttl ← parseRestoreTtl ttl
      let (replace, absTtl) ← parseRestoreOpts opts (false, false)
      Storage.restore fo key payload ttl replace absTtl
      return .ok
  | _ => Prog.fail (.wrongArity "RESTORE")

end Float

end Commands

end RustyAnt
