import RustyAnt.Commands.Hashes
import RustyAnt.Commands.ZSets
import RustyAnt.Storage.Streams
import RustyAnt.Stream.Text

/-!
# Stream commands

The stream handlers of `src/commands.rs`, and `parse_trim` of `src/stream.rs`.  The
option loops of `XREAD` and `XREADGROUP` index the arguments without a bound: running
past the last one is a panic, which ends the command before any storage call.
-/

namespace RustyAnt

open Lib RustyAnt.Stream

namespace Commands

/-- `arg_as_str`, as the bytes of the text. -/
def argText (arg : Bytes) : Result Bytes := do
  let _ ← argAsStr arg
  return arg

def streamIdArg (arg : Bytes) : Result StreamId := do StreamId.parse (← argText arg)

def streamIdArgs (args : List Bytes) : Result (List StreamId) := args.mapM streamIdArg

/-- What stands for a panic of a handler. -/
def aborted : RustyAntError := .io "aborted"

/-- A `COUNT` that may be zero. -/
def parseStreamCount (arg : Bytes) (label : String) : Result Nat := do
  let n ← parseI64 arg label
  if n < 0 then .error (.parse (label ++ " must be non-negative")) else return n.toNat

/-! ## Replies -/

def streamIdBulk (id : StreamId) : RespReply := .bulkString (some id.display)

def entryToReply (e : StreamEntry) : RespReply :=
  .array [streamIdBulk e.id, .array (fieldsReply e.fields)]

/-- `[[key, [entry, ...]], ...]`, or nil when no stream has any. -/
def perStreamReply : List (String × List StreamEntry) → RespReply
  | [] => .nil
  | perStream => .array (perStream.map fun p => .array [.text p.1, .array (p.2.map entryToReply)])

def claimResultToReply (result : XClaimResult) : RespReply :=
  match result.fields with
  | some fields => .array [streamIdBulk result.id, .array (fieldsReply fields)]
  | none => streamIdBulk result.id

/-- `i64::try_from(n).unwrap_or(i64::MAX)` of a count. -/
def count64 (n : Nat) : RespReply := .integer (toI64 n)

/-! ## `parse_trim` -/

def trimInt (tok : String) (negative : String) : Result Nat :=
  match Storage.parseI64 (Rdb.asBytes tok) with
  | none => .error (.parse "value is not an integer or out of range")
  | some n => if n < 0 then .error (.parse negative) else .ok n.toNat

/-- `LIMIT n`, with the tokens after it. -/
def parseTrimLimit : List String → Result (Option Nat × List String)
  | [] => .ok (none, [])
  | tok :: rest =>
      if toUpper tok = "LIMIT" then
        match rest with
        | [] => .error syntaxError
        | n :: rest => do
            let n ← trimInt n "LIMIT must be non-negative"
            return (some n, rest)
      else .ok (none, tok :: rest)

/-- `MAXLEN [~|=] n` / `MINID [~|=] id` and the `LIMIT`; the tokens that are not consumed
come back. -/
def parseTrim : List String → Result (TrimBound × Option Nat × List String)
  | [] => .error syntaxError
  | keyword :: rest => do
      let kind := toUpper keyword
      if kind ≠ "MAXLEN" ∧ kind ≠ "MINID" then .error syntaxError
      else
        let rest := match rest with
          | "~" :: rest => rest
          | "=" :: rest => rest
          | _ => rest
        match rest with
        | [] => .error syntaxError
        | threshold :: rest =>
            let bound ← if kind = "MAXLEN" then
                .maxLen <$> trimInt threshold "MAXLEN must be non-negative"
              else .minId <$> StreamId.parse (Rdb.asBytes threshold)
            let (limit, rest) ← parseTrimLimit rest
            return (bound, limit, rest)

/-! ## Entries -/

/-- The trim clause of an `XADD`, and the arguments after it. -/
def parseXaddTrim (args : List Bytes) :
    Result (Option (TrimBound × Option Nat) × List Bytes) := do
  match args with
  | [] => .error aborted
  | head :: _ =>
      let word ← optionWord head
      if word = "MAXLEN" ∨ word = "MINID" then
        let remaining ← argsAsStrings args
        let (bound, limit, rest) ← parseTrim remaining
        return (some (bound, limit), args.drop (args.length - rest.length))
      else return (none, args)

def handleXadd (args : List Bytes) : KV RespReply :=
  match args with
  | key :: a :: b :: c :: rest => do
      let key ← argAsStr key
      let opts := a :: b :: c :: rest
      let nomkstream ← isWord a "NOMKSTREAM"
      let opts := if nomkstream then b :: c :: rest else opts
      let (trim, opts) ← parseXaddTrim opts
      match opts with
      | [] => Prog.fail (.wrongArity "XADD")
      | id :: pairs =>
          let spec ← AddIdSpec.parse (← argText id)
          if pairs = [] ∨ pairs.length % 2 ≠ 0 then Prog.fail (.wrongArity "XADD")
          else
            let fields ← keyValuePairs "XADD" pairs
            let result ← Storage.xadd key spec fields nomkstream trim
            return result.elim .nil streamIdBulk
  | _ => Prog.fail (.wrongArity "XADD")

def handleXlen : List Bytes → KV RespReply
  | [key] => do
      let n ← Storage.xlen (← argAsStr key)
      return .integer n
  | _ => Prog.fail (.wrongArity "XLEN")

def rangeIdArg (arg : Bytes) : Result RangeId := do RangeId.parse (← argText arg)

/-- The bounds of `XRANGE key start end` and of `XREVRANGE key end start`. -/
def parseXrangeBounds (reverse : Bool) (first second : Bytes) : Result (RangeId × RangeId) :=
  if reverse then do
    let start ← rangeIdArg second
    let stop ← rangeIdArg first
    return (start, stop)
  else do
    let start ← rangeIdArg first
    let stop ← rangeIdArg second
    return (start, stop)

def parseXrangeCount : Option (Bytes × Bytes) → Result (Option Nat)
  | none => .ok none
  | some (word, n) => do
      if ← isWord word "COUNT" then some <$> parseStreamCount n "COUNT" else .error syntaxError

def xrangeReply (key first second : Bytes) (count : Option (Bytes × Bytes)) (reverse : Bool) :
    KV RespReply := do
  let key ← argAsStr key
  let (start, stop) ← parseXrangeBounds reverse first second
  let count ← parseXrangeCount count
  let entries ← Storage.xrange key start stop count reverse
  return .array (entries.map entryToReply)

def handleXrange (reverse : Bool) : List Bytes → KV RespReply
  | [key, first, second] => xrangeReply key first second none reverse
  | [key, first, second, word, n] => xrangeReply key first second (some (word, n)) reverse
  | _ => Prog.fail (.wrongArity (if reverse then "XREVRANGE" else "XRANGE"))

def handleXdel : List Bytes → KV RespReply
  | key :: id :: ids => do
      let key ← argAsStr key
      let ids ← streamIdArgs (id :: ids)
      let n ← Storage.xdel key ids
      return .integer n
  | _ => Prog.fail (.wrongArity "XDEL")

def handleXtrim : List Bytes → KV RespReply
  | key :: a :: b :: rest => do
      let key ← argAsStr key
      let remaining ← argsAsStrings (a :: b :: rest)
      let (bound, limit, left) ← parseTrim remaining
      if left ≠ [] then Prog.fail syntaxError
      else
        let n ← Storage.xtrim key bound limit
        return .integer n
  | _ => Prog.fail (.wrongArity "XTRIM")

/-- `[COUNT n] [BLOCK ms] STREAMS`. -/
def parseXreadOpts : List Bytes → Option Nat → Result (Option Nat × List Bytes)
  | [], _ => .error aborted
  | [tok], count => do
      if (← optionWord tok) = "STREAMS" then .ok (count, []) else .error syntaxError
  | tok :: n :: rest, count => do
      match ← optionWord tok with
      | "COUNT" => do parseXreadOpts rest (some (← parseStreamCount n "COUNT"))
      | "BLOCK" => do
          let _ ← parseI64 n "BLOCK"
          parseXreadOpts rest count
      | "STREAMS" => .ok (count, n :: rest)
      | _ => .error syntaxError

/-- The keys and the ids of a `STREAMS` clause. -/
def splitStreams (unbalanced : String) (args : List Bytes) : Result (List Bytes × List Bytes) :=
  if args = [] ∨ args.length % 2 ≠ 0 then .error (.parse unbalanced)
  else .ok (args.splitAt (args.length / 2))

/-- `$` is past every id. -/
def xreadIdArg (arg : Bytes) : Result StreamId := do
  let text ← argText arg
  if text = [36] then return .max else StreamId.parse text

def xreadIdArgs (args : List Bytes) : Result (List StreamId) := args.mapM xreadIdArg

def handleXread (args : List Bytes) : KV RespReply := do
  if args.length < 3 then Prog.fail (.wrongArity "XREAD")
  else
    let (count, rest) ← parseXreadOpts args none
    let (keys, ids) ← splitStreams ("Unbalanced XREAD list of streams: for each stream key an " ++
      "ID or '$' must be specified.") rest
    let keys ← argsAsStrings keys
    let ids ← xreadIdArgs ids
    let perStream ← Storage.xread count (keys.zip ids)
    return perStreamReply perStream

/-! ## `XINFO` -/

def xinfoStreamReply (s : StreamValue) : RespReply :=
  .array [.text "length", count64 s.entries.length,
    .text "last-generated-id", streamIdBulk s.lastGeneratedId,
    .text "max-deleted-entry-id", streamIdBulk s.maxDeletedEntryId,
    .text "entries-added", count64 s.entriesAdded,
    .text "groups", count64 s.groups.size,
    .text "first-entry", s.entries.head?.elim .nil entryToReply,
    .text "last-entry", s.entries.getLast?.elim .nil entryToReply]

/-- The `[FULL [COUNT n]]` tail is only checked. -/
def checkXinfoTail : List Bytes → Result Unit
  | [] => .ok ()
  | word :: rest => do
      if !(← isWord word "FULL") then .error syntaxError
      else
        match rest with
        | [] => .ok ()
        | [word, n] => do
            if !(← isWord word "COUNT") then .error syntaxError
            else
              let _ ← parseI64 n "COUNT"
              return ()
        | _ => .error syntaxError

def xinfoHelp : RespReply :=
  .texts ["XINFO STREAM <key> [FULL [COUNT n]] -- summary for the stream at <key>.",
    "XINFO GROUPS <key> -- groups defined on <key>.",
    "XINFO CONSUMERS <key> <group> -- consumers in <group> on <key>."]

def handleXinfo : List Bytes → KV RespReply
  | [] => Prog.fail (.wrongArity "XINFO")
  | sub :: args => do
      match ← optionWord sub, args with
      | "STREAM", [] => Prog.fail (.wrongArity "XINFO STREAM")
      | "STREAM", key :: tail => do
          let key ← argAsStr key
          checkXinfoTail tail
          match ← Storage.xinfoStream key with
          | none => Prog.fail (.parse "no such key")
          | some s => return xinfoStreamReply s
      | "GROUPS", [key] => do
          let groups ← Storage.xinfoGroups (← argAsStr key)
          return .array (groups.map fun g => .array [.text "name", .text g.name,
            .text "consumers", count64 g.consumers, .text "pending", count64 g.pending,
            .text "last-delivered-id", streamIdBulk g.lastDeliveredId])
      | "GROUPS", _ => Prog.fail (.wrongArity "XINFO GROUPS")
      | "CONSUMERS", [key, group] => do
          let key ← argAsStr key
          let consumers ← Storage.xinfoConsumers key (← argAsStr group)
          return .array (consumers.map fun c => .array [.text "name", .text c.name,
            .text "pending", count64 c.pending, .text "idle", .integer c.idleMs])
      | "CONSUMERS", _ => Prog.fail (.wrongArity "XINFO CONSUMERS")
      | "HELP", _ => return xinfoHelp
      | other, _ => Prog.fail (.parse ("unsupported XINFO subcommand: " ++ other))

/-! ## Consumer groups -/

/-- The `[MKSTREAM] [ENTRIESREAD n]` tail of `XGROUP CREATE`. -/
def parseMkstream : List Bytes → Bool → Result Bool
  | [], mkstream => .ok mkstream
  | tok :: rest, mkstream => do
      match ← optionWord tok, rest with
      | "MKSTREAM", rest => parseMkstream rest true
      | "ENTRIESREAD", [] => .error syntaxError
      | "ENTRIESREAD", n :: rest => do
          let _ ← parseI64 n "ENTRIESREAD"
          parseMkstream rest mkstream
      | _, _ => .error syntaxError

def groupStartArg (arg : Bytes) : Result GroupStartId := do GroupStartId.parse (← argText arg)

/-- The operation of an `XGROUP` and whether its reply is `OK`; `none` for `HELP`. -/
def parseXgroup (sub : String) (args : List Bytes) : Result (Option (XGroupOp × Bool)) :=
  match sub, args with
  | "CREATE", group :: start :: tail => do
      let group ← argAsStr group
      let start ← groupStartArg start
      let mkstream ← parseMkstream tail false
      return some (.create group start mkstream, true)
  | "CREATE", _ => .error (.wrongArity "XGROUP CREATE")
  | "SETID", group :: start :: _ => do
      let group ← argAsStr group
      let start ← groupStartArg start
      return some (.setId group start, true)
  | "SETID", _ => .error (.wrongArity "XGROUP SETID")
  | "DESTROY", [group] => do return some (.destroy (← argAsStr group), false)
  | "DESTROY", _ => .error (.wrongArity "XGROUP DESTROY")
  | "CREATECONSUMER", [group, consumer] => do
      let group ← argAsStr group
      return some (.createConsumer group (← argAsStr consumer), false)
  | "CREATECONSUMER", _ => .error (.wrongArity "XGROUP CREATECONSUMER")
  | "DELCONSUMER", [group, consumer] => do
      let group ← argAsStr group
      return some (.delConsumer group (← argAsStr consumer), false)
  | "DELCONSUMER", _ => .error (.wrongArity "XGROUP DELCONSUMER")
  | "HELP", _ => .ok none
  | other, _ => .error (.parse ("unsupported XGROUP subcommand: " ++ other))

def handleXgroup : List Bytes → KV RespReply
  | sub :: key :: args => do
      let sub ← optionWord sub
      let key ← argAsStr key
      match ← parseXgroup sub args with
      | none => return .texts ["XGROUP CREATE | SETID | DESTROY | CREATECONSUMER | DELCONSUMER"]
      | some (op, isOk) =>
          let n ← Storage.xgroup key op
          return if isOk then .ok else .integer n
  | _ => Prog.fail (.wrongArity "XGROUP")

/-- `[COUNT n] [BLOCK ms] [NOACK] STREAMS`. -/
def parseXreadgroupOpts : List Bytes → Option Nat × Bool → Result (Option Nat × Bool × List Bytes)
  | [], _ => .error aborted
  | [tok], (count, noack) => do
      match ← optionWord tok with
      | "NOACK" => .error aborted
      | "STREAMS" => .ok (count, noack, [])
      | _ => .error syntaxError
  | tok :: n :: rest, (count, noack) => do
      match ← optionWord tok with
      | "COUNT" => do parseXreadgroupOpts rest (some (← parseStreamCount n "COUNT"), noack)
      | "BLOCK" => do
          let _ ← parseI64 n "BLOCK"
          parseXreadgroupOpts rest (count, noack)
      | "NOACK" => parseXreadgroupOpts (n :: rest) (count, true)
      | "STREAMS" => .ok (count, noack, n :: rest)
      | _ => .error syntaxError

def xreadgroupIdArg (arg : Bytes) : Result XReadGroupId := do XReadGroupId.parse (← argText arg)

structure XReadGroupArgs where
  group : String
  consumer : String
  count : Option Nat
  noack : Bool
  streams : List (String × XReadGroupId)

def parseXreadgroup : List Bytes → Result XReadGroupArgs
  | word :: group :: consumer :: a :: b :: c :: rest => do
      if !(← isWord word "GROUP") then .error syntaxError
      else
        let group ← argAsStr group
        let consumer ← argAsStr consumer
        let (count, noack, rest) ← parseXreadgroupOpts (a :: b :: c :: rest) (none, false)
        let (keys, ids) ← splitStreams ("Unbalanced XREADGROUP list of streams: for each stream " ++
          "key an ID or '>' must be specified.") rest
        let keys ← argsAsStrings keys
        let ids ← ids.mapM xreadgroupIdArg
        return ⟨group, consumer, count, noack, keys.zip ids⟩
  | _ => .error (.wrongArity "XREADGROUP")

def handleXreadgroup (args : List Bytes) : KV RespReply := do
  let r ← parseXreadgroup args
  let now ← KV.nowMs
  let perStream ← Storage.xreadgroup r.group r.consumer r.count r.noack now r.streams
  return perStreamReply perStream

def handleXack : List Bytes → KV RespReply
  | key :: group :: id :: ids => do
      let key ← argAsStr key
      let group ← argAsStr group
      let ids ← streamIdArgs (id :: ids)
      let n ← Storage.xack key group ids
      return .integer n
  | _ => Prog.fail (.wrongArity "XACK")

def isClaimOption (word : String) : Bool :=
  word == "IDLE" || word == "TIME" || word == "RETRYCOUNT" || word == "FORCE" || word == "JUSTID"

/-- The ids of an `XCLAIM`, up to the first option word. -/
def parseClaimIds : List Bytes → Result (List StreamId × List Bytes)
  | [] => .ok ([], [])
  | tok :: rest => do
      if isClaimOption (← optionWord tok) then return ([], tok :: rest)
      else
        let id ← StreamId.parse tok
        let (ids, rest) ← parseClaimIds rest
        return (id :: ids, rest)

def parseClaimOpts : List Bytes → XClaimOpts → Result XClaimOpts
  | [], opts => .ok opts
  | tok :: rest, opts => do
      match ← optionWord tok, rest with
      | "IDLE", [] => .error syntaxError
      | "IDLE", ms :: rest => do parseClaimOpts rest { opts with idleMs := some (← parseI64 ms "IDLE") }
      | "TIME", [] => .error syntaxError
      | "TIME", ms :: rest => do parseClaimOpts rest { opts with timeMs := some (← parseI64 ms "TIME") }
      | "RETRYCOUNT", [] => .error syntaxError
      | "RETRYCOUNT", n :: rest => do
          parseClaimOpts rest { opts with retryCount := some (← parseStreamCount n "RETRYCOUNT") }
      | "FORCE", rest => parseClaimOpts rest { opts with force := true }
      | "JUSTID", rest => parseClaimOpts rest { opts with justId := true }
      | _, _ => .error syntaxError

def handleXclaim : List Bytes → KV RespReply
  | key :: group :: consumer :: minIdle :: id :: rest => do
      let key ← argAsStr key
      let group ← argAsStr group
      let consumer ← argAsStr consumer
      let minIdle ← parseI64 minIdle "min-idle-time"
      let (ids, rest) ← parseClaimIds (id :: rest)
      let now ← KV.nowMs
      let opts ← parseClaimOpts rest { nowMs := now }
      let claimed ← Storage.xclaim key group consumer minIdle ids opts
      return .array (claimed.map claimResultToReply)
  | _ => Prog.fail (.wrongArity "XCLAIM")

def pendingSummaryReply : Option XPendingSummary → RespReply
  | none => .array [.integer 0, .nil, .nil, .nil]
  | some s => .array [count64 s.count, streamIdBulk s.min, streamIdBulk s.max,
      .array (s.perConsumer.map fun p =>
        .array [.text p.1, .bulkString (some (Decimal.natBytes p.2))])]

def optionalStr : Option Bytes → Result (Option String)
  | none => .ok none
  | some arg => some <$> argAsStr arg

/-- The detail form, `[IDLE ms] start end count [consumer]`. -/
def pendingDetailReply (key group : String) (idleMs : Option Int) : List Bytes → KV RespReply
  | start :: stop :: count :: rest => do
      let start ← rangeIdArg start
      let stop ← rangeIdArg stop
      let count ← parseStreamCount count "count"
      let consumer ← optionalStr rest.head?
      let now ← KV.nowMs
      let rows ← Storage.xpendingDetail key group start stop count consumer idleMs now
      return .array (rows.map fun r => .array [streamIdBulk r.id, .text r.consumer,
        .integer r.idleMs, count64 r.deliveryCount])
  | _ => Prog.fail syntaxError

def handleXpending : List Bytes → KV RespReply
  | [key, group] => do
      let key ← argAsStr key
      let group ← argAsStr group
      let summary ← Storage.xpendingSummary key group
      return pendingSummaryReply summary
  | key :: group :: first :: rest => do
      let key ← argAsStr key
      let group ← argAsStr group
      if ← isWord first "IDLE" then
        match rest with
        | [] => Prog.fail syntaxError
        | ms :: rest => do
            let ms ← parseI64 ms "IDLE"
            pendingDetailReply key group (some ms) rest
      else pendingDetailReply key group none (first :: rest)
  | _ => Prog.fail (.wrongArity "XPENDING")

def parseAutoclaimOpts : List Bytes → Nat × Bool → Result (Nat × Bool)
  | [], opts => .ok opts
  | tok :: rest, (count, justId) => do
      match ← optionWord tok, rest with
      | "COUNT", [] => .error syntaxError
      | "COUNT", n :: rest => do parseAutoclaimOpts rest (← parseStreamCount n "COUNT", justId)
      | "JUSTID", rest => parseAutoclaimOpts rest (count, true)
      | _, _ => .error syntaxError

def handleXautoclaim : List Bytes → KV RespReply
  | key :: group :: consumer :: minIdle :: start :: opts => do
      let key ← argAsStr key
      let group ← argAsStr group
      let consumer ← argAsStr consumer
      let minIdle ← parseI64 minIdle "min-idle-time"
      let start ← streamIdArg start
      let (count, justId) ← parseAutoclaimOpts opts (100, false)
      let now ← KV.nowMs
      let out ← Storage.xautoclaim key group consumer minIdle start count justId now
      return .array [streamIdBulk out.nextCursor, .array (out.claimed.map claimResultToReply),
        .array (out.deletedIds.map streamIdBulk)]
  | _ => Prog.fail (.wrongArity "XAUTOCLAIM")

end Commands

end RustyAnt
