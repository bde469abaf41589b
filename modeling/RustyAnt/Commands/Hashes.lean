import RustyAnt.Commands.Lists
import RustyAnt.Commands.Strings

/-!
# Hash commands

The hash handlers of `src/commands.rs`.
-/

namespace RustyAnt

open Lib

namespace Commands

def handleHset : List Bytes → KV RespReply
  | key :: f :: v :: rest =>
      if rest.length % 2 ≠ 0 then Prog.fail (.wrongArity "HSET")
      else do
        let key ← argAsStr key
        let pairs ← keyValuePairs "HSET" (f :: v :: rest)
        let newFields ← Storage.hset key pairs
        return .integer newFields
  | _ => Prog.fail (.wrongArity "HSET")

def handleHsetnx : List Bytes → KV RespReply
  | [key, field, value] => do
      let key ← argAsStr key
      let field ← argAsStr field
      let set ← Storage.hsetnx key field value
      return .flag set
  | _ => Prog.fail (.wrongArity "HSETNX")

def handleHget : List Bytes → KV RespReply
  | [key, field] => do
      let key ← argAsStr key
      let field ← argAsStr field
      let v ← Storage.hget key field
      return .bulkOrNil v
  | _ => Prog.fail (.wrongArity "HGET")

def handleHdel : List Bytes → KV RespReply
  | key :: f :: fs => do
      let key ← argAsStr key
      let fields ← argsAsStrings (f :: fs)
      let removed ← Storage.hdel key fields
      return .integer removed
  | _ => Prog.fail (.wrongArity "HDEL")

def fieldsReply (pairs : List (String × Bytes)) : List RespReply :=
  pairs.flatMap fun p => [.text p.1, .bulkString (some p.2)]

def handleHgetall : List Bytes → KV RespReply
  | [key] => do
      let pairs ← Storage.hgetall (← argAsStr key)
      return .array (fieldsReply pairs)
  | _ => Prog.fail (.wrongArity "HGETALL")

def handleHlen : List Bytes → KV RespReply
  | [key] => do
      let n ← Storage.hlen (← argAsStr key)
      return .integer n
  | _ => Prog.fail (.wrongArity "HLEN")

def handleHkeys : List Bytes → KV RespReply
  | [key] => do
      let keys ← Storage.hkeys (← argAsStr key)
      return .texts keys
  | _ => Prog.fail (.wrongArity "HKEYS")

def handleHvals : List Bytes → KV RespReply
  | [key] => do
      let vals ← Storage.hvals (← argAsStr key)
      return bulks vals
  | _ => Prog.fail (.wrongArity "HVALS")

def handleHexists : List Bytes → KV RespReply
  | [key, field] => do
      let key ← argAsStr key
      let field ← argAsStr field
      let present ← Storage.hexists key field
      return .flag present
  | _ => Prog.fail (.wrongArity "HEXISTS")

def handleHstrlen : List Bytes → KV RespReply
  | [key, field] => do
      let key ← argAsStr key
      let field ← argAsStr field
      let len ← Storage.hstrlen key field
      return .integer len
  | _ => Prog.fail (.wrongArity "HSTRLEN")

def handleHmget : List Bytes → KV RespReply
  | key :: f :: fs => do
      let key ← argAsStr key
      let fields ← argsAsStrings (f :: fs)
      let vals ← Storage.hmget key fields
      return .array (vals.map .bulkOrNil)
  | _ => Prog.fail (.wrongArity "HMGET")

def handleHincrby : List Bytes → KV RespReply
  | [key, field, delta] => do
      let key ← argAsStr key
      let field ← argAsStr field
      let delta ← parseI64 delta "increment"
      let newVal ← Storage.hincrBy key field delta
      return .integer newVal
  | _ => Prog.fail (.wrongArity "HINCRBY")

def handleHincrbyfloat (fo : FloatOps) : List Bytes → KV RespReply
  | [key, field, delta] => do
      let key ← argAsStr key
      let field ← argAsStr field
      let delta ← parseF64 fo delta "increment"
      if delta.isNan || delta.isInfinite then
        Prog.fail (.parse "increment would produce NaN or infinity")
      else
        let newVal ← Storage.hincrByFloat fo key field delta
        return scoreReply fo newVal
  | _ => Prog.fail (.wrongArity "HINCRBYFLOAT")

def hrandfield (key : String) (count : Int) (withValues : Bool) : KV RespReply := do
  let absCount ← checkedAbs count
  let picked ← Storage.hrandfield key absCount (decide (count < 0))
  return .array (if withValues then fieldsReply picked else picked.map fun p => .text p.1)

def handleHrandfield : List Bytes → KV RespReply
  | [key] => do
      let picked ← Storage.hrandfield (← argAsStr key) 1 false
      return picked.getLast?.elim .nil fun p => .text p.1
  | [key, count] => do
      let key ← argAsStr key
      let count ← parseI64 count "count"
      hrandfield key count false
  | [key, count, word] => do
      let key ← argAsStr key
      let count ← parseI64 count "count"
      if ← isWord word "WITHVALUES" then hrandfield key count true
      else Prog.fail (.parse "syntax error")
  | _ => Prog.fail (.wrongArity "HRANDFIELD")

def handleHscan (wild : String → String → Bool) (args : List Bytes) : KV RespReply := do
  let (key, cursor, pattern, count) ← parseCollectionScan "HSCAN" args
  let (next, pairs) ← Storage.hscan wild key cursor pattern count
  return scanReply next (fieldsReply pairs)

end Commands

end RustyAnt
