import RustyAnt.Commands.Args
import RustyAnt.Storage.Methods

/-!
# Set commands

The handlers of the set commands of `src/commands.rs`.
-/

namespace RustyAnt

open Lib

namespace Commands

def handleSadd : List Bytes → KV RespReply
  | key :: m :: ms => do
      let key ← argAsStr key
      let members ← argsAsStrings (m :: ms)
      let added ← Storage.sadd key members
      return .integer added
  | _ => Prog.fail (.wrongArity "SADD")

def handleSrem : List Bytes → KV RespReply
  | key :: m :: ms => do
      let key ← argAsStr key
      let members ← argsAsStrings (m :: ms)
      let removed ← Storage.srem key members
      return .integer removed
  | _ => Prog.fail (.wrongArity "SREM")

def handleSmembers : List Bytes → KV RespReply
  | [key] => do
      let members ← Storage.smembers (← argAsStr key)
      return .texts members
  | _ => Prog.fail (.wrongArity "SMEMBERS")

def handleSismember : List Bytes → KV RespReply
  | [key, member] => do
      let present ← Storage.sismember (← argAsStr key) (← argAsStr member)
      return .flag present
  | _ => Prog.fail (.wrongArity "SISMEMBER")

def handleSmismember : List Bytes → KV RespReply
  | key :: m :: ms => do
      let key ← argAsStr key
      let members ← argsAsStrings (m :: ms)
      let flags ← Storage.smismember key members
      return .array (flags.map .flag)
  | _ => Prog.fail (.wrongArity "SMISMEMBER")

def handleScard : List Bytes → KV RespReply
  | [key] => do
      let n ← Storage.scard (← argAsStr key)
      return .integer n
  | _ => Prog.fail (.wrongArity "SCARD")

def handleSscan (x : Externs) (args : List Bytes) : KV RespReply := do
  let (key, cursor, pattern, count) ← parseCollectionScan "SSCAN" args
  let (next, members) ← Storage.sscan x.wild key cursor pattern count
  return scanReply next (members.map .text)

def handleSpop : List Bytes → KV RespReply
  | [key] => do
      let popped ← Storage.spop (← argAsStr key) 1
      return popped.getLast?.elim .nil .text
  | [key, count] => do
      let key ← argAsStr key
      let count ← parseCount count
      let popped ← Storage.spop key count
      return .texts popped
  | _ => Prog.fail (.wrongArity "SPOP")

def handleSrandmember : List Bytes → KV RespReply
  | [key] => do
      let picked ← Storage.srandmember (← argAsStr key) 1 false
      return picked.getLast?.elim .nil .text
  | [key, count] => do
      let key ← argAsStr key
      let count ← parseI64 count "count"
      let absCount ← checkedAbs count
      let picked ← Storage.srandmember key absCount (decide (count < 0))
      return .texts picked
  | _ => Prog.fail (.wrongArity "SRANDMEMBER")

/-! ## Moving a member -/

/-- `SMOVE` once the destination's kind has been checked.  The results of `srem` and
`sadd` are dropped. -/
def smoveMember (source destination member : String) : KV RespReply := do
  if !(← Storage.sismember source member) then return .integer 0
  else if source = destination then return .integer 1
  else
    let _ ← Storage.srem source [member]
    let _ ← Storage.sadd destination [member]
    return .integer 1

def smove (source destination member : String) : KV RespReply := do
  match ← Storage.kind destination with
  | some "set" | none => smoveMember source destination member
  | some _ => Prog.fail (.wrongType destination)

def handleSmove : List Bytes → KV RespReply
  | [source, destination, member] => do
      let source ← argAsStr source
      let destination ← argAsStr destination
      let member ← argAsStr member
      smove source destination member
  | _ => Prog.fail (.wrongArity "SMOVE")

/-! ## Set algebra -/

inductive SetOp where
  | inter
  | union
  | diff
  deriving DecidableEq

namespace SetOp

def name : SetOp → String
  | inter => "SINTER"
  | union => "SUNION"
  | diff => "SDIFF"

/-- The `Storage` method behind the command. -/
def compute : SetOp → List String → KV (List String)
  | inter => Storage.sinter
  | union => Storage.sunion
  | diff => Storage.sdiff

end SetOp

/-- `handle_sinter`, `handle_sunion` and `handle_sdiff`. -/
def handleSetAlgebra (op : SetOp) : List Bytes → KV RespReply
  | [] => Prog.fail (.wrongArity op.name)
  | k :: ks => do
      let keys ← argsAsStrings (k :: ks)
      let members ← op.compute keys
      return .texts members

/-- The tail `[LIMIT n]`; `LIMIT 0` is no limit. -/
def parseOptionalLimit : List Bytes → Result (Option Nat)
  | [] => .ok none
  | [word, n] => do
      if !(← isWord word "LIMIT") then .error (.parse "syntax error")
      else
        let n ← parseI64 n "LIMIT"
        if n < 0 then .error (.parse "LIMIT can't be negative")
        else if n = 0 then return none
        else return some n.toNat
  | _ => .error (.parse "syntax error")

/-- `numkeys key [key ...]`, with the arguments after the keys. -/
def parseNumkeys (tooFew : RustyAntError) (numkeys : Bytes) (rest : List Bytes) :
    Result (List String × List Bytes) := do
  let n ← parseI64 numkeys "numkeys"
  if n ≤ 0 then .error tooFew
  else if rest.length < n.toNat then
    .error (.parse "Number of keys can't be greater than number of args")
  else
    let keys ← argsAsStrings (rest.take n.toNat)
    return (keys, rest.drop n.toNat)

/-- `limit.map_or(len, |cap| len.min(cap))` -/
def capped (limit : Option Nat) (len : Nat) : Nat := limit.elim len fun cap => min len cap

def handleSintercard : List Bytes → KV RespReply
  | [] => Prog.fail (.wrongArity "SINTERCARD")
  | numkeys :: rest => do
      let (keys, tail) ←
        parseNumkeys (.parse "numkeys should be greater than 0") numkeys rest
      let limit ← parseOptionalLimit tail
      let members ← Storage.sinter keys
      return .integer (toI64 (capped limit members.length))

/-- What `SINTERSTORE` and its kin do with the computed members. -/
def overwriteSet (dest : String) (members : List String) : KV RespReply := do
  let _ ← Storage.delete dest
  if members.isEmpty then return .integer 0
  else
    let count ← Storage.sadd dest members
    return .integer count

def handleSstore (op : SetOp) : List Bytes → KV RespReply
  | dest :: k :: ks => do
      let dest ← argAsStr dest
      let srcKeys ← argsAsStrings (k :: ks)
      let members ← op.compute srcKeys
      overwriteSet dest members
  | _ => Prog.fail (.wrongArity (op.name ++ "STORE"))

end Commands

end RustyAnt
