import RustyAnt.Commands.Args
import RustyAnt.Storage.Lists

/-!
# List commands

The list handlers of `src/commands.rs`.
-/

namespace RustyAnt

open Lib

namespace Commands

def bulks (items : List Bytes) : RespReply := .array (items.map fun b => .bulkString (some b))

/-- `LPUSH` and `RPUSH`. -/
def handlePush (left : Bool) : List Bytes → KV RespReply
  | key :: v :: vs => do
      let key ← argAsStr key
      let len ← Storage.listPush key (v :: vs) left
      return .integer len
  | _ => Prog.fail (.wrongArity (if left then "LPUSH" else "RPUSH"))

/-- `LPUSHX` and `RPUSHX`. -/
def handlePushx (left : Bool) : List Bytes → KV RespReply
  | key :: v :: vs => do
      let key ← argAsStr key
      let len ← Storage.listPushx key (v :: vs) left
      return .integer len
  | _ => Prog.fail (.wrongArity (if left then "LPUSHX" else "RPUSHX"))

/-- `LPOP` and `RPOP`. -/
def handlePop (left : Bool) : List Bytes → KV RespReply
  | [key] => do
      let popped ← Storage.listPop (← argAsStr key) 1 left
      return .bulkOrNil popped.getLast?
  | [key, count] => do
      let key ← argAsStr key
      let count ← parseCount count
      let popped ← Storage.listPop key count left
      return if popped.isEmpty then .nil else bulks popped
  | _ => Prog.fail (.wrongArity (if left then "LPOP" else "RPOP"))

def handleLrange : List Bytes → KV RespReply
  | [key, start, stop] => do
      let key ← argAsStr key
      let start ← parseI64 start "start"
      let stop ← parseI64 stop "stop"
      let items ← Storage.lrange key start stop
      return bulks items
  | _ => Prog.fail (.wrongArity "LRANGE")

def handleLlen : List Bytes → KV RespReply
  | [key] => do
      let n ← Storage.llen (← argAsStr key)
      return .integer n
  | _ => Prog.fail (.wrongArity "LLEN")

def handleLindex : List Bytes → KV RespReply
  | [key, index] => do
      let key ← argAsStr key
      let index ← parseI64 index "index"
      let elem ← Storage.lindex key index
      return .bulkOrNil elem
  | _ => Prog.fail (.wrongArity "LINDEX")

def handleLset : List Bytes → KV RespReply
  | [key, index, value] => do
      let key ← argAsStr key
      let index ← parseI64 index "index"
      Storage.lset key index value
      return .ok
  | _ => Prog.fail (.wrongArity "LSET")

def handleLrem : List Bytes → KV RespReply
  | [key, count, value] => do
      let key ← argAsStr key
      let count ← parseI64 count "count"
      let removed ← Storage.lrem key count value
      return .integer removed
  | _ => Prog.fail (.wrongArity "LREM")

/-- `BEFORE` or `AFTER`. -/
def parseDirection (arg : Bytes) : Result Bool := do
  match ← optionWord arg with
  | "BEFORE" => return true
  | "AFTER" => return false
  | other => .error (.parse ("LINSERT direction must be BEFORE or AFTER, got " ++ other))

def handleLinsert : List Bytes → KV RespReply
  | [key, direction, pivot, value] => do
      let key ← argAsStr key
      let before ← parseDirection direction
      let newLen ← Storage.linsert key before pivot value
      return .integer newLen
  | _ => Prog.fail (.wrongArity "LINSERT")

def handleLtrim : List Bytes → KV RespReply
  | [key, start, stop] => do
      let key ← argAsStr key
      let start ← parseI64 start "start"
      let stop ← parseI64 stop "stop"
      Storage.ltrim key start stop
      return .ok
  | _ => Prog.fail (.wrongArity "LTRIM")

def parseSide (arg : Bytes) (label : String) : Result Bool := do
  match ← optionWord arg with
  | "LEFT" => return true
  | "RIGHT" => return false
  | other => .error (.parse (label ++ " must be LEFT or RIGHT, got " ++ other))

/-- Both keys and both sides of a move. -/
def parseLmove : List Bytes → Result (String × String × Bool × Bool)
  | [source, dest, fromSide, toSide] => do
      let source ← argAsStr source
      let dest ← argAsStr dest
      let fromLeft ← parseSide fromSide "LMOVE source side"
      let toLeft ← parseSide toSide "LMOVE destination side"
      return (source, dest, fromLeft, toLeft)
  | _ => .error (.wrongArity "LMOVE")

/-- `RPOPLPUSH` is `LMOVE src dst RIGHT LEFT`. -/
def parseRpoplpush : List Bytes → Result (String × String × Bool × Bool)
  | [source, dest] => do
      let source ← argAsStr source
      let dest ← argAsStr dest
      return (source, dest, false, true)
  | _ => .error (.wrongArity "RPOPLPUSH")

def moveElement (parsed : Result (String × String × Bool × Bool)) : KV RespReply := do
  let (source, dest, fromLeft, toLeft) ← parsed
  let moved ← Storage.listMove source dest fromLeft toLeft
  return .bulkOrNil moved

def handleLmove (args : List Bytes) : KV RespReply := moveElement (parseLmove args)

def handleRpoplpush (args : List Bytes) : KV RespReply := moveElement (parseRpoplpush args)

/-- The options of `LPOS`: rank, count and maximal length. -/
structure LposOpts where
  rank : Int := 1
  count : Option Nat := none
  maxlen : Nat := 0

def parseLposOpts : List Bytes → LposOpts → Result LposOpts
  | [], opts => .ok opts
  | arg :: rest, opts => do
      match ← optionWord arg, rest with
      | "RANK", [] => .error (.parse "RANK requires a value")
      | "RANK", v :: rest => do
          let rank ← parseI64 v "RANK"
          if rank = 0 then .error (.parse "RANK can't be zero")
          else parseLposOpts rest { opts with rank }
      | "COUNT", [] => .error (.parse "COUNT requires a value")
      | "COUNT", v :: rest => do
          let n ← parseI64 v "COUNT"
          if n < 0 then .error (.parse "COUNT can't be negative")
          else parseLposOpts rest { opts with count := some n.toNat }
      | "MAXLEN", [] => .error (.parse "MAXLEN requires a value")
      | "MAXLEN", v :: rest => do
          let n ← parseI64 v "MAXLEN"
          if n < 0 then .error (.parse "MAXLEN can't be negative")
          else parseLposOpts rest { opts with maxlen := n.toNat }
      | other, _ => .error (.parse ("unsupported LPOS option: " ++ other))

/-- Without `COUNT` the first match, with it all of them. -/
def handleLpos : List Bytes → KV RespReply
  | key :: element :: args => do
      let key ← argAsStr key
      let opts ← parseLposOpts args {}
      let hits ← Storage.lpos key element opts.rank opts.count opts.maxlen
      return if opts.count.isSome then .array (hits.map .integer)
        else hits.head?.elim .nil .integer
  | _ => Prog.fail (.wrongArity "LPOS")

end Commands

end RustyAnt
