import RustyAnt.Commands.Sets

/-!
# Sorted-set commands

The handlers of the sorted-set commands of `src/commands.rs`.
-/

namespace RustyAnt

open Lib

namespace ScoreBound

def parse (fo : FloatOps) (s : String) : Result ScoreBound :=
  if s = "-inf" then .ok .minusInf
  else if s = "+inf" ∨ s = "inf" then .ok .plusInf
  else
    match s.toList with
    | '(' :: rest =>
        (fo.parse (Rdb.asBytes (String.ofList rest))).elim notFloat fun v => .ok (.exclusive v)
    | _ => (fo.parse (Rdb.asBytes s)).elim notFloat fun v => .ok (.inclusive v)
where
  notFloat : Result ScoreBound := .error (.parse "score is not a float")

end ScoreBound

namespace LexBound

def parse (s : String) : Result LexBound :=
  match s.toList with
  | ['-'] => .ok .minusInf
  | ['+'] => .ok .plusInf
  | '[' :: rest => .ok (.inclusive (String.ofList rest))
  | '(' :: rest => .ok (.exclusive (String.ofList rest))
  | _ => .error (.parse "min or max not valid string range item")

end LexBound

namespace Commands

section Float

variable (fo : FloatOps)

def parseScoreBound (arg : Bytes) : Result ScoreBound := do ScoreBound.parse fo (← argAsStr arg)

def parseLexBound (arg : Bytes) : Result LexBound := do LexBound.parse (← argAsStr arg)

/-! ## ZADD -/

/-- The flags in front of the pairs, with `INCR`; the first other word ends them. -/
def parseZaddFlags :
    List Bytes → ZAddFlags × Bool → Result ((ZAddFlags × Bool) × List Bytes)
  | [], acc => .ok (acc, [])
  | arg :: rest, (flags, incr) => do
      match ← optionWord arg with
      | "NX" => parseZaddFlags rest ({ flags with nx := true }, incr)
      | "XX" => parseZaddFlags rest ({ flags with xx := true }, incr)
      | "GT" => parseZaddFlags rest ({ flags with gt := true }, incr)
      | "LT" => parseZaddFlags rest ({ flags with lt := true }, incr)
      | "CH" => parseZaddFlags rest ({ flags with ch := true }, incr)
      | "INCR" => parseZaddFlags rest (flags, true)
      | _ => return ((flags, incr), arg :: rest)

def parseZaddPairs : List Bytes → Result (List (F64 × String))
  | score :: member :: rest => do
      let score ← parseF64 fo score "score"
      let member ← argAsStr member
      let pairs ← parseZaddPairs rest
      return (score, member) :: pairs
  | _ => .ok []

def incompatibleXxNx : RustyAntError :=
  .parse "XX and NX options at the same time are not compatible"

def incompatibleGtLtNx : RustyAntError :=
  .parse "GT, LT, and/or NX options at the same time are not compatible"

def parseZadd : List Bytes → Result (String × ZAddFlags × Bool × List (F64 × String))
  | key :: a :: b :: args => do
      let key ← argAsStr key
      let ((flags, incr), remaining) ← parseZaddFlags (a :: b :: args) ({}, false)
      if flags.nx && flags.xx then .error incompatibleXxNx
      else if flags.gt && flags.lt then .error incompatibleGtLtNx
      else if flags.nx && (flags.gt || flags.lt) then .error incompatibleGtLtNx
      else if remaining.length < 2 ∨ remaining.length % 2 ≠ 0 then .error (.wrongArity "ZADD")
      else
        let pairs ← parseZaddPairs fo remaining
        return (key, flags, incr, pairs)
  | _ => .error (.wrongArity "ZADD")

def handleZadd (args : List Bytes) : KV RespReply := do
  let (key, flags, incr, pairs) ← parseZadd fo args
  if incr then
    match pairs with
    | [(delta, member)] =>
        let newScore ← Storage.zaddExtIncr fo key delta member flags
        return newScore.elim .nil (scoreReply fo)
    | _ => Prog.fail (.parse "INCR option supports a single increment-element pair")
  else if flags.nx || flags.xx || flags.gt || flags.lt || flags.ch then
    let count ← Storage.zaddExt key pairs flags
    return .integer count
  else
    let count ← Storage.zadd key pairs
    return .integer count

/-! ## Ranges -/

inductive ZRangeMode where
  | rank
  | score
  | lex
  deriving DecidableEq

structure ZRangeOpts where
  mode : ZRangeMode := .rank
  rev : Bool := false
  limit : Option (Int × Int) := none
  withScores : Bool := false

def syntaxError : RustyAntError := .parse "syntax error"

def exclusiveModes : RustyAntError :=
  .parse "syntax error, BYSCORE and BYLEX are mutually exclusive"

def parseZrangeWords (cmdName : String) : List Bytes → ZRangeOpts → Result ZRangeOpts
  | [], opts => .ok opts
  | arg :: rest, opts => do
      match ← optionWord arg with
      | "BYSCORE" =>
          if opts.mode = .lex then .error exclusiveModes
          else parseZrangeWords cmdName rest { opts with mode := .score }
      | "BYLEX" =>
          if opts.mode = .score then .error exclusiveModes
          else parseZrangeWords cmdName rest { opts with mode := .lex }
      | "REV" => parseZrangeWords cmdName rest { opts with rev := true }
      | "LIMIT" =>
          match rest with
          | offset :: count :: rest => do
              let offset ← parseI64 offset "offset"
              let count ← parseI64 count "count"
              parseZrangeWords cmdName rest { opts with limit := some (offset, count) }
          | _ => .error syntaxError
      | "WITHSCORES" => parseZrangeWords cmdName rest { opts with withScores := true }
      | _ => .error (.parse ("syntax error in " ++ cmdName))

def parseZrangeOpts (cmdName : String) (tail : List Bytes) : Result ZRangeOpts := do
  let opts ← parseZrangeWords cmdName tail {}
  if opts.limit.isSome && opts.mode = .rank then
    .error (.parse
      "syntax error, LIMIT is only supported in combination with either BYSCORE or BYLEX")
  else if opts.withScores && opts.mode = .lex then
    .error (.parse "syntax error, WITHSCORES not supported in combination with BYLEX")
  else return opts

def sortPairs (pairs : List (String × F64)) : List (String × F64) :=
  pairs.insertionSort fun a b => Storage.zsetLe a b

def reversedIf (rev : Bool) (pairs : List (String × F64)) : List (String × F64) :=
  if rev then pairs.reverse else pairs

def normalizeRankRange (len start stop : Int) : Option (Nat × Nat) :=
  if len = 0 then none
  else
    let norm (i : Int) : Int := if i < 0 then max (len + i) 0 else min i (len - 1)
    if norm stop < norm start then none else some ((norm start).toNat, (norm stop).toNat)

def rangeByRank (key : String) (start stop : Int) (rev : Bool) : KV (List (String × F64)) := do
  let items ← Storage.zitems key
  let sorted := reversedIf rev (sortPairs items)
  match normalizeRankRange (toI64 sorted.length) start stop with
  | none => return []
  | some (s, e) => return Storage.sliceInclusive sorted s e

def applyLimitPairs (pairs : List (String × F64)) :
    Option (Int × Int) → List (String × F64)
  | none => pairs
  | some (offset, count) =>
      let offset := (max offset 0).toNat
      if pairs.length ≤ offset then []
      else
        let pairs := pairs.drop offset
        if 0 ≤ count then pairs.take count.toNat else pairs

def rangeByScore (key : String) (min max : ScoreBound) (rev : Bool)
    (limit : Option (Int × Int)) : KV (List (String × F64)) := do
  let items ← Storage.zitems key
  let pairs := sortPairs (items.filter fun p => min.geMin p.2 && max.leMax p.2)
  return applyLimitPairs (reversedIf rev pairs) limit

def rangeByLex (key : String) (min max : LexBound) (rev : Bool)
    (limit : Option (Int × Int)) : KV (List (String × F64)) := do
  let items ← Storage.zitems key
  let pairs := (items.filter fun p => min.geMin p.1 && max.leMax p.1).insertionSort
    fun a b => a.1 ≤ b.1
  return applyLimitPairs (reversedIf rev pairs) limit

def pairsToReply (pairs : List (String × F64)) (withScores : Bool) : RespReply :=
  .array (pairs.flatMap fun p =>
    if withScores then [.text p.1, scoreReply fo p.2] else [.text p.1])

/-- With `REV` the bounds come as `max min`. -/
def executeZrange (key : String) (lo hi : Bytes) (opts : ZRangeOpts) : KV RespReply := do
  let (lower, upper) := if opts.rev then (hi, lo) else (lo, hi)
  match opts.mode with
  | .rank => do
      let start ← parseI64 lo "start"
      let stop ← parseI64 hi "stop"
      let pairs ← rangeByRank key start stop opts.rev
      return pairsToReply fo pairs opts.withScores
  | .score => do
      let min ← parseScoreBound fo lower
      let max ← parseScoreBound fo upper
      let pairs ← rangeByScore key min max opts.rev opts.limit
      return pairsToReply fo pairs opts.withScores
  | .lex => do
      let min ← parseLexBound lower
      let max ← parseLexBound upper
      let pairs ← rangeByLex key min max opts.rev opts.limit
      return pairsToReply fo pairs opts.withScores

def handleZrange : List Bytes → KV RespReply
  | key :: lo :: hi :: tail => do
      let key ← argAsStr key
      let opts ← parseZrangeOpts "ZRANGE" tail
      executeZrange fo key lo hi opts
  | _ => Prog.fail (.wrongArity "ZRANGE")

def parseWithscoresTail : List Bytes → Result Bool
  | [] => .ok false
  | [word] => do if ← isWord word "WITHSCORES" then return true else .error syntaxError
  | _ => .error syntaxError

def handleZrevrange : List Bytes → KV RespReply
  | key :: lo :: hi :: tail => do
      let key ← argAsStr key
      let withScores ← parseWithscoresTail tail
      executeZrange fo key lo hi { rev := true, withScores }
  | _ => Prog.fail (.wrongArity "ZREVRANGE")

/-- The tail `[WITHSCORES] [LIMIT offset count]`, in any order. -/
def parseZrangebyscoreTail :
    List Bytes → Bool × Option (Int × Int) → Result (Bool × Option (Int × Int))
  | [], acc => .ok acc
  | arg :: rest, (withScores, limit) => do
      match ← optionWord arg with
      | "WITHSCORES" => parseZrangebyscoreTail rest (true, limit)
      | "LIMIT" =>
          match rest with
          | offset :: count :: rest => do
              let offset ← parseI64 offset "offset"
              let count ← parseI64 count "count"
              parseZrangebyscoreTail rest (withScores, some (offset, count))
          | _ => .error syntaxError
      | _ => .error syntaxError

def handleZrangebyscore : List Bytes → KV RespReply
  | key :: min :: max :: tail => do
      let key ← argAsStr key
      let min ← parseScoreBound fo min
      let max ← parseScoreBound fo max
      let (withScores, limit) ← parseZrangebyscoreTail tail (false, none)
      let pairs ← rangeByScore key min max false limit
      return pairsToReply fo pairs withScores
  | _ => Prog.fail (.wrongArity "ZRANGEBYSCORE")

def handleZrevrangebyscore : List Bytes → KV RespReply
  | key :: max :: min :: tail => do
      let key ← argAsStr key
      let max ← parseScoreBound fo max
      let min ← parseScoreBound fo min
      let (withScores, limit) ← parseZrangebyscoreTail tail (false, none)
      let pairs ← rangeByScore key min max true limit
      return pairsToReply fo pairs withScores
  | _ => Prog.fail (.wrongArity "ZREVRANGEBYSCORE")

def parseLexLimit : List Bytes → Result (Option (Int × Int))
  | [] => .ok none
  | [word, offset, count] => do
      if !(← isWord word "LIMIT") then .error syntaxError
      else
        let offset ← parseI64 offset "offset"
        let count ← parseI64 count "count"
        return some (offset, count)
  | _ => .error syntaxError

def handleZrangebylex : List Bytes → KV RespReply
  | key :: min :: max :: tail =>
      if tail.length = 0 ∨ tail.length = 3 then do
        let key ← argAsStr key
        let min ← parseLexBound min
        let max ← parseLexBound max
        let limit ← parseLexLimit tail
        let members ← Storage.zrangebylex key min max limit
        return .texts members
      else Prog.fail (.wrongArity "ZRANGEBYLEX")
  | _ => Prog.fail (.wrongArity "ZRANGEBYLEX")

def handleZrevrangebylex : List Bytes → KV RespReply
  | key :: max :: min :: tail =>
      if tail.length = 0 ∨ tail.length = 3 then do
        let key ← argAsStr key
        let max ← parseLexBound max
        let min ← parseLexBound min
        let limit ← parseLexLimit tail
        let members ← Storage.zrevrangebylex key max min limit
        return .texts members
      else Prog.fail (.wrongArity "ZREVRANGEBYLEX")
  | _ => Prog.fail (.wrongArity "ZREVRANGEBYLEX")

def handleZlexcount : List Bytes → KV RespReply
  | [key, min, max] => do
      let key ← argAsStr key
      let min ← parseLexBound min
      let max ← parseLexBound max
      let n ← Storage.zlexcount key min max
      return .integer n
  | _ => Prog.fail (.wrongArity "ZLEXCOUNT")

def handleZcount : List Bytes → KV RespReply
  | [key, min, max] => do
      let key ← argAsStr key
      let min ← parseScoreBound fo min
      let max ← parseScoreBound fo max
      let n ← Storage.zcount key min max
      return .integer n
  | _ => Prog.fail (.wrongArity "ZCOUNT")

/-! ## Removals -/

def handleZrem : List Bytes → KV RespReply
  | key :: m :: ms => do
      let key ← argAsStr key
      let members ← argsAsStrings (m :: ms)
      let removed ← Storage.zrem key members
      return .integer removed
  | _ => Prog.fail (.wrongArity "ZREM")

def handleZremrangebylex : List Bytes → KV RespReply
  | [key, min, max] => do
      let key ← argAsStr key
      let min ← parseLexBound min
      let max ← parseLexBound max
      let n ← Storage.zremrangebylex key min max
      return .integer n
  | _ => Prog.fail (.wrongArity "ZREMRANGEBYLEX")

def handleZremrangebyrank : List Bytes → KV RespReply
  | [key, start, stop] => do
      let key ← argAsStr key
      let start ← parseI64 start "start"
      let stop ← parseI64 stop "stop"
      let removed ← Storage.zremrangebyrank key start stop
      return .integer removed
  | _ => Prog.fail (.wrongArity "ZREMRANGEBYRANK")

def handleZremrangebyscore : List Bytes → KV RespReply
  | [key, min, max] => do
      let key ← argAsStr key
      let min ← parseScoreBound fo min
      let max ← parseScoreBound fo max
      let removed ← Storage.zremrangebyscore key min max
      return .integer removed
  | _ => Prog.fail (.wrongArity "ZREMRANGEBYSCORE")

def zpop (key : String) (count : Nat) (fromMax : Bool) : KV RespReply := do
  let popped ← if fromMax then Storage.zpopmax key count else Storage.zpopmin key count
  return pairsToReply fo popped true

def handleZpop (fromMax : Bool) : List Bytes → KV RespReply
  | [key] => do
      let key ← argAsStr key
      zpop fo key 1 fromMax
  | [key, count] => do
      let key ← argAsStr key
      let count ← parseCount count
      zpop fo key count fromMax
  | _ => Prog.fail (.wrongArity (if fromMax then "ZPOPMAX" else "ZPOPMIN"))

/-! ## Scores -/

def handleZincrby : List Bytes → KV RespReply
  | [key, delta, member] => do
      let key ← argAsStr key
      let delta ← parseF64 fo delta "increment"
      let member ← argAsStr member
      let newScore ← Storage.zincrBy fo key member delta
      return scoreReply fo newScore
  | _ => Prog.fail (.wrongArity "ZINCRBY")

def handleZscore : List Bytes → KV RespReply
  | [key, member] => do
      let score ← Storage.zscore (← argAsStr key) (← argAsStr member)
      return score.elim .nil (scoreReply fo)
  | _ => Prog.fail (.wrongArity "ZSCORE")

def handleZmscore : List Bytes → KV RespReply
  | key :: m :: ms => do
      let key ← argAsStr key
      let members ← argsAsStrings (m :: ms)
      let scores ← Storage.zmscore key members
      return .array (scores.map fun s => s.elim .nil (scoreReply fo))
  | _ => Prog.fail (.wrongArity "ZMSCORE")

def handleZcard : List Bytes → KV RespReply
  | [key] => do
      let n ← Storage.zcard (← argAsStr key)
      return .integer n
  | _ => Prog.fail (.wrongArity "ZCARD")

def handleZrank (reverse : Bool) : List Bytes → KV RespReply
  | [key, member] => do
      let key ← argAsStr key
      let member ← argAsStr member
      let rank ← if reverse then Storage.zrevrank key member else Storage.zrank key member
      return rank.elim .nil .integer
  | _ => Prog.fail (.wrongArity (if reverse then "ZREVRANK" else "ZRANK"))

def zrandmember (key : String) (count : Int) (withScores : Bool) : KV RespReply := do
  let absCount ← checkedAbs count
  let picked ← Storage.zrandmember key absCount (decide (count < 0))
  return pairsToReply fo picked withScores

def handleZrandmember : List Bytes → KV RespReply
  | [key] => do
      let picked ← Storage.zrandmember (← argAsStr key) 1 false
      return picked.getLast?.elim .nil fun p => .text p.1
  | [key, count] => do
      let key ← argAsStr key
      let count ← parseI64 count "count"
      zrandmember fo key count false
  | [key, count, word] => do
      let key ← argAsStr key
      let count ← parseI64 count "count"
      if ← isWord word "WITHSCORES" then zrandmember fo key count true
      else Prog.fail syntaxError
  | _ => Prog.fail (.wrongArity "ZRANDMEMBER")

def handleZscan (wild : String → String → Bool) (args : List Bytes) : KV RespReply := do
  let (key, cursor, pattern, count) ← parseCollectionScan "ZSCAN" args
  let (next, pairs) ← Storage.zscan wild key cursor pattern count
  return scanReply next (pairs.flatMap fun p => [.text p.1, scoreReply fo p.2])

/-! ## Aggregates -/

inductive ZStoreOp where
  | inter
  | union
  | diff
  deriving DecidableEq

def ZStoreOp.name : ZStoreOp → String
  | .inter => "ZINTER"
  | .union => "ZUNION"
  | .diff => "ZDIFF"

inductive Aggregate where
  | sum
  | min
  | max

def parseAggregate (arg : Bytes) : Result Aggregate := do
  match ← optionWord arg with
  | "SUM" => return .sum
  | "MIN" => return .min
  | "MAX" => return .max
  | other => .error (.parse ("unsupported AGGREGATE mode: " ++ other))

/-- The tail `[WEIGHTS w ..] [AGGREGATE mode]`; `skip` arguments have been read
already. -/
def parseWeightsAggregate (numkeys : Nat) : (skip : Nat) → List Bytes →
    List F64 × Aggregate → Result (List F64 × Aggregate)
  | _, [], acc => .ok acc
  | skip + 1, _ :: rest, acc => parseWeightsAggregate numkeys skip rest acc
  | 0, arg :: rest, (weights, aggregate) => do
      match ← optionWord arg with
      | "WEIGHTS" =>
          if rest.length < numkeys then
            .error (.parse "WEIGHTS needs one value per input key")
          else
            let weights ← (rest.take numkeys).mapM fun w => parseF64 fo w "weight"
            parseWeightsAggregate numkeys numkeys rest (weights, aggregate)
      | "AGGREGATE" =>
          match rest with
          | [] => .error (.parse "AGGREGATE requires SUM, MIN, or MAX")
          | mode :: rest => do
              parseWeightsAggregate numkeys 0 rest (weights, ← parseAggregate mode)
      | other => .error (.parse ("syntax error near '" ++ other ++ "'"))

/-- `ZDIFF` and `ZDIFFSTORE` take no options. -/
def parseAggregateTail (op : ZStoreOp) (tail : List Bytes) (numkeys : Nat) :
    Result (List F64 × Aggregate) :=
  let ones := List.replicate numkeys F64.one
  match op, tail with
  | .diff, [] => .ok (ones, .sum)
  | .diff, arg :: _ => do .error (.parse ("syntax error near '" ++ (← argAsStr arg) ++ "'"))
  | _, tail => parseWeightsAggregate fo numkeys 0 tail (ones, .sum)

/-- `WITHSCORES` at the end, for the forms that allow it. -/
def stripWithscores (allowWithscores : Bool) (tail : List Bytes) : Result (List Bytes) :=
  match allowWithscores, tail.getLast? with
  | true, some last => do
      if ← isWord last "WITHSCORES" then return tail.dropLast else return tail
  | _, _ => .ok tail

def combineScores (a b : F64) : Aggregate → F64
  | .sum => fo.add a b
  | .min => if b.lt a then b else a
  | .max => if a.lt b then b else a

/-- A set counts as a sorted set with score `1.0` throughout. -/
def loadZsetOrSet (key : String) : KV (List (String × F64)) := do
  match ← Storage.kind key with
  | some "zset" => Storage.zitems key
  | some "set" => do
      let members ← Storage.smembers key
      return members.map fun m => (m, .one)
  | some _ => Prog.fail (.wrongType key)
  | none => return []

/-- The inputs with their weights applied. -/
def loadWeighted : List (String × F64) → KV (List (List (String × F64)))
  | [] => return []
  | (key, weight) :: rest => do
      let items ← loadZsetOrSet key
      let inputs ← loadWeighted rest
      return (items.map fun p => (p.1, fo.mul p.2 weight)) :: inputs

/-- `collect::<HashMap<..>>()`; the iteration order of a `HashMap` is unspecified, the
model's is that of the names. -/
def toMap (items : List (String × F64)) : Storage.ZMap := Std.ExtTreeMap.ofList items compare

def toPairs (map : Storage.ZMap) : List (F64 × String) := map.toList.map Prod.swap

def aggregateIntersection (agg : Aggregate) : List (List (String × F64)) → List (F64 × String)
  | [] => []
  | first :: rest =>
      toPairs (rest.foldl (fun current input =>
        let incoming := toMap input
        current.filterMap fun m s => (incoming[m]?).map fun s' => combineScores fo s s' agg)
        (toMap first))

def unionOne (agg : Aggregate) (acc : Storage.ZMap) (p : String × F64) : Storage.ZMap :=
  acc.insert p.1 ((acc[p.1]?).elim p.2 fun s => combineScores fo s p.2 agg)

def aggregateUnion (agg : Aggregate) (inputs : List (List (String × F64))) :
    List (F64 × String) :=
  toPairs (inputs.foldl (fun acc input => input.foldl (unionOne fo agg) acc) ∅)

def aggregateDifference : List (List (String × F64)) → List (F64 × String)
  | [] => []
  | first :: rest =>
      (first.filter fun p => !rest.any fun input => input.any fun q => q.1 == p.1).map Prod.swap

def aggregateInputs (op : ZStoreOp) (agg : Aggregate) (inputs : List (List (String × F64))) :
    List (F64 × String) :=
  match op with
  | .inter => aggregateIntersection fo agg inputs
  | .union => aggregateUnion fo agg inputs
  | .diff => aggregateDifference inputs

def computeZsetAggregate (op : ZStoreOp) (cmdName : String) (allowWithscores : Bool) :
    List Bytes → KV (List (F64 × String))
  | [] => Prog.fail (.wrongArity cmdName)
  | numkeys :: rest => do
      let (srcKeys, tail) ←
        parseNumkeys (.parse "at least 1 input key is needed for this command") numkeys rest
      let tail ← stripWithscores allowWithscores tail
      let (weights, aggregate) ← parseAggregateTail fo op tail srcKeys.length
      let inputs ← loadWeighted fo (srcKeys.zip weights)
      return aggregateInputs fo op aggregate inputs

/-- `handle_zinter`, `handle_zunion` and `handle_zdiff`. -/
def handleZsetAggregate (op : ZStoreOp) (args : List Bytes) : KV RespReply := do
  let withScores := args.getLast?.any fun last =>
    match isWord last "WITHSCORES" with
    | .ok b => b
    | .error _ => false
  let pairs ← computeZsetAggregate fo op op.name true args
  return pairsToReply fo (sortPairs (pairs.map Prod.swap)) withScores

def loadAll : List String → KV (List (List (String × F64)))
  | [] => return []
  | key :: keys => do
      let items ← loadZsetOrSet key
      let inputs ← loadAll keys
      return items :: inputs

def handleZintercard : List Bytes → KV RespReply
  | [] => Prog.fail (.wrongArity "ZINTERCARD")
  | numkeys :: rest => do
      let (keys, tail) ←
        parseNumkeys (.parse "at least 1 input key is needed for this command") numkeys rest
      let limit ← parseOptionalLimit tail
      let inputs ← loadAll keys
      return .integer (toI64 (capped limit (aggregateIntersection fo .sum inputs).length))

/-- What `ZINTERSTORE` and its kin do with the computed pairs. -/
def overwriteZset (dest : String) (pairs : List (F64 × String)) : KV RespReply := do
  let _ ← Storage.delete dest
  if pairs.isEmpty then return .integer 0
  else
    let count ← Storage.zadd dest pairs
    return .integer count

def handleZstore (op : ZStoreOp) : List Bytes → KV RespReply
  | dest :: numkeys :: k :: rest => do
      let dest ← argAsStr dest
      let pairs ← computeZsetAggregate fo op (op.name ++ "STORE") false (numkeys :: k :: rest)
      overwriteZset dest pairs
  | _ => Prog.fail (.wrongArity (op.name ++ "STORE"))

end Float

end Commands

end RustyAnt
