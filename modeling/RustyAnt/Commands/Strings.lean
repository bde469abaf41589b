import RustyAnt.Commands.Args
import RustyAnt.Storage.Methods

/-!
# String commands

The handlers of the string, bit and HyperLogLog commands of `src/commands.rs`.
-/

namespace RustyAnt

open Lib

namespace Commands

/-- `now_ms() + ms`, an `i64` addition without overflow checks. -/
def deadline (ms : Int) : KV Int := do
  let now ← KV.nowMs
  return wrapI64 (now + ms)

/-- `i64::saturating_mul` by 1000. -/
def saturatingSeconds (n : Int) : Int := max i64Min (min i64Max (n * 1000))

/-- `key value` pairs; an odd argument out is a wrong arity. -/
def keyValuePairs (cmd : String) : List Bytes → Result (List (String × Bytes))
  | [] => .ok []
  | [_] => .error (.wrongArity cmd)
  | k :: v :: rest => do
      let key ← argAsStr k
      let pairs ← keyValuePairs cmd rest
      return (key, v) :: pairs

/-! ## Plain values -/

def handleGet : List Bytes → KV RespReply
  | [key] => do
      let v ← Storage.getString (← argAsStr key)
      return .bulkOrNil v
  | _ => Prog.fail (.wrongArity "GET")

def unsupportedGetex (name : String) : RustyAntError := .parse ("unsupported GETEX option: " ++ name)

def parseGetexOp : List Bytes → KV GetExOp
  | [] => return .leave
  | arg :: opts => do
      let name ← optionWord arg
      match name, opts with
      | "PERSIST", [] => return .persist
      | "PERSIST", _ :: _ => Prog.fail (.parse "PERSIST takes no value")
      | name, [] => Prog.fail (.parse (name ++ " requires a value"))
      | name, [value] => do
          let n ← parseI64 value name
          match name with
          | "EX" => return .setExpireAtMs (← deadline (saturatingSeconds n))
          | "PX" => return .setExpireAtMs (← deadline n)
          | "EXAT" => return .setExpireAtMs (saturatingSeconds n)
          | "PXAT" => return .setExpireAtMs n
          | other => Prog.fail (unsupportedGetex other)
      | name, _ => Prog.fail (.parse ("GETEX accepts at most one option; extra args after " ++ name))

def handleGetex : List Bytes → KV RespReply
  | key :: opts =>
      if 2 < opts.length then Prog.fail (.wrongArity "GETEX")
      else do
        let key ← argAsStr key
        let op ← parseGetexOp opts
        let v ← Storage.getStringWithTtl key op
        return .bulkOrNil v
  | [] => Prog.fail (.wrongArity "GETEX")

/-- The `[EX s] [PX ms]` options of `SET`, the last one counts. -/
def parseSetOpts : List Bytes → Option Int → KV (Option Int)
  | [], exp => return exp
  | arg :: rest, _ => do
      match ← optionWord arg with
      | "EX" =>
          match rest with
          | [] => Prog.fail (.parse "EX requires a value")
          | v :: rest => do
              let secs ← parseI64 v "EX"
              let at_ ← deadline (wrapI64 (secs * 1000))
              parseSetOpts rest (some at_)
      | "PX" =>
          match rest with
          | [] => Prog.fail (.parse "PX requires a value")
          | v :: rest => do
              let ms ← parseI64 v "PX"
              let at_ ← deadline ms
              parseSetOpts rest (some at_)
      | other => Prog.fail (.parse ("unsupported SET option: " ++ other))

def handleSet : List Bytes → KV RespReply
  | key :: value :: opts => do
      let key ← argAsStr key
      let exp ← parseSetOpts opts none
      Storage.setString key value exp
      return .ok
  | _ => Prog.fail (.wrongArity "SET")

def handleSetnx : List Bytes → KV RespReply
  | [key, value] => do
      let set ← Storage.setStringNx (← argAsStr key) value none
      return .flag set
  | _ => Prog.fail (.wrongArity "SETNX")

def handleSetex : List Bytes → KV RespReply
  | [key, secs, value] => do
      let key ← argAsStr key
      let secs ← parseI64 secs "seconds"
      if secs ≤ 0 then Prog.fail (.parse "SETEX seconds must be positive")
      else
        let at_ ← deadline (wrapI64 (secs * 1000))
        Storage.setString key value (some at_)
        return .ok
  | _ => Prog.fail (.wrongArity "SETEX")

def handleGetset : List Bytes → KV RespReply
  | [key, value] => do
      let old ← Storage.getset (← argAsStr key) value
      return .bulkOrNil old
  | _ => Prog.fail (.wrongArity "GETSET")

def handleGetdel : List Bytes → KV RespReply
  | [key] => do
      let old ← Storage.getAndDelete (← argAsStr key)
      return .bulkOrNil old
  | _ => Prog.fail (.wrongArity "GETDEL")

def handleStrlen : List Bytes → KV RespReply
  | [key] => do
      let n ← Storage.strlen (← argAsStr key)
      return .integer n
  | _ => Prog.fail (.wrongArity "STRLEN")

def handleAppend : List Bytes → KV RespReply
  | [key, value] => do
      let n ← Storage.append (← argAsStr key) value
      return .integer n
  | _ => Prog.fail (.wrongArity "APPEND")

def handleMget : List Bytes → KV RespReply
  | k :: ks => do
      let keys ← argsAsStrings (k :: ks)
      let values ← Storage.mget keys
      return .array (values.map .bulkOrNil)
  | [] => Prog.fail (.wrongArity "MGET")

def handleMset (args : List Bytes) : KV RespReply :=
  if args.isEmpty ∨ args.length % 2 ≠ 0 then Prog.fail (.wrongArity "MSET")
  else do
    let pairs ← keyValuePairs "MSET" args
    Storage.mset pairs
    return .ok

def handleMsetnx (args : List Bytes) : KV RespReply :=
  if args.isEmpty ∨ args.length % 2 ≠ 0 then Prog.fail (.wrongArity "MSETNX")
  else do
    let pairs ← keyValuePairs "MSETNX" args
    let set ← Storage.msetnx pairs
    return .flag set

/-! ## Counters -/

/-- The increment of `INCRBY` and `DECRBY`, read before their arity is checked. -/
def parseDelta : List Bytes → Result Int
  | [_, delta] => parseI64 delta "increment"
  | _ => .error (.wrongArity "INCRBY")

/-- Further arguments are ignored. -/
def handleIncrby (delta : Int) : List Bytes → KV RespReply
  | key :: _ => do
      let n ← Storage.incrBy (← argAsStr key) delta
      return .integer n
  | [] => Prog.fail (.wrongArity "INCR")

/-- The `DECRBY` arm of `run`. -/
def handleDecrby (args : List Bytes) : KV RespReply := do
  let delta ← parseDelta args
  if delta = i64Min then Prog.fail (.parse "decrement overflow") else handleIncrby (-delta) args

section Float

variable (fo : FloatOps)

def handleIncrbyfloat : List Bytes → KV RespReply
  | [key, delta] => do
      let key ← argAsStr key
      let delta ← parseF64 fo delta "increment"
      let x ← Storage.incrByFloat fo key delta
      return scoreReply fo x
  | _ => Prog.fail (.wrongArity "INCRBYFLOAT")

end Float

/-! ## Ranges and bits -/

def handleGetrange : List Bytes → KV RespReply
  | [key, start, stop] => do
      let key ← argAsStr key
      let start ← parseI64 start "start"
      let stop ← parseI64 stop "end"
      let slice ← Storage.getrange key start stop
      return .bulkString (some slice)
  | _ => Prog.fail (.wrongArity "GETRANGE")

def negativeOffset : RustyAntError := .parse "offset must be >= 0"

/-- `parse_bit_offset`, and the offset of `SETRANGE`. -/
def parseOffset (arg : Bytes) : Result Nat := do
  let n ← parseI64 arg "offset"
  if n < 0 then .error negativeOffset else return n.toNat

def handleSetrange : List Bytes → KV RespReply
  | [key, offset, value] => do
      let key ← argAsStr key
      let offset ← parseOffset offset
      let n ← Storage.setrange key offset value
      return .integer n
  | _ => Prog.fail (.wrongArity "SETRANGE")

def handleGetbit : List Bytes → KV RespReply
  | [key, offset] => do
      let key ← argAsStr key
      let offset ← parseOffset offset
      let v ← Storage.getbit key offset
      return .integer v
  | _ => Prog.fail (.wrongArity "GETBIT")

/-- A bit argument, with the text of its error. -/
def parseBit (arg : Bytes) (label error : String) : Result Bool := do
  let n ← parseI64 arg label
  if n = 0 then return false
  else if n = 1 then return true
  else .error (.parse error)

def handleSetbit : List Bytes → KV RespReply
  | [key, offset, value] => do
      let key ← argAsStr key
      let offset ← parseOffset offset
      let bit ← parseBit value "value" "bit value must be 0 or 1"
      let prev ← Storage.setbit key offset bit
      return .integer prev
  | _ => Prog.fail (.wrongArity "SETBIT")

def resolveInclusiveRange (start stop : Int) (units : Nat) : Option (Nat × Nat) :=
  if units = 0 then none
  else
    let len := toI64 units
    let s := if start < 0 then max (len + start) 0 else start
    let e := if stop < 0 then len + stop else min stop (len - 1)
    if len ≤ s ∨ e < 0 ∨ e < s then none else some (s.toNat, e.toNat)

/-- The trailing `BYTE` or `BIT`; true for bits. -/
def parseRangeUnit : Option Bytes → Result Bool
  | none => .ok false
  | some arg => do
      match ← optionWord arg with
      | "BYTE" => return false
      | "BIT" => return true
      | other => .error (.parse ("range unit must be BYTE or BIT, got " ++ other))

/-- `u8::count_ones`. -/
def byteOnes (b : UInt8) : Nat := (List.range 8).countP fun i => b.toNat.testBit i

/-- `data.iter().map(|b| b.count_ones()).sum::<u32>()` -/
def countOnes (data : Bytes) : Int := ((data.map byteOnes).sum % 2 ^ 32 : Nat)

def countBitsByteRange (data : Bytes) (start stop : Nat) : Int :=
  countOnes (Storage.sliceInclusive data start stop)

def countBitsBitRange (data : Bytes) (start stop : Nat) : Int :=
  (List.range' start (stop + 1 - start)).foldl
    (fun count i => count + (Storage.bitAt data i).toNat) 0

def handleBitcount : List Bytes → KV RespReply
  | [key] => do
      let data ← Storage.getString (← argAsStr key)
      return .integer (countOnes (data.getD []))
  | key :: start :: stop :: unit =>
      if 1 < unit.length then Prog.fail (.wrongArity "BITCOUNT")
      else do
        match ← Storage.getString (← argAsStr key) with
        | none => return .integer 0
        | some data =>
            let start ← parseI64 start "start"
            let stop ← parseI64 stop "end"
            let inBits ← parseRangeUnit unit.head?
            let units := if inBits then 8 * data.length else data.length
            match resolveInclusiveRange start stop units with
            | none => return .integer 0
            | some (s, e) =>
                return .integer
                  (if inBits then countBitsBitRange data s e else countBitsByteRange data s e)
  | _ => Prog.fail (.wrongArity "BITCOUNT")

/-- The bits that `BITPOS` searches: from the first up to and including the last. -/
def bitposRange (data : Bytes) (inBits : Bool) : Option Bytes → Option Bytes →
    Result (Option (Nat × Nat))
  | none, _ => .ok (some (0, 8 * data.length - 1))
  | some start, stop => do
      let start ← parseI64 start "start"
      let stop ← stop.elim (.ok i64Max) fun arg => parseI64 arg "end"
      let units := if inBits then 8 * data.length else data.length
      return (resolveInclusiveRange start stop units).map fun (s, e) =>
        if inBits then (s, e) else (8 * s, 8 * (e + 1) - 1)

def findFirstBit (data : Bytes) (target : UInt8) (first last : Nat) : Option Nat :=
  (List.range' first (last + 1 - first)).find? fun i => Storage.bitAt data i == target

/-- A search for `0` without an explicit end goes on past the string. -/
def bitposReply (data : Bytes) (target endExplicit : Bool) : Option (Nat × Nat) → Int
  | none => -1
  | some (first, last) =>
      match findFirstBit data (if target then 1 else 0) first last with
      | some pos => toI64 pos
      | none => if !target && !endExplicit then toI64 (8 * data.length) else -1

def handleBitpos : List Bytes → KV RespReply
  | key :: bit :: opts =>
      if 3 < opts.length then Prog.fail (.wrongArity "BITPOS")
      else do
        let key ← argAsStr key
        let target ← parseBit bit "bit" "bit must be 0 or 1"
        let data := (← Storage.getString key).getD []
        if data.isEmpty then return .integer (if target then -1 else 0)
        else
          let inBits ← parseRangeUnit opts[2]?
          let range ← bitposRange data inBits opts[0]? opts[1]?
          return .integer (bitposReply data target (opts[1]?).isSome range)
  | _ => Prog.fail (.wrongArity "BITPOS")

inductive BitOp where
  | and
  | or
  | xor
  | not
  deriving DecidableEq

def BitOp.parse (arg : Bytes) : Result BitOp := do
  match ← optionWord arg with
  | "AND" => return .and
  | "OR" => return .or
  | "XOR" => return .xor
  | "NOT" => return .not
  | other => .error (.parse ("BITOP operation must be AND/OR/XOR/NOT, got " ++ other))

def BitOp.combine : BitOp → UInt8 → UInt8 → UInt8
  | and, a, b => a &&& b
  | or, a, b => a ||| b
  | xor, a, b => a ^^^ b
  | not, a, _ => a

/-- The sources padded with zeros to the longest and combined byte by byte; `NOT`
inverts its one source. -/
def applyBitop (op : BitOp) (sources : List Bytes) : Bytes :=
  match op, sources with
  | .not, src :: _ => src.map fun b => ~~~b
  | _, [] => []
  | op, src :: rest =>
      let len := (src :: rest).foldl (fun n s => max n s.length) 0
      rest.foldl (fun acc s => acc.zipWith op.combine (Storage.padTo s len)) (Storage.padTo src len)

/-- The sources as `get_string` finds them, a missing one empty. -/
def loadStrings : List String → KV (List Bytes)
  | [] => return []
  | k :: keys => do
      let data ← Storage.getString k
      let sources ← loadStrings keys
      return data.getD [] :: sources

def handleBitop : List Bytes → KV RespReply
  | op :: dest :: k :: ks => do
      let op ← BitOp.parse op
      let dest ← argAsStr dest
      let srcKeys ← argsAsStrings (k :: ks)
      if op = .not ∧ srcKeys.length ≠ 1 then
        Prog.fail (.parse "BITOP NOT takes exactly one source key")
      else
        let sources ← loadStrings srcKeys
        let result := applyBitop op sources
        if result.isEmpty then
          let _ ← Storage.delete dest
          return .integer (toI64 result.length)
        else
          Storage.setString dest result none
          return .integer (toI64 result.length)
  | _ => Prog.fail (.wrongArity "BITOP")

/-! ## HyperLogLog -/

def handlePfadd : List Bytes → KV RespReply
  | key :: elements => do
      let changed ← Storage.pfadd (← argAsStr key) elements
      return .flag changed
  | [] => Prog.fail (.wrongArity "PFADD")

def handlePfcount (fo : FloatOps) : List Bytes → KV RespReply
  | k :: ks => do
      let keys ← argsAsStrings (k :: ks)
      let n ← Storage.pfcount fo keys
      return .integer (toI64 n.toNat)
  | [] => Prog.fail (.wrongArity "PFCOUNT")

def handlePfmerge : List Bytes → KV RespReply
  | dest :: sources => do
      let dest ← argAsStr dest
      let sources ← argsAsStrings sources
      Storage.pfmerge dest sources
      return .ok
  | [] => Prog.fail (.wrongArity "PFMERGE")

/-! ## LCS -/

structure LcsOpts where
  wantLen : Bool := false
  wantIdx : Bool := false
  minMatchLen : Nat := 0
  withMatchLen : Bool := false

def lcsSyntax : RustyAntError := .parse "syntax error"

def parseLcsOpts : List Bytes → LcsOpts → Result LcsOpts
  | [], opts => .ok opts
  | arg :: rest, opts => do
      match ← optionWord arg with
      | "LEN" => parseLcsOpts rest { opts with wantLen := true }
      | "IDX" => parseLcsOpts rest { opts with wantIdx := true }
      | "MINMATCHLEN" =>
          match rest with
          | [] => .error lcsSyntax
          | n :: rest => do
              let n ← parseI64 n "MINMATCHLEN"
              parseLcsOpts rest { opts with minMatchLen := n.toNat }
      | "WITHMATCHLEN" => parseLcsOpts rest { opts with withMatchLen := true }
      | _ => .error lcsSyntax

def LcsOpts.check (opts : LcsOpts) : Result Unit :=
  if opts.wantLen && opts.wantIdx then
    .error (.parse "If you want both the length and indexes, please just use IDX.")
  else if !opts.wantIdx && (decide (0 < opts.minMatchLen) || opts.withMatchLen) then .error lcsSyntax
  else .ok ()

/-- The rest of row `i + 1` of the table, from its entry `left` and the row above. -/
def lcsRow (x : UInt8) : (left : Nat) → (above : List Nat) → List UInt8 → List Nat
  | left, diag :: up :: above, y :: b =>
      let v := if x = y then diag + 1 else max up left
      v :: lcsRow x v (up :: above) b
  | _, _, _ => []

def lcsDpTable (a b : Bytes) : List (List Nat) :=
  List.scanl (fun above x => 0 :: lcsRow x 0 above b) (List.replicate (b.length + 1) 0) a

def lcsAt (dp : List (List Nat)) (i j : Nat) : Nat := (dp.getD i []).getD j 0

/-- `lcs_sequence` from position `(i, j)`; each step lowers `i + j`. -/
def lcsSequence (a b : Bytes) (dp : List (List Nat)) : (fuel i j : Nat) → Bytes
  | fuel + 1, i + 1, j + 1 =>
      if a.getD i 0 = b.getD j 0 then lcsSequence a b dp fuel i j ++ [a.getD i 0]
      else if lcsAt dp (i + 1) j ≤ lcsAt dp i (j + 1) then lcsSequence a b dp fuel i (j + 1)
      else lcsSequence a b dp fuel (i + 1) j
  | _, _, _ => []

/-- Length of the common run that ends before position `(i, j)`. -/
def matchRun (a b : Bytes) : (i j : Nat) → Nat
  | i + 1, j + 1 => if a.getD i 0 = b.getD j 0 then matchRun a b i j + 1 else 0
  | _, _ => 0

/-- `lcs_matches` from position `(i, j)`. -/
def lcsMatches (a b : Bytes) (dp : List (List Nat)) (minLen : Nat) :
    (fuel i j : Nat) → List (Nat × Nat × Nat × Nat)
  | fuel + 1, i + 1, j + 1 =>
      if a.getD i 0 = b.getD j 0 then
        let run := matchRun a b (i + 1) (j + 1)
        let rest := lcsMatches a b dp minLen fuel (i + 1 - run) (j + 1 - run)
        if minLen ≤ run then (i + 1 - run, i, j + 1 - run, j) :: rest else rest
      else if lcsAt dp (i + 1) j ≤ lcsAt dp i (j + 1) then lcsMatches a b dp minLen fuel i (j + 1)
      else lcsMatches a b dp minLen fuel (i + 1) j
  | _, _, _ => []

def lcsMatchReply (withMatchLen : Bool) (m : Nat × Nat × Nat × Nat) : RespReply :=
  let (aLo, aHi, bLo, bHi) := m
  .array ([.array [.integer (toI64 aLo), .integer (toI64 aHi)],
      .array [.integer (toI64 bLo), .integer (toI64 bHi)]] ++
    if withMatchLen then [.integer (toI64 (aHi - aLo + 1))] else [])

def lcsReply (a b : Bytes) (opts : LcsOpts) : RespReply :=
  let dp := lcsDpTable a b
  let fuel := a.length + b.length
  if opts.wantLen then .integer (toI64 (lcsAt dp a.length b.length))
  else if opts.wantIdx then
    let found := lcsMatches a b dp opts.minMatchLen fuel a.length b.length
    let total := (found.map fun m => m.2.1 - m.1 + 1).sum
    .array [.text "matches", .array (found.map (lcsMatchReply opts.withMatchLen)), .text "len",
      .integer (toI64 total)]
  else .bulkString (some (lcsSequence a b dp fuel a.length b.length))

def handleLcs : List Bytes → KV RespReply
  | keyA :: keyB :: opts => do
      let keyA ← argAsStr keyA
      let keyB ← argAsStr keyB
      let opts ← parseLcsOpts opts {}
      opts.check
      let a := (← Storage.getString keyA).getD []
      let b := (← Storage.getString keyB).getD []
      return lcsReply a b opts
  | _ => Prog.fail (.wrongArity "LCS")

end Commands

end RustyAnt
