import RustyAnt.Storage.Hashes
import RustyAnt.Storage.Lists

/-!
# Sorted-set operations

The `Storage` methods on the `ZSet` variant, with the score and lexicographic
bounds of the range commands.
-/

namespace RustyAnt

open Lib

structure ZAddFlags where
  nx : Bool := false
  xx : Bool := false
  gt : Bool := false
  lt : Bool := false
  ch : Bool := false
  deriving DecidableEq

inductive ScoreBound where
  | inclusive (v : F64)
  | exclusive (v : F64)
  | minusInf
  | plusInf

namespace ScoreBound

def geMin : ScoreBound → F64 → Bool
  | inclusive v, score => v.le score
  | exclusive v, score => v.lt score
  | minusInf, _ => true
  | plusInf, _ => false

def leMax : ScoreBound → F64 → Bool
  | inclusive v, score => score.le v
  | exclusive v, score => score.lt v
  | minusInf, _ => false
  | plusInf, _ => true

end ScoreBound

inductive LexBound where
  | inclusive (v : String)
  | exclusive (v : String)
  | minusInf
  | plusInf

namespace LexBound

def geMin : LexBound → String → Bool
  | inclusive v, member => decide (v ≤ member)
  | exclusive v, member => decide (v < member)
  | minusInf, _ => true
  | plusInf, _ => false

def leMax : LexBound → String → Bool
  | inclusive v, member => decide (member ≤ v)
  | exclusive v, member => decide (member < v)
  | minusInf, _ => false
  | plusInf, _ => true

end LexBound

namespace Storage

abbrev ZMap := BTreeMap String F64

/-! ## Order and ranges -/

/-- `partial_cmp(..).unwrap_or(Equal).then_with(|| name order)`, as "not after". -/
def zsetLe (a b : String × F64) : Bool :=
  if a.2.lt b.2 then true else if b.2.lt a.2 then false else decide (a.1 ≤ b.1)

def sortedZset (map : ZMap) : List (String × F64) := map.toList.insertionSort fun a b => zsetLe a b

def ascRankOf (map : ZMap) (member : String) : Option Int :=
  if map.contains member then
    ((sortedZset map).findIdx? fun p => p.1 == member).map fun i => toI64 i
  else none

def filterZsetByScore (map : ZMap) (min max : ScoreBound) : List String :=
  ((sortedZset map).filter fun p => min.geMin p.2 && max.leMax p.2).map Prod.fst

def filterZsetByLex (map : ZMap) (min max : LexBound) : List String :=
  map.keys.filter fun m => min.geMin m && max.leMax m

def applyLexLimit (members : List String) : Option (Int × Int) → List String
  | none => members
  | some (offset, count) =>
      let offset := (max offset 0).toNat
      if members.length ≤ offset then []
      else
        let members := members.drop offset
        if 0 ≤ count then members.take count.toNat else members

def countZsetByScore (map : ZMap) (min max : ScoreBound) : Int :=
  toI64 (map.toList.countP fun p => min.geMin p.2 && max.leMax p.2)

def zrangeOf (sorted : List (String × F64)) (start stop : Int) : List String :=
  match resolveRange (toI64 sorted.length) start stop with
  | none => []
  | some (s, e) => (sliceInclusive sorted s e).map Prod.fst

/-- The pairs kept, as a map again, and how many were not. -/
def keepPairs (kept : List (String × F64)) (total : Nat) : ZMap × Nat :=
  (Std.ExtTreeMap.ofList kept compare, total - kept.length)

def partitionZsetByRank (map : ZMap) (start stop : Int) : ZMap × Nat :=
  let sorted := sortedZset map
  match resolveRange (toI64 sorted.length) start stop with
  | none => (Std.ExtTreeMap.ofList sorted compare, 0)
  | some (s, e) =>
      keepPairs (sorted.take s ++ sorted.drop (e + 1)) sorted.length

def partitionZsetByScore (map : ZMap) (min max : ScoreBound) : ZMap × Nat :=
  keepPairs (map.toList.filter fun p => !(min.geMin p.2 && max.leMax p.2)) map.toList.length

def partitionZsetByLex (map : ZMap) (min max : LexBound) : ZMap × Nat :=
  keepPairs (map.toList.filter fun p => !(min.geMin p.1 && max.leMax p.1)) map.toList.length

def popZsetEdge (map : ZMap) (count : Nat) (fromMax : Bool) : ZMap × List (String × F64) :=
  if count == 0 || map.isEmpty then (map, [])
  else
    let sorted := if fromMax then (sortedZset map).reverse else sortedZset map
    let take := min count sorted.length
    (Std.ExtTreeMap.ofList (sorted.drop take) compare, sorted.take take)

/-! ## Inserts -/

/-- One pair of `zadd`, counted when the member is new. -/
def zaddPair (acc : ZMap × Int) (pair : F64 × String) : ZMap × Int :=
  (acc.1.insert pair.2 pair.1, if acc.1.contains pair.2 then acc.2 else acc.2 + 1)

def zaddModify (key : String) (pairs : List (F64 × String)) (entry : Option StoredValue) :
    Result (CasAction Int) := do
  let (map, exp) ← View.zset.findOr key ∅ entry
  let (map, added) := pairs.foldl zaddPair (map, 0)
  return View.zset.write exp map added

def zadd (key : String) (pairs : List (F64 × String)) : KV Int := cas key (zaddModify key pairs)

theorem zaddPair_eq (m : ZMap) (n : Int) (p : F64 × String) :
    zaddPair (m, n) p = (m.insert p.2 p.1, n + ((m.insert p.2 p.1).size - m.size)) := by
  have hsize := m.size_insert (k := p.2) (v := p.1)
  unfold zaddPair
  split
  · rename_i hmem
    rw [if_pos hmem] at hsize
    rw [hsize]
    simp
  · rename_i hmem
    rw [if_neg hmem] at hsize
    rw [hsize]
    push_cast
    simp

/-- All pairs of `zadd`. -/
theorem zaddPair_foldl (pairs : List (F64 × String)) (m : ZMap) (n : Int) :
    pairs.foldl zaddPair (m, n) =
      (m.insertMany (pairs.map Prod.swap),
        n + ((m.insertMany (pairs.map Prod.swap)).size - m.size)) := by
  induction pairs generalizing m n with
  | nil => simp
  | cons p ps ih =>
      obtain ⟨score, member⟩ := p
      rw [List.foldl_cons, zaddPair_eq, ih, List.map_cons, Prod.swap_prod_mk,
        Std.ExtTreeMap.insertMany_cons]
      ext1
      · rfl
      · dsimp only
        omega

theorem zaddModify_none (key : String) (pairs : List (F64 × String)) :
    zaddModify key pairs none =
      .ok (.write ⟨none, .zset (Std.ExtTreeMap.ofList (pairs.map Prod.swap) compare)⟩
        (Std.ExtTreeMap.ofList (pairs.map Prod.swap) compare).size) := by
  show Except.ok (View.zset.write none _ _) = _
  simp only [zaddPair_foldl, ← Std.ExtTreeMap.ofList_eq_insertMany_empty, zero_add,
    Std.ExtTreeMap.size_empty, Nat.cast_zero, sub_zero]
  rfl

theorem zaddModify_zset (key : String) (pairs : List (F64 × String)) (exp : Option Int)
    (m : ZMap) :
    zaddModify key pairs (some ⟨exp, .zset m⟩) =
      .ok (.write ⟨exp, .zset (m.insertMany (pairs.map Prod.swap))⟩
        ((m.insertMany (pairs.map Prod.swap)).size - m.size)) := by
  show Except.ok (View.zset.write exp _ _) = _
  simp only [zaddPair_foldl, zero_add]
  rfl

theorem zaddModify_other {key : String} {pairs : List (F64 × String)} {e : StoredValue}
    (h : e.kind ≠ .zset) : zaddModify key pairs (some e) = .error (.wrongType key) := by
  obtain ⟨exp, value⟩ := e
  cases value with
  | zset m => exact absurd rfl h
  | _ => rfl

/-- The map with the counts of members added and of scores changed. -/
structure ZAddState where
  map : ZMap
  added : Int := 0
  updated : Int := 0

/-- One pair of `zadd_ext` under its flags. -/
def zaddExtPair (flags : ZAddFlags) (acc : ZAddState) (pair : F64 × String) : ZAddState :=
  let (score, member) := pair
  match acc.map[member]? with
  | some prev =>
      if flags.nx then acc
      else if flags.gt && score.le prev then acc
      else if flags.lt && prev.le score then acc
      else if prev.bits ≠ score.bits then
        { acc with map := acc.map.insert member score, updated := acc.updated + 1 }
      else acc
  | none =>
      if flags.xx then acc
      else { acc with map := acc.map.insert member score, added := acc.added + 1 }

def zaddExt (key : String) (pairs : List (F64 × String)) (flags : ZAddFlags) : KV Int :=
  cas key fun entry => do
    let (map, exp) ← View.zset.findOr key ∅ entry
    let out := pairs.foldl (zaddExtPair flags) ⟨map, 0, 0⟩
    let count := if flags.ch then out.added + out.updated else out.added
    if out.added = 0 ∧ out.updated = 0 then return .noOp count
    else return View.zset.write exp out.map count

section Float

variable (fo : FloatOps)

def zaddExtIncrModify (key : String) (delta : F64) (member : String) (flags : ZAddFlags)
    (entry : Option StoredValue) : Result (CasAction (Option F64)) := do
  let (map, exp) ← View.zset.findOr key ∅ entry
  match map[member]? with
  | some prev =>
      let candidate := fo.add prev delta
      if flags.nx then return .noOp none
      else if candidate.isNan then .error (.parse "resulting score is not a number (NaN)")
      else if flags.gt && candidate.le prev then return .noOp none
      else if flags.lt && prev.le candidate then return .noOp none
      else return View.zset.write exp (map.insert member candidate) (some candidate)
  | none =>
      if flags.xx then return .noOp none
      else return View.zset.write exp (map.insert member delta) (some delta)

def zaddExtIncr (key : String) (delta : F64) (member : String) (flags : ZAddFlags) :
    KV (Option F64) :=
  cas key (zaddExtIncrModify fo key delta member flags)

def zincrBy (key member : String) (delta : F64) : KV F64 :=
  cas key fun entry => do
    let (map, exp) ← View.zset.findOr key ∅ entry
    let newScore := fo.add (map[member]?.getD .zero) delta
    if newScore.isNan then .error (.parse "resulting score is NaN")
    else return View.zset.write exp (map.insert member newScore) newScore

end Float

/-! ## Reads -/

def zitems (key : String) : KV (List (String × F64)) := View.zset.read key [] fun m => m.toList

def zrange (key : String) (start stop : Int) : KV (List String) :=
  View.zset.read key [] fun m => zrangeOf (sortedZset m) start stop

def zrevrange (key : String) (start stop : Int) : KV (List String) :=
  View.zset.read key [] fun m => zrangeOf (sortedZset m).reverse start stop

def zscore (key member : String) : KV (Option F64) := View.zset.read key none fun m => m[member]?

def zcard (key : String) : KV Int := View.zset.read key 0 fun m => toI64 m.size

def zrank (key member : String) : KV (Option Int) :=
  View.zset.read key none fun m => ascRankOf m member

def zrevrank (key member : String) : KV (Option Int) :=
  View.zset.read key none fun m => (ascRankOf m member).map fun r => toI64 m.size - 1 - r

def zcount (key : String) (min max : ScoreBound) : KV Int :=
  View.zset.read key 0 fun m => countZsetByScore m min max

def zmscore (key : String) (members : List String) : KV (List (Option F64)) :=
  View.zset.read key (members.map fun _ => none) fun m => members.map fun x => m[x]?

def zrandmember (key : String) (count : Int) (allowDuplicates : Bool) :
    KV (List (String × F64)) :=
  View.zset.readRand key [] fun m rand => pickRandom m.toList count allowDuplicates rand

def zscan (wild : String → String → Bool) (key : String) (cursor : UInt64)
    (pattern : Option String) (count : Nat) : KV (UInt64 × List (String × F64)) :=
  View.zset.read key (0, []) fun m => applyCollectionScan wild m.toList cursor count pattern Prod.fst

def zrangebyscore (key : String) (min max : ScoreBound) : KV (List String) :=
  View.zset.read key [] fun m => filterZsetByScore m min max

def zrevrangebyscore (key : String) (max min : ScoreBound) : KV (List String) :=
  View.zset.read key [] fun m => (filterZsetByScore m min max).reverse

def zrangebylex (key : String) (min max : LexBound) (limit : Option (Int × Int)) :
    KV (List String) :=
  View.zset.read key [] fun m => applyLexLimit (filterZsetByLex m min max) limit

def zrevrangebylex (key : String) (max min : LexBound) (limit : Option (Int × Int)) :
    KV (List String) :=
  View.zset.read key [] fun m => applyLexLimit (filterZsetByLex m min max).reverse limit

def zlexcount (key : String) (min max : LexBound) : KV Int :=
  View.zset.read key 0 fun m => toI64 (m.keys.countP fun k => min.geMin k && max.leMax k)

/-! ## Removals -/

def zremModify (key : String) (members : List String) (entry : Option StoredValue) :
    Result (CasAction Int) := do
  match ← View.zset.find key entry with
  | none => return .noOp 0
  | some (map, exp) =>
      let (map, removed) := members.foldl removeKey (map, 0)
      return View.zset.writeOrDelete exp map removed

def zrem (key : String) (members : List String) : KV Int := cas key (zremModify key members)

/-- `ZREMRANGEBYRANK`, `ZREMRANGEBYSCORE` and `ZREMRANGEBYLEX` after their split
of the map. -/
def zremrange (key : String) (split : ZMap → ZMap × Nat) : KV Int :=
  cas key fun entry => do
    match ← View.zset.find key entry with
    | none => return .noOp 0
    | some (map, exp) =>
        let (kept, removed) := split map
        return View.zset.writeOrDelete exp kept (toI64 removed)

def zremrangebyrank (key : String) (start stop : Int) : KV Int :=
  zremrange key fun m => partitionZsetByRank m start stop

def zremrangebyscore (key : String) (min max : ScoreBound) : KV Int :=
  zremrange key fun m => partitionZsetByScore m min max

def zremrangebylex (key : String) (min max : LexBound) : KV Int :=
  zremrange key fun m => partitionZsetByLex m min max

def zpopImpl (key : String) (count : Nat) (fromMax : Bool) : KV (List (String × F64)) :=
  if count = 0 then View.zset.read key [] fun _ => []
  else cas key fun entry => do
    match ← View.zset.find key entry with
    | none => return .noOp []
    | some (map, exp) =>
        let (kept, popped) := popZsetEdge map count fromMax
        return View.zset.writeOrDelete exp kept popped

def zpopmin (key : String) (count : Nat) : KV (List (String × F64)) := zpopImpl key count false
def zpopmax (key : String) (count : Nat) : KV (List (String × F64)) := zpopImpl key count true

end Storage

end RustyAnt
