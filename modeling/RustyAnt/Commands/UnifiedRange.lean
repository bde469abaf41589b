import RustyAnt.Commands.Windows
import RustyAnt.Storage.Solo
import RustyAnt.Storage.ZOrder

/-!
# The unified `ZRANGE`

`ZRANGE` takes the place of seven older commands, which are still there.  It is the same
program as the older command that it stands for, on all bounds and under all options.
-/

namespace RustyAnt

open Lib Lib.KeySort

namespace Commands

open Storage (ZMap NanFree sortedZset resolveRange zrangeOf filterZsetByScore filterZsetByLex
  applyLexLimit)

def memberNames (pairs : List (String × F64)) : List String := pairs.map Prod.fst

/-- What `LIMIT` leaves: the first `offset` are dropped and the next `count` are kept, or all
of them if `count` is negative. -/
def limited {α : Type} (offset : Nat) (count : Int) (xs : List α) : List α :=
  if count < 0 then xs.drop offset else (xs.drop offset).take count.toNat

theorem zitems_bind {β : Type} (key : String) (g : List (String × F64) → β) :
    ((Storage.zitems key).bind fun items => .done (.ok (g items))) =
      View.zset.read key (g []) fun m => g m.toList :=
  View.read_map View.zset key [] (fun m => m.toList) g

/-! ## By rank -/

section Rank

variable (key : String) (start stop : Int)

def ranked (sorted : List (String × F64)) : List (String × F64) :=
  cutOut sorted (resolveRange (toI64 sorted.length) start stop)

theorem rangeByRank_eq (rev : Bool) : rangeByRank key start stop rev =
    View.zset.read key [] fun m => ranked start stop (reversedIf rev (sortedZset m)) := by
  have hpure : rangeByRank key start stop rev = (Storage.zitems key).bind fun items =>
      .done (.ok (ranked start stop (reversedIf rev (sortPairs items)))) := by
    unfold rangeByRank ranked
    rw [Prog.bind_eq]
    congr 1
    funext items
    dsimp only
    rw [normalizeRankRange_eq]
    cases resolveRange (toI64 (reversedIf rev (sortPairs items)).length) start stop with
    | none => rfl
    | some p => rfl
  have hnil : ranked start stop (reversedIf rev (sortPairs [])) = [] := by
    cases rev with
    | false => rfl
    | true => rfl
  rw [hpure, zitems_bind, hnil]
  rfl

theorem zrangeOf_eq (sorted : List (String × F64)) :
    zrangeOf sorted start stop = memberNames (ranked start stop sorted) := by
  unfold zrangeOf ranked
  cases resolveRange (toI64 sorted.length) start stop with
  | none => rfl
  | some p => rfl

/-- The read of the storage is the read of the handler. -/
theorem zrange_eq : Storage.zrange key start stop = do
    return memberNames (← rangeByRank key start stop false) := by
  rw [rangeByRank_eq, Prog.bind_eq]
  refine Eq.trans ?_ (View.read_map View.zset key [] _ memberNames).symm
  unfold Storage.zrange
  simp only [zrangeOf_eq]
  rfl

theorem zrevrange_eq : Storage.zrevrange key start stop = do
    return memberNames (← rangeByRank key start stop true) := by
  rw [rangeByRank_eq, Prog.bind_eq]
  refine Eq.trans ?_ (View.read_map View.zset key [] _ memberNames).symm
  unfold Storage.zrevrange
  simp only [zrangeOf_eq]
  rfl

end Rank

/-! ## By score -/

section Score

variable (key : String) (min max : ScoreBound)

def withinScores (sorted : List (String × F64)) : List (String × F64) :=
  sorted.filter fun p => min.geMin p.2 && max.leMax p.2

theorem applyLimitPairs_nil (limit : Option (Int × Int)) : applyLimitPairs [] limit = [] := by
  cases limit with
  | none => rfl
  | some l => rfl

theorem rangeByScore_eq (rev : Bool) (limit : Option (Int × Int)) :
    rangeByScore key min max rev limit = View.zset.read key [] fun m =>
      applyLimitPairs (reversedIf rev (sortPairs (withinScores min max m.toList))) limit := by
  have hread := zitems_bind key fun items =>
    applyLimitPairs (reversedIf rev (sortPairs (withinScores min max items))) limit
  have hnil : reversedIf rev (sortPairs (withinScores min max [])) = [] := by
    cases rev with
    | false => rfl
    | true => rfl
  rw [hnil, applyLimitPairs_nil] at hread
  exact hread

/-- Without NaN it does not matter whether the code sorts first or selects first. -/
theorem sortPairs_within {m : ZMap} (h : NanFree m) :
    sortPairs (withinScores min max m.toList) = withinScores min max (sortedZset m) :=
  (filter_insertionSort h.compares (Storage.nodup_scoreKeys m) _).symm

theorem filterZsetByScore_eq (m : ZMap) :
    filterZsetByScore m min max = memberNames (withinScores min max (sortedZset m)) := rfl

/-- The key holds no sorted set with a NaN among its scores. -/
def NanFreeAt (s : Keyspace) (key : String) : Prop :=
  ∀ exp map token, s key = some (⟨exp, .zset map⟩, token) → NanFree map

variable {env : Solo} {s : Keyspace} {key : String}

theorem zrangebyscore_runs (h : NanFreeAt s key) (n : Nat) :
    env.runFrom n (Storage.zrangebyscore key min max) s =
      env.runFrom n (do return memberNames (← rangeByScore key min max false none)) s := by
  have hread := View.read_map View.zset key []
    (fun m => sortPairs (withinScores min max m.toList)) memberNames
  rw [rangeByScore_eq]
  refine Eq.trans ?_ (congrArg (env.runFrom n · s) hread.symm)
  apply Solo.read_congr
  intro exp m token hkey
  rw [sortPairs_within min max (h exp m token hkey), filterZsetByScore_eq]

theorem zrevrangebyscore_runs (h : NanFreeAt s key) (n : Nat) :
    env.runFrom n (Storage.zrevrangebyscore key max min) s =
      env.runFrom n (do return memberNames (← rangeByScore key min max true none)) s := by
  have hread := View.read_map View.zset key []
    (fun m => (sortPairs (withinScores min max m.toList)).reverse) memberNames
  rw [rangeByScore_eq]
  refine Eq.trans ?_ (congrArg (env.runFrom n · s) hread.symm)
  apply Solo.read_congr
  intro exp m token hkey
  rw [sortPairs_within min max (h exp m token hkey), filterZsetByScore_eq]
  exact List.map_reverse.symm

end Score

/-! ## By name -/

section Lex

variable (key : String) (min max : LexBound)

def withinNames (pairs : List (String × F64)) : List (String × F64) :=
  pairs.filter fun p => min.geMin p.1 && max.leMax p.1

theorem ascending_toList (m : ZMap) : Ascending Prod.fst m.toList :=
  Std.ExtTreeMap.ordered_keys_toList.imp fun h => compare_lt_iff_lt.mp h

/-- The pairs of a map come in the order of their names. -/
theorem rangeByLex_eq (rev : Bool) (limit : Option (Int × Int)) :
    rangeByLex key min max rev limit = View.zset.read key [] fun m =>
      applyLimitPairs (reversedIf rev (withinNames min max m.toList)) limit := by
  have hread := zitems_bind key fun items =>
    applyLimitPairs (reversedIf rev ((withinNames min max items).insertionSort
      fun a b => a.1 ≤ b.1)) limit
  have hnil : reversedIf rev
      ((withinNames min max []).insertionSort fun a b => a.1 ≤ b.1) = [] := by
    cases rev with
    | false => rfl
    | true => rfl
  have hsorted : ∀ m : ZMap, (withinNames min max m.toList).insertionSort
      (fun a b => a.1 ≤ b.1) = withinNames min max m.toList := by
    intro m
    have hascending := (ascending_toList m).filter fun p => min.geMin p.1 && max.leMax p.1
    exact hascending.insertionSort_eq (List.Perm.refl _) fun _ _ _ _ => Iff.rfl
  rw [hnil, applyLimitPairs_nil] at hread
  simp only [hsorted] at hread
  exact hread

theorem filterZsetByLex_eq (m : ZMap) :
    filterZsetByLex m min max = memberNames (withinNames min max m.toList) := by
  unfold filterZsetByLex memberNames withinNames
  rw [← Std.ExtTreeMap.map_fst_toList_eq_keys, List.filter_map]
  rfl

theorem applyLexLimit_names (pairs : List (String × F64)) (limit : Option (Int × Int)) :
    applyLexLimit (memberNames pairs) limit = memberNames (applyLimitPairs pairs limit) := by
  cases limit with
  | none => rfl
  | some l =>
      unfold applyLexLimit applyLimitPairs memberNames
      dsimp only
      rw [List.length_map]
      split
      · rfl
      · split
        · rw [List.map_take, List.map_drop]
        · rw [List.map_drop]

theorem zrangebylex_eq (limit : Option (Int × Int)) : Storage.zrangebylex key min max limit = do
    return memberNames (← rangeByLex key min max false limit) := by
  have hread := View.read_map View.zset key []
    (fun m => applyLimitPairs (withinNames min max m.toList) limit) memberNames
  rw [rangeByLex_eq]
  refine Eq.trans ?_ hread.symm
  unfold Storage.zrangebylex
  simp only [filterZsetByLex_eq, applyLexLimit_names]
  rfl

theorem zrevrangebylex_eq (limit : Option (Int × Int)) :
    Storage.zrevrangebylex key max min limit = do
      return memberNames (← rangeByLex key min max true limit) := by
  have hread := View.read_map View.zset key []
    (fun m => applyLimitPairs (withinNames min max m.toList).reverse limit) memberNames
  have hreverse : ∀ pairs, (memberNames pairs).reverse = memberNames pairs.reverse :=
    fun _ => List.map_reverse.symm
  rw [rangeByLex_eq]
  refine Eq.trans ?_ hread.symm
  unfold Storage.zrevrangebylex
  simp only [filterZsetByLex_eq, hreverse, applyLexLimit_names]
  rfl

end Lex

/-! ## Limits -/

section Limit

variable {offset : Int} (count : Int)

theorem applyLimitPairs_limited (h : 0 ≤ offset) (pairs : List (String × F64)) :
    applyLimitPairs pairs (some (offset, count)) = limited offset.toNat count pairs := by
  unfold applyLimitPairs limited
  dsimp only
  rw [max_eq_left h]
  by_cases hpast : pairs.length ≤ offset.toNat
  · rw [if_pos hpast, List.drop_eq_nil_of_le hpast, List.take_nil, ite_self]
  · rw [if_neg hpast]
    by_cases hcount : count < 0
    · rw [if_pos hcount, if_neg (by omega)]
    · rw [if_neg hcount, if_pos (by omega)]

theorem rangeByScore_limited (h : 0 ≤ offset) (key : String) (min max : ScoreBound) (rev : Bool) :
    rangeByScore key min max rev (some (offset, count)) = do
      return limited offset.toNat count (← rangeByScore key min max rev none) := by
  have hread := View.read_map View.zset key []
    (fun m => reversedIf rev (sortPairs (withinScores min max m.toList)))
    (limited offset.toNat count)
  have hnil : limited offset.toNat count ([] : List (String × F64)) = [] := by
    rw [← applyLimitPairs_limited count h, applyLimitPairs_nil]
  rw [rangeByScore_eq, rangeByScore_eq]
  refine Eq.trans ?_ hread.symm
  simp only [applyLimitPairs_limited count h]
  rw [hnil]

theorem rangeByLex_limited (h : 0 ≤ offset) (key : String) (min max : LexBound) (rev : Bool) :
    rangeByLex key min max rev (some (offset, count)) = do
      return limited offset.toNat count (← rangeByLex key min max rev none) := by
  have hread := View.read_map View.zset key []
    (fun m => reversedIf rev (withinNames min max m.toList)) (limited offset.toNat count)
  have hnil : limited offset.toNat count ([] : List (String × F64)) = [] := by
    rw [← applyLimitPairs_limited count h, applyLimitPairs_nil]
  rw [rangeByLex_eq, rangeByLex_eq]
  refine Eq.trans ?_ hread.symm
  simp only [applyLimitPairs_limited count h]
  rw [hnil]

end Limit

/-! ## The handlers -/

section Handlers

variable (fo : FloatOps) (key : Bytes) (lo hi : String)

/-- The same options, as `ZRANGE` reads them and as the older command does. -/
def SameScoreOptions (rev : Bool) (tail tail' : List Bytes) : Prop :=
  ∃ withScores limit, parseZrangeOpts "ZRANGE" tail = .ok ⟨.score, rev, limit, withScores⟩ ∧
    parseZrangebyscoreTail tail' (false, none) = .ok (withScores, limit)

def SameLexOptions (rev : Bool) (tail tail' : List Bytes) : Prop :=
  ∃ limit, parseZrangeOpts "ZRANGE" tail = .ok ⟨.lex, rev, limit, false⟩ ∧
    parseLexLimit tail' = .ok limit

def SameRankOptions (tail tail' : List Bytes) : Prop :=
  ∃ withScores, parseZrangeOpts "ZRANGE" tail = .ok ⟨.rank, true, none, withScores⟩ ∧
    parseWithscoresTail tail' = .ok withScores

theorem parseScoreBound_asBytes (t : String) :
    parseScoreBound fo (Rdb.asBytes t) = ScoreBound.parse fo t := by
  unfold parseScoreBound
  rw [argAsStr_asBytes]
  rfl

theorem parseLexBound_asBytes (t : String) :
    parseLexBound (Rdb.asBytes t) = LexBound.parse t := by
  unfold parseLexBound
  rw [argAsStr_asBytes]
  rfl

/-- There is one error, so it does not matter which bound is read first. -/
theorem ScoreBound.parse_error {t : String} {e : RustyAntError}
    (h : ScoreBound.parse fo t = .error e) : e = .parse "score is not a float" := by
  have helim : ∀ (o : Option F64) (f : F64 → ScoreBound),
      (o.elim ScoreBound.parse.notFloat fun v => .ok (f v)) = .error e →
        e = .parse "score is not a float" := by
    intro o f ho
    cases o with
    | none => exact (Except.error.inj ho).symm
    | some v => cases ho
  unfold ScoreBound.parse at h
  split at h
  · cases h
  · split at h
    · cases h
    · split at h
      · exact helim _ _ h
      · exact helim _ _ h

theorem LexBound.parse_error {t : String} {e : RustyAntError} (h : LexBound.parse t = .error e) :
    e = .parse "min or max not valid string range item" := by
  unfold LexBound.parse at h
  split at h
  · cases h
  · cases h
  · cases h
  · cases h
  · exact (Except.error.inj h).symm

theorem ofExcept_swap {α β γ : Type} {x : Result α} {y : Result β} {e : RustyAntError}
    (hx : ∀ e', x = .error e' → e' = e) (hy : ∀ e', y = .error e' → e' = e) (f : α → β → KV γ) :
    ((Prog.ofExcept x).bind fun a => (Prog.ofExcept y).bind fun b => f a b) =
      (Prog.ofExcept y).bind fun b => (Prog.ofExcept x).bind fun a => f a b := by
  cases x with
  | ok a => rfl
  | error ex =>
      rw [hx ex rfl]
      cases y with
      | ok b => rfl
      | error ey =>
          rw [hy ey rfl]
          rfl

theorem executeZrange_score (k : String) (rev : Bool) (limit : Option (Int × Int))
    (withScores : Bool) :
    executeZrange fo k (Rdb.asBytes lo) (Rdb.asBytes hi) ⟨.score, rev, limit, withScores⟩ =
      (Prog.ofExcept (ScoreBound.parse fo (if rev then hi else lo))).bind fun min =>
        (Prog.ofExcept (ScoreBound.parse fo (if rev then lo else hi))).bind fun max =>
          (rangeByScore k min max rev limit).bind fun pairs =>
            .done (.ok (pairsToReply fo pairs withScores)) := by
  rw [← parseScoreBound_asBytes, ← parseScoreBound_asBytes]
  cases rev with
  | false => rfl
  | true => rfl

theorem executeZrange_lex (k : String) (rev : Bool) (limit : Option (Int × Int)) :
    executeZrange fo k (Rdb.asBytes lo) (Rdb.asBytes hi) ⟨.lex, rev, limit, false⟩ =
      (Prog.ofExcept (LexBound.parse (if rev then hi else lo))).bind fun min =>
        (Prog.ofExcept (LexBound.parse (if rev then lo else hi))).bind fun max =>
          (rangeByLex k min max rev limit).bind fun pairs =>
            .done (.ok (pairsToReply fo pairs false)) := by
  rw [← parseLexBound_asBytes, ← parseLexBound_asBytes]
  cases rev with
  | false => rfl
  | true => rfl

section Same

variable {tail tail' : List Bytes}

theorem zrange_byScore (h : SameScoreOptions false tail tail') :
    handleZrange fo (key :: Rdb.asBytes lo :: Rdb.asBytes hi :: tail) =
      handleZrangebyscore fo (key :: Rdb.asBytes lo :: Rdb.asBytes hi :: tail') := by
  obtain ⟨withScores, limit, hopts, htail⟩ := h
  unfold handleZrange handleZrangebyscore
  simp only [hopts, htail]
  rfl

theorem zrange_byScore_rev (h : SameScoreOptions true tail tail') :
    handleZrange fo (key :: Rdb.asBytes lo :: Rdb.asBytes hi :: tail) =
      handleZrevrangebyscore fo (key :: Rdb.asBytes lo :: Rdb.asBytes hi :: tail') := by
  obtain ⟨withScores, limit, hopts, htail⟩ := h
  unfold handleZrange handleZrevrangebyscore
  simp only [hopts, htail, parseScoreBound_asBytes]
  congr 1
  funext k
  have hswap := fun f : ScoreBound → ScoreBound → KV RespReply =>
    ofExcept_swap (fun _ => ScoreBound.parse_error fo (t := hi))
      (fun _ => ScoreBound.parse_error fo (t := lo)) f
  refine Eq.trans ((executeZrange_score fo lo hi k true limit withScores).trans (hswap _)) ?_
  rfl

theorem pairsToReply_names (pairs : List (String × F64)) :
    pairsToReply fo pairs false = .texts (memberNames pairs) := by
  unfold pairsToReply RespReply.texts memberNames
  rw [List.map_map, List.map_eq_flatMap]
  rfl

theorem texts_zrangebylex (k : String) (min max : LexBound) (limit : Option (Int × Int)) :
    ((Storage.zrangebylex k min max limit).bind fun members => .done (.ok (.texts members))) =
      (rangeByLex k min max false limit).bind fun pairs =>
        .done (.ok (pairsToReply fo pairs false)) := by
  rw [zrangebylex_eq, Prog.bind_eq, Prog.bind_assoc]
  simp only [pairsToReply_names]
  rfl

theorem texts_zrevrangebylex (k : String) (min max : LexBound) (limit : Option (Int × Int)) :
    ((Storage.zrevrangebylex k max min limit).bind fun members => .done (.ok (.texts members))) =
      (rangeByLex k min max true limit).bind fun pairs =>
        .done (.ok (pairsToReply fo pairs false)) := by
  rw [zrevrangebylex_eq, Prog.bind_eq, Prog.bind_assoc]
  simp only [pairsToReply_names]
  rfl

theorem parseLexLimit_length {limit : Option (Int × Int)} (h : parseLexLimit tail' = .ok limit) :
    tail'.length = 0 ∨ tail'.length = 3 := by
  unfold parseLexLimit at h
  split at h
  · exact .inl rfl
  · exact .inr rfl
  · cases h

theorem zrange_byLex (h : SameLexOptions false tail tail') :
    handleZrange fo (key :: Rdb.asBytes lo :: Rdb.asBytes hi :: tail) =
      handleZrangebylex (key :: Rdb.asBytes lo :: Rdb.asBytes hi :: tail') := by
  obtain ⟨limit, hopts, htail⟩ := h
  unfold handleZrange handleZrangebylex
  simp only [hopts, htail, parseLexBound_asBytes]
  rw [if_pos (parseLexLimit_length htail)]
  congr 1
  funext k
  refine Eq.trans (executeZrange_lex fo lo hi k false limit) ?_
  simp only [← texts_zrangebylex]
  rfl

theorem zrange_byLex_rev (h : SameLexOptions true tail tail') :
    handleZrange fo (key :: Rdb.asBytes lo :: Rdb.asBytes hi :: tail) =
      handleZrevrangebylex (key :: Rdb.asBytes lo :: Rdb.asBytes hi :: tail') := by
  obtain ⟨limit, hopts, htail⟩ := h
  unfold handleZrange handleZrevrangebylex
  simp only [hopts, htail, parseLexBound_asBytes]
  rw [if_pos (parseLexLimit_length htail)]
  congr 1
  funext k
  have hswap := fun f : LexBound → LexBound → KV RespReply =>
    ofExcept_swap (fun _ => LexBound.parse_error (t := hi))
      (fun _ => LexBound.parse_error (t := lo)) f
  refine Eq.trans ((executeZrange_lex fo lo hi k true limit).trans (hswap _)) ?_
  simp only [← texts_zrevrangebylex]
  rfl

theorem zrange_rank_rev (h : SameRankOptions tail tail') (lo hi : Bytes) :
    handleZrange fo (key :: lo :: hi :: tail) = handleZrevrange fo (key :: lo :: hi :: tail') := by
  obtain ⟨withScores, hopts, htail⟩ := h
  unfold handleZrange handleZrevrange
  simp only [hopts, htail]
  rfl

end Same

end Handlers

/-! ## The words -/

section Words

def flagWord (word : String) (flag : Bool) : List Bytes := if flag then [Rdb.asBytes word] else []

def limitWords : Option (Int × Int) → List Bytes
  | none => []
  | some (offset, count) =>
      [Rdb.asBytes "LIMIT", Decimal.intBytes offset, Decimal.intBytes count]

/-- The numbers of a limit are machine integers. -/
def LimitFits (limit : Option (Int × Int)) : Prop :=
  ∀ offset count, limit = some (offset, count) → InI64 offset ∧ InI64 count

/-- The words of the options are in upper case already. -/
theorem optionWord_word {word : String}
    (h : word ∈ ["BYSCORE", "BYLEX", "REV", "LIMIT", "WITHSCORES"]) :
    optionWord (Rdb.asBytes word) = .ok word := by
  have hupper : ∀ w ∈ ["BYSCORE", "BYLEX", "REV", "LIMIT", "WITHSCORES"], toUpper w = w := by
    decide +kernel
  rw [optionWord_asBytes, hupper word h]

variable (opts : ZRangeOpts) (rest : List Bytes) {limit : Option (Int × Int)}

theorem parseZrangeWords_word (limit : Option (Int × Int)) :
    (opts.mode ≠ .lex → parseZrangeWords "ZRANGE" (Rdb.asBytes "BYSCORE" :: rest) opts =
      parseZrangeWords "ZRANGE" rest { opts with mode := .score }) ∧
    (opts.mode ≠ .score → parseZrangeWords "ZRANGE" (Rdb.asBytes "BYLEX" :: rest) opts =
      parseZrangeWords "ZRANGE" rest { opts with mode := .lex }) ∧
    parseZrangeWords "ZRANGE" (Rdb.asBytes "REV" :: rest) opts =
      parseZrangeWords "ZRANGE" rest { opts with rev := true } ∧
    parseZrangeWords "ZRANGE" (Rdb.asBytes "WITHSCORES" :: rest) opts =
      parseZrangeWords "ZRANGE" rest { opts with withScores := true } ∧
    (LimitFits limit → limit.isSome →
      parseZrangeWords "ZRANGE" (limitWords limit ++ rest) opts =
        parseZrangeWords "ZRANGE" rest { opts with limit }) := by
  refine ⟨fun hmode => ?_, fun hmode => ?_, ?_, ?_, fun h hsome => ?_⟩
  · conv_lhs => unfold parseZrangeWords
    rw [optionWord_word (by simp)]
    exact if_neg hmode
  · conv_lhs => unfold parseZrangeWords
    rw [optionWord_word (by simp)]
    exact if_neg hmode
  · conv_lhs => unfold parseZrangeWords
    rw [optionWord_word (by simp)]
    rfl
  · conv_lhs => unfold parseZrangeWords
    rw [optionWord_word (by simp)]
    rfl
  · cases limit with
    | none => cases hsome
    | some l =>
        obtain ⟨hoffset, hcount⟩ := h l.1 l.2 rfl
        show parseZrangeWords "ZRANGE" (Rdb.asBytes "LIMIT" :: Decimal.intBytes l.1 ::
          Decimal.intBytes l.2 :: rest) opts = _
        rw [parseZrangeWords, optionWord_word (by simp), Result.ok_bind,
          parseI64_intBytes hoffset.1 hoffset.2, Result.ok_bind,
          parseI64_intBytes hcount.1 hcount.2, Result.ok_bind]
        rfl

theorem parseZrangeWords_rev (rev : Bool) :
    parseZrangeWords "ZRANGE" (flagWord "REV" rev ++ rest) opts =
      parseZrangeWords "ZRANGE" rest { opts with rev := opts.rev || rev } := by
  cases rev with
  | false => rw [Bool.or_false]; rfl
  | true =>
      rw [Bool.or_true]
      exact (parseZrangeWords_word opts rest none).2.2.1

theorem parseZrangeWords_limit (h : LimitFits limit) (hnone : opts.limit = none) :
    parseZrangeWords "ZRANGE" (limitWords limit ++ rest) opts =
      parseZrangeWords "ZRANGE" rest { opts with limit } := by
  cases limit with
  | none =>
      cases opts
      cases hnone
      rfl
  | some l => exact (parseZrangeWords_word opts rest (some l)).2.2.2.2 h rfl

theorem parseZrangeWords_withscores (withScores : Bool) :
    parseZrangeWords "ZRANGE" (flagWord "WITHSCORES" withScores) opts =
      .ok { opts with withScores := opts.withScores || withScores } := by
  cases withScores with
  | false => rw [Bool.or_false]; rfl
  | true =>
      rw [Bool.or_true]
      exact (parseZrangeWords_word opts [] none).2.2.2.1

theorem parseZrangebyscoreTail_words (h : LimitFits limit) (withScores : Bool) :
    parseZrangebyscoreTail (limitWords limit ++ flagWord "WITHSCORES" withScores) (false, none) =
      .ok (withScores, limit) := by
  have hflag : parseZrangebyscoreTail (flagWord "WITHSCORES" withScores) (false, limit) =
      .ok (withScores, limit) := by
    cases withScores with
    | false => rfl
    | true =>
        show parseZrangebyscoreTail [Rdb.asBytes "WITHSCORES"] (false, limit) = _
        unfold parseZrangebyscoreTail
        rw [optionWord_word (by simp)]
        rfl
  refine Eq.trans ?_ hflag
  cases limit with
  | none => rfl
  | some l =>
      obtain ⟨hoffset, hcount⟩ := h l.1 l.2 rfl
      show parseZrangebyscoreTail (Rdb.asBytes "LIMIT" :: Decimal.intBytes l.1 ::
        Decimal.intBytes l.2 :: _) (false, none) = _
      rw [parseZrangebyscoreTail, optionWord_word (by simp), Result.ok_bind,
        parseI64_intBytes hoffset.1 hoffset.2, Result.ok_bind,
        parseI64_intBytes hcount.1 hcount.2, Result.ok_bind]
      rfl

/-- `BYSCORE [REV] [LIMIT offset count] [WITHSCORES]` -/
def byScoreWords (rev : Bool) (limit : Option (Int × Int)) (withScores : Bool) : List Bytes :=
  Rdb.asBytes "BYSCORE" ::
    (flagWord "REV" rev ++ (limitWords limit ++ flagWord "WITHSCORES" withScores))

/-- `BYLEX [REV] [LIMIT offset count]` -/
def byLexWords (rev : Bool) (limit : Option (Int × Int)) : List Bytes :=
  Rdb.asBytes "BYLEX" :: (flagWord "REV" rev ++ limitWords limit)

theorem sameScoreOptions_words (h : LimitFits limit) (rev withScores : Bool) :
    SameScoreOptions rev (byScoreWords rev limit withScores)
      (limitWords limit ++ flagWord "WITHSCORES" withScores) := by
  refine ⟨withScores, limit, ?_, ?_⟩
  · have hwords : parseZrangeWords "ZRANGE" (byScoreWords rev limit withScores) {} =
        .ok ⟨.score, rev, limit, withScores⟩ := by
      unfold byScoreWords
      rw [(parseZrangeWords_word _ _ none).1 (by decide), parseZrangeWords_rev,
        parseZrangeWords_limit _ _ h rfl, parseZrangeWords_withscores, Bool.false_or,
        Bool.false_or]
    unfold parseZrangeOpts
    rw [hwords, Result.ok_bind]
    simp
  · exact parseZrangebyscoreTail_words h withScores

theorem sameLexOptions_words (h : LimitFits limit) (rev : Bool) :
    SameLexOptions rev (byLexWords rev limit) (limitWords limit) := by
  refine ⟨limit, ?_, ?_⟩
  · have hwords : parseZrangeWords "ZRANGE" (byLexWords rev limit) {} =
        .ok ⟨.lex, rev, limit, false⟩ := by
      unfold byLexWords
      rw [← List.append_nil (limitWords limit),
        (parseZrangeWords_word _ _ none).2.1 (by decide), parseZrangeWords_rev,
        parseZrangeWords_limit _ _ h rfl, Bool.false_or]
      rfl
    unfold parseZrangeOpts
    rw [hwords, Result.ok_bind]
    simp
  · cases limit with
    | none => rfl
    | some l =>
        obtain ⟨hoffset, hcount⟩ := h l.1 l.2 rfl
        have hword : isWord (Rdb.asBytes "LIMIT") "LIMIT" = .ok true := by
          unfold isWord
          rw [optionWord_word (by simp)]
          rfl
        show parseLexLimit [Rdb.asBytes "LIMIT", Decimal.intBytes l.1, Decimal.intBytes l.2] = _
        rw [parseLexLimit, hword, Result.ok_bind, if_neg (by decide),
          parseI64_intBytes hoffset.1 hoffset.2, Result.ok_bind,
          parseI64_intBytes hcount.1 hcount.2, Result.ok_bind]
        rfl

/-- `REV [WITHSCORES]` -/
theorem sameRankOptions_words (withScores : Bool) :
    SameRankOptions (flagWord "REV" true ++ flagWord "WITHSCORES" withScores)
      (flagWord "WITHSCORES" withScores) := by
  refine ⟨withScores, ?_, ?_⟩
  · unfold parseZrangeOpts
    rw [parseZrangeWords_rev, parseZrangeWords_withscores, Result.ok_bind]
    simp
  · cases withScores with
    | false => rfl
    | true =>
        have hword : isWord (Rdb.asBytes "WITHSCORES") "WITHSCORES" = .ok true := by
          unfold isWord
          rw [optionWord_word (by simp)]
          rfl
        show parseWithscoresTail [Rdb.asBytes "WITHSCORES"] = _
        rw [parseWithscoresTail, hword]
        rfl

end Words

/-- `ZRANGE` with `BYSCORE`, with `BYLEX` and with `REV` is the older command with the same
options.  Each option is read the same.  The reads of the storage are those of the handlers
without a limit, and a limit cuts the result of the query without it. -/
theorem zrange_unified (fo : FloatOps) (key : Bytes) (k : String) :
    (∀ (lo hi : String) (tail tail' : List Bytes),
      let unified := handleZrange fo (key :: Rdb.asBytes lo :: Rdb.asBytes hi :: tail)
      let args := key :: Rdb.asBytes lo :: Rdb.asBytes hi :: tail'
      (SameScoreOptions false tail tail' → unified = handleZrangebyscore fo args) ∧
      (SameScoreOptions true tail tail' → unified = handleZrevrangebyscore fo args) ∧
      (SameLexOptions false tail tail' → unified = handleZrangebylex args) ∧
      (SameLexOptions true tail tail' → unified = handleZrevrangebylex args) ∧
      (SameRankOptions tail tail' → unified = handleZrevrange fo args)) ∧
    (∀ limit, LimitFits limit → ∀ rev withScores,
      SameScoreOptions rev (byScoreWords rev limit withScores)
        (limitWords limit ++ flagWord "WITHSCORES" withScores) ∧
      SameLexOptions rev (byLexWords rev limit) (limitWords limit) ∧
      SameRankOptions (flagWord "REV" true ++ flagWord "WITHSCORES" withScores)
        (flagWord "WITHSCORES" withScores)) ∧
    (∀ start stop,
      (Storage.zrange k start stop = do return memberNames (← rangeByRank k start stop false)) ∧
      (Storage.zrevrange k start stop = do return memberNames (← rangeByRank k start stop true))) ∧
    (∀ (env : Solo) (n : Nat) (s : Keyspace) (min max : ScoreBound), NanFreeAt s k →
      env.runFrom n (Storage.zrangebyscore k min max) s =
        env.runFrom n (do return memberNames (← rangeByScore k min max false none)) s ∧
      env.runFrom n (Storage.zrevrangebyscore k max min) s =
        env.runFrom n (do return memberNames (← rangeByScore k min max true none)) s) ∧
    (∀ (offset count : Int) (rev : Bool), 0 ≤ offset →
      (∀ min max, rangeByScore k min max rev (some (offset, count)) = do
        return limited offset.toNat count (← rangeByScore k min max rev none)) ∧
      (∀ min max, rangeByLex k min max rev (some (offset, count)) = do
        return limited offset.toNat count (← rangeByLex k min max rev none))) := by
  refine ⟨?_, ?_, ?_, ?_, ?_⟩
  · intro lo hi tail tail'
    exact ⟨zrange_byScore fo key lo hi, zrange_byScore_rev fo key lo hi,
      zrange_byLex fo key lo hi, zrange_byLex_rev fo key lo hi,
      fun h => zrange_rank_rev fo key h _ _⟩
  · intro limit hlimit rev withScores
    exact ⟨sameScoreOptions_words hlimit rev withScores, sameLexOptions_words hlimit rev,
      sameRankOptions_words withScores⟩
  · intro start stop
    exact ⟨zrange_eq k start stop, zrevrange_eq k start stop⟩
  · intro env n s min max hnan
    exact ⟨zrangebyscore_runs min max hnan n, zrevrangebyscore_runs min max hnan n⟩
  · intro offset count rev hoffset
    exact ⟨fun min max => rangeByScore_limited count hoffset k min max rev,
      fun min max => rangeByLex_limited count hoffset k min max rev⟩

/-- `y` at 0 and `x` at 1. -/
def twoScores : ZMap := Std.ExtTreeMap.ofList [("x", .one), ("y", .zero)] compare

/-- One sorted set at `k`. -/
def twoMembers : Keyspace := fun key =>
  if key = "k" then some (⟨none, .zset twoScores⟩, "t") else none

theorem twoMembers_nanFree : NanFreeAt twoMembers "k" := by
  intro exp map token hkey
  cases hkey
  exact Storage.nanFree_of_all rfl

/-- `ZRANGE k 1 -inf BYSCORE REV LIMIT -1 2 WITHSCORES` and the reads of `k`. -/
theorem zrange_unified_on_twoMembers :
    (handleZrange .integral (Rdb.asBytes "k" :: Rdb.asBytes "1" :: Rdb.asBytes "-inf" ::
        byScoreWords true (some (-1, 2)) true) =
      handleZrevrangebyscore .integral (Rdb.asBytes "k" :: Rdb.asBytes "1" :: Rdb.asBytes "-inf" ::
        (limitWords (some (-1, 2)) ++ flagWord "WITHSCORES" true))) ∧
    (Solo.still 0).runFrom 0 (Storage.zrangebyscore "k" .minusInf .plusInf) twoMembers =
      (Solo.still 0).runFrom 0
        (do return memberNames (← rangeByScore "k" .minusInf .plusInf false none)) twoMembers ∧
    (rangeByLex "k" .minusInf .plusInf false (some (1, -1)) = do
      return limited 1 (-1) (← rangeByLex "k" .minusInf .plusInf false none)) := by
  have hfits : LimitFits (some (-1, 2)) := by
    intro offset count h
    cases h
    exact ⟨⟨by decide, by decide⟩, by decide, by decide⟩
  obtain ⟨hunified, hwords, -, hruns, hlimited⟩ :=
    zrange_unified .integral (Rdb.asBytes "k") "k"
  exact ⟨(hunified "1" "-inf" _ _).2.1 (hwords _ hfits true true).1,
    (hruns _ 0 _ _ _ twoMembers_nanFree).1, (hlimited 1 (-1) false (by decide)).2 _ _⟩

end Commands

end RustyAnt
