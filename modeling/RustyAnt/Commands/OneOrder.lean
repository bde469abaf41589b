import RustyAnt.Commands.Partitions

/-!
# One order for sorted sets

The ranks, the queries, the pops and the removals of a sorted set all sort for themselves.
They come to one and the same list.
-/

namespace RustyAnt

open Lib

namespace Commands

open Storage (ZMap NanFree sortedZset ascRankOf popZsetEdge)

/-! ## Ranks -/

section Ranks

variable {map : ZMap} {m : String}

theorem nodup_sortedNames (map : ZMap) : (memberNames (sortedZset map)).Nodup :=
  ((Storage.sortedZset_perm map).map Prod.fst).nodup_iff.mpr (Storage.nodup_names map)

/-- The position of a name that stands in the list once. -/
theorem findIdx?_name {L : List (String × F64)} (h : (memberNames L).Nodup) (i : Nat) :
    (L.findIdx? fun p => p.1 == m) = some i ↔ (memberNames L)[i]? = some m := by
  rw [List.findIdx?_eq_some_iff_getElem]
  constructor
  · rintro ⟨hlt, hname, -⟩
    rw [memberNames, List.getElem?_map, List.getElem?_eq_getElem hlt]
    exact congrArg some (eq_of_beq hname)
  · intro hi
    have hlt : i < L.length := by
      obtain ⟨hlt, -⟩ := List.getElem?_eq_some_iff.mp hi
      rwa [memberNames, List.length_map] at hlt
    have hname : ∀ j (hj : j < L.length), (L[j].1 == m) = true ↔ (memberNames L)[j]? = some m := by
      intro j hj
      rw [beq_iff_eq, memberNames, List.getElem?_map, List.getElem?_eq_getElem hj, Option.map_some,
        Option.some_inj]
    refine ⟨hlt, (hname i hlt).mpr hi, ?_⟩
    intro j hji hj
    have hsame : (memberNames L)[i]? = (memberNames L)[j]? :=
      hi.trans ((hname j (by omega)).mp hj).symm
    have hlt' : i < (memberNames L).length := by
      rwa [memberNames, List.length_map]
    have heq := (List.getElem?_inj hlt' h).mp hsame
    omega

theorem ascRankOf_eq_some (hsize : (map.size : Int) ≤ i64Max) (r : Int) :
    ascRankOf map m = some r ↔ ∃ i : Nat, r = i ∧ (memberNames (sortedZset map))[i]? = some m := by
  have hindex := findIdx?_name (m := m) (nodup_sortedNames map)
  have hsmall : ∀ i : Nat, (memberNames (sortedZset map))[i]? = some m → toI64 i = i := by
    intro i hi
    obtain ⟨hlt, -⟩ := List.getElem?_eq_some_iff.mp hi
    rw [memberNames, List.length_map, length_sortedZset] at hlt
    exact toI64_of_le (by omega)
  have hmember : ∀ i : Nat, (memberNames (sortedZset map))[i]? = some m →
      map.contains m = true := by
    intro i hi
    have hmem := ((Storage.sortedZset_perm map).map Prod.fst).mem_iff.mp (List.mem_of_getElem? hi)
    rw [Std.ExtTreeMap.map_fst_toList_eq_keys, Std.ExtTreeMap.mem_keys] at hmem
    exact Std.ExtTreeMap.contains_iff_mem.mpr hmem
  unfold ascRankOf
  by_cases hcontains : map.contains m = true
  · rw [if_pos hcontains, Option.map_eq_some_iff]
    constructor
    · rintro ⟨i, hi, rfl⟩
      have hname := (hindex i).mp hi
      exact ⟨i, hsmall i hname, hname⟩
    · rintro ⟨i, rfl, hname⟩
      exact ⟨i, (hindex i).mpr hname, hsmall i hname⟩
  · rw [if_neg hcontains]
    apply iff_of_false nofun
    rintro ⟨i, -, hname⟩
    exact hcontains (hmember i hname)

theorem ranked_single {L : List (String × F64)} (hsize : (L.length : Int) ≤ i64Max) {i : Nat}
    (hi : (memberNames L)[i]? = some m) : memberNames (ranked i i L) = [m] := by
  have hlt : i < L.length := by
    obtain ⟨hlt, -⟩ := List.getElem?_eq_some_iff.mp hi
    rwa [memberNames, List.length_map] at hlt
  have hbound : max (min (Lib.Window.fromEnd L.length i) (L.length - 1)) 0 = (i : Int) := by
    unfold Lib.Window.fromEnd
    rw [if_neg (by omega)]
    omega
  unfold ranked
  rw [resolveRange_eq (by omega) hsize]
  dsimp only
  rw [hbound, if_neg (by omega), Int.toNat_natCast, cutOut, Storage.sliceInclusive,
    Nat.add_sub_cancel_left, List.drop_eq_getElem_cons hlt, List.take_succ_cons, List.take_zero]
  rw [memberNames, List.getElem?_map, List.getElem?_eq_getElem hlt] at hi
  exact congrArg (fun x => [x]) (Option.some.inj hi)

end Ranks

/-! ## What the commands reply and leave -/

section Runs

variable {fo : FloatOps} {env : Solo} {s : Keyspace} {k token : String} {exp : Option Int}
  {map : ZMap} {a b : Bytes}

theorem read_zset_runs {β : Type} (h : env.Faultless)
    (hseen : env.seen 0 s k = some (⟨exp, .zset map⟩, token)) (absent : β) (f : ZMap → β) :
    env.runFrom 0 (View.zset.read k absent f) s = (.ok (f map), 1, s) :=
  Solo.read_seen h hseen absent f

theorem handleZrank_runs (h : env.Faultless)
    (hseen : env.seen 0 s k = some (⟨exp, .zset map⟩, token)) (m : String) :
    env.run (handleZrank false [Rdb.asBytes k, Rdb.asBytes m]) s =
      (.ok ((ascRankOf map m).elim .nil .integer), 1, s) := by
  have hread : env.runFrom 0 (Storage.zrank k m) s = _ := read_zset_runs h hseen none _
  refine (Solo.runFrom_parse (argAsStr_asBytes k)).trans ?_
  refine (Solo.runFrom_parse (argAsStr_asBytes m)).trans ?_
  exact (Solo.runFrom_step hread).trans rfl

theorem handleZrevrank_runs (h : env.Faultless)
    (hseen : env.seen 0 s k = some (⟨exp, .zset map⟩, token)) (m : String) :
    env.run (handleZrank true [Rdb.asBytes k, Rdb.asBytes m]) s =
      (.ok (((ascRankOf map m).map fun r => toI64 map.size - 1 - r).elim .nil .integer), 1, s) := by
  have hread : env.runFrom 0 (Storage.zrevrank k m) s = _ := read_zset_runs h hseen none _
  refine (Solo.runFrom_parse (argAsStr_asBytes k)).trans ?_
  refine (Solo.runFrom_parse (argAsStr_asBytes m)).trans ?_
  exact (Solo.runFrom_step hread).trans rfl

theorem handleZcard_runs (h : env.Faultless)
    (hseen : env.seen 0 s k = some (⟨exp, .zset map⟩, token)) :
    env.run (handleZcard [Rdb.asBytes k]) s = (.ok (.integer (toI64 map.size)), 1, s) := by
  have hread : env.runFrom 0 (Storage.zcard k) s = _ := read_zset_runs h hseen 0 _
  refine (Solo.runFrom_parse (argAsStr_asBytes k)).trans ?_
  exact (Solo.runFrom_step hread).trans rfl

/-- `ZRANK` replies a rank where the member has it. -/
theorem handleZrank_replies_iff (h : env.Faultless)
    (hseen : env.seen 0 s k = some (⟨exp, .zset map⟩, token)) (m : String) (r : Int) :
    (env.run (handleZrank false [Rdb.asBytes k, Rdb.asBytes m]) s).1 = .ok (.integer r) ↔
      ascRankOf map m = some r := by
  rw [handleZrank_runs h hseen]
  cases ascRankOf map m with
  | none => exact iff_of_false nofun nofun
  | some r' => simp

theorem handleZrevrank_replies_iff (h : env.Faultless)
    (hseen : env.seen 0 s k = some (⟨exp, .zset map⟩, token))
    (hsize : (map.size : Int) ≤ i64Max) (m : String) (r : Int) :
    (env.run (handleZrank true [Rdb.asBytes k, Rdb.asBytes m]) s).1 =
        .ok (.integer (map.size - 1 - r)) ↔ ascRankOf map m = some r := by
  rw [handleZrevrank_runs h hseen, toI64_of_le hsize]
  cases ascRankOf map m with
  | none => exact iff_of_false nofun nofun
  | some r' => simp

theorem handleZrange_runs (h : env.Faultless)
    (hseen : env.seen 0 s k = some (⟨exp, .zset map⟩, token)) {start stop : Int}
    (ha : parseI64 a "start" = .ok start) (hb : parseI64 b "stop" = .ok stop) :
    env.run (handleZrange fo [Rdb.asBytes k, a, b]) s =
      (.ok (.texts (memberNames (ranked start stop (sortedZset map)))), 1, s) := by
  have hread : env.runFrom 0 (rangeByRank k start stop false) s =
      (.ok (ranked start stop (sortedZset map)), 1, s) := by
    rw [rangeByRank_eq]
    exact read_zset_runs h hseen [] _
  rw [← pairsToReply_names fo]
  refine (Solo.runFrom_parse (argAsStr_asBytes k)).trans ?_
  refine (Solo.runFrom_parse ha).trans ?_
  refine (Solo.runFrom_parse hb).trans ?_
  exact (Solo.runFrom_step hread).trans rfl

theorem rangeByScore_runs (h : env.Faultless)
    (hseen : env.seen 0 s k = some (⟨exp, .zset map⟩, token)) (hnan : NanFree map)
    (min max : ScoreBound) (rev : Bool) :
    env.runFrom 0 (rangeByScore k min max rev none) s =
      (.ok (reversedIf rev (withinScores min max (sortedZset map))), 1, s) := by
  rw [rangeByScore_eq, ← sortPairs_within min max hnan]
  exact read_zset_runs h hseen [] _

theorem handleZrangebyscore_runs (h : env.Faultless)
    (hseen : env.seen 0 s k = some (⟨exp, .zset map⟩, token)) (hnan : NanFree map)
    {min max : ScoreBound} (ha : parseScoreBound fo a = .ok min)
    (hb : parseScoreBound fo b = .ok max) :
    env.run (handleZrangebyscore fo [Rdb.asBytes k, a, b]) s =
      (.ok (.texts (memberNames (withinScores min max (sortedZset map)))), 1, s) := by
  rw [← pairsToReply_names fo]
  refine (Solo.runFrom_parse (argAsStr_asBytes k)).trans ?_
  refine (Solo.runFrom_parse ha).trans ?_
  refine (Solo.runFrom_parse hb).trans ?_
  exact (Solo.runFrom_step (rangeByScore_runs h hseen hnan min max false)).trans rfl

theorem handleZrevrangebyscore_runs (h : env.Faultless)
    (hseen : env.seen 0 s k = some (⟨exp, .zset map⟩, token)) (hnan : NanFree map)
    {min max : ScoreBound} (ha : parseScoreBound fo a = .ok min)
    (hb : parseScoreBound fo b = .ok max) :
    env.run (handleZrevrangebyscore fo [Rdb.asBytes k, b, a]) s =
      (.ok (.texts (memberNames (withinScores min max (sortedZset map).reverse))), 1, s) := by
  have hreverse : withinScores min max (sortedZset map).reverse =
      (withinScores min max (sortedZset map)).reverse := List.filter_reverse
  rw [← pairsToReply_names fo, hreverse]
  refine (Solo.runFrom_parse (argAsStr_asBytes k)).trans ?_
  refine (Solo.runFrom_parse hb).trans ?_
  refine (Solo.runFrom_parse ha).trans ?_
  exact (Solo.runFrom_step (rangeByScore_runs h hseen hnan min max true)).trans rfl

theorem handleZcount_runs (h : env.Faultless)
    (hseen : env.seen 0 s k = some (⟨exp, .zset map⟩, token)) {min max : ScoreBound}
    (ha : parseScoreBound fo a = .ok min) (hb : parseScoreBound fo b = .ok max) :
    env.run (handleZcount fo [Rdb.asBytes k, a, b]) s =
      (.ok (.integer (toI64 (withinScores min max (sortedZset map)).length)), 1, s) := by
  have hread : env.runFrom 0 (Storage.zcount k min max) s = _ := read_zset_runs h hseen 0 _
  have hcount : (withinScores min max (sortedZset map)).length =
      map.toList.countP fun p => min.geMin p.2 && max.leMax p.2 := by
    unfold withinScores
    rw [← List.countP_eq_length_filter]
    exact (Storage.sortedZset_perm map).countP_eq _
  rw [hcount]
  refine (Solo.runFrom_parse (argAsStr_asBytes k)).trans ?_
  refine (Solo.runFrom_parse ha).trans ?_
  refine (Solo.runFrom_parse hb).trans ?_
  exact (Solo.runFrom_step hread).trans rfl

theorem handleZrangebylex_runs (h : env.Faultless)
    (hseen : env.seen 0 s k = some (⟨exp, .zset map⟩, token)) {min max : LexBound}
    (ha : parseLexBound a = .ok min) (hb : parseLexBound b = .ok max) :
    env.run (handleZrangebylex [Rdb.asBytes k, a, b]) s =
      (.ok (.texts (memberNames (withinNames min max map.toList))), 1, s) := by
  have hread : env.runFrom 0 (Storage.zrangebylex k min max none) s = _ :=
    read_zset_runs h hseen [] _
  rw [← filterZsetByLex_eq]
  refine (Solo.runFrom_parse (argAsStr_asBytes k)).trans ?_
  refine (Solo.runFrom_parse ha).trans ?_
  refine (Solo.runFrom_parse hb).trans ?_
  exact (Solo.runFrom_step hread).trans rfl

end Runs

/-! ## What the removals leave -/

/-- The key is left with exactly these pairs and with its expiry, or is gone if there are
none.  Nothing else has changed. -/
def LeftWith (s : Keyspace) (k : String) (exp : Option Int) (rest : List (String × F64))
    (s' : Keyspace) : Prop :=
  ∃ (kept : ZMap) (token : String), (∀ m x, kept[m]? = some x ↔ (m, x) ∈ rest) ∧
    s' = Function.update s k (if rest.isEmpty then none else some (⟨exp, .zset kept⟩, token))

/-- The one command removes exactly the members that the other one returns, and replies their
number. -/
structure TakesAway (env : Solo) (s : Keyspace) (k : String) (exp : Option Int)
    (L : List (String × F64)) (read remove : KV RespReply) (gone : List String) : Prop where
  read : (env.run read s).1 = .ok (.texts gone)
  distinct : gone.Nodup
  members : ∀ m ∈ gone, m ∈ memberNames L
  reply : (env.run remove s).1 = .ok (.integer gone.length)
  left : LeftWith s k exp (L.filter fun p => decide (p.1 ∉ gone)) (env.run remove s).2.2

section Removals

variable {fo : FloatOps} {env : Solo} {s : Keyspace} {k token : String} {exp : Option Int}
  {map : ZMap} {L gone kept : List (String × F64)} {a b : Bytes} {n : Nat}

/-- The closure writes what it keeps, or deletes the key. -/
theorem split_runs {R : Type} {r : R} {modify : Option StoredValue → Result (CasAction R)}
    (h : env.Faultless) (hsplits : Splits map gone kept)
    (hmodify : modify ((env.seen n s k).map Prod.fst) =
      .ok (View.zset.writeOrDelete exp (Std.ExtTreeMap.ofList kept compare) r)) :
    ∃ w, env.runFrom n (cas k modify) s = (.ok r, w) ∧ LeftWith s k exp kept w.2 := by
  have hempty : View.zset.isEmpty (Std.ExtTreeMap.ofList kept compare) = kept.isEmpty := by
    show (Std.ExtTreeMap.ofList kept compare).isEmpty = _
    rw [Bool.eq_iff_iff, Std.ExtTreeMap.isEmpty_iff, Std.ExtTreeMap.ofList_eq_empty_iff,
      List.isEmpty_iff]
  obtain ⟨n', token, hcas⟩ := Solo.casRuns_writeOrDelete env n s k View.zset exp
    (Std.ExtTreeMap.ofList kept compare) r
  rw [← hmodify, ← Solo.cas_runs h, hempty] at hcas
  exact ⟨_, hcas, _, token, hsplits.getElem?_kept, rfl⟩

theorem LeftWith.congr {rest rest' : List (String × F64)} {s' : Keyspace}
    (h : LeftWith s k exp rest s') (hmem : ∀ p, p ∈ rest ↔ p ∈ rest') :
    LeftWith s k exp rest' s' := by
  obtain ⟨kept, token, hkept, hs'⟩ := h
  have hempty : rest.isEmpty = rest'.isEmpty := by
    rw [Bool.eq_iff_iff, List.isEmpty_iff, List.isEmpty_iff, List.eq_nil_iff_forall_not_mem,
      List.eq_nil_iff_forall_not_mem]
    exact forall_congr' fun p => not_congr (hmem p)
  rw [hempty] at hs'
  exact ⟨kept, token, fun m x => (hkept m x).trans (hmem (m, x)), hs'⟩

theorem zremrange_runs (h : env.Faultless)
    (hseen : env.seen n s k = some (⟨exp, .zset map⟩, token)) {split : ZMap → ZMap × Nat}
    (hsplits : Splits map gone kept)
    (hsplit : split map = (Std.ExtTreeMap.ofList kept compare, gone.length)) :
    ∃ w, env.runFrom n (Storage.zremrange k split) s = (.ok (toI64 gone.length), w) ∧
      LeftWith s k exp kept w.2 := by
  apply split_runs h hsplits
  rw [hseen]
  show Except.ok (View.zset.writeOrDelete exp (split map).1 (toI64 (split map).2)) = _
  rw [hsplit]

theorem TakesAway.of_split (split : ZMap → ZMap × Nat) (h : env.Faultless)
    (hseen : env.seen 0 s k = some (⟨exp, .zset map⟩, token))
    (hsize : (map.size : Int) ≤ i64Max) (hL : ∀ p, p ∈ L ↔ p ∈ map.toList)
    (hsplits : Splits map gone kept)
    (hsplit : split map = (Std.ExtTreeMap.ofList kept compare, gone.length))
    {read remove : KV RespReply} (hread : env.run read s = (.ok (.texts (memberNames gone)), 1, s))
    (hremove : env.run remove s = env.runFrom 0
      ((Storage.zremrange k split).bind fun removed => .done (.ok (.integer removed))) s) :
    TakesAway env s k exp L read remove (memberNames gone) := by
  obtain ⟨w, hruns, hleaves⟩ := zremrange_runs h hseen hsplits hsplit
  rw [Solo.runFrom_step hruns, Solo.runFrom_done] at hremove
  have hlength : gone.length + kept.length = map.size := by
    rw [← List.length_append, List.Perm.length_eq hsplits, Std.ExtTreeMap.length_toList]
  constructor
  · rw [hread]
  · exact (List.nodup_append.mp hsplits.nodup).1
  · intro m hm
    obtain ⟨p, hp, rfl⟩ := List.mem_map.mp hm
    have hin : p ∈ map.toList := List.Perm.mem_iff hsplits |>.mp (List.mem_append_left _ hp)
    exact List.mem_map_of_mem ((hL p).mpr hin)
  · rw [hremove, memberNames, List.length_map, toI64_of_le (by omega)]
  · rw [hremove]
    apply hleaves.congr
    intro p
    rw [hsplits.mem_kept, List.mem_filter, decide_eq_true_iff, hL]

theorem zremrangebyrank_removes (h : env.Faultless)
    (hseen : env.seen 0 s k = some (⟨exp, .zset map⟩, token))
    (hsize : (map.size : Int) ≤ i64Max) {start stop : Int}
    (ha : parseI64 a "start" = .ok start) (hb : parseI64 b "stop" = .ok stop) :
    ∃ gone, TakesAway env s k exp (sortedZset map) (handleZrange fo [Rdb.asBytes k, a, b])
      (handleZremrangebyrank [Rdb.asBytes k, a, b]) gone := by
  obtain ⟨kept, hsplits, hsplit⟩ := partitionZsetByRank_splits map start stop
  refine ⟨_, .of_split (fun m => Storage.partitionZsetByRank m start stop) h hseen hsize
    (fun p => (Storage.sortedZset_perm map).mem_iff) hsplits hsplit
    (handleZrange_runs h hseen ha hb) ?_⟩
  refine (Solo.runFrom_parse (argAsStr_asBytes k)).trans ?_
  refine (Solo.runFrom_parse ha).trans ?_
  exact Solo.runFrom_parse hb

theorem zremrangebyscore_removes (h : env.Faultless)
    (hseen : env.seen 0 s k = some (⟨exp, .zset map⟩, token)) (hnan : NanFree map)
    (hsize : (map.size : Int) ≤ i64Max) {min max : ScoreBound}
    (ha : parseScoreBound fo a = .ok min) (hb : parseScoreBound fo b = .ok max) :
    ∃ gone, TakesAway env s k exp (sortedZset map) (handleZrangebyscore fo [Rdb.asBytes k, a, b])
      (handleZremrangebyscore fo [Rdb.asBytes k, a, b]) gone := by
  obtain ⟨kept, hsplits, hsplit⟩ := partitionZsetByScore_splits map min max
  refine ⟨_, .of_split (fun m => Storage.partitionZsetByScore m min max) h hseen hsize
    (fun p => (Storage.sortedZset_perm map).mem_iff) hsplits hsplit
    (handleZrangebyscore_runs h hseen hnan ha hb) ?_⟩
  refine (Solo.runFrom_parse (argAsStr_asBytes k)).trans ?_
  refine (Solo.runFrom_parse ha).trans ?_
  exact Solo.runFrom_parse hb

theorem zremrangebylex_removes (h : env.Faultless)
    (hseen : env.seen 0 s k = some (⟨exp, .zset map⟩, token))
    (hsize : (map.size : Int) ≤ i64Max) {min max : LexBound}
    (ha : parseLexBound a = .ok min) (hb : parseLexBound b = .ok max) :
    ∃ gone, TakesAway env s k exp (sortedZset map) (handleZrangebylex [Rdb.asBytes k, a, b])
      (handleZremrangebylex [Rdb.asBytes k, a, b]) gone := by
  obtain ⟨kept, hsplits, hsplit⟩ := partitionZsetByLex_splits map min max
  refine ⟨_, .of_split (fun m => Storage.partitionZsetByLex m min max) h hseen hsize
    (fun p => (Storage.sortedZset_perm map).mem_iff) hsplits hsplit
    (handleZrangebylex_runs h hseen ha hb) ?_⟩
  refine (Solo.runFrom_parse (argAsStr_asBytes k)).trans ?_
  refine (Solo.runFrom_parse ha).trans ?_
  exact Solo.runFrom_parse hb

/-- The words after the key ask for this many elements. -/
def PopCount (tail : List Bytes) (count : Nat) : Prop :=
  tail = [] ∧ count = 1 ∨ ∃ word, tail = [word] ∧ parseCount word = .ok count

theorem handleZpop_eq (fo : FloatOps) (env : Solo) (s : Keyspace) (k : String) {tail : List Bytes}
    {count : Nat} (hcount : PopCount tail count) (fromMax : Bool) :
    env.run (handleZpop fo fromMax (Rdb.asBytes k :: tail)) s =
      env.runFrom 0 ((Storage.zpopImpl k count fromMax).bind fun popped =>
        .done (.ok (pairsToReply fo popped true))) s := by
  have hpop : zpop fo k count fromMax = (Storage.zpopImpl k count fromMax).bind fun popped =>
      .done (.ok (pairsToReply fo popped true)) := by
    cases fromMax with
    | false => rfl
    | true => rfl
  rw [← hpop]
  rcases hcount with ⟨rfl, rfl⟩ | ⟨word, rfl, hword⟩
  · exact Solo.runFrom_parse (argAsStr_asBytes k)
  · exact (Solo.runFrom_parse (argAsStr_asBytes k)).trans (Solo.runFrom_parse hword)

/-- A pop of nothing changes nothing, and every other one leaves the rest. -/
theorem zpopImpl_runs (h : env.Faultless)
    (hseen : env.seen 0 s k = some (⟨exp, .zset map⟩, token)) (count : Nat) (fromMax : Bool) :
    ∃ w, env.runFrom 0 (Storage.zpopImpl k count fromMax) s =
        (.ok ((front fromMax (sortedZset map)).take count), w) ∧
      (count = 0 → w.2 = s) ∧
      (0 < count → LeftWith s k exp ((front fromMax (sortedZset map)).drop count) w.2) := by
  unfold Storage.zpopImpl
  by_cases hzero : count = 0
  · rw [if_pos hzero, hzero, List.take_zero]
    exact ⟨_, read_zset_runs h hseen [] _, fun _ => rfl, fun hpos => absurd hpos (lt_irrefl 0)⟩
  · have hpos : 0 < count := Nat.pos_of_ne_zero hzero
    obtain ⟨hsplits, hpop⟩ := popZsetEdge_splits map hpos fromMax
    rw [if_neg hzero]
    refine Exists.imp (fun w hw => ⟨hw.1, fun hnil => absurd hnil hzero, fun _ => hw.2⟩)
      (split_runs h hsplits ?_)
    rw [hseen]
    show Except.ok (View.zset.writeOrDelete exp (popZsetEdge map count fromMax).1
      (popZsetEdge map count fromMax).2) = _
    rw [hpop]

end Removals

/-- With `L` the members by score and by name: ranks are positions in `L`, queries by score
are parts of `L`, pops take from one end of `L` and leave the rest, and removals take away what
the query with the same bounds returns. -/
theorem one_order (fo : FloatOps) {env : Solo} {s : Keyspace} {k token : String} {exp : Option Int}
    {map : ZMap} {L : List (String × F64)} (h : env.Faultless)
    (hseen : env.seen 0 s k = some (⟨exp, .zset map⟩, token)) (hnan : NanFree map)
    (hsize : (map.size : Int) ≤ i64Max) (hL : Storage.ScoreOrder map L) :
    ((env.run (handleZcard [Rdb.asBytes k]) s).1 = .ok (.integer L.length)) ∧
    (∀ (m : String) (r : Int),
      let zrank := (env.run (handleZrank false [Rdb.asBytes k, Rdb.asBytes m]) s).1
      let zrevrank := (env.run (handleZrank true [Rdb.asBytes k, Rdb.asBytes m]) s).1
      (zrank = .ok (.integer r) ↔ ∃ i : Nat, r = i ∧ (memberNames L)[i]? = some m) ∧
      (zrevrank = .ok (.integer (L.length - 1 - r)) ↔ zrank = .ok (.integer r)) ∧
      (zrank = .ok (.integer r) → ∀ a, parseI64 a "start" = .ok r → parseI64 a "stop" = .ok r →
        (env.run (handleZrange fo [Rdb.asBytes k, a, a]) s).1 = .ok (.texts [m]))) ∧
    (∀ a b min max, parseScoreBound fo a = .ok min → parseScoreBound fo b = .ok max →
      (env.run (handleZrangebyscore fo [Rdb.asBytes k, a, b]) s).1 =
        .ok (.texts (memberNames (withinScores min max L))) ∧
      (env.run (handleZrevrangebyscore fo [Rdb.asBytes k, b, a]) s).1 =
        .ok (.texts (memberNames (withinScores min max L.reverse))) ∧
      (env.run (handleZcount fo [Rdb.asBytes k, a, b]) s).1 =
        .ok (.integer (withinScores min max L).length)) ∧
    (∀ fromMax tail count, PopCount tail count →
      let out := env.run (handleZpop fo fromMax (Rdb.asBytes k :: tail)) s
      out.1 = .ok (pairsToReply fo ((front fromMax L).take count) true) ∧
      (count = 0 → out.2.2 = s) ∧
      (0 < count → LeftWith s k exp ((front fromMax L).drop count) out.2.2)) ∧
    (∀ a b start stop, parseI64 a "start" = .ok start → parseI64 b "stop" = .ok stop →
      ∃ gone, TakesAway env s k exp L (handleZrange fo [Rdb.asBytes k, a, b])
        (handleZremrangebyrank [Rdb.asBytes k, a, b]) gone) ∧
    (∀ a b min max, parseScoreBound fo a = .ok min → parseScoreBound fo b = .ok max →
      ∃ gone, TakesAway env s k exp L (handleZrangebyscore fo [Rdb.asBytes k, a, b])
        (handleZremrangebyscore fo [Rdb.asBytes k, a, b]) gone) ∧
    (∀ a b min max, parseLexBound a = .ok min → parseLexBound b = .ok max →
      ∃ gone, TakesAway env s k exp L (handleZrangebylex [Rdb.asBytes k, a, b])
        (handleZremrangebylex [Rdb.asBytes k, a, b]) gone) := by
  have hsorted : L = sortedZset map := hL.eq hnan
  subst hsorted
  have hlength : (sortedZset map).length = map.size := length_sortedZset map
  refine ⟨?_, ?_, ?_, ?_, ?_, ?_, ?_⟩
  · rw [handleZcard_runs h hseen, toI64_of_le hsize, hlength]
  · intro m r
    have hrank := handleZrank_replies_iff h hseen m r
    have hposition := ascRankOf_eq_some (m := m) hsize r
    refine ⟨hrank.trans hposition, ?_, ?_⟩
    · rw [hlength]
      exact (handleZrevrank_replies_iff h hseen hsize m r).trans hrank.symm
    · intro hreply a hstart hstop
      obtain ⟨i, rfl, hname⟩ := hposition.mp (hrank.mp hreply)
      rw [handleZrange_runs h hseen hstart hstop, ranked_single (by omega) hname]
  · intro a b min max ha hb
    have hle : (withinScores min max (sortedZset map)).length ≤ map.size := by
      rw [← hlength]
      exact List.length_filter_le _ _
    rw [handleZrangebyscore_runs h hseen hnan ha hb, handleZrevrangebyscore_runs h hseen hnan ha hb,
      handleZcount_runs h hseen ha hb, toI64_of_le (by omega)]
    exact ⟨rfl, rfl, rfl⟩
  · intro fromMax tail count hcount
    obtain ⟨w, hruns, hzero, hpos⟩ := zpopImpl_runs h hseen count fromMax
    have hpop := (handleZpop_eq fo env s k hcount fromMax).trans (Solo.runFrom_step hruns)
    dsimp only
    rw [hpop]
    exact ⟨rfl, hzero, hpos⟩
  · intro a b start stop ha hb
    exact zremrangebyrank_removes h hseen hsize ha hb
  · intro a b min max ha hb
    exact zremrangebyscore_removes h hseen hnan hsize ha hb
  · intro a b min max ha hb
    exact zremrangebylex_removes h hseen hsize ha hb

/-- `ZRANK k x`, `ZPOPMAX k` and `ZREMRANGEBYRANK k 0 0` on two members, `y` before `x`. -/
theorem one_order_on_twoMembers :
    ((Solo.still 0).run (handleZrank false [Rdb.asBytes "k", Rdb.asBytes "x"]) twoMembers).1 =
      .ok (.integer 1) ∧
    LeftWith twoMembers "k" none [("y", .zero)]
      ((Solo.still 0).run (handleZpop .integral true [Rdb.asBytes "k"]) twoMembers).2.2 ∧
    ∃ gone, TakesAway (.still 0) twoMembers "k" none [("y", .zero), ("x", .one)]
      (handleZrange .integral [Rdb.asBytes "k", [48], [48]])
      (handleZremrangebyrank [Rdb.asBytes "k", [48], [48]]) gone := by
  have hnan : NanFree twoScores := twoMembers_nanFree none twoScores "t" rfl
  have hseen : (Solo.still 0).seen 0 twoMembers "k" = some (⟨none, .zset twoScores⟩, "t") :=
    Solo.seen_of_live rfl rfl
  obtain ⟨-, hranks, -, hpops, hremovals, -⟩ := one_order .integral (Solo.still_faultless 0) hseen
    hnan (by decide) (Storage.sortedZset_scoreOrder hnan)
  refine ⟨(hranks "x" 1).1.mpr ⟨1, rfl, rfl⟩, ?_, ?_⟩
  · exact (hpops true [] 1 (.inl ⟨rfl, rfl⟩)).2.2 Nat.one_pos
  · exact hremovals [48] [48] 0 0 rfl rfl

end Commands

end RustyAnt
