import RustyAnt.Commands.Aggregates
import RustyAnt.Storage.Found

/-!
# WITHSCORES in the aggregate replies

`ZINTER`, `ZUNION` and `ZDIFF` strip the word from the options, and decide by the last argument
whether to reply the scores.
-/

namespace RustyAnt

open Lib

namespace Commands

variable {fo : FloatOps} {op : ZStoreOp} {numArg : Bytes} {args rest tail : List Bytes}
  {keys : List String} {agg : Aggregate}

/-- The last argument is the word `WITHSCORES`. -/
def endsWithScores (args : List Bytes) : Bool :=
  args.getLast?.any fun last =>
    match isWord last "WITHSCORES" with
    | .ok b => b
    | .error _ => false

/-- The last key has the name `WITHSCORES`, in any case. -/
def lastNamedWithscores (keys : List String) : Bool :=
  keys.getLast?.any fun k => toUpper k == "WITHSCORES"

/-- The scores are replied if and only if the options end with the word, whatever the keyspace
and the backend. -/
def ShapedByOptions (fo : FloatOps) (op : ZStoreOp) (args tail : List Bytes) : Prop :=
  ∀ (env : Solo) (s : Keyspace) (pairs : List (F64 × String)) (w : Nat × Keyspace),
    env.run (computeZsetAggregate fo op op.name true args) s = (.ok pairs, w) →
    env.run (handleZsetAggregate fo op args) s =
      (.ok (pairsToReply fo (sortPairs (pairs.map Prod.swap)) (endsWithScores tail)), w)

theorem handleZsetAggregate_eq (args : List Bytes) :
    handleZsetAggregate fo op args =
      (computeZsetAggregate fo op op.name true args).bind fun pairs =>
        .done (.ok (pairsToReply fo (sortPairs (pairs.map Prod.swap)) (endsWithScores args))) := rfl

/-! ## What the handler looks at -/

theorem endsWithScores_append (args : List Bytes) (h : rest ≠ []) :
    endsWithScores (args ++ rest) = endsWithScores rest := by
  unfold endsWithScores
  rw [List.getLast?_append, List.getLast?_eq_some_getLast h, Option.some_or]

theorem endsWithScores_cons (arg : Bytes) (h : rest ≠ []) :
    endsWithScores (arg :: rest) = endsWithScores rest := endsWithScores_append [arg] h

theorem endsWithScores_keys (h : argsAsStrings args = .ok keys) :
    endsWithScores args = lastNamedWithscores keys := by
  induction args generalizing keys with
  | nil =>
      cases h
      rfl
  | cons arg args ih =>
      unfold argsAsStrings at h
      rw [List.mapM_cons] at h
      obtain ⟨key, hkey, h⟩ := Result.bind_eq_ok.mp h
      obtain ⟨ks, hks, h⟩ := Result.bind_eq_ok.mp h
      cases h
      cases args with
      | nil =>
          cases hks
          show (match isWord arg "WITHSCORES" with | .ok b => b | .error _ => false) = _
          unfold isWord
          rw [optionWord_of_text hkey]
          rfl
      | cons arg' args =>
          have hne : ks ≠ [] := by
            rintro rfl
            rw [List.mapM_cons] at hks
            obtain ⟨_, _, hks⟩ := Result.bind_eq_ok.mp hks
            obtain ⟨_, _, hks⟩ := Result.bind_eq_ok.mp hks
            cases hks
          rw [endsWithScores_cons arg (List.cons_ne_nil _ _), ih hks]
          unfold lastNamedWithscores
          rw [List.getLast?_cons_of_ne_nil hne]

theorem parseNumkeys_ok {tooFew : RustyAntError}
    (h : parseNumkeys tooFew numArg rest = .ok (keys, tail)) :
    ∃ n, 0 < n ∧ n ≤ rest.length ∧ argsAsStrings (rest.take n) = .ok keys ∧ tail = rest.drop n := by
  unfold parseNumkeys at h
  obtain ⟨n, -, h⟩ := Result.bind_eq_ok.mp h
  split at h
  · cases h
  · split at h
    · cases h
    · obtain ⟨ks, hks, h⟩ := Result.bind_eq_ok.mp h
      cases h
      exact ⟨n.toNat, by omega, by omega, hks, rfl⟩

/-- The handler looks at the options, or without options at the last key. -/
theorem endsWithScores_args {tooFew : RustyAntError}
    (h : parseNumkeys tooFew numArg rest = .ok (keys, tail)) :
    endsWithScores (numArg :: rest) =
      if tail = [] then lastNamedWithscores keys else endsWithScores tail := by
  obtain ⟨n, hpos, hle, hkeys, rfl⟩ := parseNumkeys_ok h
  have hrest : rest ≠ [] := by
    rintro rfl
    rw [List.length_nil] at hle
    omega
  rw [endsWithScores_cons numArg hrest]
  by_cases htail : rest.drop n = []
  · have hall : rest.take n = rest := by
      rw [List.take_eq_self_iff]
      exact List.drop_eq_nil_iff.mp htail
    rw [if_pos htail, ← endsWithScores_keys hkeys, hall]
  · rw [if_neg htail, ← endsWithScores_append (rest.take n) htail, List.take_append_drop]

theorem length_scored (pairs : List (String × F64)) (withScores : Bool) :
    (pairs.flatMap fun p =>
      if withScores then [RespReply.text p.1, scoreReply fo p.2] else [.text p.1]).length =
      if withScores then 2 * pairs.length else pairs.length := by
  induction pairs with
  | nil => cases withScores <;> rfl
  | cons p pairs ih =>
      rw [List.flatMap_cons, List.length_append, ih, List.length_cons]
      cases withScores with
      | true =>
          show 2 + 2 * pairs.length = 2 * (pairs.length + 1)
          omega
      | false =>
          show 1 + pairs.length = pairs.length + 1
          omega

/-- With members in it the reply shows whether it has scores. -/
theorem pairsToReply_shape {pairs : List (String × F64)} (h : pairs ≠ []) :
    pairsToReply fo pairs true ≠ pairsToReply fo pairs false := by
  intro heq
  have hlist := congrArg List.length (RespReply.array.inj heq)
  have hpos := List.length_pos_iff.mpr h
  rw [length_scored, length_scored, if_pos rfl, if_neg Bool.false_ne_true] at hlist
  omega

theorem shaped_of_same (h : endsWithScores args = endsWithScores tail) :
    ShapedByOptions fo op args tail := by
  intro env s pairs w hrun
  rw [handleZsetAggregate_eq, h]
  exact Solo.runFrom_step hrun

theorem not_shaped_of_ne {env : Solo} {s : Keyspace} {pairs : List (F64 × String)}
    {w : Nat × Keyspace} (h : endsWithScores args ≠ endsWithScores tail)
    (hrun : env.run (computeZsetAggregate fo op op.name true args) s = (.ok pairs, w))
    (hpairs : pairs ≠ []) : ¬ ShapedByOptions fo op args tail := by
  intro hshaped
  have hwanted := hshaped env s pairs w hrun
  have hreplied : env.run (handleZsetAggregate fo op args) s =
      (.ok (pairsToReply fo (sortPairs (pairs.map Prod.swap)) (endsWithScores args)), w) := by
    rw [handleZsetAggregate_eq]
    exact Solo.runFrom_step hrun
  have hsorted : sortPairs (pairs.map Prod.swap) ≠ [] := by
    intro hnil
    have hperm := List.perm_insertionSort (fun a b => Storage.zsetLe a b = true) (pairs.map Prod.swap)
    rw [show List.insertionSort _ _ = [] from hnil] at hperm
    exact hpairs (List.map_eq_nil_iff.mp hperm.nil_eq.symm)
  have hsame := Except.ok.inj (congrArg Prod.fst (hreplied.symm.trans hwanted))
  cases hargs : endsWithScores args <;> cases htail : endsWithScores tail
  · exact h (hargs.trans htail.symm)
  · rw [hargs, htail] at hsame
    exact pairsToReply_shape hsorted hsame.symm
  · rw [hargs, htail] at hsame
    exact pairsToReply_shape hsorted hsame
  · exact h (hargs.trans htail.symm)

/-! ## A keyspace where the result is not empty -/

/-- Every key holds the one member `m`, until time 5. -/
def everywhere : Keyspace := fun _ =>
  some (⟨some 5, .zset ((∅ : Storage.ZMap).insert "m" F64.one)⟩, "t")

/-- The clock stands at 0 for the first calls, and at 10 for the others. -/
def jumpsAfter (calls : Nat) : Solo :=
  { Solo.still 0 with now := fun n => if n < calls then 0 else 10 }

theorem jumpsAfter_faultless (calls : Nat) : (jumpsAfter calls).Faultless :=
  ⟨fun _ => rfl, fun _ => rfl⟩

section Loads

variable {env : Solo} {n : Nat} {s : Keyspace}

theorem loadZsetOrSet_here (h : env.Faultless) (hnow : env.now n = 0) (hnext : env.now (n + 1) = 0)
    (key : String) :
    env.runFrom n (loadZsetOrSet key) everywhere = (.ok [("m", F64.one)], n + 2, everywhere) := by
  have hseen : ∀ m, env.now m = 0 → env.seen m everywhere key =
      some (⟨some 5, .zset ((∅ : Storage.ZMap).insert "m" F64.one)⟩, "t") := by
    intro m hm
    apply Solo.seen_of_live rfl
    rw [hm]
    rfl
  have hkind : env.runFrom n (Storage.kind key) everywhere =
      (.ok (some "zset"), n + 1, everywhere) := by
    refine (Solo.runFrom_step (Solo.loadEntry_runs h n key everywhere)).trans ?_
    rw [hseen n hnow, Solo.swept_of_seen (hseen n hnow)]
    rfl
  have hitems : env.runFrom (n + 1) (Storage.zitems key) everywhere =
      (.ok [("m", F64.one)], n + 2, everywhere) :=
    Solo.read_seen h (V := View.zset) (hseen (n + 1) hnext) [] _
  unfold loadZsetOrSet
  exact (Solo.runFrom_step hkind).trans hitems

theorem loadWeighted_here (h : env.Faultless) (hnow : ∀ m, env.now m = 0) (n : Nat)
    (inputs : List (String × F64)) :
    ∃ w, env.runFrom n (loadWeighted fo inputs) everywhere =
      (.ok (inputs.map fun input => [("m", fo.mul F64.one input.2)]), w) := by
  induction inputs generalizing n with
  | nil => exact ⟨_, rfl⟩
  | cons input inputs ih =>
      obtain ⟨w, hrest⟩ := ih (n + 2)
      refine ⟨w, ?_⟩
      unfold loadWeighted
      refine (Solo.runFrom_step (loadZsetOrSet_here h (hnow n) (hnow (n + 1)) input.1)).trans ?_
      exact Solo.runFrom_step hrest

theorem loadWeighted_gone (h : env.Faultless) (hs : ∀ key, s key = none ∨ s key = everywhere key)
    (hnow : ∀ m, n ≤ m → env.now m = 10) (inputs : List (String × F64)) :
    ∃ w, env.runFrom n (loadWeighted fo inputs) s = (.ok (inputs.map fun _ => []), w) := by
  induction inputs generalizing n s with
  | nil => exact ⟨_, rfl⟩
  | cons input inputs ih =>
      have hseen : env.seen n s input.1 = none := by
        rcases hs input.1 with hnone | hsame
        · exact Solo.seen_of_none hnone
        · apply Solo.seen_of_expired hsame
          rw [hnow n (Nat.le_refl n)]
          rfl
      have hload : env.runFrom n (loadZsetOrSet input.1) s =
          (.ok [], n + 1, env.swept n s input.1) := by
        have hkind : env.runFrom n (Storage.kind input.1) s =
            (.ok none, n + 1, env.swept n s input.1) := by
          refine (Solo.runFrom_step (Solo.loadEntry_runs h n input.1 s)).trans ?_
          rw [hseen]
          rfl
        unfold loadZsetOrSet
        exact Solo.runFrom_step hkind
      have hs' : ∀ key, env.swept n s input.1 key = none ∨
          env.swept n s input.1 key = everywhere key := by
        intro key
        by_cases hkey : key = input.1
        · rw [hkey, Solo.swept_self]
          exact .inl hseen
        · rw [Solo.swept_of_ne hkey]
          exact hs key
      obtain ⟨w, hrest⟩ := ih (n := n + 1) hs' fun m hm => hnow m (by omega)
      refine ⟨w, ?_⟩
      unfold loadWeighted
      exact (Solo.runFrom_step hload).trans (Solo.runFrom_step hrest)

end Loads

/-- A member that every source has is in an intersection and in a union. -/
theorem aggregateInputs_ne_nil (hop : op ≠ .diff) (x : F64) (n : Nat) :
    aggregateInputs fo op agg (List.replicate (n + 1) [("m", x)]) ≠ [] := by
  let source : Scores := fun m => if m = "m" then some x else none
  have hone : Merge.Lists [("m", x)] source := by
    constructor
    · exact List.nodup_singleton _
    · intro m v
      rw [List.mem_singleton, Prod.mk.injEq]
      constructor
      · rintro ⟨rfl, rfl⟩
        exact if_pos rfl
      · intro h
        by_cases hm : m = "m"
        · rw [show source m = some x from if_pos hm] at h
          exact ⟨hm, (Option.some.inj h).symm⟩
        · rw [show source m = none from if_neg hm] at h
          cases h
  have hall : ∀ n, List.Forall₂ Merge.Lists (List.replicate n [("m", x)])
      (List.replicate n source) := by
    intro n
    induction n with
    | zero => exact .nil
    | succ n ih => exact .cons hone ih
  have hvalues : Merge.valuesAt (List.replicate (n + 1) source) "m" =
      x :: Merge.valuesAt (List.replicate n source) "m" := by
    rw [Merge.valuesAt, List.replicate_succ, List.filterMap_cons]
    rfl
  have hmember : (op.merged (combine fo agg) (List.replicate (n + 1) source) "m").isSome := by
    cases op with
    | inter =>
        have hevery : ∀ m ∈ List.replicate (n + 1) source, (m "m").isSome := by
          intro m hm
          rw [List.eq_of_mem_replicate hm]
          rfl
        show (Merge.inter _ _ _).isSome
        rw [Merge.inter, if_pos hevery, hvalues]
        rfl
    | union =>
        show (Merge.union _ _ _).isSome
        rw [Merge.union, hvalues]
        rfl
    | diff => exact absurd rfl hop
  obtain ⟨v, hv⟩ := Option.isSome_iff_exists.mp hmember
  have hin := ((aggregateInputs_lists fo agg op (hall (n + 1))).mem "m" v).mpr hv
  intro hnil
  rw [hnil] at hin
  cases hin

theorem computeZsetAggregate_runs {env : Solo} {s : Keyspace} {inputs : List (List (String × F64))}
    {w : Nat × Keyspace}
    (h : parseNumkeys (.parse "at least 1 input key is needed for this command") numArg rest =
      .ok (keys, []))
    (hload : env.runFrom 0
      (loadWeighted fo (keys.zip (List.replicate keys.length .one))) s = (.ok inputs, w)) :
    env.run (computeZsetAggregate fo op op.name true (numArg :: rest)) s =
      (.ok (aggregateInputs fo op .sum inputs), w) := by
  have htail : parseAggregateTail fo op [] keys.length =
      .ok (List.replicate keys.length .one, .sum) := by
    cases op with
    | inter | union =>
        show parseWeightsAggregate fo keys.length 0 [] _ = _
        rw [parseWeightsAggregate]
    | diff => rfl
  unfold computeZsetAggregate
  refine (Solo.runFrom_parse h).trans ?_
  refine (Solo.runFrom_parse (show stripWithscores true [] = .ok [] from rfl)).trans ?_
  refine (Solo.runFrom_parse htail).trans ?_
  exact Solo.runFrom_step hload

/-- Without options some keyspace gives a result that is not empty. -/
theorem computes_members
    (h : parseNumkeys (.parse "at least 1 input key is needed for this command") numArg rest =
      .ok (keys, [])) :
    ∃ (env : Solo) (s : Keyspace) (pairs : List (F64 × String)) (w : Nat × Keyspace),
      env.run (computeZsetAggregate fo op op.name true (numArg :: rest)) s = (.ok pairs, w) ∧
        pairs ≠ [] := by
  obtain ⟨n, hpos, hle, hkeys, -⟩ := parseNumkeys_ok h
  obtain ⟨key, ks, rfl⟩ : ∃ key ks, keys = key :: ks := by
    cases keys with
    | cons key ks => exact ⟨key, ks, rfl⟩
    | nil =>
        have hlength := congrArg List.length (show rest.take n = [] from by
          cases htake : rest.take n with
          | nil => rfl
          | cons arg args =>
              rw [htake, argsAsStrings, List.mapM_cons] at hkeys
              obtain ⟨_, _, hkeys⟩ := Result.bind_eq_ok.mp hkeys
              obtain ⟨_, _, hkeys⟩ := Result.bind_eq_ok.mp hkeys
              cases hkeys)
        rw [List.length_take, List.length_nil] at hlength
        omega
  by_cases hop : op = .diff
  · -- The first source is read before the jump of the clock, and the others after it.
    subst hop
    have hfirst := loadZsetOrSet_here (jumpsAfter_faultless 2) (n := 0) rfl rfl key
    obtain ⟨w, hrest⟩ : ∃ w, (jumpsAfter 2).runFrom 2
        (loadWeighted fo (ks.zip (List.replicate ks.length .one))) everywhere =
        (.ok ((ks.zip (List.replicate ks.length F64.one)).map fun _ => []), w) :=
      loadWeighted_gone (jumpsAfter_faultless 2) (fun _ => .inr rfl) (fun m hm => if_neg (by omega)) _
    have hload : (jumpsAfter 2).runFrom 0
        (loadWeighted fo ((key :: ks).zip (List.replicate (key :: ks).length .one))) everywhere =
        (.ok ([("m", fo.mul .one .one)] ::
          (ks.zip (List.replicate ks.length F64.one)).map fun _ => []), w) := by
      rw [List.length_cons, List.replicate_succ, List.zip_cons_cons, loadWeighted]
      exact (Solo.runFrom_step hfirst).trans (Solo.runFrom_step hrest)
    refine ⟨_, _, _, w, computeZsetAggregate_runs h hload, ?_⟩
    simp [aggregateInputs, aggregateDifference]
  · obtain ⟨w, hload⟩ : ∃ w, (Solo.still 0).runFrom 0
        (loadWeighted fo ((key :: ks).zip (List.replicate (key :: ks).length .one))) everywhere =
        (.ok _, w) := loadWeighted_here (Solo.still_faultless 0) (fun _ => rfl) 0 _
    have hinputs : ((key :: ks).zip (List.replicate (key :: ks).length F64.one)).map
        (fun input => [("m", fo.mul F64.one input.2)]) =
        List.replicate (ks.length + 1) [("m", fo.mul F64.one F64.one)] := by
      rw [List.eq_replicate_iff]
      constructor
      · rw [List.length_map, List.length_zip, List.length_replicate, Nat.min_self, List.length_cons]
      · intro items hitems
        obtain ⟨p, hp, rfl⟩ := List.mem_map.mp hitems
        rw [List.eq_of_mem_replicate (List.of_mem_zip hp).2]
    rw [hinputs] at hload
    exact ⟨_, _, _, w, computeZsetAggregate_runs h hload, aggregateInputs_ne_nil hop _ _⟩

/-! ## The shape of the reply -/

/-- Without options a last key of that name is taken for the word; nothing else makes the handler
and the parser differ. -/
theorem zaggregate_shape_iff (fo : FloatOps) (op : ZStoreOp)
    (hnum : parseNumkeys (.parse "at least 1 input key is needed for this command") numArg rest =
      .ok (keys, tail)) :
    ShapedByOptions fo op (numArg :: rest) tail ↔
      tail ≠ [] ∨ lastNamedWithscores keys = false := by
  have hargs := endsWithScores_args hnum
  by_cases htail : tail = []
  · subst htail
    rw [if_pos rfl] at hargs
    cases hnamed : lastNamedWithscores keys with
    | false => exact iff_of_true (shaped_of_same (hargs.trans hnamed)) (.inr rfl)
    | true =>
        obtain ⟨env, s, pairs, w, hrun, hpairs⟩ := @computes_members fo op numArg rest keys hnum
        rw [hnamed] at hargs
        refine iff_of_false (not_shaped_of_ne ?_ hrun hpairs) (by simp)
        rw [hargs]
        exact Bool.noConfusion
  · rw [if_neg htail] at hargs
    exact iff_of_true (shaped_of_same hargs) (.inl htail)

theorem parseNumkeys_names (tooFew : RustyAntError) {keys : List String} (hpos : 0 < keys.length)
    (hmax : (keys.length : Int) ≤ i64Max) :
    parseNumkeys tooFew (Decimal.intBytes keys.length) (keys.map Rdb.asBytes) = .ok (keys, []) := by
  have hmin : i64Min ≤ (keys.length : Int) := by
    unfold i64Min
    omega
  have hnames : ∀ keys : List String, argsAsStrings (keys.map Rdb.asBytes) = .ok keys := by
    intro keys
    induction keys with
    | nil => rfl
    | cons key keys ih =>
        unfold argsAsStrings at ih ⊢
        rw [List.map_cons, List.mapM_cons, argAsStr_asBytes, Result.ok_bind, ih]
        rfl
  have hlength : (keys.map Rdb.asBytes).length = keys.length := List.length_map _
  unfold parseNumkeys
  rw [parseI64_intBytes hmin hmax, Result.ok_bind, if_neg (by omega), Int.toNat_natCast,
    if_neg (by omega), List.take_of_length_le (by omega), List.drop_of_length_le (by omega), hnames]
  rfl

/-- `ZUNION 2 a b` is replied without scores. -/
theorem zunion_shape_of_two_keys :
    ShapedByOptions .integral .union
      (Decimal.intBytes 2 :: ["a", "b"].map Rdb.asBytes) [] :=
  (zaggregate_shape_iff .integral .union
    (@parseNumkeys_names _ ["a", "b"] (by decide) (by decide))).mpr (.inr rfl)

/-- `ZUNION 1 withscores` is replied with scores. -/
theorem zunion_misshaped_by_name :
    ¬ ShapedByOptions .integral .union
      (Decimal.intBytes 1 :: ["withscores"].map Rdb.asBytes) [] := by
  have hparse : parseNumkeys (.parse "at least 1 input key is needed for this command")
      (Decimal.intBytes 1) (["withscores"].map Rdb.asBytes) = .ok (["withscores"], []) :=
    @parseNumkeys_names _ ["withscores"] (by decide) (by decide)
  obtain ⟨env, s, pairs, w, hrun, hpairs⟩ := @computes_members .integral .union _ _ _ hparse
  refine not_shaped_of_ne ?_ hrun hpairs
  rw [endsWithScores_args hparse, if_pos rfl]
  decide

end Commands
end RustyAnt
