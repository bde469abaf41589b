import RustyAnt.Commands.Aggregates
import RustyAnt.Storage.Finds

/-!
# What the `*STORE` commands leave

Run alone, a `*STORE` command first loads its sources, then deletes its destination, then
adds its result to nothing.  So the destination may be one of the sources, and what was there
leaves neither a member nor an expiry behind.
-/

namespace RustyAnt

open Lib

namespace Commands

/-! ## The overwrite -/

section Overwrite

variable {env : Solo} {s s' : Keyspace} {n : Nat} {dest : String} {result : Computed}

/-- The command replies the cardinality, and the value is all that the destination holds, or
there is none if it is empty.  Other keys are as they were, or found expired. -/
structure Delivers (env : Solo) (s : Keyspace) (dest : String) (value : Value) (card : Nat)
    (out : Result RespReply × Nat × Keyspace) : Prop where
  reply : out.1 = .ok (.integer card)
  stored : (out.2.2 dest).map Prod.fst = if card = 0 then none else some ⟨none, value⟩
  others : ∀ key ≠ dest, out.2.2 key = s key ∨ out.2.2 key = none ∧ env.Found s out.2.1 key none

theorem delete_runs (h : env.Faultless) (n : Nat) (dest : String) (s : Keyspace) :
    ∃ b n', n ≤ n' ∧
      env.runFrom n (Storage.delete dest) s = (.ok b, n', Function.update s dest none) := by
  have hload := Solo.loadEntry_runs h n dest s
  unfold Storage.delete
  rw [Prog.bind_eq, Solo.runFrom_step hload]
  cases hseen : env.seen n s dest with
  | none =>
      refine ⟨false, n + 1, by omega, ?_⟩
      rw [Solo.swept, hseen]
      rfl
  | some p =>
      refine ⟨true, n + 2, by omega, ?_⟩
      rw [Solo.swept_of_seen hseen]
      have hdelete : env.runFrom (n + 1) (KV.delete dest .any) s = _ := Solo.delete_runs h trivial
      exact (Solo.runFrom_step hdelete).trans rfl

/-- What the additive write makes of nothing. -/
structure Fresh (result : Computed) (dest : String) (value : Value) (card : Nat) : Prop where
  empty : result.isEmpty = true ↔ card = 0
  write : result.modify dest none = .ok (.write ⟨none, value⟩ card)
  reply : result.reply card = card

theorem members_fresh (ms : List String) (dest : String) :
    Fresh (.members ms) dest (.set (Std.ExtTreeSet.ofList ms compare))
      (Std.ExtTreeSet.ofList ms compare).size where
  empty := by
    rw [← Std.ExtTreeSet.eq_empty_iff_size_eq_zero, Std.ExtTreeSet.ofList_eq_empty_iff]
    exact List.isEmpty_iff
  write := Storage.saddModify_none dest ms
  reply := rfl

theorem pairs_fresh (ps : List (F64 × String)) (dest : String) :
    Fresh (.pairs ps) dest (.zset (Computed.pairMap ps)) (Computed.pairMap ps).size where
  empty := by
    rw [← Std.ExtTreeMap.eq_empty_iff_size_eq_zero, Computed.pairMap,
      Std.ExtTreeMap.ofList_eq_empty_iff, List.map_eq_nil_iff]
    exact List.isEmpty_iff
  write := Storage.zaddModify_none dest ps
  reply := rfl

theorem Fresh.delivers {value : Value} {card : Nat} (hfresh : Fresh result dest value card)
    (h : env.Faultless) (hloads : env.Collected s n s') :
    n ≤ (env.runFrom n (result.overwrite dest) s').2.1 ∧
      Delivers env s dest value card (env.runFrom n (result.overwrite dest) s') := by
  obtain ⟨b, n', hn', hdelete⟩ := delete_runs h n dest s'
  have hothers : ∀ key ≠ dest, ∀ x, ∀ bound ≥ n', Function.update s' dest x key = s key ∨
      Function.update s' dest x key = none ∧ env.Found s bound key none := by
    intro key hne x bound hbound
    rw [Function.update_of_ne hne]
    exact hloads.mono (hn'.trans hbound) key
  unfold Computed.overwrite
  rw [Solo.runFrom_step hdelete]
  by_cases hempty : result.isEmpty = true
  · have hcard : card = 0 := hfresh.empty.mp hempty
    rw [if_pos hempty, Solo.runFrom_done, hcard]
    refine ⟨hn', rfl, ?_, fun key hne => hothers key hne none n' (Nat.le_refl _)⟩
    dsimp only
    rw [Function.update_self, if_pos rfl]
    rfl
  · have hcard : card ≠ 0 := fun hzero => hempty (hfresh.empty.mpr hzero)
    have hseen : env.seen n' (Function.update s' dest none) dest = none :=
      Solo.seen_of_none (Function.update_self _ _ _)
    have hcas := Solo.cas_runs h n' dest (result.modify dest) (Function.update s' dest none)
    rw [hseen, Option.map_none, hfresh.write, Solo.casRuns, Function.update_idem] at hcas
    rw [if_neg hempty, Solo.runFrom_step hcas, Solo.runFrom_done, hfresh.reply]
    refine ⟨by dsimp only; omega, rfl, ?_, fun key hne => hothers key hne _ (n' + 2) (by omega)⟩
    dsimp only
    rw [Function.update_self, if_neg hcard]
    rfl

theorem loads_deliver {α : Type} {p : KV α} {result : α → Computed} {value : α → Value}
    {card : α → Nat} {Q : Nat → α → Prop} {reply : RespReply} (h : env.Faultless)
    (hp : ∀ bound, p.Gathers (env.Found s bound) (Q bound))
    (hmono : ∀ a bound bound', bound ≤ bound' → Q bound a → Q bound' a)
    (hfresh : ∀ a, Fresh (result a) dest (value a) (card a))
    (hok : (env.run (p.bind fun a => (result a).overwrite dest) s).1 = .ok reply) :
    ∃ a, Q (env.run (p.bind fun a => (result a).overwrite dest) s).2.1 a ∧
      Delivers env s dest (value a) (card a)
        (env.run (p.bind fun a => (result a).overwrite dest) s) := by
  have hloads := Solo.finds_run (hp (env.run p s).2.1)
  have hrun : env.run (p.bind fun a => (result a).overwrite dest) s = _ :=
    Solo.runFrom_bind p fun a => (result a).overwrite dest
  cases hanswer : env.run p s with
  | mk answer w =>
      rw [show env.runFrom 0 p s = (answer, w) from hanswer] at hrun
      rw [hanswer] at hloads
      cases answer with
      | error e =>
          rw [hrun] at hok
          cases hok
      | ok a =>
          have hdelivers := (hfresh a).delivers h hloads.2
          rw [hrun]
          exact ⟨a, hmono a _ _ hdelivers.1 (hloads.1 a rfl), hdelivers.2⟩

theorem loads_succeed {α : Type} {p : KV α} {result : α → Computed} {value : α → Value}
    {card : α → Nat} {Q : Nat → α → Prop} {a : α} {w : Nat × Keyspace} (h : env.Faultless)
    (hp : ∀ bound, p.Gathers (env.Found s bound) (Q bound))
    (hfresh : ∀ a, Fresh (result a) dest (value a) (card a)) (hloads : env.run p s = (.ok a, w)) :
    ∃ reply, (env.run (p.bind fun a => (result a).overwrite dest) s).1 = .ok reply := by
  have hcollected := (Solo.finds_run (hp (env.run p s).2.1)).2
  rw [hloads] at hcollected
  have hdelivers := (hfresh a).delivers h hcollected
  have hrun : env.run (p.bind fun a => (result a).overwrite dest) s = _ :=
    Solo.runFrom_step (f := fun a => (result a).overwrite dest) hloads
  rw [hrun]
  exact ⟨_, hdelivers.2.reply⟩

end Overwrite

/-! ## The sources -/

/-- The set at a key: none of another kind, and nothing is the empty set. -/
def setOf : Option StoredValue → Option (BTreeSet String)
  | none => some ∅
  | some ⟨_, .set members⟩ => some members
  | some _ => none

/-- The scores at a key, where the members of a set have score 1. -/
def scoresOf : Option StoredValue → Option Scores
  | none => some fun _ => none
  | some ⟨_, .zset map⟩ => some fun m => map[m]?
  | some ⟨_, .set members⟩ => some fun m => if members.contains m then some .one else none
  | some _ => none

section Sources

variable {I : KeyInv}

def SetsAt (I : KeyInv) (keys : List String) (sets : List (BTreeSet String)) : Prop :=
  List.Forall₂ (fun key set => ∃ entry, I key entry ∧ setOf entry = some set) keys sets

def ScoresAt (I : KeyInv) (keys : List String) (sources : List Scores) : Prop :=
  List.Forall₂ (fun key source => ∃ entry, I key entry ∧ scoresOf entry = some source) keys sources

theorem loadSetsSeq_finds (keys : List String) :
    (Storage.loadSetsSeq keys).Gathers I (SetsAt I keys) := by
  induction keys with
  | nil => exact .done .nil
  | cons key keys ih =>
      have hmembers : (Storage.smembers key).Gathers I fun members =>
          ∃ entry, I key entry ∧ setOf entry = some (Std.ExtTreeSet.ofList members compare) := by
        apply KV.Gathers.read View.set
        · exact fun hkey => ⟨none, hkey, rfl⟩
        · intro set exp hkey
          refine ⟨_, hkey, ?_⟩
          rw [btreeSet_ofList_toList]
          rfl
      apply KV.Gathers.bind hmembers
      intro members hentry
      apply KV.Gathers.bind ih
      intro sets hsets
      exact .done (.cons hentry hsets)

open Merge (Lists)

theorem lists_ones (set : BTreeSet String) : Lists (set.toList.map fun m => (m, F64.one))
    fun m => if set.contains m then some .one else none where
  nodup := by
    rw [List.map_map, show (Prod.fst ∘ fun m : String => (m, F64.one)) = id from rfl, List.map_id]
    have hdistinct := Std.ExtTreeSet.distinct_toList (t := set)
    apply hdistinct.imp
    rintro a b hab rfl
    exact hab Std.ReflCmp.compare_self
  mem m x := by
    rw [List.mem_map]
    constructor
    · rintro ⟨m', hm', heq⟩
      cases heq
      rw [if_pos (Std.ExtTreeSet.contains_iff_mem.mpr (Std.ExtTreeSet.mem_toList.mp hm'))]
    · intro h
      split at h
      · rename_i hm
        cases h
        exact ⟨m, Std.ExtTreeSet.mem_toList.mpr (Std.ExtTreeSet.contains_iff_mem.mp hm), rfl⟩
      · cases h

theorem loadZsetOrSet_finds (key : String) : (loadZsetOrSet key).Gathers I fun items =>
    ∃ entry source, I key entry ∧ scoresOf entry = some source ∧ Lists items source := by
  have hkind : (Storage.kind key).Gathers I fun kind => kind = none → I key none := by
    apply KV.Gathers.bind KV.Gathers.loadEntry
    intro entry hentry
    apply KV.Gathers.done
    intro hnone
    rwa [Option.map_eq_none_iff.mp hnone] at hentry
  apply KV.Gathers.bind hkind
  intro kind hnone
  split
  · apply KV.Gathers.read View.zset
    · exact fun hkey => ⟨none, _, hkey, rfl, Merge.lists_nil⟩
    · exact fun map exp hkey => ⟨_, _, hkey, rfl, lists_toList map⟩
  · have hmembers : (Storage.smembers key).Gathers I fun members => ∃ entry source,
        I key entry ∧ scoresOf entry = some source ∧
          Lists (members.map fun m => (m, F64.one)) source := by
      apply KV.Gathers.read View.set
      · exact fun hkey => ⟨none, _, hkey, rfl, Merge.lists_nil⟩
      · exact fun set exp hkey => ⟨_, _, hkey, rfl, lists_ones set⟩
    exact .bind hmembers fun _ hmembers => .done hmembers
  · exact .fail _
  · exact .done ⟨none, _, hnone rfl, rfl, Merge.lists_nil⟩

variable (fo : FloatOps)

def weigh (weight : F64) (source : Scores) : Scores := fun m =>
  (source m).map fun x => fo.mul x weight

/-- Each source with its own weight. -/
def weighted (inputs : List (String × F64)) (sources : List Scores) : List Scores :=
  List.zipWith (fun input source => weigh fo input.2 source) inputs sources

theorem loadWeighted_finds (inputs : List (String × F64)) :
    (loadWeighted fo inputs).Gathers I fun items => ∃ sources,
      ScoresAt I (inputs.map Prod.fst) sources ∧
        List.Forall₂ Lists items (weighted fo inputs sources) := by
  induction inputs with
  | nil => exact .done ⟨[], .nil, .nil⟩
  | cons input inputs ih =>
      apply KV.Gathers.bind (loadZsetOrSet_finds input.1)
      rintro items ⟨entry, source, hentry, hsource, hitems⟩
      apply KV.Gathers.bind ih
      rintro rest ⟨sources, hsources, hrest⟩
      exact .done ⟨source :: sources, .cons ⟨entry, hentry, hsource⟩ hsources,
        .cons (hitems.mapValues fun x => fo.mul x input.2) hrest⟩

end Sources

/-! ## Sources of the right kind -/

section Kinds

variable {env : Solo} {s : Keyspace} {key : String} {n : Nat}

/-- The key holds a set or nothing. -/
def SetKind (env : Solo) (s : Keyspace) (key : String) : Prop :=
  ∀ n, (setOf ((env.seen n s key).map Prod.fst)).isSome = true

/-- The key holds a set, a sorted set or nothing. -/
def ScoresKind (env : Solo) (s : Keyspace) (key : String) : Prop :=
  ∀ n, (scoresOf ((env.seen n s key).map Prod.fst)).isSome = true

theorem seen_swept (m : Nat) (key' : String) :
    env.seen n (env.swept m s key') key = env.seen n s key ∨
      env.seen n (env.swept m s key') key = none := by
  by_cases hkey : key = key'
  · subst hkey
    cases hseen : env.seen m s key with
    | none =>
        right
        apply Solo.seen_of_none
        rw [Solo.swept_self, hseen]
    | some p =>
        left
        rw [Solo.swept_of_seen hseen]
  · left
    unfold Solo.seen
    rw [Solo.swept_of_ne hkey]

theorem SetKind.swept (h : SetKind env s key) (m : Nat) (key' : String) :
    SetKind env (env.swept m s key') key := by
  intro n
  rcases seen_swept m key' with hsame | hgone
  · rw [hsame]
    exact h n
  · rw [hgone]
    rfl

theorem ScoresKind.swept (h : ScoresKind env s key) (m : Nat) (key' : String) :
    ScoresKind env (env.swept m s key') key := by
  intro n
  rcases seen_swept m key' with hsame | hgone
  · rw [hsame]
    exact h n
  · rw [hgone]
    rfl

/-- A second load finds the same entry, or finds that it has expired. -/
theorem seen_again {p : StoredValue × String} (hseen : env.seen n s key = some p) (m : Nat) :
    env.seen m s key = some p ∨ env.seen m s key = none := by
  have hkey := (Solo.seen_eq_some.mp hseen).1
  by_cases hexp : p.1.isExpired (env.now m) = true
  · exact .inr (Solo.seen_of_expired hkey hexp)
  · exact .inl (Solo.seen_of_live hkey (Bool.not_eq_true _ |>.mp hexp))

theorem read_succeeds {α β : Type} (h : env.Faultless) (v : View α) {absent : β} {f : α → β}
    (hseen : (∃ exp x token, env.seen n s key = some (⟨exp, v.wrap x⟩, token)) ∨
      env.seen n s key = none) :
    ∃ b, env.runFrom n (v.read key absent f) s = (.ok b, n + 1, env.swept n s key) := by
  have hread := Solo.read_runs h v n key absent f s
  rcases hseen with ⟨exp, x, token, hfound⟩ | hgone
  · have hunwrap : v.unwrap (v.wrap x) = some x := v.unwrap_eq_some.mpr rfl
    have hanswer : Solo.readAnswer v key absent f (some ⟨exp, v.wrap x⟩) = .ok (f x) := by
      unfold Solo.readAnswer View.find
      dsimp only
      rw [hunwrap]
      rfl
    rw [hfound, Option.map_some, hanswer] at hread
    exact ⟨_, hread⟩
  · rw [hgone] at hread
    exact ⟨_, hread⟩

theorem smembers_succeeds (h : env.Faultless) (n : Nat) (hkind : SetKind env s key) :
    ∃ members, env.runFrom n (Storage.smembers key) s = (.ok members, n + 1, env.swept n s key) := by
  have hvalue := hkind n
  cases hseen : env.seen n s key with
  | none => exact read_succeeds h View.set (.inr hseen)
  | some p =>
      rw [hseen] at hvalue
      obtain ⟨⟨exp, value⟩, token⟩ := p
      cases value with
      | set members => exact read_succeeds h View.set (.inl ⟨exp, members, token, hseen⟩)
      | string | hash | list | zset | stream => cases hvalue

theorem loadSetsSeq_succeeds (h : env.Faultless) (n : Nat) {keys : List String} (s : Keyspace)
    (hkinds : ∀ key ∈ keys, SetKind env s key) :
    ∃ sets w, env.runFrom n (Storage.loadSetsSeq keys) s = (.ok sets, w) := by
  induction keys generalizing n s with
  | nil => exact ⟨_, _, rfl⟩
  | cons key keys ih =>
      rw [List.forall_mem_cons] at hkinds
      obtain ⟨members, hread⟩ := smembers_succeeds h n hkinds.1
      obtain ⟨sets, w, hrest⟩ := ih (n + 1) (env.swept n s key) fun key' hkey' =>
        (hkinds.2 key' hkey').swept n key
      exact ⟨_, _, (Solo.runFrom_step hread).trans (Solo.runFrom_step hrest)⟩

theorem loadZsetOrSet_succeeds (h : env.Faultless) (n : Nat) (s : Keyspace)
    (hkind : ScoresKind env s key) :
    ∃ items n' m, env.runFrom n (loadZsetOrSet key) s = (.ok items, n', env.swept m s key) := by
  have hload : env.runFrom n (Storage.kind key) s = _ :=
    (Solo.runFrom_step (Solo.loadEntry_runs h n key s)).trans (Solo.runFrom_done _)
  cases hseen : env.seen n s key with
  | none =>
      rw [hseen] at hload
      exact ⟨_, _, n, Solo.runFrom_step hload⟩
  | some p =>
      have hagain := seen_again hseen (n + 1)
      have hvalue := hkind n
      rw [hseen, Solo.swept_of_seen hseen] at hload
      rw [hseen] at hvalue
      obtain ⟨⟨exp, value⟩, token⟩ := p
      cases value with
      | zset map =>
          obtain ⟨items, hread⟩ : ∃ items, env.runFrom (n + 1) (Storage.zitems key) s =
              (.ok items, n + 2, env.swept (n + 1) s key) :=
              read_succeeds h View.zset (hagain.imp_left fun hfound => ⟨exp, map, token, hfound⟩)
          exact ⟨items, n + 2, n + 1, (Solo.runFrom_step hload).trans hread⟩
      | set members =>
          obtain ⟨items, hread⟩ : ∃ items, env.runFrom (n + 1) (Storage.smembers key) s =
              (.ok items, n + 2, env.swept (n + 1) s key) :=
              read_succeeds h View.set (hagain.imp_left fun hfound => ⟨exp, members, token, hfound⟩)
          exact ⟨_, n + 2, n + 1, (Solo.runFrom_step hload).trans (Solo.runFrom_step hread)⟩
      | string | hash | list | stream => cases hvalue

theorem loadWeighted_succeeds (fo : FloatOps) (h : env.Faultless) (n : Nat)
    {inputs : List (String × F64)} (s : Keyspace)
    (hkinds : ∀ input ∈ inputs, ScoresKind env s input.1) :
    ∃ items w, env.runFrom n (loadWeighted fo inputs) s = (.ok items, w) := by
  induction inputs generalizing n s with
  | nil => exact ⟨_, _, rfl⟩
  | cons input inputs ih =>
      rw [List.forall_mem_cons] at hkinds
      obtain ⟨items, n', m, hread⟩ := loadZsetOrSet_succeeds h n s hkinds.1
      obtain ⟨rest, w, hrest⟩ := ih n' (env.swept m s input.1) fun input' hinput' =>
        (hkinds.2 input' hinput').swept m input.1
      exact ⟨_, _, (Solo.runFrom_step hread).trans (Solo.runFrom_step hrest)⟩

end Kinds

/-! ## The arguments -/

/-- The destination and the sources of a `SINTERSTORE` and its kin. -/
def sstoreQuery (op : SetOp) : List Bytes → Result (String × List String)
  | dest :: k :: ks => do
      let dest ← argAsStr dest
      let srcKeys ← argsAsStrings (k :: ks)
      return (dest, srcKeys)
  | _ => .error (.wrongArity (op.name ++ "STORE"))

section Query

variable (fo : FloatOps)

/-- The destination, the weighted sources and the aggregate of a `ZINTERSTORE` and its kin. -/
def zstoreQuery (op : ZStoreOp) : List Bytes → Result (String × List (String × F64) × Aggregate)
  | dest :: numkeys :: k :: rest => do
      let dest ← argAsStr dest
      let (srcKeys, tail) ←
        parseNumkeys (.parse "at least 1 input key is needed for this command") numkeys (k :: rest)
      let (weights, aggregate) ← parseAggregateTail fo op tail srcKeys.length
      return (dest, srcKeys.zip weights, aggregate)
  | _ => .error (.wrongArity (op.name ++ "STORE"))

theorem parse_bind {α β γ : Type} (x : Result α) (f : α → Result β) (g : β → KV γ) :
    (Prog.ofExcept (x >>= f)).bind g =
      (Prog.ofExcept x).bind fun a => (Prog.ofExcept (f a)).bind g := by
  cases x with
  | error e => rfl
  | ok a => rfl

theorem handleSstore_eq (op : SetOp) (args : List Bytes) :
    handleSstore op args = (Prog.ofExcept (sstoreQuery op args)).bind fun q =>
      (Storage.loadSetsSeq q.2).bind fun sets => (Computed.members (op.apply sets)).overwrite q.1 := by
  match args with
  | [] => rfl
  | [_] => rfl
  | dest :: k :: ks =>
      simp only [sstoreQuery, handleSstore, parse_bind, SetOp.compute_eq, Prog.bind_eq,
        Prog.bind_assoc]
      rfl

theorem handleZstore_eq (op : ZStoreOp) (args : List Bytes) :
    handleZstore fo op args = (Prog.ofExcept (zstoreQuery fo op args)).bind fun q =>
      (loadWeighted fo q.2.1).bind fun inputs =>
        (Computed.pairs (aggregateInputs fo op q.2.2 inputs)).overwrite q.1 := by
  match args with
  | [] => rfl
  | [_] => rfl
  | [_, _] => rfl
  | dest :: numkeys :: k :: rest =>
      simp only [zstoreQuery, handleZstore, computeZsetAggregate, parse_bind, Prog.bind_eq,
        Prog.bind_assoc]
      rfl

/-! ## Weights and aggregate -/

/-- `[WEIGHTS w ..]` with a weight for each of the `n` sources. -/
inductive WeightsClause (n : Nat) : List Bytes → List F64 → Prop
  | absent : WeightsClause n [] (List.replicate n .one)
  | given {word : Bytes} {args : List Bytes} {weights : List F64}
      (hword : optionWord word = .ok "WEIGHTS") (hlength : args.length = n)
      (hweights : (args.mapM fun w => parseF64 fo w "weight") = .ok weights) :
      WeightsClause n (word :: args) weights

/-- `[AGGREGATE f]` -/
inductive AggregateClause : List Bytes → Aggregate → Prop
  | absent : AggregateClause [] .sum
  | given {word mode : Bytes} {agg : Aggregate} (hword : optionWord word = .ok "AGGREGATE")
      (hmode : parseAggregate mode = .ok agg) : AggregateClause [word, mode] agg

theorem parseWeightsAggregate_skip {n : Nat} (args rest : List Bytes) (acc : List F64 × Aggregate) :
    parseWeightsAggregate fo n args.length (args ++ rest) acc =
      parseWeightsAggregate fo n 0 rest acc := by
  induction args with
  | nil => rfl
  | cons arg args ih =>
      rw [List.length_cons, List.cons_append, parseWeightsAggregate]
      exact ih

variable {fo}

theorem AggregateClause.parse {n : Nat} {aggArgs : List Bytes} {agg : Aggregate}
    (h : AggregateClause aggArgs agg) (weights : List F64) :
    parseWeightsAggregate fo n 0 aggArgs (weights, .sum) = .ok (weights, agg) := by
  cases h with
  | absent => rw [parseWeightsAggregate]
  | given hword hmode =>
      rw [parseWeightsAggregate, hword, Result.ok_bind, hmode, Result.ok_bind, parseWeightsAggregate]
      rfl

theorem WeightsClause.parse {n : Nat} {weightArgs aggArgs : List Bytes} {weights : List F64}
    {agg : Aggregate} (hweights : WeightsClause fo n weightArgs weights)
    (hagg : AggregateClause aggArgs agg) :
    parseWeightsAggregate fo n 0 (weightArgs ++ aggArgs) (List.replicate n .one, .sum) =
      .ok (weights, agg) := by
  cases hweights with
  | absent => exact hagg.parse _
  | @given word args weights hword hlength hweights =>
      subst hlength
      rw [List.cons_append, parseWeightsAggregate.eq_def]
      dsimp only
      rw [hword, Result.ok_bind]
      show (if (args ++ aggArgs).length < args.length then _ else _) = _
      rw [if_neg (by rw [List.length_append]; omega), List.take_left, hweights, Result.ok_bind,
        parseWeightsAggregate_skip]
      exact hagg.parse weights

/-- `dest n k1 .. kn [WEIGHTS w ..] [AGGREGATE f]`; a difference takes no options. -/
structure ZStoreArgs (fo : FloatOps) (op : ZStoreOp) (args : List Bytes) (dest : String)
    (inputs : List (String × F64)) (agg : Aggregate) : Prop where
  read : ∃ destArg numArg keyArgs weightArgs aggArgs keys weights,
    args = destArg :: numArg :: (keyArgs ++ (weightArgs ++ aggArgs)) ∧
    argAsStr destArg = .ok dest ∧ parseI64 numArg "numkeys" = .ok (keyArgs.length : Int) ∧
    keyArgs ≠ [] ∧ argsAsStrings keyArgs = .ok keys ∧
    WeightsClause fo keys.length weightArgs weights ∧ AggregateClause aggArgs agg ∧
    (op = .diff → weightArgs = [] ∧ aggArgs = []) ∧ inputs = keys.zip weights

theorem ZStoreArgs.query {op : ZStoreOp} {args : List Bytes} {dest : String}
    {inputs : List (String × F64)} {agg : Aggregate} (h : ZStoreArgs fo op args dest inputs agg) :
    zstoreQuery fo op args = .ok (dest, inputs, agg) := by
  obtain ⟨destArg, numArg, keyArgs, weightArgs, aggArgs, keys, weights, rfl, hdest, hnum, hne,
    hkeys, hweights, hagg, hdiff, rfl⟩ := h.read
  obtain ⟨keyArg, rest, rfl⟩ := List.exists_cons_of_ne_nil hne
  have htail : parseAggregateTail fo op (weightArgs ++ aggArgs) keys.length = .ok (weights, agg) := by
    cases op with
    | inter => exact hweights.parse hagg
    | union => exact hweights.parse hagg
    | diff =>
        obtain ⟨rfl, rfl⟩ := hdiff rfl
        cases hweights
        cases hagg
        rfl
  have hparse : parseNumkeys (.parse "at least 1 input key is needed for this command") numArg
      (keyArg :: (rest ++ (weightArgs ++ aggArgs))) = .ok (keys, weightArgs ++ aggArgs) := by
    unfold parseNumkeys
    rw [hnum, Result.ok_bind, if_neg (by rw [List.length_cons]; omega), Int.toNat_natCast,
      ← List.cons_append, if_neg (by rw [List.length_append]; omega), List.take_left, hkeys,
      List.drop_left]
    rfl
  rw [List.cons_append, zstoreQuery, hdest, Result.ok_bind, hparse, Result.ok_bind]
  dsimp only
  rw [htail]
  rfl

end Query

/-! ## What is stored -/

section Stored

variable {env : Solo} {s : Keyspace} {fo : FloatOps}

/-- The result of a `SINTERSTORE` and its kin, on the sets that its loads find. -/
def SetStored (env : Solo) (s : Keyspace) (op : SetOp) (dest : String) (keys : List String)
    (out : Result RespReply × Nat × Keyspace) : Prop :=
  ∃ (sets : List (BTreeSet String)) (members : BTreeSet String),
    SetsAt (env.Found s out.2.1) keys sets ∧ (∀ m, m ∈ members ↔ op.Has sets m) ∧
    Delivers env s dest (.set members) members.size out

/-- The result of a `ZINTERSTORE` and its kin, on the scores that its loads find.  A
difference has the scores of the first source. -/
def ZsetStored (fo : FloatOps) (env : Solo) (s : Keyspace) (op : ZStoreOp) (dest : String)
    (inputs : List (String × F64)) (agg : Aggregate) (out : Result RespReply × Nat × Keyspace) :
    Prop :=
  ∃ (sources : List Scores) (map : Storage.ZMap),
    ScoresAt (env.Found s out.2.1) (inputs.map Prod.fst) sources ∧
    (∀ m : String, map[m]? = op.merged (combine fo agg) (weighted fo inputs sources) m) ∧
    (op = .diff → (∀ source ∈ sources, ∀ m x, source m = some x → x.isNan = false) →
      ∀ m : String, map[m]? = Merge.diff sources m) ∧
    Delivers env s dest (.zset map) map.size out

theorem SetsAt.mono {keys : List String} {sets : List (BTreeSet String)} {bound bound' : Nat}
    (hle : bound ≤ bound') (h : SetsAt (env.Found s bound) keys sets) :
    SetsAt (env.Found s bound') keys sets := by
  apply h.imp
  rintro key set ⟨entry, hentry, hset⟩
  exact ⟨entry, hentry.mono hle, hset⟩

theorem ScoresAt.mono {keys : List String} {sources : List Scores} {bound bound' : Nat}
    (hle : bound ≤ bound') (h : ScoresAt (env.Found s bound) keys sources) :
    ScoresAt (env.Found s bound') keys sources := by
  apply h.imp
  rintro key source ⟨entry, hentry, hsource⟩
  exact ⟨entry, hentry.mono hle, hsource⟩

theorem sstore_stores (h : env.Faultless) {op : SetOp} {args : List Bytes} {reply : RespReply}
    (hok : (env.run (handleSstore op args) s).1 = .ok reply) :
    ∃ dest keys, sstoreQuery op args = .ok (dest, keys) ∧
      SetStored env s op dest keys (env.run (handleSstore op args) s) := by
  rw [handleSstore_eq] at hok ⊢
  cases hquery : sstoreQuery op args with
  | error e =>
      rw [hquery] at hok
      cases hok
  | ok q =>
      rw [hquery] at hok
      obtain ⟨sets, hsets, hdelivers⟩ := loads_deliver h
        (fun bound => loadSetsSeq_finds q.2) (fun sets bound bound' => SetsAt.mono)
        (fun sets => members_fresh (op.apply sets) q.1) hok
      refine ⟨q.1, q.2, rfl, sets, _, hsets, ?_, hdelivers⟩
      intro m
      rw [Std.ExtTreeSet.mem_ofList, List.contains_iff_mem, op.mem_apply]

theorem weighted_ones (hone : ∀ x : F64, x.isNan = false → fo.mul x .one = x)
    {inputs : List (String × F64)} {sources : List Scores}
    (hlength : inputs.length = sources.length) (hweights : ∀ input ∈ inputs, input.2 = .one)
    (hnan : ∀ source ∈ sources, ∀ m x, source m = some x → x.isNan = false) :
    weighted fo inputs sources = sources := by
  induction inputs generalizing sources with
  | nil => exact (List.eq_nil_of_length_eq_zero hlength.symm).symm
  | cons input inputs ih =>
      cases sources with
      | nil => cases hlength
      | cons source sources =>
          rw [List.forall_mem_cons] at hweights hnan
          have hhead : weigh fo input.2 source = source := by
            funext m
            unfold weigh
            cases hm : source m with
            | none => rfl
            | some x => rw [Option.map_some, hweights.1, hone x (hnan.1 m x hm)]
          have htail := ih (Nat.succ.inj hlength) hweights.2 hnan.2
          unfold weighted at htail ⊢
          rw [List.zipWith_cons_cons, hhead, htail]

theorem diff_weights {args : List Bytes} {q : String × List (String × F64) × Aggregate}
    (h : zstoreQuery fo .diff args = .ok q) : ∀ input ∈ q.2.1, input.2 = .one := by
  unfold zstoreQuery at h
  split at h
  · obtain ⟨dest, -, h⟩ := Result.bind_eq_ok.mp h
    obtain ⟨p, -, h⟩ := Result.bind_eq_ok.mp h
    obtain ⟨w, hw, h⟩ := Result.bind_eq_ok.mp h
    cases h
    have hones : w.1 = List.replicate p.1.length .one := by
      cases htail : p.2 with
      | nil =>
          rw [htail] at hw
          cases hw
          rfl
      | cons arg rest =>
          rw [htail] at hw
          obtain ⟨text, -, hw⟩ := Result.bind_eq_ok.mp hw
          cases hw
    intro input hinput
    have hmem := (List.of_mem_zip hinput).2
    rw [hones] at hmem
    exact List.eq_of_mem_replicate hmem
  · cases h

theorem zstore_stores (h : env.Faultless)
    (hone : ∀ x : F64, x.isNan = false → fo.mul x .one = x) {op : ZStoreOp} {args : List Bytes}
    {reply : RespReply} (hok : (env.run (handleZstore fo op args) s).1 = .ok reply) :
    ∃ dest inputs agg, zstoreQuery fo op args = .ok (dest, inputs, agg) ∧
      ZsetStored fo env s op dest inputs agg (env.run (handleZstore fo op args) s) := by
  rw [handleZstore_eq] at hok ⊢
  cases hquery : zstoreQuery fo op args with
  | error e =>
      rw [hquery] at hok
      cases hok
  | ok q =>
      rw [hquery] at hok
      obtain ⟨items, ⟨sources, hsources, hitems⟩, hdelivers⟩ := loads_deliver h
        (fun bound => loadWeighted_finds fo q.2.1)
        (fun items bound bound' hle hfound => hfound.imp fun sources hboth =>
          ⟨hboth.1.mono hle, hboth.2⟩)
        (fun items => pairs_fresh (aggregateInputs fo op q.2.2 items) q.1) hok
      have hscores : ∀ m : String,
          (Computed.pairMap (aggregateInputs fo op q.2.2 items))[m]? =
            op.merged (combine fo q.2.2) (weighted fo q.2.1 sources) m :=
        getElem?_ofList (aggregateInputs_lists fo q.2.2 op hitems)
      refine ⟨q.1, q.2.1, q.2.2, rfl, sources, _, hsources, hscores, ?_, hdelivers⟩
      rintro rfl hnan m
      have hlength : q.2.1.length = sources.length := by
        rw [← hsources.length_eq, List.length_map]
      rw [hscores, weighted_ones hone hlength (diff_weights hquery) hnan]
      rfl

theorem sstore_succeeds (h : env.Faultless) {op : SetOp} {args : List Bytes} {dest : String}
    {keys : List String} (hquery : sstoreQuery op args = .ok (dest, keys))
    (hkinds : ∀ key ∈ keys, SetKind env s key) :
    ∃ reply, (env.run (handleSstore op args) s).1 = .ok reply := by
  obtain ⟨sets, w, hloads⟩ := loadSetsSeq_succeeds h 0 s hkinds
  rw [handleSstore_eq, hquery]
  exact loads_succeed h (fun bound => loadSetsSeq_finds keys)
    (fun sets => members_fresh (op.apply sets) dest) hloads

theorem zstore_succeeds (h : env.Faultless) {op : ZStoreOp} {args : List Bytes} {dest : String}
    {inputs : List (String × F64)} {agg : Aggregate}
    (hquery : zstoreQuery fo op args = .ok (dest, inputs, agg))
    (hkinds : ∀ input ∈ inputs, ScoresKind env s input.1) :
    ∃ reply, (env.run (handleZstore fo op args) s).1 = .ok reply := by
  obtain ⟨items, w, hloads⟩ := loadWeighted_succeeds fo h 0 s hkinds
  rw [handleZstore_eq, hquery]
  exact loads_succeed h (fun bound => loadWeighted_finds fo inputs)
    (fun items => pairs_fresh (aggregateInputs fo op agg items) dest) hloads

/-- A `*STORE` command that succeeds leaves at its destination the intersection, the union or
the difference of its sources, and nothing if that is empty.  It replies the cardinality, and
changes no other key.  It succeeds where its sources are of the right kind.  For the sorted-set
commands the weights and the aggregate are those of the arguments. -/
theorem store_computes (h : env.Faultless)
    (hone : ∀ x : F64, x.isNan = false → fo.mul x .one = x) (s : Keyspace) :
    (∀ op args reply, (env.run (handleSstore op args) s).1 = .ok reply →
      ∃ dest keys, sstoreQuery op args = .ok (dest, keys) ∧
        SetStored env s op dest keys (env.run (handleSstore op args) s)) ∧
    (∀ op args dest keys, sstoreQuery op args = .ok (dest, keys) →
      (∀ key ∈ keys, SetKind env s key) →
        ∃ reply, (env.run (handleSstore op args) s).1 = .ok reply) ∧
    (∀ op args reply, (env.run (handleZstore fo op args) s).1 = .ok reply →
      ∃ dest inputs agg, zstoreQuery fo op args = .ok (dest, inputs, agg) ∧
        ZsetStored fo env s op dest inputs agg (env.run (handleZstore fo op args) s)) ∧
    (∀ op args dest inputs agg, zstoreQuery fo op args = .ok (dest, inputs, agg) →
      (∀ input ∈ inputs, ScoresKind env s input.1) →
        ∃ reply, (env.run (handleZstore fo op args) s).1 = .ok reply) ∧
    (∀ op args dest inputs agg, ZStoreArgs fo op args dest inputs agg →
      zstoreQuery fo op args = .ok (dest, inputs, agg)) :=
  ⟨fun _ _ _ hok => sstore_stores h hok, fun _ _ _ _ hquery => sstore_succeeds h hquery,
    fun _ _ _ hok => zstore_stores h hone hok, fun _ _ _ _ _ hquery => zstore_succeeds h hquery,
    fun _ _ _ _ _ hargs => hargs.query⟩

end Stored

/-! ## A union into one of its sources -/

/-- Integers are exact, and 1 is the unit. -/
def unitOps : FloatOps where
  __ := FloatOps.integral
  mul a b := if b = .one then a else FloatOps.integral.mul a b

theorem unitOps_one (x : F64) (_ : x.isNan = false) : unitOps.mul x .one = x := by
  show (if F64.one = .one then x else FloatOps.integral.mul x .one) = x
  rw [if_pos rfl]

/-- A set at `a`, a sorted set at `b`. -/
def setAndZset : Keyspace := fun key =>
  if key = "a" then some (⟨none, .set (Std.ExtTreeSet.ofList ["x", "y"] compare)⟩, "t")
  else if key = "b" then some (⟨none, .zset (Std.ExtTreeMap.ofList [("y", .one)] compare)⟩, "u")
  else none

/-- `ZUNIONSTORE a 2 a b` -/
def unionIntoSource : List Bytes :=
  [Rdb.asBytes "a", [50], Rdb.asBytes "a", Rdb.asBytes "b"]

theorem unionIntoSource_query : zstoreQuery unitOps .union unionIntoSource =
    .ok ("a", [("a", .one), ("b", .one)], .sum) := rfl

theorem store_computes_on_unionIntoSource :
    ∃ dest inputs agg, zstoreQuery unitOps .union unionIntoSource = .ok (dest, inputs, agg) ∧
      ZsetStored unitOps (.still 0) setAndZset .union dest inputs agg
        ((Solo.still 0).run (handleZstore unitOps .union unionIntoSource) setAndZset) := by
  have hkinds : ∀ input ∈ [("a", F64.one), ("b", F64.one)],
      ScoresKind (.still 0) setAndZset input.1 := by
    rw [List.forall_mem_cons, List.forall_mem_singleton]
    exact ⟨fun _ => rfl, fun _ => rfl⟩
  obtain ⟨-, -, hstored, hsucceeds, -⟩ :=
    store_computes (Solo.still_faultless 0) unitOps_one setAndZset
  obtain ⟨reply, hok⟩ := hsucceeds _ _ _ _ _ unionIntoSource_query hkinds
  exact hstored _ _ reply hok

end Commands
end RustyAnt
