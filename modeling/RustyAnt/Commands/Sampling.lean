import RustyAnt.Commands.Hashes
import RustyAnt.Commands.UnifiedRange
import RustyAnt.Storage.Sampling

/-!
# SRANDMEMBER, HRANDFIELD, ZRANDMEMBER and SPOP

What their replies hold of the collection, for every count and every reading of the clock, and
what `SPOP` leaves.  A sample that may repeat members is as long as the count asks for: first a
vector of what is drawn is collected, then one of replies.
-/

namespace RustyAnt.Commands

open Lib Storage

variable {env : Solo} {s : Keyspace} {key : String} {k c : Bytes} {count : Int}

/-! The sizes in bytes of what a vector holds for a sample. -/

def stringSize : Nat := 24

/-- A field and its value. -/
def fieldSize : Nat := 48

/-- A member and its score. -/
def memberSize : Nat := 32

def replySize : Nat := 40

theorem checkedAbs_ok (h : count ≠ i64Min) : checkedAbs count = .ok (count.natAbs : Int) := if_neg h

theorem parseCount_ok {n : Nat} (h : parseI64 c "count" = .ok (n : Int)) : parseCount c = .ok n := by
  unfold parseCount
  rw [h, Result.ok_bind, if_neg (by omega), Int.toNat_natCast]
  rfl

section Handlers

variable (hf : env.Faultless) (hkey : argAsStr k = .ok key)

section Counts

variable (hcount : parseI64 c "count" = .ok count)

section Sampled

variable (hmin : count ≠ i64Min)

include hf hkey hcount hmin

theorem handleSrandmember_samples {found : Option (BTreeSet String × Option Int)}
    (h : env.Sees 0 s key View.set found) :
    ∃ picked, (∀ sizes, VectorsFit sizes count →
        Collected sizes id (membersOf found).toList count picked) ∧
      (env.run (handleSrandmember [k, c]) s).1 = .ok (.texts picked) := by
  obtain ⟨picked, w, hrun, hsampled⟩ := srandmember_samples h hf count
  have hreply : env.run (handleSrandmember [k, c]) s = (.ok (.texts picked), w) := by
    calc
      _ = _ := Solo.runFrom_parse hkey
      _ = _ := Solo.runFrom_parse hcount
      _ = _ := Solo.runFrom_parse (checkedAbs_ok hmin)
      _ = _ := Solo.runFrom_step hrun
  exact ⟨picked, hsampled, by rw [hreply]⟩

theorem handleHrandfield_samples {found : Option (BTreeMap String Bytes × Option Int)}
    (h : env.Sees 0 s key View.hash found) :
    ∃ picked, (∀ sizes, VectorsFit sizes count →
        Collected sizes Prod.fst (pairsOf found) count picked) ∧
      (env.run (handleHrandfield [k, c]) s).1 = .ok (.texts (picked.map Prod.fst)) ∧
      ∀ word, isWord word "WITHVALUES" = .ok true →
        (env.run (handleHrandfield [k, c, word]) s).1 = .ok (.array (fieldsReply picked)) := by
  obtain ⟨picked, w, hrun, hsampled⟩ := hrandfield_samples h hf count
  have hreply : ∀ withValues, env.runFrom 0 (Commands.hrandfield key count withValues) s =
      (.ok (.array (if withValues then fieldsReply picked else picked.map fun p => .text p.1)),
        w) := by
    intro withValues
    calc
      _ = _ := Solo.runFrom_parse (checkedAbs_ok hmin)
      _ = _ := Solo.runFrom_step hrun
  refine ⟨picked, hsampled, ?_, fun word hword => ?_⟩
  · have hplain : env.run (handleHrandfield [k, c]) s =
        (.ok (.array (picked.map fun p => .text p.1)), w) := by
      calc
        _ = _ := Solo.runFrom_parse hkey
        _ = _ := Solo.runFrom_parse hcount
        _ = _ := hreply false
    rw [hplain, RespReply.texts, List.map_map]
    rfl
  · have hvalues : env.run (handleHrandfield [k, c, word]) s =
        (.ok (.array (fieldsReply picked)), w) := by
      refine (Solo.runFrom_parse hkey).trans ?_
      refine (Solo.runFrom_parse hcount).trans ?_
      exact (Solo.runFrom_parse hword).trans (hreply true)
    rw [hvalues]

theorem handleZrandmember_samples (fo : FloatOps)
    {found : Option (BTreeMap String F64 × Option Int)} (h : env.Sees 0 s key View.zset found) :
    ∃ picked, (∀ sizes, VectorsFit sizes count →
        Collected sizes Prod.fst (pairsOf found) count picked) ∧
      (env.run (handleZrandmember fo [k, c]) s).1 = .ok (.texts (picked.map Prod.fst)) ∧
      ∀ word, isWord word "WITHSCORES" = .ok true →
        (env.run (handleZrandmember fo [k, c, word]) s).1 = .ok (pairsToReply fo picked true) := by
  obtain ⟨picked, w, hrun, hsampled⟩ := zrandmember_samples h hf count
  have hreply : ∀ withScores, env.runFrom 0 (Commands.zrandmember fo key count withScores) s =
      (.ok (pairsToReply fo picked withScores), w) := by
    intro withScores
    calc
      _ = _ := Solo.runFrom_parse (checkedAbs_ok hmin)
      _ = _ := Solo.runFrom_step hrun
  refine ⟨picked, hsampled, ?_, fun word hword => ?_⟩
  · have hplain : env.run (handleZrandmember fo [k, c]) s =
        (.ok (pairsToReply fo picked false), w) := by
      calc
        _ = _ := Solo.runFrom_parse hkey
        _ = _ := Solo.runFrom_parse hcount
        _ = _ := hreply false
    rw [hplain, pairsToReply_names]
    rfl
  · have hscores : env.run (handleZrandmember fo [k, c, word]) s =
        (.ok (pairsToReply fo picked true), w) := by
      refine (Solo.runFrom_parse hkey).trans ?_
      refine (Solo.runFrom_parse hcount).trans ?_
      exact (Solo.runFrom_parse hword).trans (hreply true)
    rw [hscores]

end Sampled

include hkey hcount

theorem samplers_overflow (fo : FloatOps) (hleast : count = i64Min) (n : Nat) :
    env.runFrom n (handleSrandmember [k, c]) s = (.error (.parse "count overflow"), n, s) ∧
      env.runFrom n (handleHrandfield [k, c]) s = (.error (.parse "count overflow"), n, s) ∧
      env.runFrom n (handleZrandmember fo [k, c]) s = (.error (.parse "count overflow"), n, s) := by
  rw [hleast] at hcount
  refine ⟨?_, ?_, ?_⟩ <;>
  · refine (Solo.runFrom_parse hkey).trans ?_
    refine (Solo.runFrom_parse hcount).trans ?_
    rfl

end Counts

/-- What is at the key of a set that keeps its expiry. -/
def LeavesSet (w : Nat × Keyspace) (key : String) (left : Option (BTreeSet String))
    (exp : Option Int) : Prop :=
  (w.2 key).map Prod.fst = View.set.entry (left.map fun set => (set, exp))

section Spop

variable {found : Option (BTreeSet String × Option Int)} (h : env.Sees 0 s key View.set found)

include hf hkey h

/-- With a count `SPOP` replies with what it takes. -/
theorem handleSpop_pops {n : Nat} (hcount : parseI64 c "count" = .ok (n : Int))
    (hzero : n = 0 → found.map Prod.fst ≠ some ∅) :
    ∃ popped left, Popped (membersOf found) n popped left ∧
      (env.run (handleSpop [k, c]) s).1 = .ok (.texts popped) ∧
      LeavesSet (env.run (handleSpop [k, c]) s).2 key left (found.bind Prod.snd) := by
  obtain ⟨popped, left, w, hrun, hpopped, hleft⟩ := spop_pops h hf hzero
  have hreply : env.run (handleSpop [k, c]) s = (.ok (.texts popped), w) := by
    refine (Solo.runFrom_parse hkey).trans ?_
    exact (Solo.runFrom_parse (parseCount_ok hcount)).trans (Solo.runFrom_step hrun)
  rw [hreply]
  exact ⟨popped, left, hpopped, rfl, hleft⟩

theorem handleSpop_pops_one :
    ∃ popped left, Popped (membersOf found) 1 popped left ∧
      (env.run (handleSpop [k]) s).1 = .ok (popped.getLast?.elim .nil .text) ∧
      LeavesSet (env.run (handleSpop [k]) s).2 key left (found.bind Prod.snd) := by
  have hone : (1 : Nat) = 0 → found.map Prod.fst ≠ some ∅ := nofun
  obtain ⟨popped, left, w, hrun, hpopped, hleft⟩ := spop_pops h hf hone
  have hreply : env.run (handleSpop [k]) s = (.ok (popped.getLast?.elim .nil .text), w) := by
    calc
      _ = _ := Solo.runFrom_parse hkey
      _ = _ := Solo.runFrom_step hrun
  rw [hreply]
  exact ⟨popped, left, hpopped, rfl, hleft⟩

theorem handleSpop_zero (hcount : parseI64 c "count" = .ok 0) :
    (env.run (handleSpop [k, c]) s).1 = .ok (.texts []) ∧
      ((env.run (handleSpop [k, c]) s).2.2 key).map Prod.fst = View.set.entry found := by
  obtain ⟨w, hrun, hleft⟩ := spop_zero h hf
  have hreply : env.run (handleSpop [k, c]) s = (.ok (.texts []), w) := by
    refine (Solo.runFrom_parse hkey).trans ?_
    exact (Solo.runFrom_parse (parseCount_ok hcount)).trans (Solo.runFrom_step hrun)
  rw [hreply]
  exact ⟨rfl, hleft⟩

end Spop

end Handlers

/-- For every count but the least whose vectors can be allocated the samplers reply with a sample,
the least is refused; `SPOP` leaves what it does not return, and no set if it returns all, unless
it has nothing to do. -/
theorem random_samples_exact (fo : FloatOps) (hf : env.Faultless) (hkey : argAsStr k = .ok key)
    (hcount : parseI64 c "count" = .ok count) :
    (count ≠ i64Min →
      (∀ found, env.Sees 0 s key View.set found → VectorsFit [stringSize, replySize] count →
        ∃ picked, Collected [stringSize, replySize] id (membersOf found).toList count picked ∧
          (env.run (handleSrandmember [k, c]) s).1 = .ok (.texts picked)) ∧
      (∀ found, env.Sees 0 s key View.hash found → ∃ picked,
        (VectorsFit [fieldSize, replySize] count →
          Collected [fieldSize, replySize] Prod.fst (pairsOf found) count picked ∧
          (env.run (handleHrandfield [k, c]) s).1 = .ok (.texts (picked.map Prod.fst))) ∧
        ∀ word, isWord word "WITHVALUES" = .ok true →
          VectorsFit [fieldSize, 2 * replySize] count →
          Collected [fieldSize, 2 * replySize] Prod.fst (pairsOf found) count picked ∧
          (env.run (handleHrandfield [k, c, word]) s).1 = .ok (.array (fieldsReply picked))) ∧
      (∀ found, env.Sees 0 s key View.zset found → ∃ picked,
        (VectorsFit [memberSize, replySize] count →
          Collected [memberSize, replySize] Prod.fst (pairsOf found) count picked ∧
          (env.run (handleZrandmember fo [k, c]) s).1 = .ok (.texts (picked.map Prod.fst))) ∧
        ∀ word, isWord word "WITHSCORES" = .ok true →
          VectorsFit [memberSize, 2 * replySize] count →
          Collected [memberSize, 2 * replySize] Prod.fst (pairsOf found) count picked ∧
          (env.run (handleZrandmember fo [k, c, word]) s).1 =
            .ok (pairsToReply fo picked true))) ∧
    (count = i64Min →
      (env.run (handleSrandmember [k, c]) s).1 = .error (.parse "count overflow") ∧
      (env.run (handleHrandfield [k, c]) s).1 = .error (.parse "count overflow") ∧
      (env.run (handleZrandmember fo [k, c]) s).1 = .error (.parse "count overflow")) ∧
    ∀ found, env.Sees 0 s key View.set found →
      (∀ n : Nat, count = n → (n = 0 → found.map Prod.fst ≠ some ∅) →
        ∃ popped left, Popped (membersOf found) n popped left ∧
          (env.run (handleSpop [k, c]) s).1 = .ok (.texts popped) ∧
          LeavesSet (env.run (handleSpop [k, c]) s).2 key left (found.bind Prod.snd)) ∧
      (∃ popped left, Popped (membersOf found) 1 popped left ∧
        (env.run (handleSpop [k]) s).1 = .ok (popped.getLast?.elim .nil .text) ∧
        LeavesSet (env.run (handleSpop [k]) s).2 key left (found.bind Prod.snd)) ∧
      (count = 0 →
        (env.run (handleSpop [k, c]) s).1 = .ok (.texts []) ∧
        ((env.run (handleSpop [k, c]) s).2.2 key).map Prod.fst = View.set.entry found) := by
  refine ⟨fun hmin => ⟨fun found h hfits => ?_, fun found h => ?_, fun found h => ?_⟩,
    fun hleast => ?_, fun found h => ⟨fun n hn hzero => ?_, ?_, fun hzero => ?_⟩⟩
  · obtain ⟨picked, hcollected, hreply⟩ := handleSrandmember_samples hf hkey hcount hmin h
    exact ⟨picked, hcollected _ hfits, hreply⟩
  · obtain ⟨picked, hcollected, hreply, hvalues⟩ := handleHrandfield_samples hf hkey hcount hmin h
    exact ⟨picked, fun hfits => ⟨hcollected _ hfits, hreply⟩,
      fun word hword hfits => ⟨hcollected _ hfits, hvalues word hword⟩⟩
  · obtain ⟨picked, hcollected, hreply, hscores⟩ :=
      handleZrandmember_samples hf hkey hcount hmin fo h
    exact ⟨picked, fun hfits => ⟨hcollected _ hfits, hreply⟩,
      fun word hword hfits => ⟨hcollected _ hfits, hscores word hword⟩⟩
  · obtain ⟨hset, hhash, hzset⟩ := samplers_overflow hkey hcount fo hleast 0
    exact ⟨congrArg Prod.fst hset, congrArg Prod.fst hhash, congrArg Prod.fst hzset⟩
  · exact handleSpop_pops hf hkey h (hn ▸ hcount) hzero
  · exact handleSpop_pops_one hf hkey h
  · exact handleSpop_zero hf hkey h (hzero ▸ hcount)

/-- A key that holds this set. -/
def setAt (key : String) (set : BTreeSet String) : Keyspace := fun key' =>
  if key' = key then some (⟨none, .set set⟩, "0") else none

theorem sees_setAt (n : Nat) (key : String) (set : BTreeSet String) :
    (Solo.still 0).Sees n (setAt key set) key View.set (some (set, none)) :=
  .of_live (if_pos rfl) rfl

theorem random_samples_exact_on_pair :
    ∃ picked : List String, picked.length = 3 ∧
      ((Solo.still 0).run (handleSrandmember [Rdb.asBytes "s", Decimal.intBytes (-3)])
        (setAt "s" (.ofList ["a", "b"] compare))).1 = .ok (.texts picked) := by
  have hsamples := @random_samples_exact (Solo.still 0) (setAt "s" (.ofList ["a", "b"] compare)) _ _ _
    _ .integral (Solo.still_faultless 0) (argAsStr_asBytes "s")
    (parseI64_intBytes (n := -3) (by decide) (by decide) "count")
  obtain ⟨picked, hcollected, hreply⟩ := (hsamples.1 (by decide)).1 _
    (sees_setAt 0 "s" (.ofList ["a", "b"] compare)) (fun _ => by decide)
  exact ⟨picked, hcollected.repeated (by decide) (by decide), hreply⟩

/-- The least count is refused, the vector for `2 ^ 62` members cannot be allocated, and an empty set
stays when no member is asked for. -/
theorem least_count_and_zero :
    (¬ ∃ picked : List String, picked.length = i64Min.natAbs ∧
      ((Solo.still 0).run (handleSrandmember [Rdb.asBytes "s", Decimal.intBytes i64Min])
        (setAt "s" (.ofList ["a"] compare))).1 = .ok (.texts picked)) ∧
    (∀ rand, collectRandom [stringSize, replySize] ["a"] (2 ^ 62) true rand = .panic) ∧
    ((Solo.still 0).run (handleSpop [Rdb.asBytes "s", Decimal.intBytes 0]) (setAt "s" ∅)).1 =
      .ok (.texts []) ∧
    (((Solo.still 0).run (handleSpop [Rdb.asBytes "s", Decimal.intBytes 0])
      (setAt "s" ∅)).2.2 "s").map Prod.fst = some ⟨none, .set ∅⟩ := by
  have hkey := argAsStr_asBytes "s"
  have hleast := parseI64_intBytes (n := i64Min) (by decide) (by decide) "count"
  have hzero := parseI64_intBytes (n := 0) (by decide) (by decide) "count"
  obtain ⟨hreply, hleft⟩ := handleSpop_zero (Solo.still_faultless 0) hkey (sees_setAt 0 "s" ∅) hzero
  refine ⟨?_, fun rand => ?_, hreply, hleft⟩
  · rintro ⟨picked, -, hpicked⟩
    have hrefused := (@samplers_overflow (Solo.still 0) (setAt "s" (.ofList ["a"] compare)) _ _ _ _
      hkey hleast .integral rfl 0).1
    have hsame := (congrArg Prod.fst hrefused).symm.trans hpicked
    cases hsame
  · have hlong : ¬ VectorsFit [stringSize, replySize] (-2 ^ 62) := by
      intro hfits
      exact absurd (hfits (by decide) stringSize List.mem_cons_self) (by decide)
    exact collectRandom_panics (List.cons_ne_nil "a" []) (by decide) hlong rand

end RustyAnt.Commands
