import RustyAnt.Lib.Cyclic
import RustyAnt.Lib.Outcome
import RustyAnt.Storage.Found
import RustyAnt.Storage.Keeps
import RustyAnt.Storage.Sets
import RustyAnt.Storage.ZSets

/-!
# Random samples

The samplers of sets, hashes and sorted sets for every value of the random word: without
repetition they turn the members round, with repetition they draw one at a time.  The vectors
that repeated samples are collected into are as long as the count asks for, and a vector past
`isize::MAX` bytes is a panic.
-/

namespace RustyAnt

open Lib

/-- What a sampler may return: no element twice and as many as there are up to `count`, or with
a negative count exactly that many. -/
structure Sampled {α β : Type} (name : α → β) (all : List α) (count : Int) (picked : List α) :
    Prop where
  drawn : ∀ x ∈ picked, x ∈ all
  distinct : 0 ≤ count → (picked.map name).Nodup ∧ picked.length = min count.toNat all.length
  repeated : count < 0 → all ≠ [] → picked.length = count.natAbs

/-- What `SPOP` may return of a set, and what it leaves. -/
structure Popped (set : BTreeSet String) (count : Nat) (popped : List String)
    (left : Option (BTreeSet String)) : Prop where
  picked : Sampled id set.toList count popped
  rest : ∀ m, m ∈ left.getD ∅ ↔ m ∈ set ∧ m ∉ popped
  gone : left = none ↔ ∀ m ∈ set, m ∈ popped

namespace Storage

variable {α β : Type} {name : α → β} {all : List α} {count : Int}

theorem rotateFrom_eq (ordered : List α) (rand : UInt64) (take : Nat) :
    rotateFrom ordered rand take = cyclic ordered (rand.toNat % ordered.length) take := rfl

theorem drawMany_subset (rng : UInt64) (take : Nat) : ∀ x ∈ drawMany all rng take, x ∈ all := by
  induction take generalizing rng with
  | zero => exact fun x hx => absurd hx List.not_mem_nil
  | succ take ih =>
      intro x hx
      rcases List.mem_append.mp hx with hhead | htail
      · exact List.mem_of_getElem? (Option.mem_toList.mp hhead)
      · exact ih _ x htail

theorem length_drawMany (hall : all ≠ []) (rng : UInt64) (take : Nat) :
    (drawMany all rng take).length = take := by
  induction take generalizing rng with
  | zero => rfl
  | succ take ih =>
      obtain ⟨x, hx⟩ := getElem?_mod hall (xorshift rng).toNat
      unfold drawMany
      dsimp only
      rw [List.length_append, ih, hx]
      exact Nat.add_comm 1 take

theorem sampled_nil : Sampled name [] count [] where
  drawn := fun _ hx => hx
  distinct := fun _ => ⟨List.nodup_nil, (Nat.min_zero _).symm⟩
  repeated := fun _ hne => absurd rfl hne

theorem sampled_zero : Sampled name all 0 [] where
  drawn := fun _ hx => absurd hx List.not_mem_nil
  distinct := fun _ => ⟨List.nodup_nil, (Nat.zero_min _).symm⟩
  repeated := fun hneg _ => absurd hneg (Int.lt_irrefl 0)

theorem sampled_rotateFrom (hall : (all.map name).Nodup) (hcount : 0 ≤ count) (rand : UInt64) :
    Sampled name all count (rotateFrom all rand (min count.toNat all.length)) := by
  rw [rotateFrom_eq]
  refine ⟨fun x hx => mem_of_mem_cyclic hx, fun _ => ⟨?_, ?_⟩, fun hneg => by omega⟩
  · rw [map_cyclic]
    apply nodup_cyclic hall
    rw [List.length_map]
    exact Nat.min_le_right _ _
  · cases all with
    | nil =>
        rw [List.length_nil, Nat.min_zero]
        rfl
    | cons x xs => exact length_cyclic (List.cons_ne_nil x xs) _ _

theorem sampled_drawMany (hne : all ≠ []) (hcount : count < 0) (rand : UInt64) :
    Sampled name all count (drawMany all rand count.natAbs) :=
  ⟨drawMany_subset rand _, fun hpos => by omega, fun _ _ => length_drawMany hne rand _⟩

/-- The sampler of hashes and sorted sets, the count made positive by its caller. -/
theorem sampled_pickRandom (hall : (all.map name).Nodup) (count : Int) (rand : UInt64) :
    Sampled name all count (pickRandom all count.natAbs (decide (count < 0)) rand) := by
  unfold pickRandom
  cases hempty : all.isEmpty with
  | true =>
      rw [List.isEmpty_iff.mp hempty]
      exact sampled_nil
  | false =>
      have hne : all ≠ [] := by
        rintro rfl
        cases hempty
      by_cases hzero : count = 0
      · rw [hzero]
        exact sampled_zero
      · have habs : ((count.natAbs : Int) == 0) = false := by
          rw [beq_eq_false_iff_ne]
          omega
        rw [habs, Bool.or_false, if_neg Bool.false_ne_true]
        by_cases hneg : count < 0
        · rw [decide_eq_true hneg, if_pos rfl, Int.natAbs_natCast]
          exact sampled_drawMany hne hneg rand
        · have htake : (count.natAbs : Int).toNat = count.toNat := by omega
          rw [decide_eq_false hneg, if_neg Bool.false_ne_true, htake]
          exact sampled_rotateFrom hall (Int.not_lt.mp hneg) rand

/-! ## The vectors -/

/-- With a negative count, vectors of `sizes` bytes for each sample can be allocated. -/
def VectorsFit (sizes : List Nat) (count : Int) : Prop :=
  count < 0 → ∀ size ∈ sizes, count.natAbs * size ≤ Outcome.isizeMax

/-- Vectors for `n` samples, each of some bytes for a sample. -/
def allocate (n : Nat) : (sizes : List Nat) → Outcome RustyAntError Unit
  | [] => return ()
  | size :: sizes => do
      Outcome.withCapacity (n * size)
      allocate n sizes

/-- The samplers with the vectors that samples, and then their replies, are collected into.
Without repetition these are no longer than the collection. -/
def collectRandom (sizes : List Nat) (ordered : List α) (count : Int) (allowDuplicates : Bool)
    (rand : UInt64) : Outcome RustyAntError (List α) :=
  if ordered.isEmpty || count == 0 then return []
  else if allowDuplicates then do
    allocate count.natAbs sizes
    return drawMany ordered rand count.natAbs
  else return rotateFrom ordered rand (min count.toNat ordered.length)

/-- A sample that is returned. -/
structure Collected (sizes : List Nat) (name : α → β) (all : List α) (count : Int)
    (picked : List α) : Prop extends Sampled name all count picked where
  collected : ∃ rand,
    collectRandom sizes all count.natAbs (decide (count < 0)) rand = .ok picked

theorem allocate_eq_ok {sizes : List Nat} {n : Nat}
    (h : ∀ size ∈ sizes, n * size ≤ Outcome.isizeMax) : allocate n sizes = .ok () := by
  induction sizes with
  | nil => rfl
  | cons size sizes ih =>
      obtain ⟨hsize, hrest⟩ := List.forall_mem_cons.mp h
      rw [allocate, Outcome.withCapacity, if_pos hsize, Outcome.ok_bind, ih hrest]

theorem allocate_eq_panic {sizes : List Nat} {n : Nat}
    (h : ∃ size ∈ sizes, Outcome.isizeMax < n * size) : allocate n sizes = .panic := by
  induction sizes with
  | nil => simp at h
  | cons size sizes ih =>
      rw [allocate, Outcome.withCapacity]
      by_cases hsize : n * size ≤ Outcome.isizeMax
      · obtain ⟨big, hbig, hlong⟩ := h
        rw [if_pos hsize, Outcome.ok_bind]
        rcases List.mem_cons.mp hbig with rfl | hrest
        · omega
        · exact ih ⟨big, hrest, hlong⟩
      · rw [if_neg hsize, Outcome.panic_bind]

/-- Where the vectors can be allocated, the sample is returned. -/
theorem collectRandom_eq {sizes : List Nat} (hfits : VectorsFit sizes count) (rand : UInt64) :
    collectRandom sizes all count.natAbs (decide (count < 0)) rand =
      .ok (pickRandom all count.natAbs (decide (count < 0)) rand) := by
  unfold collectRandom pickRandom
  split
  · rfl
  · split
    · rename_i hneg
      rw [Int.natAbs_natCast, allocate_eq_ok (hfits (of_decide_eq_true hneg))]
      rfl
    · rfl

/-- A negative count whose vectors cannot be allocated is a panic, unless there is nothing to
sample. -/
theorem collectRandom_panics {sizes : List Nat} (hne : all ≠ []) (hneg : count < 0)
    (hlong : ¬ VectorsFit sizes count) (rand : UInt64) :
    collectRandom sizes all count.natAbs (decide (count < 0)) rand = .panic := by
  have hsome : (all.isEmpty || (count.natAbs : Int) == 0) = false := by
    rw [Bool.or_eq_false_iff, List.isEmpty_eq_false_iff, beq_eq_false_iff_ne]
    exact ⟨hne, by omega⟩
  simp only [VectorsFit, Classical.not_imp, not_forall, Nat.not_le] at hlong
  obtain ⟨-, size, hsize, hbig⟩ := hlong
  unfold collectRandom
  rw [hsome, if_neg Bool.false_ne_true, decide_eq_true hneg, if_pos rfl, Int.natAbs_natCast,
    allocate_eq_panic ⟨size, hsize, hbig⟩]
  rfl

theorem collected_nil (sizes : List Nat) : Collected sizes name [] count [] where
  toSampled := sampled_nil
  collected := ⟨0, rfl⟩

theorem collected_pickRandom {sizes : List Nat} (hall : (all.map name).Nodup)
    (hfits : VectorsFit sizes count) (rand : UInt64) :
    Collected sizes name all count (pickRandom all count.natAbs (decide (count < 0)) rand) where
  toSampled := sampled_pickRandom hall count rand
  collected := ⟨rand, collectRandom_eq hfits rand⟩

/-! ## Sets -/

section Sets

variable {set : BTreeSet String}

theorem nodup_members (set : BTreeSet String) : (set.toList.map id).Nodup := by
  rw [List.map_id]
  exact set.distinct_toList.imp fun hne heq => hne (Std.LawfulEqCmp.compare_eq_iff_eq.mpr heq)

theorem pickRandomUnique_eq (set : BTreeSet String) (count : Nat) (rand : UInt64) :
    pickRandomUnique set count rand = pickRandom set.toList count false rand := by
  have hcount : (count == 0) = ((count : Int) == 0) := by
    rw [Bool.eq_iff_iff, beq_iff_eq, beq_iff_eq]
    omega
  unfold pickRandomUnique pickRandom
  rw [Std.ExtTreeSet.isEmpty_toList, Std.ExtTreeSet.length_toList, hcount, Int.toNat_natCast]
  rfl

theorem pickRandomSet_eq (set : BTreeSet String) (count : Nat) (allowDuplicates : Bool)
    (rand : UInt64) :
    pickRandomSet set count allowDuplicates rand =
      pickRandom set.toList count allowDuplicates rand := by
  have hcount : decide ((count : Int) ≤ 0) = ((count : Int) == 0) := by
    rw [Bool.eq_iff_iff, beq_iff_eq, decide_eq_true_iff]
    omega
  unfold pickRandomSet pickRandom
  rw [Std.ExtTreeSet.isEmpty_toList, hcount, Int.toNat_natCast, Int.natAbs_natCast,
    pickRandomUnique_eq, pickRandom, Std.ExtTreeSet.isEmpty_toList]
  by_cases hnone : (set.isEmpty || (count : Int) == 0) = true
  · rw [if_pos hnone, if_pos hnone]
  · rw [if_neg hnone, if_neg hnone, if_neg hnone]
    rfl

/-- What is left of a set when some members are taken away. -/
theorem mem_foldl_erase (picked : List String) (set : BTreeSet String) (m : String) :
    m ∈ picked.foldl (fun s m => s.erase m) set ↔ m ∈ set ∧ m ∉ picked := by
  induction picked generalizing set with
  | nil => rw [List.foldl_nil, and_iff_left List.not_mem_nil]
  | cons x picked ih =>
      rw [List.foldl_cons, ih, Std.ExtTreeSet.mem_erase, List.mem_cons, not_or, Ne,
        Std.LawfulEqCmp.compare_eq_iff_eq, and_assoc, and_left_comm, eq_comm]

end Sets

/-! ## Calls -/

def membersOf (found : Option (BTreeSet String × Option Int)) : BTreeSet String :=
  found.elim ∅ Prod.fst

def pairsOf {γ : Type} (found : Option (BTreeMap String γ × Option Int)) : List (String × γ) :=
  found.elim [] fun p => p.1.toList

section Calls

variable {env : Solo} {n : Nat} {s : Keyspace} {key : String}

/-- What `HRANDFIELD` and `ZRANDMEMBER` draw from: the pairs, by their first half. -/
theorem nodup_pairs {γ : Type} (m : BTreeMap String γ) : (m.toList.map Prod.fst).Nodup := by
  rw [Std.ExtTreeMap.map_fst_toList_eq_keys]
  exact Std.ExtTreeMap.nodup_keys

theorem collected_readRand {γ : Type} {V : View γ} {found : Option (γ × Option Int)}
    {members : γ → List α} {sample : γ → UInt64 → List α}
    (hsample : ∀ x rand sizes, VectorsFit sizes count →
      Collected sizes name (members x) count (sample x rand))
    (h : env.Sees n s key V found) (hf : env.Faultless) :
    ∃ picked w, env.runFrom n (V.readRand key [] sample) s = (.ok picked, w) ∧
      ∀ sizes, VectorsFit sizes count →
        Collected sizes name (found.elim [] fun p => members p.1) count picked := by
  obtain ⟨rand, w, hrun⟩ := h.readRand hf [] sample
  refine ⟨_, w, hrun, ?_⟩
  cases found with
  | none => exact fun sizes _ => collected_nil sizes
  | some p => exact hsample p.1 rand

theorem srandmember_samples {found : Option (BTreeSet String × Option Int)}
    (h : env.Sees n s key View.set found) (hf : env.Faultless) (count : Int) :
    ∃ picked w, env.runFrom n (srandmember key count.natAbs (decide (count < 0))) s =
        (.ok picked, w) ∧
      ∀ sizes, VectorsFit sizes count →
        Collected sizes id (membersOf found).toList count picked := by
  have hsample : ∀ (set : BTreeSet String) rand sizes, VectorsFit sizes count →
      Collected sizes id set.toList count
        (pickRandomSet set count.natAbs (decide (count < 0)) rand) := by
    intro set rand sizes hfits
    rw [pickRandomSet_eq]
    exact collected_pickRandom (nodup_members set) hfits rand
  obtain ⟨picked, w, hrun, hcollected⟩ := collected_readRand hsample h hf
  refine ⟨picked, w, hrun, ?_⟩
  cases found <;> exact hcollected

theorem hrandfield_samples {found : Option (BTreeMap String Bytes × Option Int)}
    (h : env.Sees n s key View.hash found) (hf : env.Faultless) (count : Int) :
    ∃ picked w, env.runFrom n (hrandfield key count.natAbs (decide (count < 0))) s =
        (.ok picked, w) ∧
      ∀ sizes, VectorsFit sizes count → Collected sizes Prod.fst (pairsOf found) count picked :=
  collected_readRand (fun m rand _ hfits => collected_pickRandom (nodup_pairs m) hfits rand) h hf

theorem zrandmember_samples {found : Option (BTreeMap String F64 × Option Int)}
    (h : env.Sees n s key View.zset found) (hf : env.Faultless) (count : Int) :
    ∃ picked w, env.runFrom n (zrandmember key count.natAbs (decide (count < 0))) s =
        (.ok picked, w) ∧
      ∀ sizes, VectorsFit sizes count → Collected sizes Prod.fst (pairsOf found) count picked :=
  collected_readRand (fun m rand _ hfits => collected_pickRandom (nodup_pairs m) hfits rand) h hf

/-! ### SPOP -/

theorem popped_none (count : Nat) : Popped ∅ count [] none where
  picked := sampled_nil
  rest := fun _ => ⟨fun h => ⟨h, List.not_mem_nil⟩, And.left⟩
  gone := iff_of_true rfl fun _ hm => absurd hm Std.ExtTreeSet.not_mem_empty

theorem popped_zero {set : BTreeSet String} (hset : set ≠ ∅) : Popped set 0 [] (some set) where
  picked := sampled_zero
  rest := fun _ => ⟨fun h => ⟨h, List.not_mem_nil⟩, And.left⟩
  gone := by
    refine iff_of_false (Option.some_ne_none set) fun hall => hset ?_
    rw [Std.ExtTreeSet.eq_empty_iff_forall_not_mem]
    exact fun m hm => absurd (hall m hm) List.not_mem_nil

/-- What the closure of `SPOP` returns and keeps. -/
theorem popped_pick (set : BTreeSet String) (count : Nat) (rand : UInt64) :
    let popped := pickRandomUnique set count rand
    let rest := popped.foldl (fun s m => s.erase m) set
    Popped set count popped (if rest.isEmpty then none else some rest) := by
  intro popped rest
  have hrest : ∀ m, m ∈ rest ↔ m ∈ set ∧ m ∉ popped := mem_foldl_erase popped set
  have hempty : rest.isEmpty = true ↔ ∀ m ∈ set, m ∈ popped := by
    rw [Std.ExtTreeSet.isEmpty_iff, Std.ExtTreeSet.eq_empty_iff_forall_not_mem]
    refine forall_congr' fun m => ?_
    rw [hrest, not_and, not_not]
  refine ⟨?_, fun m => ?_, ?_⟩
  · have hsample := sampled_pickRandom (nodup_members set) count rand
    have hpos : decide ((count : Int) < 0) = false := decide_eq_false (by omega)
    rw [hpos, Int.natAbs_natCast, ← pickRandomUnique_eq] at hsample
    exact hsample
  · rw [← hrest]
    by_cases hgone : rest.isEmpty = true
    · rw [if_pos hgone, Std.ExtTreeSet.isEmpty_iff.mp hgone]
      rfl
    · rw [if_neg hgone]
      rfl
  · rw [← hempty]
    by_cases hgone : rest.isEmpty = true
    · rw [if_pos hgone]
      exact iff_of_true rfl hgone
    · rw [if_neg hgone]
      exact iff_of_false (Option.some_ne_none rest) hgone

theorem result_writeOrDelete {R γ : Type} (V : View γ) (exp : Option Int) (x : γ) (r : R) :
    (V.writeOrDelete exp x r).result = r := by
  unfold View.writeOrDelete
  cases V.isEmpty x <;> rfl

theorem entry_kept (set : BTreeSet String) (exp : Option Int) :
    (if View.set.isEmpty set then none else some ⟨exp, View.set.wrap set⟩) =
      View.set.entry ((if set.isEmpty then none else some set).map fun set => (set, exp)) := by
  by_cases hgone : set.isEmpty = true
  · rw [if_pos hgone, if_pos (show View.set.isEmpty set = true from hgone)]
    rfl
  · rw [if_neg hgone, if_neg (show ¬ View.set.isEmpty set = true from hgone)]
    rfl

/-- Without a count above zero `SPOP` looks at the kind and goes. -/
theorem spop_zero {found : Option (BTreeSet String × Option Int)}
    (h : env.Sees n s key View.set found) (hf : env.Faultless) :
    ∃ w, env.runFrom n (spop key 0) s = (.ok [], w) ∧
      (w.2 key).map Prod.fst = View.set.entry found := by
  refine ⟨(n + 1, env.swept n s key), ?_, ?_⟩
  · have hread := h.read hf ([] : List String) fun _ => []
    cases found <;> exact hread
  · exact (congrArg (Option.map Prod.fst) Solo.swept_self).trans h

theorem spop_pops {found : Option (BTreeSet String × Option Int)}
    (h : env.Sees n s key View.set found) (hf : env.Faultless) {count : Nat}
    (hcount : count = 0 → found.map Prod.fst ≠ some ∅) :
    ∃ popped left w, env.runFrom n (spop key count) s = (.ok popped, w) ∧
      Popped (membersOf found) count popped left ∧
      (w.2 key).map Prod.fst = View.set.entry (left.map fun set => (set, found.bind Prod.snd)) := by
  by_cases hzero : count = 0
  · obtain ⟨w, hrun, hleft⟩ := spop_zero h hf
    rw [hzero]
    cases found with
    | none => exact ⟨[], none, w, hrun, popped_none 0, hleft⟩
    | some p =>
        have hset : p.1 ≠ ∅ := fun hset => hcount hzero (congrArg some hset)
        exact ⟨[], some p.1, w, hrun, popped_zero hset, hleft⟩
  · obtain ⟨nanos, hrun⟩ := h.casNanos hf (spopModify key count)
    have hspop : spop key count = casWith key KV.nanos (spopModify key count) := if_neg hzero
    rw [hspop]
    unfold spopModify at hrun
    rw [View.set.find_entry] at hrun
    cases found with
    | none =>
        obtain ⟨w, hcas, hleft⟩ := hrun _ rfl
        exact ⟨[], none, w, hcas, popped_none count, hleft⟩
    | some p =>
        obtain ⟨w, hcas, hleft⟩ := hrun _ rfl
        rw [result_writeOrDelete] at hcas
        rw [apply_writeOrDelete] at hleft
        refine ⟨_, _, w, hcas, popped_pick p.1 count (pseudoRandU64 nanos), hleft.trans ?_⟩
        exact entry_kept _ p.2

end Calls

end Storage

end RustyAnt
