import RustyAnt.Commands.ZSets
import RustyAnt.Storage.Found
import RustyAnt.Storage.ZOrder

/-!
# ZADD under its flags

What the flags promise of the sorted set, whichever of the three copies of the rules runs: the
plain loop, the loop with flags and the single increment.
-/

namespace RustyAnt

open Lib

namespace F64

variable {a b c : F64}

theorem le_refl_of (h : a.isNan = false) : a.le a = true := by
  unfold le
  simp [h]

theorem le_trans_of (hab : a.le b = true) (hbc : b.le c = true) : a.le c = true := by
  unfold le at hab hbc ⊢
  simp only [Bool.and_eq_true, Bool.not_eq_true', decide_eq_true_eq] at hab hbc ⊢
  exact ⟨⟨hab.1.1, hbc.1.2⟩, hab.2.trans hbc.2⟩

theorem le_of_not_le (ha : a.isNan = false) (hb : b.isNan = false) (h : ¬ a.le b = true) :
    b.le a = true := by
  unfold le at h ⊢
  simp only [ha, hb, Bool.not_false, Bool.and_self, Bool.true_and, decide_eq_true_eq] at h ⊢
  omega

end F64

namespace Storage

variable {flags : ZAddFlags} {old new : ZMap} {member : String} {score : F64}

/-- What the flags promise of an old and a new sorted set: no member is lost, under `NX` none
changes its score, under `XX` none is new, and under `GT` and `LT` no score goes the other way. -/
structure Guarded (flags : ZAddFlags) (old new : ZMap) : Prop where
  kept : ∀ (m : String) (v : F64), old[m]? = some v → ∃ v', new[m]? = some v' ∧
    (flags.nx = true → v' = v) ∧ (flags.gt = true → v.le v' = true) ∧
    (flags.lt = true → v'.le v = true)
  known : flags.xx = true → ∀ m : String, m ∈ new → m ∈ old

theorem Guarded.refl (hnan : NanFree old) : Guarded flags old old where
  kept m v hv := ⟨v, hv, fun _ => rfl, fun _ => F64.le_refl_of (hnan m v hv),
    fun _ => F64.le_refl_of (hnan m v hv)⟩
  known _ _ hm := hm

theorem contains_of_some (h : new[member]? = some score) : new.contains member = true := by
  rw [Std.ExtTreeMap.contains_iff_mem, Std.ExtTreeMap.mem_iff_isSome_getElem?, h]
  rfl

theorem not_contains_of_none (h : new[member]? = none) : ¬ new.contains member = true := by
  rw [Std.ExtTreeMap.contains_iff_mem, Std.ExtTreeMap.mem_iff_isSome_getElem?, h]
  exact Bool.false_ne_true

theorem getElem?_insert_of_ne {m : String} (h : m ≠ member) (new : ZMap) (score : F64) :
    (new.insert member score)[m]? = new[m]? := by
  simp [Std.ExtTreeMap.getElem?_insert, Ne.symm h]

/-- A member that is new may be inserted, unless `XX` is given. -/
theorem Guarded.add (h : Guarded flags old new) (hnew : new[member]? = none)
    (hxx : flags.xx = false) (score : F64) : Guarded flags old (new.insert member score) where
  kept m v hv := by
    obtain ⟨v', hv', hrules⟩ := h.kept m v hv
    have hne : m ≠ member := by
      rintro rfl
      rw [hnew] at hv'
      cases hv'
    exact ⟨v', by rw [getElem?_insert_of_ne hne, hv'], hrules⟩
  known hflag := by
    rw [hxx] at hflag
    cases hflag

theorem Guarded.replace (h : Guarded flags old new) {prev : F64} (hprev : new[member]? = some prev)
    (hnx : flags.nx = false) (hgt : flags.gt = true → prev.le score = true)
    (hlt : flags.lt = true → score.le prev = true) :
    Guarded flags old (new.insert member score) where
  kept m v hv := by
    obtain ⟨v', hv', -, hup, hdown⟩ := h.kept m v hv
    by_cases hm : m = member
    · subst hm
      obtain rfl := Option.some.inj (hprev.symm.trans hv')
      refine ⟨score, Std.ExtTreeMap.getElem?_insert_self, fun hflag => ?_, fun hflag => ?_,
        fun hflag => ?_⟩
      · rw [hnx] at hflag
        cases hflag
      · exact F64.le_trans_of (hup hflag) (hgt hflag)
      · exact F64.le_trans_of (hlt hflag) (hdown hflag)
    · refine ⟨v', by rw [getElem?_insert_of_ne hm, hv'], fun hflag => ?_, hup, hdown⟩
      rw [hnx] at hflag
      cases hflag
  known hflag m hm := by
    apply h.known hflag
    rw [Std.ExtTreeMap.mem_insert, Std.LawfulEqCmp.compare_eq_iff_eq] at hm
    rcases hm with rfl | hm
    · exact Std.ExtTreeMap.contains_iff_mem.mp (contains_of_some hprev)
    · exact hm

/-! ## The loop -/

variable {pairs : List (F64 × String)} {acc : ZAddState}

/-- Where the loop of `zadd_ext` stands. -/
structure ZaddSoFar (flags : ZAddFlags) (old : ZMap) (pairs : List (F64 × String))
    (acc : ZAddState) : Prop where
  guarded : Guarded flags old acc.map
  listed : ∀ (m : String) (v : F64), acc.map[m]? = some v → old[m]? = some v ∨ (v, m) ∈ pairs
  grown : acc.added = acc.map.size - old.size
  counts : 0 ≤ acc.added ∧ 0 ≤ acc.updated
  idle : acc.added = 0 → acc.updated = 0 → acc.map = old

theorem ZaddSoFar.start (flags : ZAddFlags) (hnan : NanFree old) (pairs : List (F64 × String)) :
    ZaddSoFar flags old pairs ⟨old, 0, 0⟩ where
  guarded := .refl hnan
  listed _ _ hv := .inl hv
  grown := (sub_self _).symm
  counts := ⟨le_rfl, le_rfl⟩
  idle _ _ := rfl

theorem listed_insert (h : ∀ (m : String) (v : F64), new[m]? = some v →
      old[m]? = some v ∨ (v, m) ∈ pairs) (hp : (score, member) ∈ pairs) (m : String) (v : F64)
    (hv : (new.insert member score)[m]? = some v) : old[m]? = some v ∨ (v, m) ∈ pairs := by
  by_cases hm : m = member
  · subst hm
    rw [Std.ExtTreeMap.getElem?_insert_self] at hv
    exact .inr (Option.some.inj hv ▸ hp)
  · rw [getElem?_insert_of_ne hm] at hv
    exact h m v hv

theorem ZaddSoFar.step (h : ZaddSoFar flags old pairs acc) (hold : NanFree old)
    (hpairs : ∀ p ∈ pairs, p.1.isNan = false) {p : F64 × String} (hp : p ∈ pairs) :
    ZaddSoFar flags old pairs (zaddExtPair flags acc p) := by
  obtain ⟨score, member⟩ := p
  obtain ⟨hadded, hupdated⟩ := h.counts
  have hscore := hpairs _ hp
  unfold zaddExtPair
  dsimp only
  cases hmember : acc.map[member]? with
  | none =>
      dsimp only
      by_cases hxx : flags.xx = true
      · rwa [if_pos hxx]
      · rw [if_neg hxx]
        refine ⟨h.guarded.add hmember (Bool.not_eq_true _ |>.mp hxx) score,
          listed_insert h.listed hp, ?_, ⟨by dsimp only; omega, hupdated⟩, fun hzero => ?_⟩
        · have hgrown := h.grown
          dsimp only
          rw [Std.ExtTreeMap.size_insert, if_neg (not_contains_of_none hmember)]
          push_cast
          omega
        · dsimp only at hzero
          omega
  | some prev =>
      have hprev : prev.isNan = false := by
        rcases h.listed member prev hmember with hwas | hlisted
        · exact hold member prev hwas
        · exact hpairs _ hlisted
      dsimp only
      by_cases hnx : flags.nx = true
      · rwa [if_pos hnx]
      by_cases hgt : (flags.gt && score.le prev) = true
      · rwa [if_neg hnx, if_pos hgt]
      by_cases hlt : (flags.lt && prev.le score) = true
      · rwa [if_neg hnx, if_neg hgt, if_pos hlt]
      rw [if_neg hnx, if_neg hgt, if_neg hlt]
      by_cases hbits : prev.bits ≠ score.bits
      · rw [if_pos hbits]
        refine ⟨h.guarded.replace hmember (Bool.not_eq_true _ |>.mp hnx) (fun hflag => ?_)
          (fun hflag => ?_), listed_insert h.listed hp, ?_, ⟨hadded, by dsimp only; omega⟩,
          fun _ hzero => ?_⟩
        · rw [hflag, Bool.true_and] at hgt
          exact F64.le_of_not_le hscore hprev hgt
        · rw [hflag, Bool.true_and] at hlt
          exact F64.le_of_not_le hprev hscore hlt
        · have hgrown := h.grown
          dsimp only
          rw [Std.ExtTreeMap.size_insert, if_pos (contains_of_some hmember)]
          exact hgrown
        · dsimp only at hzero
          omega
      · rwa [if_neg hbits]

theorem ZaddSoFar.run (hold : NanFree old) (hpairs : ∀ p ∈ pairs, p.1.isNan = false) :
    ZaddSoFar flags old pairs (pairs.foldl (zaddExtPair flags) ⟨old, 0, 0⟩) := by
  have hrest : ∀ (rest : List (F64 × String)) (acc : ZAddState), (∀ p ∈ rest, p ∈ pairs) →
      ZaddSoFar flags old pairs acc →
      ZaddSoFar flags old pairs (rest.foldl (zaddExtPair flags) acc) := by
    intro rest
    induction rest with
    | nil => exact fun acc _ h => h
    | cons p rest ih =>
        intro acc hsub h
        exact ih _ (fun q hq => hsub q (List.mem_cons_of_mem _ hq))
          (h.step hold hpairs (hsub p (List.mem_cons_self ..)))
  exact hrest pairs _ (fun _ hp => hp) (.start flags hold pairs)

/-! ## Without flags -/

theorem insert_same {v : F64} (h : old[member]? = some v) : old.insert member v = old := by
  apply Std.ExtTreeMap.ext_getElem?
  intro m
  by_cases hm : m = member
  · rw [hm, Std.ExtTreeMap.getElem?_insert_self, h]
  · exact getElem?_insert_of_ne hm old v

/-- Without flags one pair does what it does in `zadd`. -/
theorem zaddExtPair_plain (acc : ZAddState) (p : F64 × String) :
    ((zaddExtPair {} acc p).map, (zaddExtPair {} acc p).added) =
      zaddPair (acc.map, acc.added) p := by
  obtain ⟨score, member⟩ := p
  unfold zaddExtPair zaddPair
  dsimp only
  cases hmember : acc.map[member]? with
  | none =>
      rw [if_neg (not_contains_of_none hmember)]
      rfl
  | some prev =>
      rw [if_pos (contains_of_some hmember)]
      by_cases hbits : prev.bits = score.bits
      · have hsame : prev = score := by
          cases prev
          cases score
          exact congrArg F64.mk hbits
        rw [← hsame, insert_same hmember]
        simp
      · simp [hbits]

theorem zaddExtPair_foldl (pairs : List (F64 × String)) (acc : ZAddState) :
    ((pairs.foldl (zaddExtPair {}) acc).map, (pairs.foldl (zaddExtPair {}) acc).added) =
      pairs.foldl zaddPair (acc.map, acc.added) := by
  induction pairs generalizing acc with
  | nil => rfl
  | cons p pairs ih => rw [List.foldl_cons, List.foldl_cons, ih, zaddExtPair_plain]

end Storage

namespace Commands

open Storage (ZMap NanFree Guarded ZaddSoFar zaddPair zaddExtPair)

variable {env : Solo} {s : Keyspace} {k : String} {found after : Option (ZMap × Option Int)}
  {flags : ZAddFlags} {pairs : List (F64 × String)} {fo : FloatOps}

/-- The sorted set that is found, empty when there is none. -/
def zmapOf (found : Option (ZMap × Option Int)) : ZMap := found.elim ∅ Prod.fst

theorem getD_zset (found : Option (ZMap × Option Int)) :
    found.getD (∅, none) = (zmapOf found, found.bind Prod.snd) := by
  cases found <;> rfl

/-- What is found afterwards, and what was counted. -/
structure ZaddExact (flags : ZAddFlags) (pairs : List (F64 × String))
    (found after : Option (ZMap × Option Int)) (count : Int) : Prop where
  growth : flags.ch = false → count = (zmapOf after).size - (zmapOf found).size
  guarded : Guarded flags (zmapOf found) (zmapOf after)
  listed : ∀ (m : String) (v : F64), (zmapOf after)[m]? = some v →
    (zmapOf found)[m]? = some v ∨ (v, m) ∈ pairs
  absent : flags.xx = true → found = none → after = none

theorem ZaddExact.of_same {after' : Option (ZMap × Option Int)} {count : Int}
    (h : ZaddExact flags pairs found after count) (hsame : zmapOf after' = zmapOf after)
    (hxx : flags.xx = false) : ZaddExact flags pairs found after' count where
  growth := by
    rw [hsame]
    exact h.growth
  guarded := by
    rw [hsame]
    exact h.guarded
  listed := by
    rw [hsame]
    exact h.listed
  absent hflag := by
    rw [hxx] at hflag
    cases hflag

/-- What a run of `ZADD` comes to: what it replies, and what it leaves at its key. -/
def Comes {R : Type} (s : Keyspace) (k : String) (out : Result R × (Nat × Keyspace)) (r : Result R)
    (after : Option (ZMap × Option Int)) : Prop :=
  out.1 = r ∧ ∃ token, out.2.2 = Function.update s k (View.zset.holding after token)

theorem Comes.bind {R R' : Type} {p : KV R} {f : R → R'} {r : R}
    (h : Comes s k (env.runFrom 0 p s) (.ok r) after) :
    Comes s k (env.runFrom 0 (p.bind fun r => .done (.ok (f r))) s) (.ok (f r)) after := by
  obtain ⟨hreply, htoken⟩ := h
  rw [Solo.runFrom_step (show env.runFrom 0 p s = (.ok r, (env.runFrom 0 p s).2) from
    Prod.ext hreply rfl)]
  exact ⟨rfl, htoken⟩

theorem comes_noOp {R : Type} (hsees : env.Sees 0 s k View.zset found) (r : R) :
    Comes s k (env.casRuns 0 s k (.ok (.noOp r))) (.ok r) found := ⟨rfl, hsees.swept⟩

theorem comes_write {R : Type} (exp : Option Int) (map : ZMap) (r : R) :
    Comes s k (env.casRuns 0 s k (.ok (View.zset.write exp map r))) (.ok r) (some (map, exp)) :=
  ⟨rfl, _, rfl⟩

theorem comes_error {R : Type} (hsees : env.Sees 0 s k View.zset found) (e : RustyAntError) :
    Comes s k (env.casRuns 0 s k (.error e : Result (CasAction R))) (.error e) found :=
  ⟨rfl, hsees.swept⟩

section Loop

/-- What the loop with flags ends with. -/
def zaddLoop (flags : ZAddFlags) (pairs : List (F64 × String)) (map : ZMap) : Storage.ZAddState :=
  pairs.foldl (zaddExtPair flags) ⟨map, 0, 0⟩

def zaddLeaves (flags : ZAddFlags) (pairs : List (F64 × String))
    (found : Option (ZMap × Option Int)) : Option (ZMap × Option Int) :=
  let out := zaddLoop flags pairs (zmapOf found)
  if out.added = 0 ∧ out.updated = 0 then found else some (out.map, found.bind Prod.snd)

def zaddCount (flags : ZAddFlags) (pairs : List (F64 × String))
    (found : Option (ZMap × Option Int)) : Int :=
  let out := zaddLoop flags pairs (zmapOf found)
  if flags.ch then out.added + out.updated else out.added

theorem zaddExt_comes (h : env.Faultless) (hsees : env.Sees 0 s k View.zset found)
    (flags : ZAddFlags) (pairs : List (F64 × String)) :
    Comes s k (env.runFrom 0 (Storage.zaddExt k pairs flags) s)
      (.ok (zaddCount flags pairs found)) (zaddLeaves flags pairs found) := by
  have hcas : env.runFrom 0 (Storage.zaddExt k pairs flags) s = env.casRuns 0 s k
      (let out := zaddLoop flags pairs (zmapOf found)
        if out.added = 0 ∧ out.updated = 0 then .ok (.noOp (zaddCount flags pairs found))
        else .ok (View.zset.write (found.bind Prod.snd) out.map
          (zaddCount flags pairs found))) := by
    refine (hsees.cas h _).trans ?_
    rw [View.findOr_entry, getD_zset]
    rfl
  rw [hcas]
  unfold zaddLeaves
  dsimp only
  split
  · exact comes_noOp hsees _
  · exact comes_write _ _ _

theorem zadd_comes (h : env.Faultless) (hsees : env.Sees 0 s k View.zset found)
    (pairs : List (F64 × String)) :
    Comes s k (env.runFrom 0 (Storage.zadd k pairs) s)
      (.ok (zaddCount {} pairs found))
      (some ((zaddLoop {} pairs (zmapOf found)).map, found.bind Prod.snd)) := by
  have hloop := Storage.zaddExtPair_foldl pairs ⟨zmapOf found, 0, 0⟩
  have hcas : env.runFrom 0 (Storage.zadd k pairs) s = env.casRuns 0 s k
      (.ok (View.zset.write (found.bind Prod.snd)
        (pairs.foldl zaddPair (zmapOf found, 0)).1 (pairs.foldl zaddPair (zmapOf found, 0)).2)) := by
    refine (hsees.cas h _).trans ?_
    unfold Storage.zaddModify
    rw [View.findOr_entry, getD_zset]
    rfl
  rw [hcas, ← hloop]
  exact comes_write _ _ _

/-- Under `XX` nothing is added to an empty sorted set. -/
theorem zaddLoop_absent (hxx : flags.xx = true) (pairs : List (F64 × String)) :
    zaddLoop flags pairs ∅ = ⟨∅, 0, 0⟩ := by
  have hstep : ∀ p, zaddExtPair flags ⟨∅, 0, 0⟩ p = ⟨∅, 0, 0⟩ := by
    intro p
    unfold zaddExtPair
    dsimp only
    rw [Std.ExtTreeMap.getElem?_empty]
    exact if_pos hxx
  unfold zaddLoop
  induction pairs with
  | nil => rfl
  | cons p pairs ih => rw [List.foldl_cons, hstep, ih]

theorem zaddLoop_plain_added (hpairs : pairs ≠ []) : (zaddLoop {} pairs ∅).added ≠ 0 := by
  obtain ⟨⟨score, member⟩, rest, rfl⟩ := List.exists_cons_of_ne_nil hpairs
  have hloop := congrArg Prod.snd (Storage.zaddExtPair_foldl ((score, member) :: rest) ⟨∅, 0, 0⟩)
  have hadded : (zaddLoop {} ((score, member) :: rest) ∅).added =
      (((score, member) :: rest).foldl zaddPair (∅, 0)).2 := hloop
  have hsize := Std.ExtTreeMap.size_le_size_insertMany_list
    (t := (∅ : ZMap).insert member score) (l := rest.map Prod.swap)
  rw [Std.ExtTreeMap.size_insert, Std.ExtTreeMap.contains_empty, if_neg Bool.false_ne_true,
    Std.ExtTreeMap.size_empty, zero_add] at hsize
  rw [hadded, Storage.zaddPair_foldl, List.map_cons, Prod.swap_prod_mk,
    Std.ExtTreeMap.insertMany_cons]
  dsimp only
  rw [Std.ExtTreeMap.size_empty]
  omega

theorem zaddLeaves_exact (hnan : NanFree (zmapOf found))
    (hpairs : ∀ p ∈ pairs, p.1.isNan = false) :
    ZaddExact flags pairs found (zaddLeaves flags pairs found) (zaddCount flags pairs found) ∧
      zmapOf (zaddLeaves flags pairs found) = (zaddLoop flags pairs (zmapOf found)).map := by
  have hloop : ZaddSoFar flags (zmapOf found) pairs (zaddLoop flags pairs (zmapOf found)) :=
    .run hnan hpairs
  have hmap : zmapOf (zaddLeaves flags pairs found) =
      (zaddLoop flags pairs (zmapOf found)).map := by
    unfold zaddLeaves
    dsimp only
    split
    · rename_i hidle
      exact (hloop.idle hidle.1 hidle.2).symm
    · rfl
  refine ⟨⟨fun hch => ?_, ?_, ?_, fun hxx hnone => ?_⟩, hmap⟩
  · unfold zaddCount
    dsimp only
    rw [hch, if_neg Bool.false_ne_true, hmap]
    exact hloop.grown
  · rw [hmap]
    exact hloop.guarded
  · rw [hmap]
    exact hloop.listed
  · subst hnone
    unfold zaddLeaves
    rw [show zmapOf none = ∅ from rfl, zaddLoop_absent hxx]
    rfl

/-- Without flags both loops leave the same sorted set and count the same. -/
theorem zadd_plain_same (hnan : NanFree (zmapOf found)) (hpairs : ∀ p ∈ pairs, p.1.isNan = false) :
    (zaddLoop {} pairs (zmapOf found)).map = zmapOf (zaddLeaves {} pairs found) ∧
      (pairs ≠ [] → some ((zaddLoop {} pairs (zmapOf found)).map, found.bind Prod.snd) =
        zaddLeaves {} pairs found) := by
  have hmap : zmapOf (zaddLeaves {} pairs found) = _ := (zaddLeaves_exact hnan hpairs).2
  refine ⟨hmap.symm, fun hne => ?_⟩
  unfold zaddLeaves
  dsimp only
  cases found with
  | none =>
      have hadded := zaddLoop_plain_added hne
      rw [if_neg fun hidle => hadded hidle.1]
  | some p =>
      split
      · rename_i hidle
        have hloop : ZaddSoFar {} (zmapOf (some p)) pairs _ := .run hnan hpairs
        rw [show (zaddLoop {} pairs (zmapOf (some p))).map = _ from hloop.idle hidle.1 hidle.2]
        rfl
      · rfl

end Loop

/-! ## The increment -/

/-- What `ZADD INCR` leaves and answers: nothing changes with nil or an error, and otherwise the
answer is the score that is stored. -/
structure IncrExact (flags : ZAddFlags) (member : String) (found after : Option (ZMap × Option Int))
    (r : Result (Option F64)) : Prop where
  guarded : Guarded flags (zmapOf found) (zmapOf after)
  absent : flags.xx = true → found = none → after = none
  unchanged : (∀ v, r ≠ .ok (some v)) → after = found
  stored : ∀ v, r = .ok (some v) → (zmapOf after)[member]? = some v

theorem IncrExact.same {member : String} (hnan : NanFree (zmapOf found)) {r : Result (Option F64)}
    (hr : ∀ v, r ≠ .ok (some v)) : IncrExact flags member found found r where
  guarded := .refl hnan
  absent _ h := h
  unchanged _ := rfl
  stored v h := absurd h (hr v)

theorem IncrExact.insert {member : String} {score : F64} {exp : Option Int}
    (hguarded : Guarded flags (zmapOf found) ((zmapOf found).insert member score))
    (habsent : flags.xx = true → found ≠ none) :
    IncrExact flags member found (some ((zmapOf found).insert member score, exp))
      (.ok (some score)) where
  guarded := hguarded
  absent hxx hnone := absurd hnone (habsent hxx)
  unchanged h := absurd rfl (h score)
  stored v h := by
    cases h
    exact Std.ExtTreeMap.getElem?_insert_self

theorem zaddExtIncr_comes (h : env.Faultless) (hsees : env.Sees 0 s k View.zset found)
    (hnan : NanFree (zmapOf found)) (delta : F64) (member : String) (flags : ZAddFlags) :
    ∃ after r, Comes s k (env.runFrom 0 (Storage.zaddExtIncr fo k delta member flags) s) r after ∧
      IncrExact flags member found after r := by
  have hcas : env.runFrom 0 (Storage.zaddExtIncr fo k delta member flags) s =
      env.casRuns 0 s k (Storage.zaddExtIncrModify fo k delta member flags
        (View.zset.entry found)) := hsees.cas h _
  have hsame : ∀ r : Option F64, r = none → ∃ after r', Comes s k (env.casRuns 0 s k
      (.ok (.noOp r))) r' after ∧ IncrExact flags member found after r' := by
    rintro r rfl
    exact ⟨found, _, comes_noOp hsees none, .same hnan fun v hv => by cases hv⟩
  rw [hcas]
  unfold Storage.zaddExtIncrModify
  rw [View.findOr_entry, getD_zset, Result.ok_bind]
  dsimp only
  cases hmember : (zmapOf found)[member]? with
  | none =>
      dsimp only
      by_cases hxx : flags.xx = true
      · rw [if_pos hxx]
        exact hsame none rfl
      · rw [if_neg hxx]
        exact ⟨_, _, comes_write _ _ _, .insert
          ((Guarded.refl hnan).add hmember (Bool.not_eq_true _ |>.mp hxx) delta)
          fun hflag => absurd hflag hxx⟩
  | some prev =>
      have hprev := hnan member prev hmember
      dsimp only
      by_cases hnx : flags.nx = true
      · rw [if_pos hnx]
        exact hsame none rfl
      by_cases hcandidate : (fo.add prev delta).isNan = true
      · rw [if_neg hnx, if_pos hcandidate]
        exact ⟨found, _, comes_error hsees _, .same hnan fun v hv => by cases hv⟩
      by_cases hgt : (flags.gt && (fo.add prev delta).le prev) = true
      · rw [if_neg hnx, if_neg hcandidate, if_pos hgt]
        exact hsame none rfl
      by_cases hlt : (flags.lt && prev.le (fo.add prev delta)) = true
      · rw [if_neg hnx, if_neg hcandidate, if_neg hgt, if_pos hlt]
        exact hsame none rfl
      rw [if_neg hnx, if_neg hcandidate, if_neg hgt, if_neg hlt]
      rw [Bool.not_eq_true] at hnx hcandidate
      refine ⟨_, _, comes_write _ _ _, .insert ((Guarded.refl hnan).replace hmember hnx
        (fun hflag => ?_) fun hflag => ?_) fun _ hnone => ?_⟩
      · rw [hflag, Bool.true_and] at hgt
        exact F64.le_of_not_le hcandidate hprev hgt
      · rw [hflag, Bool.true_and] at hlt
        exact F64.le_of_not_le hprev hcandidate hlt
      · rw [hnone, show zmapOf none = ∅ from rfl, Std.ExtTreeMap.getElem?_empty] at hmember
        cases hmember

/-! ## The command -/

theorem no_flags_eq (h : ¬ (flags.nx || flags.xx || flags.gt || flags.lt || flags.ch) = true) :
    flags = {} := by
  obtain ⟨nx, xx, gt, lt, ch⟩ := flags
  simp only [Bool.or_eq_true, not_or, Bool.not_eq_true] at h
  obtain ⟨⟨⟨⟨rfl, rfl⟩, rfl⟩, rfl⟩, rfl⟩ := h
  rfl

/-- `ZADD` without `INCR` runs one of the two loops. -/
theorem handleZadd_comes (h : env.Faultless) (hsees : env.Sees 0 s k View.zset found)
    (hnan : NanFree (zmapOf found)) {args : List Bytes}
    (hparse : parseZadd fo args = .ok (k, flags, false, pairs))
    (hpairs : ∀ p ∈ pairs, p.1.isNan = false) :
    ∃ after count, Comes s k (env.run (handleZadd fo args) s) (.ok (.integer count)) after ∧
      ZaddExact flags pairs found after count := by
  have hexact : ZaddExact flags pairs found _ _ := (zaddLeaves_exact hnan hpairs).1
  by_cases hany : (flags.nx || flags.xx || flags.gt || flags.lt || flags.ch) = true
  · have hrun : env.run (handleZadd fo args) s =
        env.runFrom 0 ((Storage.zaddExt k pairs flags).bind fun count =>
          .done (.ok (.integer count))) s := by
      refine (Solo.runFrom_parse hparse).trans ?_
      dsimp only
      rw [if_neg Bool.false_ne_true, if_pos hany]
      rfl
    rw [hrun]
    exact ⟨_, _, (zaddExt_comes h hsees flags pairs).bind, hexact⟩
  · have hrun : env.run (handleZadd fo args) s =
        env.runFrom 0 ((Storage.zadd k pairs).bind fun count =>
          .done (.ok (.integer count))) s := by
      refine (Solo.runFrom_parse hparse).trans ?_
      dsimp only
      rw [if_neg Bool.false_ne_true, if_neg hany]
      rfl
    obtain rfl := no_flags_eq hany
    rw [hrun]
    exact ⟨_, _, (zadd_comes h hsees pairs).bind,
      hexact.of_same (zadd_plain_same hnan hpairs).1 rfl⟩

theorem handleZadd_incr_comes (h : env.Faultless) (hsees : env.Sees 0 s k View.zset found)
    (hnan : NanFree (zmapOf found)) {args : List Bytes} {delta : F64} {member : String}
    (hparse : parseZadd fo args = .ok (k, flags, true, [(delta, member)])) :
    ∃ after r, Comes s k (env.run (handleZadd fo args) s)
        (r.map fun score => score.elim .nil (scoreReply fo)) after ∧
      IncrExact flags member found after r := by
  obtain ⟨after, r, ⟨hreply, htoken⟩, hexact⟩ :=
    @zaddExtIncr_comes env s k found fo h hsees hnan delta member flags
  have hrun : env.run (handleZadd fo args) s =
      env.runFrom 0 ((Storage.zaddExtIncr fo k delta member flags).bind fun score =>
        .done (.ok (score.elim .nil (scoreReply fo)))) s := by
    refine (Solo.runFrom_parse hparse).trans ?_
    dsimp only
    rw [if_pos rfl]
    rfl
  refine ⟨after, r, ?_, hexact⟩
  rw [hrun, Solo.runFrom_bind]
  rw [show env.runFrom 0 (Storage.zaddExtIncr fo k delta member flags) s = (r, _) from
    Prod.ext hreply rfl]
  cases r with
  | error e => exact ⟨rfl, htoken⟩
  | ok score => exact ⟨rfl, htoken⟩

/-- `ZADD` under all its flags, on a sorted set without NaN or on an absent key. -/
theorem zadd_meets_flags (h : env.Faultless) (hsees : env.Sees 0 s k View.zset found)
    (hnan : NanFree (zmapOf found)) (fo : FloatOps) :
    (∀ pairs : List (F64 × String), (∀ p ∈ pairs, p.1.isNan = false) →
      ∃ after after' count,
        Comes s k (env.runFrom 0 (Storage.zadd k pairs) s) (.ok count) after ∧
        Comes s k (env.runFrom 0 (Storage.zaddExt k pairs {}) s) (.ok count) after' ∧
        zmapOf after = zmapOf after' ∧ (pairs ≠ [] → after = after')) ∧
    (∀ (flags : ZAddFlags) (pairs : List (F64 × String)), (∀ p ∈ pairs, p.1.isNan = false) →
      ∃ after count,
        Comes s k (env.runFrom 0 (Storage.zaddExt k pairs flags) s) (.ok count) after ∧
        ZaddExact flags pairs found after count) ∧
    (∀ args flags pairs, parseZadd fo args = .ok (k, flags, false, pairs) →
      (∀ p ∈ pairs, p.1.isNan = false) →
      ∃ after count, Comes s k (env.run (handleZadd fo args) s) (.ok (.integer count)) after ∧
        ZaddExact flags pairs found after count) ∧
    (∀ args flags delta member, parseZadd fo args = .ok (k, flags, true, [(delta, member)]) →
      ∃ after r, Comes s k (env.run (handleZadd fo args) s)
          (r.map fun score => score.elim .nil (scoreReply fo)) after ∧
        IncrExact flags member found after r) := by
  refine ⟨fun pairs hpairs => ?_, fun flags pairs hpairs => ?_,
    fun args flags pairs hparse hpairs => handleZadd_comes h hsees hnan hparse hpairs,
    fun args flags delta member hparse => handleZadd_incr_comes h hsees hnan hparse⟩
  · have hsame := zadd_plain_same hnan hpairs
    exact ⟨_, _, _, zadd_comes h hsees pairs, zaddExt_comes h hsees {} pairs, hsame.1, hsame.2⟩
  · exact ⟨_, _, zaddExt_comes h hsees flags pairs, (zaddLeaves_exact hnan hpairs).1⟩

/-- A sorted set with one member of score 1. -/
def oneMember : Keyspace :=
  Function.update (fun _ => none) "z"
    (some (⟨none, .zset ((∅ : ZMap).insert "m" F64.one)⟩, "t"))

theorem oneMember_sees : (Solo.still 0).Sees 0 oneMember "z" View.zset
    (some ((∅ : ZMap).insert "m" F64.one, none)) := Solo.Sees.of_live (V := View.zset) rfl rfl

theorem oneMember_nanFree :
    NanFree (zmapOf (some ((∅ : ZMap).insert "m" F64.one, none))) := by
  intro m v hv
  have hv : ((∅ : ZMap).insert "m" F64.one)[m]? = some v := hv
  by_cases hm : m = "m"
  · rw [hm, Std.ExtTreeMap.getElem?_insert_self] at hv
    rw [← Option.some.inj hv]
    decide
  · rw [Storage.getElem?_insert_of_ne hm, Std.ExtTreeMap.getElem?_empty] at hv
    cases hv

/-- Its score cannot sink under `GT`. -/
theorem zadd_gt_on_oneMember :
    ∃ after count, Comes oneMember "z"
        ((Solo.still 0).runFrom 0 (Storage.zaddExt "z" [(F64.zero, "m")] ⟨false, false, true, false, false⟩)
          oneMember) (.ok count) after ∧
      ZaddExact ⟨false, false, true, false, false⟩ [(F64.zero, "m")]
        (some ((∅ : ZMap).insert "m" F64.one, none)) after count :=
  (zadd_meets_flags (Solo.still_faultless 0) oneMember_sees oneMember_nanFree .integral).2.1 _ _
    (by decide)

end Commands
end RustyAnt
