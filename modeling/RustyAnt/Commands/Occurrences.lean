import RustyAnt.Commands.Lists
import RustyAnt.Lib.Occurrence
import RustyAnt.Storage.Solo

/-!
# Occurrences in a list

`LREM` takes occurrences of an element out of a list and `LPOS` says where they are.
-/

namespace RustyAnt

open Lib Lib.Occurrence

namespace Commands

open Storage (removeFront removeListOccurrences scanPositions scanListPositions)

/-! ## LREM -/

section Lrem

variable {target : Bytes} {count : Int} {L : List Bytes}

/-- How many of the occurrences a count asks for. -/
def lremCount (count : Int) (occurrences : Nat) : Nat :=
  if count = 0 then occurrences else min count.natAbs occurrences

/-- The leftmost or the rightmost ones are taken out, by the sign of the count. -/
def WithoutCount (count : Int) (target : Bytes) (L kept : List Bytes) : Prop :=
  if count < 0 then WithoutRightmost target (lremCount count (L.count target)) L kept
  else WithoutLeftmost target (lremCount count (L.count target)) L kept

theorem removeFront_spec (target : Bytes) {max removed : Int} (h : removed ≤ max)
    (L : List Bytes) :
    ∃ kept, WithoutLeftmost target (min (max - removed).toNat (L.count target)) L kept ∧
      removeFront target max removed L =
        (kept, removed + min (max - removed).toNat (L.count target)) := by
  induction L generalizing removed with
  | nil =>
      rw [List.count_nil, Nat.min_zero]
      exact ⟨[], .zero target [], by simp [removeFront]⟩
  | cons v L ih =>
      unfold removeFront
      by_cases hfull : max ≤ removed
      · have hnone : (max - removed).toNat = 0 := by omega
        rw [if_pos hfull, hnone, Nat.zero_min]
        exact ⟨v :: L, .zero target _, by simp⟩
      · rw [if_neg hfull]
        by_cases hv : v = target
        · subst hv
          obtain ⟨kept, hkept, hrest⟩ := ih (by omega : removed + 1 ≤ max)
          have hcount : min (max - removed).toNat ((v :: L).count v) =
              min (max - (removed + 1)).toNat (L.count v) + 1 := by
            rw [List.count_cons_self]
            omega
          rw [if_pos rfl, hrest, hcount]
          exact ⟨kept, hkept.remove, by push_cast; congr 1; omega⟩
        · obtain ⟨kept, hkept, hrest⟩ := ih h
          rw [if_neg hv, hrest, List.count_cons_of_ne hv]
          exact ⟨v :: kept, hkept.skip hv, rfl⟩

theorem removeListOccurrences_spec (target : Bytes) (hlen : (L.length : Int) ≤ i64Max) (hcount : InI64 count)
    (hmin : count ≠ i64Min) :
    ∃ kept, WithoutCount count target L kept ∧
      removeListOccurrences L target count = (kept, ((lremCount count (L.count target) : Nat) : Int)) := by
  have hle : L.count target ≤ L.length := List.count_le_length
  unfold i64Max at hlen
  unfold InI64 i64Min i64Max at hcount
  unfold i64Min at hmin
  unfold WithoutCount removeListOccurrences
  by_cases hneg : count < 0
  · have hwrap : wrapI64 (-count) = -count := by
      rw [wrapI64_eq_iff]
      unfold InI64 i64Min i64Max
      omega
    obtain ⟨kept, hkept, hrun⟩ :=
      removeFront_spec target (by omega : 0 ≤ -count) L.reverse
    have hnumber : min (-count - 0).toNat (L.reverse.count target) =
        lremCount count (L.count target) := by
      unfold lremCount
      rw [List.count_reverse, if_neg (by omega)]
      omega
    rw [hnumber] at hkept hrun
    have hreverse := hkept.reverse
    rw [List.reverse_reverse] at hreverse
    refine ⟨kept.reverse, ?_, ?_⟩
    · rwa [if_pos hneg]
    · rw [if_neg (by omega), hwrap, hrun, zero_add]
  · have hbound : (0 : Int) ≤ if count = 0 then i64Max else count := by
      unfold i64Max
      split
      · decide
      · omega
    obtain ⟨kept, hkept, hrun⟩ := removeFront_spec target hbound L
    have hnumber : min ((if count = 0 then i64Max else count) - 0).toNat (L.count target) =
        lremCount count (L.count target) := by
      unfold lremCount i64Max
      split
      · omega
      · omega
    rw [hnumber] at hkept hrun
    refine ⟨kept, ?_, ?_⟩
    · rwa [if_neg hneg]
    · rw [if_pos (by omega), hrun, zero_add]

/-- The negation of the smallest count wraps to itself, and no occurrence is taken out. -/
theorem removeListOccurrences_min (L : List Bytes) (target : Bytes) :
    removeListOccurrences L target i64Min = (L, 0) := by
  have hnone : ∀ L, removeFront target (wrapI64 (-i64Min)) 0 L = (L, 0) := by
    intro L
    cases L with
    | nil => rfl
    | cons v L => exact if_pos (by decide)
  unfold removeListOccurrences
  rw [if_neg (by decide), hnone]
  dsimp only
  rw [List.reverse_reverse]

variable {env : Solo} {s : Keyspace} {k token : String} {exp : Option Int}

/-- `LREM` takes out and replies what it is asked for.  A list with nothing left is deleted, and
no other key is touched. -/
def LremExact (s : Keyspace) (k : String) (exp : Option Int) (L : List Bytes) (count : Int)
    (target : Bytes) (out : Result RespReply × (Nat × Keyspace)) : Prop :=
  ∃ (kept : List Bytes) (token : String), WithoutCount count target L kept ∧
    out.1 = .ok (.integer (lremCount count (L.count target) : Nat)) ∧
    out.2.2 = Function.update s k
      (if kept = [] then none else some (⟨exp, .list kept⟩, token))

/-- What `LREM` replies and leaves. -/
theorem handleLrem_runs (h : env.Faultless)
    (hseen : env.seen 0 s k = some (⟨exp, .list L⟩, token)) {arg : Bytes}
    (harg : parseI64 arg "count" = .ok count) (target : Bytes) :
    let left := removeListOccurrences L target count
    let out := env.run (handleLrem [Rdb.asBytes k, arg, target]) s
    out.1 = .ok (.integer left.2) ∧ ∃ token, out.2.2 = Function.update s k
      (if left.1 = [] then none else some (⟨exp, .list left.1⟩, token)) := by
  have hrem : env.runFrom 0 (Storage.lrem k count target) s = env.casRuns 0 s k
      (.ok (View.list.writeOrDelete exp (removeListOccurrences L target count).1
        (removeListOccurrences L target count).2)) := Solo.cas_seen h hseen _
  have hrun : env.run (handleLrem [Rdb.asBytes k, arg, target]) s =
      env.runFrom 0 ((Storage.lrem k count target).bind fun removed =>
        .done (.ok (.integer removed))) s := by
    refine (Solo.runFrom_parse (argAsStr_asBytes k)).trans ?_
    exact Solo.runFrom_parse harg
  obtain ⟨n', token', hcas⟩ := Solo.casRuns_writeOrDelete env 0 s k View.list exp
    (removeListOccurrences L target count).1 (removeListOccurrences L target count).2
  dsimp only
  rw [hrun, Solo.runFrom_bind, hrem, hcas]
  refine ⟨rfl, token', ?_⟩
  simp only [← List.isEmpty_iff]
  rfl

theorem lrem_min_not_exact (h : env.Faultless)
    (hseen : env.seen 0 s k = some (⟨exp, .list L⟩, token)) {arg : Bytes}
    (harg : parseI64 arg "count" = .ok i64Min) (hmem : target ∈ L) :
    ¬ LremExact s k exp L i64Min target
      (env.run (handleLrem [Rdb.asBytes k, arg, target]) s) := by
  rintro ⟨kept, _, -, hasked, -⟩
  have hpos := List.count_pos_iff.mpr hmem
  have hreply := (handleLrem_runs h hseen harg target).1
  rw [removeListOccurrences_min] at hreply
  have hzero := RespReply.integer.inj (Except.ok.inj (hreply.symm.trans hasked))
  unfold lremCount i64Min at hzero
  rw [if_neg (by decide)] at hzero
  dsimp only at hzero
  omega

/-- `LREM` is exact on every count but the smallest one, and on that one when there is nothing to
take out. -/
theorem lrem_exact_iff (h : env.Faultless)
    (hseen : env.seen 0 s k = some (⟨exp, .list L⟩, token))
    (hlen : (L.length : Int) ≤ i64Max) {arg : Bytes}
    (harg : parseI64 arg "count" = .ok count) (target : Bytes) :
    LremExact s k exp L count target (env.run (handleLrem [Rdb.asBytes k, arg, target]) s) ↔
      count ≠ i64Min ∨ target ∉ L := by
  obtain ⟨hreply, token', hstate⟩ := handleLrem_runs h hseen harg target
  have hcount := parseI64_inI64 harg
  by_cases hmin : count = i64Min
  · subst hmin
    by_cases hmem : target ∈ L
    · exact iff_of_false (lrem_min_not_exact h hseen harg hmem) (by simp [hmem])
    · have hzero : lremCount i64Min (L.count target) = 0 := by
        rw [List.count_eq_zero_of_not_mem hmem]
        rfl
      rw [removeListOccurrences_min] at hreply hstate
      refine iff_of_true ⟨L, token', ?_, ?_, hstate⟩ (.inr hmem)
      · unfold WithoutCount
        rw [if_pos (by decide), hzero]
        exact ⟨L, [], (List.append_nil L).symm, rfl, (List.append_nil L).symm⟩
      · rw [hreply, hzero]
        rfl
  · obtain ⟨kept, hkept, hspec⟩ := removeListOccurrences_spec target hlen hcount hmin
    rw [hspec] at hreply hstate
    exact iff_of_true ⟨kept, token', hkept, hreply, hstate⟩ (.inl hmin)

/-- The list `a b a`. -/
def abaList : Keyspace :=
  Function.update (fun _ => none) "k" (some (⟨none, .list [[97], [98], [97]]⟩, "t"))

theorem abaList_seen : (Solo.still 0).seen 0 abaList "k" =
    some (⟨none, .list [[97], [98], [97]]⟩, "t") := Solo.seen_of_live rfl rfl

theorem lrem_exact_on_abaList :
    LremExact abaList "k" none [[97], [98], [97]] (-1) [97] ((Solo.still 0).run
      (handleLrem [Rdb.asBytes "k", Decimal.intBytes (-1), [97]]) abaList) :=
  (lrem_exact_iff (Solo.still_faultless 0) abaList_seen (by decide)
    (parseI64_intBytes (by decide) (by decide) "count") [97]).mpr (.inl (by decide))

/-- `LREM k -9223372036854775808 a` leaves both occurrences. -/
theorem lrem_inexact_on_abaList :
    ¬ LremExact abaList "k" none [[97], [98], [97]] i64Min [97] ((Solo.still 0).run
      (handleLrem [Rdb.asBytes "k", Decimal.intBytes i64Min, [97]]) abaList) :=
  lrem_min_not_exact (Solo.still_faultless 0) abaList_seen
    (parseI64_intBytes (by decide) (by decide) "count") (by decide)

end Lrem

/-! ## LPOS -/

section Lpos

variable {element : Bytes} {L : List Bytes} {env : Solo} {s : Keyspace} {k token : String}
  {exp : Option Int}

/-- As many as a count asks for: one without it, and all of them for zero. -/
def cutHits {α : Type} (count : Option Nat) (hits : List α) : List α :=
  count.elim (hits.take 1) fun c => if c = 0 then hits else hits.take c

theorem cutHits_sublist {α : Type} (count : Option Nat) (hits : List α) :
    (cutHits count hits).Sublist hits := by
  cases count with
  | none => exact List.take_sublist 1 hits
  | some c =>
      show (if c = 0 then hits else hits.take c).Sublist hits
      split
      · exact .refl hits
      · exact List.take_sublist c hits

theorem cutHits_map {α β : Type} (f : α → β) (count : Option Nat) (hits : List α) :
    cutHits count (hits.map f) = (cutHits count hits).map f := by
  cases count with
  | none => exact List.map_take.symm
  | some c =>
      show (if c = 0 then hits.map f else (hits.map f).take c) =
        (if c = 0 then hits else hits.take c).map f
      split
      · rfl
      · exact List.map_take.symm

/-- What `LPOS` is to reply: the occurrences among the elements that are compared, in the order
of the walk, without those that the rank skips, and as many as are asked for. -/
def lposSpec (element : Bytes) (L : List Bytes) (rank : Int) (count : Option Nat) (maxlen : Nat) :
    List Nat :=
  cutHits count ((found element L (walk (decide (0 < rank)) L.length)
    (if maxlen = 0 then L.length else maxlen)).drop (rank.natAbs - 1))

theorem scanPositions_eq {wanted hits : Nat} (h : hits < wanted) (cap skip : Nat)
    (l : List (Bytes × Nat)) :
    scanPositions element wanted cap skip hits l =
      ((((l.take cap).filter fun p => p.1 = element).drop skip).take (wanted - hits)).map
        fun p => toI64 p.2 := by
  induction l generalizing cap skip hits with
  | nil => simp [scanPositions]
  | cons p l ih =>
      obtain ⟨v, idx⟩ := p
      cases cap with
      | zero => simp [scanPositions]
      | succ cap =>
          unfold scanPositions
          rw [List.take_succ_cons]
          by_cases hv : v = element
          · rw [if_pos hv, List.filter_cons_of_pos (by simpa using hv)]
            cases skip with
            | succ skip =>
                rw [if_pos (Nat.succ_pos skip), List.drop_succ_cons]
                exact ih h cap skip
            | zero =>
                rw [if_neg (lt_irrefl 0), List.drop_zero]
                obtain ⟨left, hleft⟩ := Nat.exists_eq_add_of_lt h
                rw [show wanted - hits = left + 1 by omega, List.take_succ_cons, List.map_cons]
                by_cases hlast : wanted ≤ hits + 1
                · rw [if_pos hlast, show left = 0 by omega, List.take_zero]
                  rfl
                · rw [if_neg hlast, ih (by omega), List.drop_zero,
                    show wanted - (hits + 1) = left by omega]
          · rw [if_neg hv, List.filter_cons_of_neg (by simpa using hv)]
            exact ih h cap skip

/-- The elements that are `element`, by their positions. -/
theorem filter_positions {l : List (Bytes × Nat)} (h : ∀ p ∈ l, L[p.2]? = some p.1) :
    (l.filter fun p => p.1 = element).map Prod.snd =
      (l.map Prod.snd).filter fun i => L[i]? = some element := by
  rw [List.filter_map]
  congr 1
  apply List.filter_congr
  intro p hp
  rw [Function.comp_apply, h p hp, decide_eq_decide, Option.some_inj]

theorem zipIdx_walk (L : List Bytes) (rank : Int) :
    (if 0 < rank then L.zipIdx else L.zipIdx.reverse).map Prod.snd =
      walk (decide (0 < rank)) L.length := by
  have hrange : L.zipIdx.map Prod.snd = List.range L.length := by
    rw [List.zipIdx_map_snd, List.range_eq_range']
  by_cases hrank : 0 < rank
  · rw [if_pos hrank, decide_eq_true hrank, hrange]
    rfl
  · rw [if_neg hrank, decide_eq_false hrank, List.map_reverse, hrange]
    rfl

theorem mem_zipIdx_walk {rank : Int} {p : Bytes × Nat}
    (h : p ∈ if 0 < rank then L.zipIdx else L.zipIdx.reverse) : L[p.2]? = some p.1 := by
  rw [← List.mem_zipIdx_iff_getElem?]
  by_cases hrank : 0 < rank
  · rwa [if_pos hrank] at h
  · rw [if_neg hrank] at h
    exact List.mem_reverse.mp h

theorem getElem?_of_mem_lposSpec {rank : Int} {count : Option Nat} {maxlen i : Nat}
    (h : i ∈ lposSpec element L rank count maxlen) : L[i]? = some element :=
  mem_found (List.mem_of_mem_drop ((cutHits_sublist _ _).subset h))

theorem lposSpec_nodup (element : Bytes) (L : List Bytes) (rank : Int) (count : Option Nat)
    (maxlen : Nat) : (lposSpec element L rank count maxlen).Nodup :=
  (nodup_found (nodup_walk _ _) _).sublist
    ((cutHits_sublist _ _).trans (List.drop_sublist _ _))

theorem lposSpec_mirror (element : Bytes) (L : List Bytes) {rank : Int} (hrank : rank ≠ 0)
    (count : Option Nat) (maxlen : Nat) :
    lposSpec element L (-rank) count maxlen =
      (lposSpec element L.reverse rank count maxlen).map fun i => L.length - 1 - i := by
  have hforward : decide (0 < -rank) = !decide (0 < rank) := by
    rw [← decide_not, decide_eq_decide]
    omega
  unfold lposSpec
  rw [hforward, Int.natAbs_neg, List.length_reverse, found_mirror, ← List.map_drop, cutHits_map]

theorem scanListPositions_eq (hlen : (L.length : Int) ≤ i64Max) {rank : Int} (hrank : rank ≠ 0)
    (element : Bytes) (count : Option Nat) (maxlen : Nat) :
    scanListPositions L element rank (count.elim 1 fun c => if c = 0 then 2 ^ 64 - 1 else c)
      maxlen = (lposSpec element L rank count maxlen).map fun i : Nat => (i : Int) := by
  have hsmall : ∀ i ∈ lposSpec element L rank count maxlen, toI64 i = i := by
    intro i hi
    obtain ⟨hlt, -⟩ := List.getElem?_eq_some_iff.mp (getElem?_of_mem_lposSpec hi)
    exact toI64_of_le (by omega)
  have hcut : ∀ hits : List Nat, hits.length ≤ L.length →
      hits.take (count.elim 1 fun c => if c = 0 then 2 ^ 64 - 1 else c) = cutHits count hits := by
    intro hits hle
    unfold i64Max at hlen
    cases count with
    | none => rfl
    | some c =>
        show hits.take (if c = 0 then 2 ^ 64 - 1 else c) = if c = 0 then hits else hits.take c
        split
        · exact List.take_of_length_le (by omega)
        · rfl
  have hwanted : 0 < count.elim 1 fun c => if c = 0 then 2 ^ 64 - 1 else c := by
    cases count with
    | none => exact Nat.one_pos
    | some c =>
        show 0 < if c = 0 then 2 ^ 64 - 1 else c
        split
        · decide
        · omega
  have hvisited : ∀ p ∈ (if 0 < rank then L.zipIdx else L.zipIdx.reverse).take
      (if maxlen = 0 then L.length else maxlen), L[p.2]? = some p.1 :=
    fun p hp => mem_zipIdx_walk (List.mem_of_mem_take hp)
  have hhits := @filter_positions element L _ hvisited
  rw [List.map_take, zipIdx_walk] at hhits
  rw [← List.map_congr_left hsmall]
  unfold scanListPositions
  by_cases hnil : L = []
  · have hnone : lposSpec element L rank count maxlen = [] := by
      rw [List.eq_nil_iff_forall_not_mem]
      intro i hi
      have hlookup := getElem?_of_mem_lposSpec hi
      rw [hnil] at hlookup
      cases hlookup
    rw [if_pos (.inr (.inl (List.isEmpty_iff.mpr hnil))), hnone]
    rfl
  · have hgo : ¬ (rank = 0 ∨ L.isEmpty = true ∨
        (count.elim 1 fun c => if c = 0 then 2 ^ 64 - 1 else c) = 0) := by
      rintro (hzero | hempty | hzero)
      · exact hrank hzero
      · exact hnil (List.isEmpty_iff.mp hempty)
      · exact hwanted.ne' hzero
    rw [if_neg hgo]
    dsimp only
    rw [scanPositions_eq hwanted, Nat.sub_zero, ← Function.comp_def toI64, ← List.map_map,
      List.map_take, List.map_drop, hhits]
    congr 1
    apply hcut
    rw [List.length_drop]
    refine (Nat.sub_le _ _).trans ((List.length_filter_le _ _).trans ?_)
    rw [List.length_take, length_walk]
    exact Nat.min_le_right _ _

/-- The first position or nil without a count, and an array with one. -/
def lposReply (count : Option Nat) (hits : List Nat) : RespReply :=
  if count.isSome then .array (hits.map fun i : Nat => .integer i)
  else hits.head?.elim .nil fun i : Nat => .integer i

theorem handleLpos_runs (h : env.Faultless)
    (hseen : env.seen 0 s k = some (⟨exp, .list L⟩, token))
    (hlen : (L.length : Int) ≤ i64Max) {args : List Bytes} {opts : LposOpts}
    (hargs : parseLposOpts args {} = .ok opts) (hrank : opts.rank ≠ 0) (element : Bytes) :
    env.run (handleLpos (Rdb.asBytes k :: element :: args)) s =
      (.ok (lposReply opts.count (lposSpec element L opts.rank opts.count opts.maxlen)), 1, s) := by
  have hread : env.runFrom 0 (Storage.lpos k element opts.rank opts.count opts.maxlen) s =
      (.ok (scanListPositions L element opts.rank
        (opts.count.elim 1 fun c => if c = 0 then 2 ^ 64 - 1 else c) opts.maxlen), 1, s) :=
    Solo.read_seen h hseen [] _
  rw [scanListPositions_eq hlen hrank] at hread
  refine (Solo.runFrom_parse (argAsStr_asBytes k)).trans ?_
  refine (Solo.runFrom_parse hargs).trans ?_
  refine (Solo.runFrom_step hread).trans ?_
  unfold lposReply
  rw [List.map_map, List.head?_map, Option.elim_map]
  rfl

theorem handleLindex_runs (h : env.Faultless)
    (hseen : env.seen 0 s k = some (⟨exp, .list L⟩, token))
    (hlen : (L.length : Int) ≤ i64Max) {i : Nat} (hi : L[i]? = some element) :
    env.run (handleLindex [Rdb.asBytes k, Decimal.intBytes i]) s =
      (.ok (.bulkString (some element)), 1, s) := by
  obtain ⟨hlt, -⟩ := List.getElem?_eq_some_iff.mp hi
  have hread : env.runFrom 0 (Storage.lindex k i) s =
      (.ok ((Storage.resolveIndex (toI64 L.length) i).bind fun i => L[i]?), 1, s) :=
    Solo.read_seen h hseen none _
  have hindex : Storage.resolveIndex (toI64 L.length) i = some i := by
    unfold Storage.resolveIndex
    rw [toI64_of_le hlen]
    dsimp only
    rw [if_neg (by omega), if_neg (by omega), Int.toNat_natCast]
  have hmin : i64Min ≤ (i : Int) := by
    unfold i64Min
    omega
  rw [hindex, Option.bind_some, hi] at hread
  refine (Solo.runFrom_parse (argAsStr_asBytes k)).trans ?_
  refine (Solo.runFrom_parse (parseI64_intBytes hmin (by omega) "index")).trans ?_
  exact Solo.runFrom_step hread

/-- `LPOS` replies what it is specified to reply: each position it replies holds the element and
none is replied twice, and the walk from the other end of the reversed list mirrors it. -/
theorem lpos_meets_spec (h : env.Faultless)
    (hseen : env.seen 0 s k = some (⟨exp, .list L⟩, token))
    (hlen : (L.length : Int) ≤ i64Max) {args : List Bytes} {opts : LposOpts}
    (hargs : parseLposOpts args {} = .ok opts) (hrank : opts.rank ≠ 0) (element : Bytes) :
    let hits := lposSpec element L opts.rank opts.count opts.maxlen
    (env.run (handleLpos (Rdb.asBytes k :: element :: args)) s).1 =
      .ok (lposReply opts.count hits) ∧
    (∀ i ∈ hits, (env.run (handleLindex [Rdb.asBytes k, Decimal.intBytes i]) s).1 =
      .ok (.bulkString (some element))) ∧
    hits.Nodup ∧
    ∀ (s' : Keyspace) (exp' : Option Int) (token' : String) (args' : List Bytes),
      env.seen 0 s' k = some (⟨exp', .list L.reverse⟩, token') →
      parseLposOpts args' {} = .ok { opts with rank := -opts.rank } →
      (env.run (handleLpos (Rdb.asBytes k :: element :: args')) s').1 =
        .ok (lposReply opts.count (hits.map fun i => L.length - 1 - i)) := by
  refine ⟨?_, ?_, lposSpec_nodup _ _ _ _ _, ?_⟩
  · rw [handleLpos_runs h hseen hlen hargs hrank]
  · intro i hi
    rw [handleLindex_runs h hseen hlen (getElem?_of_mem_lposSpec hi)]
  · intro s' exp' token' args' hseen' hargs'
    have hlen' : (L.reverse.length : Int) ≤ i64Max := by
      rwa [List.length_reverse]
    rw [handleLpos_runs h hseen' hlen' hargs' (neg_ne_zero.mpr hrank)]
    dsimp only
    rw [lposSpec_mirror _ _ hrank, List.reverse_reverse, List.length_reverse]

theorem parseLposOpts_rank {tok v : Bytes} {rest : List Bytes} {opts : LposOpts}
    (h : optionWord tok = .ok "RANK") :
    parseLposOpts (tok :: v :: rest) opts = parseI64 v "RANK" >>= fun rank =>
      if rank = 0 then .error (.parse "RANK can't be zero")
      else parseLposOpts rest { opts with rank } := by
  delta parseLposOpts
  dsimp only [List.brecOn, List.brecOn.go, List.rec]
  show (optionWord tok >>= _) = _
  rw [h]
  rfl

/-- `LPOS k a RANK -1` on `a b a`. -/
theorem lpos_on_abaList :
    ((Solo.still 0).run (handleLpos [Rdb.asBytes "k", [97], Rdb.asBytes "RANK",
      Decimal.intBytes (-1)]) abaList).1 = .ok (.integer 2) := by
  have hword : optionWord (Rdb.asBytes "RANK") = .ok "RANK" := by
    rw [optionWord_asBytes]
    decide +kernel
  have hargs : parseLposOpts [Rdb.asBytes "RANK", Decimal.intBytes (-1)] {} =
      .ok { rank := -1 } := by
    rw [parseLposOpts_rank hword, parseI64_intBytes (by decide) (by decide)]
    rfl
  exact (lpos_meets_spec (Solo.still_faultless 0) abaList_seen (by decide) hargs (by decide)
    [97]).1

end Lpos

end Commands

end RustyAnt
