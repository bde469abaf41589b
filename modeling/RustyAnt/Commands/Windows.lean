import RustyAnt.Commands.Strings
import RustyAnt.Commands.ZSets
import RustyAnt.Lib.Window
import RustyAnt.Storage.Lists
import RustyAnt.Storage.RoundTrip

/-!
# Index windows of the range commands

Five resolvers turn a pair of bounds into indices.  Three refuse the bounds that leave the
value; the two behind `LRANGE` and the rank ranges push both bounds inside before they
compare them, so a window that lies wholly outside can come to hold one end of the value.
-/

namespace RustyAnt

open Lib Lib.Window

namespace Commands

open Storage (ZMap resolveRange resolveTrimRange sliceStringRange sliceInclusive)

/-- The elements between two bounds that may be missing. -/
def cutOut {α : Type} (xs : List α) : Option (Nat × Nat) → List α
  | none => []
  | some (s, e) => sliceInclusive xs s e

variable {len : Nat} {start stop : Int}

/-- `resolve_range`, and the copy of it that the unified `ZRANGE` uses. -/
theorem resolveRange_eq (hlen : 0 < len) (hmax : (len : Int) ≤ i64Max) :
    resolveRange (toI64 len) start stop =
      let s := max (min (fromEnd len start) (len - 1)) 0
      let e := max (min (fromEnd len stop) (len - 1)) 0
      if e < s then none else some (s.toNat, e.toNat) := by
  have hnorm : ∀ i : Int, (if i < 0 then max ((len : Int) + i) 0 else min i ((len : Int) - 1)) =
      max (min (fromEnd len i) (len - 1)) 0 := by
    intro i
    unfold fromEnd
    split <;> omega
  unfold resolveRange
  rw [toI64_of_le hmax, if_neg (by omega)]
  simp only [hnorm start, hnorm stop]

theorem normalizeRankRange_eq (len start stop : Int) :
    normalizeRankRange len start stop = resolveRange len start stop := rfl

theorem resolveRange_le {len start stop : Int} {s e : Nat}
    (h : resolveRange len start stop = some (s, e)) : s ≤ e := by
  have hordered : ∀ a b : Int,
      (if b < a then none else some (a.toNat, b.toNat)) = some (s, e) → s ≤ e := by
    intro a b hab
    split at hab
    · cases hab
    · rename_i hle
      cases hab
      exact Int.toNat_le_toNat (not_lt.mp hle)
  unfold resolveRange at h
  split at h
  · cases h
  · exact hordered _ _ h

theorem resolveRange_window_iff (hmax : (len : Int) ≤ i64Max) :
    (∀ i, Between (resolveRange (toI64 len) start stop) i ↔ Window.Within len start stop i) ↔
      ¬ Strays len start stop := by
  rcases Nat.eq_zero_or_pos len with hzero | hlen
  · subst hzero
    have hnone : resolveRange (toI64 0) start stop = none := rfl
    rw [hnone]
    unfold Strays Window.Within
    simp
  · rw [← clamped_iff hlen, resolveRange_eq hlen hmax]
    apply forall_congr'
    intro i
    dsimp only
    split
    · have hout : ¬ (max (min (fromEnd len start) (len - 1)) 0 ≤ (i : Int) ∧
          (i : Int) ≤ max (min (fromEnd len stop) (len - 1)) 0) := by omega
      rw [iff_false_intro (not_between_none i), iff_false_intro hout]
    · have hin : (max (min (fromEnd len start) (len - 1)) 0).toNat ≤ i ∧
          i ≤ (max (min (fromEnd len stop) (len - 1)) 0).toNat ↔
          max (min (fromEnd len start) (len - 1)) 0 ≤ (i : Int) ∧
            (i : Int) ≤ max (min (fromEnd len stop) (len - 1)) 0 := by omega
      rw [between_some, hin]

/-- The three resolvers that refuse the bounds outside. -/
theorem refusing_window (hlen : 0 < len) (i : Nat) :
    (let s := if start < 0 then max ((len : Int) + start) 0 else start
     let e := if stop < 0 then (len : Int) + stop else min stop ((len : Int) - 1)
     ¬ ((len : Int) ≤ s ∨ e < 0 ∨ e < s) ∧ s.toNat ≤ i ∧ i ≤ e.toNat) ↔
      Window.Within len start stop i := by
  rw [← refused_iff]
  unfold fromEnd
  dsimp only
  split <;> split <;> omega

theorem resolveInclusiveRange_window (hmax : (len : Int) ≤ i64Max) (i : Nat) :
    Between (resolveInclusiveRange start stop len) i ↔ Window.Within len start stop i := by
  unfold resolveInclusiveRange
  split
  · rename_i hzero
    subst hzero
    unfold Window.Within
    simp
  · rename_i hlen
    rw [← refusing_window (by omega) i, toI64_of_le hmax]
    exact between_ite

/-- `resolve_trim_range` is the same resolver, with the bound past the last index. -/
theorem resolveTrimRange_eq (start stop : Int) (len : Nat) :
    resolveTrimRange len start stop =
      (resolveInclusiveRange start stop len).map fun p => (p.1, p.2 + 1) := by
  unfold resolveTrimRange resolveInclusiveRange
  simp only [apply_ite (Option.map _), Option.map_none, Option.map_some]

theorem sliceStringRange_eq (data : Bytes) (start stop : Int) :
    sliceStringRange data start stop =
      cutOut data (resolveInclusiveRange start stop data.length) := by
  unfold sliceStringRange resolveInclusiveRange
  cases data with
  | nil => rfl
  | cons b data =>
      have hcons : ¬ (b :: data).isEmpty = true := Bool.false_ne_true
      have hlen : ¬ (b :: data).length = 0 := Nat.succ_ne_zero _
      rw [if_neg hcons, if_neg hlen]
      dsimp only
      generalize (if start < 0 then _ else start : Int) = s
      generalize (if stop < 0 then _ else _ : Int) = e
      by_cases hout : toI64 (b :: data).length ≤ s ∨ e < 0 ∨ e < s
      · rw [if_pos hout, if_pos hout, cutOut]
      · rw [if_neg hout, if_neg hout, cutOut]

theorem between_resolveTrimRange {i : Nat} :
    (∃ s e, resolveTrimRange len start stop = some (s, e) ∧ s ≤ i ∧ i < e) ↔
      Between (resolveInclusiveRange start stop len) i := by
  rw [resolveTrimRange_eq]
  cases resolveInclusiveRange start stop len with
  | none => simp
  | some p =>
      obtain ⟨s, e⟩ := p
      rw [between_some]
      constructor
      · rintro ⟨s', e', hwindow, hs, he⟩
        cases hwindow
        exact ⟨hs, Nat.le_of_lt_succ he⟩
      · rintro ⟨hs, he⟩
        exact ⟨s, e + 1, rfl, hs, Nat.lt_succ_of_le he⟩

theorem cutOut_eq_pick {α : Type} {xs : List α} {bounds : Option (Nat × Nat)} {P : Nat → Prop}
    [DecidablePred P] (h : ∀ i, Between bounds i ↔ P i) : cutOut xs bounds = pick xs P := by
  cases bounds with
  | none => exact (pick_of_none fun i _ hi => not_between_none i ((h i).mpr hi)).symm
  | some p =>
      obtain ⟨s, e⟩ := p
      calc sliceInclusive xs s e = pick xs fun i => s ≤ i ∧ i ≤ e := (pick_between xs s e).symm
        _ = pick xs P := pick_congr fun i _ => between_some.symm.trans (h i)

/-! ## The commands -/

def trimmed (list : List Bytes) (start stop : Int) : List Bytes :=
  match resolveTrimRange list.length start stop with
  | none => []
  | some (s, e) => (list.take e).drop s

def listWindow (list : List Bytes) (start stop : Int) : List Bytes :=
  cutOut list (resolveRange (toI64 list.length) start stop)

theorem trimmed_eq (list : List Bytes) (start stop : Int) :
    trimmed list start stop = cutOut list (resolveInclusiveRange start stop list.length) := by
  unfold trimmed
  rw [resolveTrimRange_eq]
  cases resolveInclusiveRange start stop list.length with
  | none => rfl
  | some p => exact List.drop_take

theorem length_sortedZset (map : ZMap) : (Storage.sortedZset map).length = map.size := by
  unfold Storage.sortedZset
  rw [List.length_insertionSort, Std.ExtTreeMap.length_toList]

theorem partitionZsetByRank_none {map : ZMap}
    (h : resolveRange (toI64 map.size) start stop = none) :
    Storage.partitionZsetByRank map start stop = (map, 0) := by
  unfold Storage.partitionZsetByRank
  dsimp only
  rw [length_sortedZset, h]
  have hperm : (Storage.sortedZset map).Perm map.toList := List.perm_insertionSort _ _
  exact congrArg (·, 0) (btreeMap_ofList_perm hperm)

/-- Everything the windows of one length and one pair of bounds are used for agrees. -/
structure WindowsAgree (len : Nat) (start stop : Int) : Prop where
  range : ∀ i, Between (resolveRange (toI64 len) start stop) i ↔ Window.Within len start stop i
  rank : ∀ i, Between (normalizeRankRange (toI64 len) start stop) i ↔ Window.Within len start stop i
  trim : ∀ i, (∃ s e, resolveTrimRange len start stop = some (s, e) ∧ s ≤ i ∧ i < e) ↔
    Window.Within len start stop i
  bits : ∀ i, Between (resolveInclusiveRange start stop len) i ↔ Window.Within len start stop i
  string : ∀ data : Bytes, data.length = len →
    sliceStringRange data start stop = pick data (Window.Within len start stop)
  kept : ∀ list : List Bytes, list.length = len →
    trimmed list start stop = listWindow list start stop
  removed : ∀ map : ZMap, map.size = len → (∀ i, ¬ Window.Within len start stop i) →
    Storage.partitionZsetByRank map start stop = (map, 0)

theorem windows_agree_iff (len : Nat) (hlen : (len : Int) ≤ i64Max) (start stop : Int) :
    WindowsAgree len start stop ↔ ¬ Strays len start stop := by
  constructor
  · intro h
    exact (resolveRange_window_iff hlen).mp h.range
  · intro h
    have hrange : ∀ i, Between (resolveRange (toI64 len) start stop) i ↔
        Window.Within len start stop i := (resolveRange_window_iff hlen).mpr h
    have hbits : ∀ i, Between (resolveInclusiveRange start stop len) i ↔
        Window.Within len start stop i := resolveInclusiveRange_window hlen
    constructor
    · exact hrange
    · exact hrange
    · intro i
      exact between_resolveTrimRange.trans (hbits i)
    · exact hbits
    · intro data hdata
      subst hdata
      rw [sliceStringRange_eq]
      exact cutOut_eq_pick hbits
    · intro list hlist
      subst hlist
      rw [trimmed_eq]
      exact (cutOut_eq_pick hbits).trans (cutOut_eq_pick hrange).symm
    · intro map hmap hout
      subst hmap
      apply partitionZsetByRank_none
      cases hbounds : resolveRange (toI64 map.size) start stop with
      | none => rfl
      | some p =>
          obtain ⟨s, e⟩ := p
          have hin : Window.Within map.size start stop s :=
            (hrange s).mp ⟨s, e, hbounds, Nat.le_refl s, resolveRange_le hbounds⟩
          exact absurd hin (hout s)

/-- `LRANGE key 5 10` on three elements returns the last one, which `LTRIM` drops. -/
theorem windows_agree_past : ¬ WindowsAgree 3 5 10 := by
  intro h
  have hlast : Window.Within 3 5 10 2 := (h.range 2).mp ⟨2, 2, by decide, by decide, by decide⟩
  exact absurd hlast (by decide)

theorem windows_agree_inside : WindowsAgree 3 (-2) 10 :=
  (windows_agree_iff 3 (by decide) (-2) 10).mpr (by decide)

end Commands

end RustyAnt
