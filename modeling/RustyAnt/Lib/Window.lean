import Mathlib.Data.List.Basic
import Mathlib.Order.Defs.LinearOrder

/-!
# Index windows

An inclusive window over a list of `len` elements.  A bound that is negative counts from
the end; the first bound is then at least zero.
-/

namespace RustyAnt.Lib.Window

/-- The index that a bound stands for. -/
def fromEnd (len : Nat) (bound : Int) : Int := if bound < 0 then len + bound else bound

/-- The indices of the window. -/
def Within (len : Nat) (start stop : Int) (i : Nat) : Prop :=
  i < len ∧ max (fromEnd len start) 0 ≤ i ∧ (i : Int) ≤ fromEnd len stop

instance (len : Nat) (start stop : Int) : DecidablePred (Within len start stop) :=
  fun _ => inferInstanceAs (Decidable (_ ∧ _))

/-- The indices between two bounds that may be missing. -/
def Between (bounds : Option (Nat × Nat)) (i : Nat) : Prop :=
  ∃ s e, bounds = some (s, e) ∧ s ≤ i ∧ i ≤ e

@[simp] theorem not_between_none (i : Nat) : ¬ Between none i := by
  rintro ⟨s, e, h, -⟩
  cases h

@[simp] theorem between_some {s e i : Nat} : Between (some (s, e)) i ↔ s ≤ i ∧ i ≤ e := by
  constructor
  · rintro ⟨s', e', h, hi⟩
    cases h
    exact hi
  · exact fun hi => ⟨s, e, rfl, hi⟩

theorem between_ite {c : Prop} [Decidable c] {s e i : Nat} :
    Between (if c then none else some (s, e)) i ↔ ¬ c ∧ s ≤ i ∧ i ≤ e := by
  split
  · rename_i hc
    exact iff_of_false (not_between_none i) fun h => h.1 hc
  · rename_i hc
    rw [between_some]
    exact (and_iff_right hc).symm

variable {α : Type}

/-- The elements at the indices. -/
def pick (xs : List α) (P : Nat → Prop) [DecidablePred P] : List α :=
  (xs.zipIdx.filter fun p => decide (P p.2)).map Prod.fst

theorem pick_congr {xs : List α} {P Q : Nat → Prop} [DecidablePred P] [DecidablePred Q]
    (h : ∀ i, i < xs.length → (P i ↔ Q i)) : pick xs P = pick xs Q := by
  unfold pick
  congr 1
  apply List.filter_congr
  intro p hp
  have hlt : p.2 < xs.length := (List.mem_zipIdx' hp).1
  exact decide_eq_decide.mpr (h p.2 hlt)

theorem pick_of_none {xs : List α} {P : Nat → Prop} [DecidablePred P]
    (h : ∀ i, i < xs.length → ¬ P i) : pick xs P = [] := by
  unfold pick
  rw [List.map_eq_nil_iff, List.filter_eq_nil_iff]
  intro p hp
  have hlt : p.2 < xs.length := (List.mem_zipIdx' hp).1
  simpa using h p.2 hlt

private theorem filter_zipIdx (xs : List α) (k s e : Nat) :
    ((xs.zipIdx k).filter fun p => decide (s ≤ p.2 ∧ p.2 ≤ e)).map Prod.fst =
      (xs.drop (s - k)).take (e + 1 - max s k) := by
  induction xs generalizing k with
  | nil => simp
  | cons x xs ih =>
      rw [List.zipIdx_cons, List.filter_cons]
      by_cases hin : s ≤ k ∧ k ≤ e
      · rw [if_pos (decide_eq_true hin), List.map_cons, ih]
        have hzero : s - k = 0 := by omega
        have hnext : s - (k + 1) = 0 := by omega
        have hcount : e + 1 - max s k = e + 1 - max s (k + 1) + 1 := by omega
        rw [hzero, hnext, hcount, List.drop_zero, List.drop_zero, List.take_succ_cons]
      · rw [if_neg (by simpa using hin), ih]
        by_cases hs : s ≤ k
        · have hcount : e + 1 - max s (k + 1) = 0 := by omega
          have hcount' : e + 1 - max s k = 0 := by omega
          rw [hcount, hcount', List.take_zero, List.take_zero]
        · have hdrop : s - k = s - (k + 1) + 1 := by omega
          have hmax : max s k = max s (k + 1) := by omega
          rw [hdrop, hmax, List.drop_succ_cons]

theorem pick_between (xs : List α) (s e : Nat) :
    pick xs (fun i => s ≤ i ∧ i ≤ e) = (xs.drop s).take (e + 1 - s) := by
  have h := filter_zipIdx xs 0 s e
  rwa [Nat.sub_zero, Nat.max_zero] at h

/-! ## Bounds that leave the list -/

/-- The window starts past the end or stops before the start, and yet its bounds meet when
they are pushed inside. -/
def Strays (len : Nat) (start stop : Int) : Prop :=
  0 < len ∧ ((len ≤ fromEnd len start ∧ len ≤ max (fromEnd len stop) 0 + 1) ∨
    (fromEnd len start ≤ 0 ∧ fromEnd len stop < 0))

instance (len : Nat) (start stop : Int) : Decidable (Strays len start stop) :=
  inferInstanceAs (Decidable (_ ∧ _))

theorem Strays.not_within {len : Nat} {start stop : Int} (h : Strays len start stop) (i : Nat) :
    ¬ Within len start stop i := by
  rintro ⟨hlt, hstart, hstop⟩
  rcases h.2 with hpast | hbefore
  · have := hpast.1
    omega
  · have := hbefore.2
    omega

/-- Pushing both bounds inside before they are compared keeps the window, unless it strays. -/
theorem clamped_iff {len : Nat} {start stop : Int} (hlen : 0 < len) :
    (∀ i : Nat, max (min (fromEnd len start) (len - 1)) 0 ≤ i ∧
        (i : Int) ≤ max (min (fromEnd len stop) (len - 1)) 0 ↔ Within len start stop i) ↔
      ¬ Strays len start stop := by
  constructor
  · intro h hstrays
    rcases hstrays.2 with hpast | hbefore
    · have hlast := (h (len - 1)).mp ⟨by omega, by omega⟩
      exact hstrays.not_within _ hlast
    · have hfirst := (h 0).mp ⟨by omega, by omega⟩
      exact hstrays.not_within _ hfirst
  · intro h i
    unfold Strays at h
    unfold Within
    omega

/-- Refusing the bounds that leave the list keeps the window always. -/
theorem refused_iff {len : Nat} {start stop : Int} (i : Nat) :
    (max (fromEnd len start) 0 < len ∧ 0 ≤ fromEnd len stop ∧
        max (fromEnd len start) 0 ≤ fromEnd len stop ∧
        max (fromEnd len start) 0 ≤ i ∧ (i : Int) ≤ min (fromEnd len stop) (len - 1)) ↔
      Within len start stop i := by
  unfold Within
  omega

end RustyAnt.Lib.Window
