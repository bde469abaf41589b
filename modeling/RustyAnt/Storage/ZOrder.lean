import Mathlib.Data.Prod.Lex
import Mathlib.Data.String.Basic
import RustyAnt.Commands.Aggregates
import RustyAnt.Lib.KeySort
import RustyAnt.Storage.ZSets

/-!
# The order of a sorted set

Without NaN the members of a sorted set have one order: by score, and by name where the
scores are equal.  Every sort in the code gives it.
-/

namespace RustyAnt

open Lib Lib.KeySort

namespace Storage

/-- Where a member stands: its score as a number, then its name. -/
def scoreKey (p : String × F64) : Int ×ₗ String := toLex (p.2.rank, p.1)

/-- No score is NaN. -/
def NanFree (map : ZMap) : Prop := ∀ (m : String) (s : F64), map[m]? = some s → s.isNan = false

/-- The members of the map by score, and by name where the scores are equal. -/
structure ScoreOrder (map : ZMap) (L : List (String × F64)) : Prop where
  entries : ∀ (m : String) (s : F64), (m, s) ∈ L ↔ map[m]? = some s
  ascending : L.Pairwise fun a b => a.2.lt b.2 = true ∨ a.2.numEq b.2 = true ∧ a.1 < b.1

variable {map : ZMap} {L : List (String × F64)} {a b : String × F64}

theorem scoreKey_lt : scoreKey a < scoreKey b ↔
    a.2.rank < b.2.rank ∨ a.2.rank = b.2.rank ∧ a.1 < b.1 := Prod.Lex.toLex_lt_toLex

theorem scoreKey_le : scoreKey a ≤ scoreKey b ↔
    a.2.rank < b.2.rank ∨ a.2.rank = b.2.rank ∧ a.1 ≤ b.1 := Prod.Lex.toLex_le_toLex

theorem lt_iff_rank {x y : F64} (hx : x.isNan = false) (hy : y.isNan = false) :
    x.lt y = true ↔ x.rank < y.rank := by
  unfold F64.lt
  rw [hx, hy]
  simp

theorem numEq_iff_rank {x y : F64} (hx : x.isNan = false) (hy : y.isNan = false) :
    x.numEq y = true ↔ x.rank = y.rank := by
  unfold F64.numEq
  rw [hx, hy]
  simp

/-- The order that the statement names is that of the keys. -/
theorem before_iff (ha : a.2.isNan = false) (hb : b.2.isNan = false) :
    (a.2.lt b.2 = true ∨ a.2.numEq b.2 = true ∧ a.1 < b.1) ↔ scoreKey a < scoreKey b := by
  rw [scoreKey_lt, lt_iff_rank ha hb, numEq_iff_rank ha hb]

theorem zsetLe_iff (ha : a.2.isNan = false) (hb : b.2.isNan = false) :
    zsetLe a b = true ↔ scoreKey a ≤ scoreKey b := by
  rw [scoreKey_le]
  unfold zsetLe
  by_cases hab : a.2.lt b.2 = true
  · rw [if_pos hab]
    exact iff_of_true rfl (.inl ((lt_iff_rank ha hb).mp hab))
  · rw [if_neg hab]
    have hle : ¬ a.2.rank < b.2.rank := fun h => hab ((lt_iff_rank ha hb).mpr h)
    by_cases hba : b.2.lt a.2 = true
    · have hlt' := (lt_iff_rank hb ha).mp hba
      rw [if_pos hba]
      apply iff_of_false Bool.false_ne_true
      omega
    · have hle' : ¬ b.2.rank < a.2.rank := fun h => hba ((lt_iff_rank hb ha).mpr h)
      have heq : a.2.rank = b.2.rank := by omega
      rw [if_neg hba, decide_eq_true_iff, or_iff_right hle, and_iff_right heq]

theorem nanFree_of_all (h : (map.toList.all fun p => !p.2.isNan) = true) : NanFree map := by
  intro m s hs
  have hmem : (m, s) ∈ map.toList := Std.ExtTreeMap.mem_toList_iff_getElem?_eq_some.mpr hs
  have hs' := List.all_eq_true.mp h (m, s) hmem
  exact Bool.not_eq_true' _ |>.mp hs'

theorem nodup_names (map : ZMap) : (map.toList.map Prod.fst).Nodup := by
  rw [Std.ExtTreeMap.map_fst_toList_eq_keys]
  exact Std.ExtTreeMap.nodup_keys

theorem NanFree.compares (h : NanFree map) :
    Compares (fun a b => zsetLe a b = true) scoreKey map.toList := by
  intro a ha b hb
  exact zsetLe_iff (h a.1 a.2 (Std.ExtTreeMap.mem_toList_iff_getElem?_eq_some.mp ha))
    (h b.1 b.2 (Std.ExtTreeMap.mem_toList_iff_getElem?_eq_some.mp hb))

theorem nodup_scoreKeys (map : ZMap) : (map.toList.map scoreKey).Nodup := by
  apply List.Nodup.of_map fun k : Int ×ₗ String => (ofLex k).2
  rw [List.map_map]
  exact nodup_names map

theorem sortedZset_ascending (h : NanFree map) : Ascending scoreKey (sortedZset map) :=
  ascending_insertionSort h.compares (nodup_scoreKeys map)

theorem sortedZset_perm (map : ZMap) : (sortedZset map).Perm map.toList :=
  List.perm_insertionSort _ _

theorem ScoreOrder.nanFree (h : ScoreOrder map L) (hnan : NanFree map) (ha : a ∈ L) :
    a.2.isNan = false := hnan a.1 a.2 ((h.entries a.1 a.2).mp ha)

theorem ScoreOrder.eq (h : ScoreOrder map L) (hnan : NanFree map) : L = sortedZset map := by
  have hascending : Ascending scoreKey L :=
    h.ascending.imp_of_mem fun ha hb => (before_iff (h.nanFree hnan ha) (h.nanFree hnan hb)).mp
  have hnodup : L.Nodup := hascending.nodup_keys.of_map
  have hperm : L.Perm map.toList := by
    rw [List.perm_ext_iff_of_nodup hnodup (nodup_names map).of_map]
    intro p
    exact (h.entries p.1 p.2).trans Std.ExtTreeMap.mem_toList_iff_getElem?_eq_some.symm
  exact hascending.eq_of_perm (sortedZset_ascending hnan) (hperm.trans (sortedZset_perm map).symm)

theorem sortedZset_scoreOrder (hnan : NanFree map) : ScoreOrder map (sortedZset map) := by
  have hentries : ∀ (m : String) (s : F64), (m, s) ∈ sortedZset map ↔ map[m]? = some s := by
    intro m s
    rw [(sortedZset_perm map).mem_iff]
    exact Std.ExtTreeMap.mem_toList_iff_getElem?_eq_some
  refine ⟨hentries, (sortedZset_ascending hnan).imp_of_mem fun {a b} ha hb => ?_⟩
  exact (before_iff (hnan a.1 a.2 ((hentries a.1 a.2).mp ha))
    (hnan b.1 b.2 ((hentries b.1 b.2).mp hb))).mpr

end Storage

end RustyAnt
