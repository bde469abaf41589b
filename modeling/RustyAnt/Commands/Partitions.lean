import RustyAnt.Commands.UnifiedRange

/-!
# What the removals of a sorted set split off

A removal splits the pairs of a sorted set in two and makes a map of those it keeps.  What it
takes away is what the query with the same bounds returns.
-/

namespace RustyAnt

open Lib

namespace Commands

open Storage (ZMap NanFree sortedZset resolveRange partitionZsetByRank partitionZsetByScore
  partitionZsetByLex popZsetEdge keepPairs sliceInclusive)

/-- The pairs of the map, in two parts. -/
def Splits (map : ZMap) (gone kept : List (String × F64)) : Prop :=
  (gone ++ kept).Perm map.toList

namespace Splits

variable {map : ZMap} {gone kept : List (String × F64)}

theorem nodup (h : Splits map gone kept) : (memberNames gone ++ memberNames kept).Nodup := by
  have hperm := h.map Prod.fst
  rw [List.map_append] at hperm
  exact hperm.nodup_iff.mpr (Storage.nodup_names map)

theorem getElem?_kept (h : Splits map gone kept) (m : String) (x : F64) :
    (Std.ExtTreeMap.ofList kept compare)[m]? = some x ↔ (m, x) ∈ kept := by
  have hdistinct : kept.Pairwise fun a b => ¬ compare a.1 b.1 = .eq := by
    have hne := List.pairwise_map.mp (List.nodup_append.mp h.nodup).2.1
    apply hne.imp
    intro a b hab
    rw [Std.LawfulEqCmp.compare_eq_iff_eq]
    exact hab
  have hlookup : ∀ y, (m, y) ∈ kept → (Std.ExtTreeMap.ofList kept compare)[m]? = some y := by
    intro y hy
    exact Std.ExtTreeMap.getElem?_ofList_of_mem Std.ReflCmp.compare_self hdistinct hy
  constructor
  · intro hx
    have hmem : m ∈ Std.ExtTreeMap.ofList kept compare := by
      rw [Std.ExtTreeMap.mem_iff_isSome_getElem?, hx]
      rfl
    rw [Std.ExtTreeMap.mem_ofList, List.contains_iff_mem, List.mem_map] at hmem
    obtain ⟨⟨m', y⟩, hy, rfl⟩ := hmem
    have hxy : some x = some y := hx.symm.trans (hlookup y hy)
    rwa [Option.some.inj hxy]
  · exact hlookup x

theorem mem_kept (h : Splits map gone kept) (p : String × F64) :
    p ∈ kept ↔ p ∈ map.toList ∧ p.1 ∉ memberNames gone := by
  have hmem : p ∈ gone ∨ p ∈ kept ↔ p ∈ map.toList := by
    rw [← List.mem_append]
    exact List.Perm.mem_iff h
  constructor
  · intro hkept
    refine ⟨hmem.mp (.inr hkept), fun hgone => ?_⟩
    have hdisjoint := (List.nodup_append.mp h.nodup).2.2
    exact hdisjoint p.1 hgone p.1 (List.mem_map_of_mem hkept) rfl
  · rintro ⟨hin, hgone⟩
    rcases hmem.mpr hin with hp | hp
    · exact absurd (List.mem_map_of_mem hp) hgone
    · exact hp

theorem keepPairs_eq (h : Splits map gone kept) :
    keepPairs kept map.toList.length = (Std.ExtTreeMap.ofList kept compare, gone.length) := by
  have hlength := List.Perm.length_eq h
  rw [List.length_append] at hlength
  unfold keepPairs
  rw [← hlength, Nat.add_sub_cancel_right]

end Splits

section Partitions

variable (map : ZMap)

theorem filter_splits (p : String × F64 → Bool) :
    Splits map (map.toList.filter p) (map.toList.filter fun q => !p q) :=
  List.filter_append_perm p map.toList

theorem partitionZsetByScore_splits (min max : ScoreBound) :
    ∃ kept, Splits map (withinScores min max (sortedZset map)) kept ∧
      partitionZsetByScore map min max =
        (Std.ExtTreeMap.ofList kept compare, (withinScores min max (sortedZset map)).length) := by
  have hperm := (Storage.sortedZset_perm map).filter fun p => min.geMin p.2 && max.leMax p.2
  have hsplits : Splits map (withinScores min max (sortedZset map)) _ :=
    (hperm.append_right _).trans (filter_splits map _)
  exact ⟨_, hsplits, hsplits.keepPairs_eq⟩

theorem partitionZsetByLex_splits (min max : LexBound) :
    ∃ kept, Splits map (withinNames min max map.toList) kept ∧
      partitionZsetByLex map min max =
        (Std.ExtTreeMap.ofList kept compare, (withinNames min max map.toList).length) := by
  have hsplits := filter_splits map fun p => min.geMin p.1 && max.leMax p.1
  exact ⟨_, hsplits, hsplits.keepPairs_eq⟩

theorem slice_perm {α : Type} (xs : List α) {s e : Nat} (h : s ≤ e) :
    (sliceInclusive xs s e ++ (xs.take s ++ xs.drop (e + 1))).Perm xs := by
  have hrest : sliceInclusive xs s e ++ xs.drop (e + 1) = xs.drop s := by
    have hdrop : xs.drop (e + 1) = (xs.drop s).drop (e + 1 - s) := by
      rw [List.drop_drop, Nat.add_sub_cancel' (by omega)]
    unfold sliceInclusive
    rw [hdrop, List.take_append_drop]
  have hparts : xs.take s ++ (sliceInclusive xs s e ++ xs.drop (e + 1)) = xs := by
    rw [hrest, List.take_append_drop]
  exact (List.perm_append_comm_assoc _ _ _).trans (List.Perm.of_eq hparts)

theorem partitionZsetByRank_splits (start stop : Int) :
    ∃ kept, Splits map (ranked start stop (sortedZset map)) kept ∧
      partitionZsetByRank map start stop =
        (Std.ExtTreeMap.ofList kept compare, (ranked start stop (sortedZset map)).length) := by
  have hperm := Storage.sortedZset_perm map
  unfold ranked partitionZsetByRank
  dsimp only
  cases hbounds : resolveRange (toI64 (sortedZset map).length) start stop with
  | none => exact ⟨sortedZset map, hperm, rfl⟩
  | some p =>
      obtain ⟨s, e⟩ := p
      have hsplits : Splits map (sliceInclusive (sortedZset map) s e)
          ((sortedZset map).take s ++ (sortedZset map).drop (e + 1)) :=
        (slice_perm (sortedZset map) (resolveRange_le hbounds)).trans hperm
      have hkeep := hsplits.keepPairs_eq
      rw [← hperm.length_eq] at hkeep
      exact ⟨_, hsplits, hkeep⟩

/-- The members from one end. -/
def front (fromMax : Bool) (L : List (String × F64)) : List (String × F64) :=
  if fromMax then L.reverse else L

theorem popZsetEdge_splits {count : Nat} (hcount : 0 < count) (fromMax : Bool) :
    Splits map ((front fromMax (sortedZset map)).take count)
      ((front fromMax (sortedZset map)).drop count) ∧
    popZsetEdge map count fromMax =
      (Std.ExtTreeMap.ofList ((front fromMax (sortedZset map)).drop count) compare,
        (front fromMax (sortedZset map)).take count) := by
  have hperm : (front fromMax (sortedZset map)).Perm map.toList := by
    have hsorted := Storage.sortedZset_perm map
    cases fromMax with
    | false => exact hsorted
    | true => exact (List.reverse_perm _).trans hsorted
  constructor
  · unfold Splits
    rw [List.take_append_drop]
    exact hperm
  · unfold popZsetEdge front
    by_cases hempty : map.isEmpty = true
    · have hmap : map = ∅ := Std.ExtTreeMap.isEmpty_iff.mp hempty
      have hnil : sortedZset ∅ = [] := rfl
      rw [if_pos (by simp [hempty]), hmap, hnil, List.reverse_nil, ite_self, List.drop_nil,
        List.take_nil, Std.ExtTreeMap.ofList_nil]
    · rw [if_neg (by simp [hempty, hcount.ne'])]
      dsimp only
      rw [← List.take_eq_take_min, ← List.drop_eq_drop_min]

end Partitions

end Commands

end RustyAnt
