import RustyAnt.Commands.Stores
import RustyAnt.Lib.Merge
import RustyAnt.Storage.RoundTrip

/-!
# What the set and sorted-set computations compute

The set commands compute an intersection, a union or a difference of sets.  The sorted-set
commands do the same to maps from members to scores, and fold the scores of a member in the
order of the sources.
-/

namespace RustyAnt

open Lib

namespace Commands

/-! ## Sets -/

/-- The `Storage` helper that makes the members of the result. -/
def SetOp.apply : SetOp → List (BTreeSet String) → List String
  | .inter => Storage.setIntersection
  | .union => Storage.setUnion
  | .diff => Storage.setDifference

/-- The member belongs to the result. -/
def SetOp.Has : SetOp → List (BTreeSet String) → String → Prop
  | .inter, sets, m => sets ≠ [] ∧ ∀ set ∈ sets, m ∈ set
  | .union, sets, m => ∃ set ∈ sets, m ∈ set
  | .diff, sets, m => ∃ first rest, sets = first :: rest ∧ m ∈ first ∧ ∀ set ∈ rest, m ∉ set

theorem SetOp.compute_eq (op : SetOp) (keys : List String) :
    op.compute keys = (Storage.loadSetsSeq keys).bind fun sets => .done (.ok (op.apply sets)) := by
  cases op with
  | inter => rfl
  | union => rfl
  | diff => rfl

section Sets

variable {m : String} {set : BTreeSet String}

theorem mem_filter_set (p : String → Bool) : m ∈ set.filter p ↔ m ∈ set ∧ p m = true := by
  rw [Std.ExtTreeSet.mem_filter]
  constructor
  · rintro ⟨hmem, hp⟩
    rw [Std.ExtTreeSet.get_eq] at hp
    exact ⟨hmem, hp⟩
  · rintro ⟨hmem, hp⟩
    refine ⟨hmem, ?_⟩
    rw [Std.ExtTreeSet.get_eq]
    exact hp

theorem mem_foldl_inter (rest : List (BTreeSet String)) (acc : BTreeSet String) :
    m ∈ rest.foldl (fun acc s => acc.filter fun m => s.contains m) acc ↔
      m ∈ acc ∧ ∀ set ∈ rest, m ∈ set := by
  induction rest generalizing acc with
  | nil => simp
  | cons set rest ih =>
      rw [List.foldl_cons, ih, mem_filter_set, Std.ExtTreeSet.contains_iff_mem, List.forall_mem_cons,
        and_assoc]

theorem mem_foldl_diff (rest : List (BTreeSet String)) (acc : BTreeSet String) :
    m ∈ rest.foldl (fun acc s => acc.filter fun m => !s.contains m) acc ↔
      m ∈ acc ∧ ∀ set ∈ rest, m ∉ set := by
  induction rest generalizing acc with
  | nil => simp
  | cons set rest ih =>
      rw [List.foldl_cons, ih, mem_filter_set, List.forall_mem_cons, and_assoc, Bool.not_eq_true',
        ← Bool.not_eq_true, Std.ExtTreeSet.contains_iff_mem]

theorem mem_foldl_union (sets : List (BTreeSet String)) (acc : BTreeSet String) :
    m ∈ sets.foldl (fun (out : BTreeSet String) s => out.insertMany s.toList) acc ↔
      m ∈ acc ∨ ∃ set ∈ sets, m ∈ set := by
  induction sets generalizing acc with
  | nil => simp
  | cons set sets ih =>
      rw [List.foldl_cons, ih, Std.ExtTreeSet.mem_insertMany_list, List.contains_iff_mem,
        Std.ExtTreeSet.mem_toList, List.exists_mem_cons_iff, or_assoc]

/-- The result has exactly the members it is meant to have. -/
theorem SetOp.mem_apply (op : SetOp) (sets : List (BTreeSet String)) :
    m ∈ op.apply sets ↔ op.Has sets m := by
  cases op with
  | inter =>
      cases sets with
      | nil => simp [SetOp.apply, SetOp.Has, Storage.setIntersection]
      | cons first rest =>
          show m ∈ (rest.foldl _ first).toList ↔ _
          rw [Std.ExtTreeSet.mem_toList, mem_foldl_inter, SetOp.Has, List.forall_mem_cons]
          exact (and_iff_right (List.cons_ne_nil _ _)).symm
  | union =>
      rw [SetOp.apply, Storage.setUnion, Std.ExtTreeSet.mem_toList, mem_foldl_union, SetOp.Has]
      exact or_iff_right Std.ExtTreeSet.not_mem_empty
  | diff =>
      cases sets with
      | nil => simp [SetOp.apply, SetOp.Has, Storage.setDifference]
      | cons first rest =>
          show m ∈ (rest.foldl _ first).toList ↔ _
          rw [Std.ExtTreeSet.mem_toList, mem_foldl_diff, SetOp.Has]
          constructor
          · intro h
            exact ⟨first, rest, rfl, h⟩
          · rintro ⟨_, _, ⟨⟩, h⟩
            exact h

end Sets

/-! ## Sorted sets -/

/-- Scores by member. -/
abbrev Scores := String → Option F64

/-- What the command makes of its weighted sources. -/
def ZStoreOp.merged (op : ZStoreOp) (f : F64 → F64 → F64) (sources : List Scores) : Scores :=
  match op with
  | .inter => Merge.inter f sources
  | .union => Merge.union f sources
  | .diff => Merge.diff sources

section ZSets

open Merge (Lists)

variable {l : List (String × F64)} {scores : Scores} {map : Storage.ZMap}

theorem lists_toList (map : Storage.ZMap) : Lists map.toList fun m => map[m]? where
  nodup := by
    rw [Std.ExtTreeMap.map_fst_toList_eq_keys]
    exact Std.ExtTreeMap.nodup_keys
  mem := fun _ _ => Std.ExtTreeMap.mem_toList_iff_getElem?_eq_some

theorem getElem?_ofList (h : Lists l scores) (m : String) :
    (Std.ExtTreeMap.ofList l compare)[m]? = scores m := by
  have hdistinct : l.Pairwise fun a b => ¬ compare a.1 b.1 = .eq := by
    have hne := List.pairwise_map.mp h.nodup
    apply hne.imp
    intro a b hab
    rw [Std.LawfulEqCmp.compare_eq_iff_eq]
    exact hab
  cases hm : scores m with
  | some s =>
      exact Std.ExtTreeMap.getElem?_ofList_of_mem (Std.ReflCmp.compare_self) hdistinct
        ((h.mem m s).mpr hm)
  | none =>
      apply Std.ExtTreeMap.getElem?_ofList_of_contains_eq_false
      rw [← Bool.not_eq_true, List.contains_iff_mem, List.mem_map]
      rintro ⟨⟨m', s⟩, hmem, rfl⟩
      rw [(h.mem m' s).mp hmem] at hm
      cases hm

theorem map_swap_toPairs (map : Storage.ZMap) : (toPairs map).map Prod.swap = map.toList := by
  rw [toPairs, List.map_map, Prod.swap_swap_eq, List.map_id]

theorem Lists.congr {scores' : Scores} (h : Lists l scores) (heq : ∀ m, scores m = scores' m) :
    Lists l scores' := by
  rwa [← funext heq]

section Combine

variable (fo : FloatOps) (agg : Aggregate)

/-- The aggregate function. -/
def combine (a b : F64) : F64 := combineScores fo a b agg

variable {inputs : List (List (String × F64))} {sources : List Scores}

/-- The candidates shrink to the intersection with each further input. -/
theorem foldl_intersection {done : List Scores} (h : List.Forall₂ Lists inputs sources)
    (hacc : ∀ m, map[m]? = Merge.inter (combine fo agg) done m) (hdone : done ≠ []) (m : String) :
    (inputs.foldl (fun current input =>
      let incoming := toMap input
      current.filterMap fun m s => (incoming[m]?).map fun s' => combineScores fo s s' agg)
      map)[m]? = Merge.inter (combine fo agg) (done ++ sources) m := by
  induction h generalizing map done with
  | nil => rw [List.append_nil, List.foldl_nil, hacc]
  | @cons input source inputs sources hinput _ ih =>
      rw [List.foldl_cons, List.append_cons]
      apply ih
      · intro m
        dsimp only
        rw [Std.ExtTreeMap.getElem?_filterMap', hacc, Merge.inter_concat _ hdone, toMap,
          getElem?_ofList hinput]
        rfl
      · exact List.append_ne_nil_of_left_ne_nil hdone _

theorem foldl_unionOne (h : Lists l scores) (m : String) :
    (l.foldl (unionOne fo agg) map)[m]? = Option.merge (combine fo agg) (map[m]?) (scores m) := by
  induction l generalizing map scores with
  | nil =>
      have hnone : scores m = none := by
        by_contra hsome
        obtain ⟨s, hs⟩ := Option.ne_none_iff_exists'.mp hsome
        cases (h.mem m s).mpr hs
      rw [List.foldl_nil, hnone]
      cases map[m]? with
      | none => rfl
      | some s => rfl
  | cons p l ih =>
      rw [List.foldl_cons, ih h.tail]
      have hhead : scores p.1 = some p.2 := (h.mem p.1 p.2).mp List.mem_cons_self
      by_cases hm : m = p.1
      · subst hm
        rw [if_pos rfl, hhead, unionOne, Std.ExtTreeMap.getElem?_insert_self]
        cases map[p.1]? with
        | none => rfl
        | some s => rfl
      · have hne : compare p.1 m ≠ .eq := by
          rw [ne_eq, Std.LawfulEqCmp.compare_eq_iff_eq]
          exact fun heq => hm heq.symm
        rw [if_neg hm, unionOne, Std.ExtTreeMap.getElem?_insert, if_neg hne]

theorem foldl_union {done : List Scores} (h : List.Forall₂ Lists inputs sources)
    (hacc : ∀ m, map[m]? = Merge.union (combine fo agg) done m) (m : String) :
    (inputs.foldl (fun acc input => input.foldl (unionOne fo agg) acc) map)[m]? =
      Merge.union (combine fo agg) (done ++ sources) m := by
  induction h generalizing map done with
  | nil => rw [List.append_nil, List.foldl_nil, hacc]
  | @cons input source inputs sources hinput _ ih =>
      rw [List.foldl_cons, List.append_cons]
      apply ih
      intro m
      rw [foldl_unionOne fo agg hinput, hacc, Merge.union_concat]

theorem any_inputs (h : List.Forall₂ Lists inputs sources) (m : String) :
    (inputs.any fun input => input.any fun q => q.1 == m) = true ↔
      ∃ source ∈ sources, (source m).isSome := by
  induction h with
  | nil => simp
  | @cons input source inputs sources hinput _ ih =>
      rw [List.any_cons, Bool.or_eq_true, ih, hinput.any, List.exists_mem_cons_iff]

/-- The result has exactly the members and the scores it is meant to have. -/
theorem aggregateInputs_lists (op : ZStoreOp) (h : List.Forall₂ Lists inputs sources) :
    Lists ((aggregateInputs fo op agg inputs).map Prod.swap)
      (op.merged (combine fo agg) sources) := by
  cases op with
  | inter =>
      cases h with
      | nil => exact Merge.lists_nil
      | @cons first source rest sources hfirst hrest =>
          show Lists ((toPairs (List.foldl _ (toMap _) _)).map Prod.swap) _
          rw [map_swap_toPairs]
          apply Lists.congr (lists_toList _)
          have hstart : ∀ m : String, (toMap first)[m]? = Merge.inter (combine fo agg) [source] m := by
            intro m
            rw [toMap, getElem?_ofList hfirst, Merge.inter_single]
          exact foldl_intersection fo agg hrest hstart (List.cons_ne_nil _ _)
  | union =>
      show Lists ((toPairs (List.foldl _ ∅ _)).map Prod.swap) _
      rw [map_swap_toPairs]
      apply Lists.congr (lists_toList _)
      have hstart : ∀ m : String, (∅ : Storage.ZMap)[m]? = Merge.union (combine fo agg) [] m := by
        intro m
        exact Std.ExtTreeMap.getElem?_empty
      exact foldl_union fo agg h hstart
  | diff =>
      cases h with
      | nil => exact Merge.lists_nil
      | @cons first source rest sources hfirst hrest =>
          show Lists ((List.map Prod.swap (first.filter _)).map Prod.swap) _
          rw [List.map_map, Prod.swap_swap_eq, List.map_id]
          apply Lists.congr (hfirst.filterKeys fun m => !rest.any fun input => input.any fun q => q.1 == m)
          intro m
          show _ = if ∃ source ∈ sources, (source m).isSome then none else source m
          by_cases hany : ∃ source ∈ sources, (source m).isSome
          · rw [(any_inputs hrest m).mpr hany, if_pos hany]
            rfl
          · have hnone := Bool.not_eq_true _ |>.mp (mt (any_inputs hrest m).mp hany)
            rw [hnone, if_neg hany]
            rfl

end Combine

end ZSets

end Commands
end RustyAnt
