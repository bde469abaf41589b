import Mathlib.Data.List.Basic
import Mathlib.Data.List.Nodup
import Mathlib.Data.Option.Basic

/-!
# Merging partial maps

The union, the intersection and the difference of a sequence of partial maps.  Where
several maps have a key, their values are folded in the order of the maps.
-/

namespace RustyAnt.Lib.Merge

variable {κ β γ : Type*} {f : β → β → β} {m : κ → Option β} {maps : List (κ → Option β)} {k : κ}

/-- The fold of a list from its first element. -/
def foldFirst (f : β → β → β) : List β → Option β
  | [] => none
  | b :: bs => some (bs.foldl f b)

/-- What the maps have at a key, in their order. -/
def valuesAt (maps : List (κ → Option β)) (k : κ) : List β := maps.filterMap fun m => m k

/-- At each key that some map has, the fold of the values. -/
def union (f : β → β → β) (maps : List (κ → Option β)) (k : κ) : Option β :=
  foldFirst f (valuesAt maps k)

/-- At each key that every map has, the fold of the values. -/
def inter (f : β → β → β) (maps : List (κ → Option β)) (k : κ) : Option β :=
  if ∀ m ∈ maps, (m k).isSome then foldFirst f (valuesAt maps k) else none

/-- The first map, without the keys of the others. -/
def diff : List (κ → Option β) → κ → Option β
  | [], _ => none
  | m :: rest, k => if ∃ m' ∈ rest, (m' k).isSome then none else m k

theorem foldFirst_concat (f : β → β → β) (bs : List β) (b : β) :
    foldFirst f (bs ++ [b]) = some ((foldFirst f bs).elim b fun a => f a b) := by
  cases bs with
  | nil => rfl
  | cons a bs =>
      rw [List.cons_append, foldFirst, List.foldl_append]
      rfl

theorem valuesAt_concat (maps : List (κ → Option β)) (m : κ → Option β) (k : κ) :
    valuesAt (maps ++ [m]) k = valuesAt maps k ++ (m k).toList := by
  unfold valuesAt
  rw [List.filterMap_append]
  cases hm : m k with
  | none => simp [hm]
  | some b => simp [hm]

theorem union_concat (f : β → β → β) (maps : List (κ → Option β)) (m : κ → Option β) (k : κ) :
    union f (maps ++ [m]) k = Option.merge f (union f maps k) (m k) := by
  unfold union
  rw [valuesAt_concat]
  cases hm : m k with
  | none =>
      rw [Option.toList_none, List.append_nil]
      cases foldFirst f (valuesAt maps k) with
      | none => rfl
      | some a => rfl
  | some b =>
      rw [Option.toList_some, foldFirst_concat]
      cases foldFirst f (valuesAt maps k) with
      | none => rfl
      | some a => rfl

theorem inter_single (f : β → β → β) (m : κ → Option β) (k : κ) : inter f [m] k = m k := by
  unfold inter valuesAt
  cases hm : m k with
  | none => simp [hm]
  | some b => simp [hm, foldFirst]

theorem inter_of_missing {m : κ → Option β} (hm : m ∈ maps) (hk : m k = none) :
    inter f maps k = none := by
  unfold inter
  rw [if_neg]
  intro hall
  have hsome := hall m hm
  rw [hk] at hsome
  cases hsome

theorem inter_concat (f : β → β → β) {maps : List (κ → Option β)} (hmaps : maps ≠ [])
    (m : κ → Option β) (k : κ) :
    inter f (maps ++ [m]) k = (inter f maps k).bind fun a => (m k).map fun b => f a b := by
  cases hm : m k with
  | none =>
      rw [inter_of_missing (List.mem_append_right _ (List.mem_singleton_self m)) hm]
      cases inter f maps k with
      | none => rfl
      | some a => rfl
  | some b =>
      by_cases hall : ∀ m' ∈ maps, (m' k).isSome
      · have hall' : ∀ m' ∈ maps ++ [m], (m' k).isSome := by
          intro m' hm'
          rcases List.mem_append.mp hm' with hin | hin
          · exact hall m' hin
          · rw [List.mem_singleton.mp hin, hm]
            rfl
        unfold inter
        rw [if_pos hall, if_pos hall', valuesAt_concat, hm, Option.toList_some, foldFirst_concat]
        obtain ⟨m₀, rest, rfl⟩ := List.exists_cons_of_ne_nil hmaps
        obtain ⟨a, ha⟩ := Option.isSome_iff_exists.mp (hall m₀ List.mem_cons_self)
        have hvalues : valuesAt (m₀ :: rest) k = a :: valuesAt rest k := by
          unfold valuesAt
          rw [List.filterMap_cons, ha]
        rw [hvalues]
        rfl
      · have hall' : ¬ ∀ m' ∈ maps ++ [m], (m' k).isSome :=
          fun h => hall fun m' hm' => h m' (List.mem_append_left _ hm')
        unfold inter
        rw [if_neg hall, if_neg hall']
        rfl

/-! ## Lists of entries -/

/-- The list has exactly the entries of the map, each once. -/
structure Lists (l : List (κ × β)) (m : κ → Option β) : Prop where
  nodup : (l.map Prod.fst).Nodup
  mem : ∀ k b, (k, b) ∈ l ↔ m k = some b

variable {l : List (κ × β)}

theorem lists_nil : Lists ([] : List (κ × β)) fun _ => none where
  nodup := List.nodup_nil
  mem := by simp

theorem Lists.mapValues (h : Lists l m) (g : β → γ) :
    Lists (l.map fun p => (p.1, g p.2)) fun k => (m k).map g where
  nodup := by
    rw [List.map_map]
    exact h.nodup
  mem := by
    intro k c
    rw [List.mem_map, Option.map_eq_some_iff]
    constructor
    · rintro ⟨⟨k', b⟩, hmem, heq⟩
      cases heq
      exact ⟨b, (h.mem k' b).mp hmem, rfl⟩
    · rintro ⟨b, hb, rfl⟩
      exact ⟨(k, b), (h.mem k b).mpr hb, rfl⟩

theorem Lists.filterKeys (h : Lists l m) (p : κ → Bool) :
    Lists (l.filter fun q => p q.1) fun k => if p k then m k else none where
  nodup := h.nodup.sublist (List.filter_sublist.map Prod.fst)
  mem k b := by
    rw [List.mem_filter, h.mem k b]
    by_cases hp : p k
    · simp [hp]
    · simp [hp]

theorem Lists.any (h : Lists l m) [DecidableEq κ] (k : κ) :
    (l.any fun q => q.1 == k) = (m k).isSome := by
  rw [Bool.eq_iff_iff, List.any_eq_true, Option.isSome_iff_exists]
  constructor
  · rintro ⟨⟨k', b⟩, hmem, hk⟩
    have hk' : k' = k := eq_of_beq hk
    subst hk'
    exact ⟨b, (h.mem k' b).mp hmem⟩
  · rintro ⟨b, hb⟩
    exact ⟨(k, b), (h.mem k b).mpr hb, beq_self_eq_true k⟩

theorem Lists.tail {p : κ × β} [DecidableEq κ] (h : Lists (p :: l) m) :
    Lists l fun k => if k = p.1 then none else m k where
  nodup := (List.nodup_cons.mp h.nodup).2
  mem k b := by
    have hfresh := (List.nodup_cons.mp h.nodup).1
    constructor
    · intro hmem
      have hne : k ≠ p.1 := by
        intro hk
        apply hfresh
        rw [← hk]
        exact List.mem_map_of_mem hmem
      rw [if_neg hne]
      exact (h.mem k b).mp (List.mem_cons_of_mem _ hmem)
    · intro hk
      split at hk
      · cases hk
      · rename_i hne
        rcases List.mem_cons.mp ((h.mem k b).mpr hk) with rfl | hmem
        · exact absurd rfl hne
        · exact hmem

end RustyAnt.Lib.Merge
