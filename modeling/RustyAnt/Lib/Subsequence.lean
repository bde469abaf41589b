import Mathlib.Data.List.Basic

/-!
# Longest common subsequences

The greatest length of a common subsequence of two lists, by their last elements: equal
ones are matched, and of different ones one is given up.
-/

namespace RustyAnt.Lib

variable {α : Type}

/-- `c` is a subsequence of both lists. -/
structure IsCommon (c a b : List α) : Prop where
  left : c.Sublist a
  right : c.Sublist b

/-- The greatest length of a common subsequence. -/
structure IsLongest (n : Nat) (a b : List α) : Prop where
  reached : ∃ c, IsCommon c a b ∧ c.length = n
  bound : ∀ c, IsCommon c a b → c.length ≤ n

variable {a b c : List α} {x y : α} {m n : Nat}

theorem isCommon_nil (a b : List α) : IsCommon [] a b :=
  ⟨List.nil_sublist a, List.nil_sublist b⟩

theorem IsCommon.concat (h : IsCommon c a b) (x : α) :
    IsCommon (c ++ [x]) (a ++ [x]) (b ++ [x]) :=
  ⟨h.left.append_right [x], h.right.append_right [x]⟩

theorem IsCommon.concat_left (h : IsCommon c a b) (x : α) : IsCommon c (a ++ [x]) b :=
  ⟨h.left.trans (List.sublist_append_left a [x]), h.right⟩

theorem IsCommon.concat_right (h : IsCommon c a b) (y : α) : IsCommon c a (b ++ [y]) :=
  ⟨h.left, h.right.trans (List.sublist_append_left b [y])⟩

/-- A subsequence leaves the last element out, or ends in it. -/
theorem sublist_concat_cases (h : c.Sublist (a ++ [x])) :
    c.Sublist a ∨ ∃ c', c = c' ++ [x] ∧ c'.Sublist a := by
  obtain ⟨front, last, hc, hfront, hlast⟩ := List.sublist_append_iff.mp h
  have hends : last = [] ∨ last = [x] := by
    cases last with
    | nil => exact .inl rfl
    | cons z zs =>
        have hsame := hlast.eq_of_length_le (by simp)
        exact .inr hsame
  rcases hends with hnil | hone
  · left
    rwa [hc, hnil, List.append_nil]
  · exact .inr ⟨front, by rw [hc, hone], hfront⟩

theorem dropLast_sublist (h : c.Sublist (a ++ [x])) : c.dropLast.Sublist a := by
  rcases sublist_concat_cases h with hsub | ⟨c', hc, hsub⟩
  · exact (List.dropLast_sublist c).trans hsub
  · rwa [hc, List.dropLast_concat]

theorem IsLongest.unique (hm : IsLongest m a b) (hn : IsLongest n a b) : m = n := by
  obtain ⟨c, hc, hclen⟩ := hm.reached
  obtain ⟨d, hd, hdlen⟩ := hn.reached
  have hle := hn.bound c hc
  have hge := hm.bound d hd
  omega

theorem isLongest_nil_left (b : List α) : IsLongest 0 [] b := by
  constructor
  · exact ⟨[], isCommon_nil [] b, rfl⟩
  · intro c hc
    have hlen := hc.left.length_le
    simpa using hlen

theorem isLongest_nil_right (a : List α) : IsLongest 0 a [] := by
  constructor
  · exact ⟨[], isCommon_nil a [], rfl⟩
  · intro c hc
    have hlen := hc.right.length_le
    simpa using hlen

theorem IsLongest.concat (h : IsLongest n a b) (x : α) :
    IsLongest (n + 1) (a ++ [x]) (b ++ [x]) := by
  constructor
  · obtain ⟨c, hc, hlen⟩ := h.reached
    exact ⟨c ++ [x], hc.concat x, by rw [List.length_append, hlen, List.length_singleton]⟩
  · intro c hc
    have hrest : IsCommon c.dropLast a b := ⟨dropLast_sublist hc.left, dropLast_sublist hc.right⟩
    have hbound := h.bound c.dropLast hrest
    rw [List.length_dropLast] at hbound
    omega

theorem IsLongest.concat_of_ne (hxy : x ≠ y) (hleft : IsLongest m a (b ++ [y]))
    (hright : IsLongest n (a ++ [x]) b) : IsLongest (max m n) (a ++ [x]) (b ++ [y]) := by
  constructor
  · by_cases hle : n ≤ m
    · obtain ⟨c, hc, hlen⟩ := hleft.reached
      exact ⟨c, hc.concat_left x, by omega⟩
    · obtain ⟨c, hc, hlen⟩ := hright.reached
      exact ⟨c, hc.concat_right y, by omega⟩
  · intro c hc
    rcases sublist_concat_cases hc.left with hsub | ⟨c₁, hc₁, -⟩
    · have hbound := hleft.bound c ⟨hsub, hc.right⟩
      omega
    rcases sublist_concat_cases hc.right with hsub | ⟨c₂, hc₂, -⟩
    · have hbound := hright.bound c ⟨hc.left, hsub⟩
      omega
    -- a subsequence cannot end in both
    have hlast : c₁ ++ [x] = c₂ ++ [y] := hc₁.symm.trans hc₂
    have heq : x = y := (List.append_inj' hlast rfl).2 |> List.singleton_inj.mp
    exact absurd heq hxy

end RustyAnt.Lib
