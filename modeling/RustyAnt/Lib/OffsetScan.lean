import Mathlib.Algebra.GroupWithZero.Nat
import Mathlib.Data.List.Induction
import Mathlib.Order.Defs.LinearOrder

/-!
# Scanning by offset

A list is handed out in pages.  Between two pages the reader keeps an offset into the list,
and the list may change.  On a list that does not change the pages are the list.  An element
that stays is in some page as long as nothing is removed in front of the offset.
-/

namespace RustyAnt.Lib

variable {α : Type}

/-- A reader that scans by offset. -/
structure OffsetScan (α : Type) where
  offset : Nat := 0
  out : List α := []
  finished : Bool := false

namespace OffsetScan

/-- The next page, of at most `n` elements. -/
def page (xs : List α) (o : OffsetScan α) (n : Nat) : OffsetScan α :=
  if o.finished then o
  else if xs.length ≤ o.offset + n then ⟨0, o.out ++ (xs.drop o.offset).take n, true⟩
  else ⟨o.offset + n, o.out ++ (xs.drop o.offset).take n, false⟩

theorem page_finished {xs : List α} {o : OffsetScan α} (h : o.finished = true) (n : Nat) :
    o.page xs n = o := if_pos h

theorem page_last {xs : List α} {o : OffsetScan α} {n : Nat} (h : o.finished = false)
    (hn : xs.length ≤ o.offset + n) : o.page xs n = ⟨0, o.out ++ xs.drop o.offset, true⟩ := by
  unfold page
  rw [h, if_neg Bool.false_ne_true, if_pos hn, List.take_of_length_le]
  rw [List.length_drop]
  omega

theorem page_next {xs : List α} {o : OffsetScan α} {n : Nat} (h : o.finished = false)
    (hn : ¬ xs.length ≤ o.offset + n) :
    o.page xs n = ⟨o.offset + n, o.out ++ (xs.drop o.offset).take n, false⟩ := by
  unfold page
  rw [h, if_neg Bool.false_ne_true, if_neg hn]

/-! ## A list that does not change -/

/-- The first elements have been handed out. -/
structure Reads (xs : List α) (o : OffsetScan α) : Prop where
  going : o.finished = false → o.out = xs.take o.offset
  done : o.finished = true → o.out = xs

theorem reads_start (xs : List α) : Reads xs {} := ⟨fun _ => rfl, nofun⟩

theorem Reads.page {xs : List α} {o : OffsetScan α} (h : Reads xs o) (n : Nat) :
    Reads xs (o.page xs n) := by
  by_cases hfin : o.finished = true
  · rw [page_finished hfin]
    exact h
  · rw [Bool.not_eq_true] at hfin
    by_cases hn : xs.length ≤ o.offset + n
    · rw [page_last hfin hn, h.going hfin, List.take_append_drop]
      exact ⟨nofun, fun _ => rfl⟩
    · rw [page_next hfin hn, h.going hfin, ← List.take_add]
      exact ⟨fun _ => rfl, nofun⟩

theorem offset_page {xs : List α} {o : OffsetScan α} (n : Nat)
    (h : (o.page xs n).finished = false) :
    (o.page xs n).offset = o.offset + n ∧ (o.page xs n).offset < xs.length := by
  by_cases hfin : o.finished = true
  · rw [page_finished hfin, hfin] at h
    cases h
  · rw [Bool.not_eq_true] at hfin
    by_cases hn : xs.length ≤ o.offset + n
    · rw [page_last hfin hn] at h
      cases h
    · rw [page_next hfin hn]
      exact ⟨rfl, Nat.lt_of_not_le hn⟩

/-- Pages of an unchanging list, one for each count. -/
def pages (xs : List α) (counts : List Nat) : OffsetScan α := counts.foldl (page xs) {}

theorem pages_snoc (xs : List α) (counts : List Nat) (n : Nat) :
    pages xs (counts ++ [n]) = (pages xs counts).page xs n := by
  unfold pages
  rw [List.foldl_append]
  rfl

theorem reads_pages (xs : List α) (counts : List Nat) : Reads xs (pages xs counts) := by
  induction counts using List.reverseRecOn with
  | nil => exact reads_start xs
  | append_singleton counts n ih =>
      rw [pages_snoc]
      exact ih.page n

theorem offset_pages_le (xs : List α) (counts : List Nat) : (pages xs counts).offset ≤ xs.length := by
  induction counts using List.reverseRecOn with
  | nil => exact Nat.zero_le _
  | append_singleton counts n ih =>
      rw [pages_snoc]
      by_cases hfin : (pages xs counts).finished = true
      · rw [page_finished hfin]
        exact ih
      · rw [Bool.not_eq_true] at hfin
        by_cases hn : xs.length ≤ (pages xs counts).offset + n
        · rw [page_last hfin hn]
          exact Nat.zero_le _
        · rw [page_next hfin hn]
          exact Nat.le_of_lt (Nat.lt_of_not_le hn)

theorem offset_finished {xs : List α} {counts : List Nat} (h : (pages xs counts).finished = true) :
    (pages xs counts).offset = 0 := by
  induction counts using List.reverseRecOn with
  | nil => rfl
  | append_singleton counts n ih =>
      rw [pages_snoc] at h ⊢
      by_cases hfin : (pages xs counts).finished = true
      · rw [page_finished hfin]
        exact ih hfin
      · rw [Bool.not_eq_true] at hfin
        by_cases hn : xs.length ≤ (pages xs counts).offset + n
        · rw [page_last hfin hn]
        · rw [page_next hfin hn] at h
          cases h

theorem offset_pages {xs : List α} {counts : List Nat} (h : (pages xs counts).finished = false) :
    (pages xs counts).offset = counts.sum := by
  induction counts using List.reverseRecOn with
  | nil => rfl
  | append_singleton counts n ih =>
      rw [pages_snoc] at h ⊢
      have hprev : (pages xs counts).finished = false := by
        by_contra hfin
        rw [Bool.not_eq_false] at hfin
        rw [page_finished hfin, hfin] at h
        cases h
      rw [(offset_page n h).1, ih hprev, List.sum_append, List.sum_singleton]

theorem finished_of_sum {xs : List α} {counts : List Nat} (hne : counts ≠ [])
    (hsum : xs.length ≤ counts.sum) : (pages xs counts).finished = true := by
  by_contra hgoing
  rw [Bool.not_eq_true] at hgoing
  have hoffset := offset_pages hgoing
  have hsplit := List.dropLast_concat_getLast hne
  rw [← hsplit, pages_snoc] at hgoing
  have hlt := (offset_page _ hgoing).2
  rw [← pages_snoc, hsplit, hoffset] at hlt
  omega

/-! ## A list that changes between the pages -/

section Changes

variable {xs ys : List α} {o : OffsetScan α} {x : α}

/-- The element has been handed out, or is still ahead. -/
def Covers (xs : List α) (o : OffsetScan α) (x : α) : Prop :=
  x ∈ o.out ∨ o.finished = false ∧ x ∈ xs.drop o.offset

theorem covers_start (h : x ∈ xs) : Covers xs {} x := .inr ⟨rfl, h⟩

theorem Covers.page (h : Covers xs o x) (n : Nat) : Covers xs (o.page xs n) x := by
  by_cases hfin : o.finished = true
  · rw [page_finished hfin]
    exact h
  · rw [Bool.not_eq_true] at hfin
    by_cases hn : xs.length ≤ o.offset + n
    · rw [page_last hfin hn]
      left
      rw [List.mem_append]
      exact h.imp_right fun h => h.2
    · rw [page_next hfin hn]
      rcases h with hout | ⟨-, hahead⟩
      · exact .inl (List.mem_append_left _ hout)
      · rw [← List.take_append_drop n (xs.drop o.offset), List.mem_append] at hahead
        rcases hahead with hpage | hrest
        · exact .inl (List.mem_append_right _ hpage)
        · right
          rw [List.drop_drop] at hrest
          exact ⟨rfl, hrest⟩

theorem Covers.filter {p : α → Bool} (h : Covers xs o x) (hp : p x = true)
    (hfront : ∀ y ∈ xs.take o.offset, p y = true) : Covers (xs.filter p) o x := by
  rcases h with hout | ⟨hgoing, hahead⟩
  · exact .inl hout
  · right
    refine ⟨hgoing, ?_⟩
    have hlen : (xs.take o.offset).length = o.offset := by
      rw [List.length_take]
      have := List.length_pos_of_mem hahead
      rw [List.length_drop] at this
      omega
    have hsplit : xs.filter p = xs.take o.offset ++ (xs.drop o.offset).filter p := by
      have hkept : (xs.take o.offset).filter p = xs.take o.offset := List.filter_eq_self.mpr hfront
      have happend := List.filter_append (xs.take o.offset) (xs.drop o.offset) (p := p)
      rw [List.take_append_drop, hkept] at happend
      exact happend
    rw [hsplit, List.drop_append_of_le_length (Nat.le_of_eq hlen.symm),
      List.drop_of_length_le (Nat.le_of_eq hlen)]
    exact List.mem_filter.mpr ⟨hahead, hp⟩

theorem Covers.sublist (h : Covers xs o x) (hsub : xs.Sublist ys) : Covers ys o x := by
  rcases h with hout | ⟨hgoing, hahead⟩
  · exact .inl hout
  · exact .inr ⟨hgoing, (hsub.drop o.offset).subset hahead⟩

end Changes

/-- The same reader of the images of the elements. -/
def map {β : Type} (f : α → β) (o : OffsetScan α) : OffsetScan β :=
  ⟨o.offset, o.out.map f, o.finished⟩

theorem map_page {β : Type} (f : α → β) (xs : List α) (o : OffsetScan α) (n : Nat) :
    (o.page xs n).map f = (o.map f).page (xs.map f) n := by
  by_cases hfin : o.finished = true
  · rw [page_finished hfin, page_finished (show (o.map f).finished = true from hfin)]
  · rw [Bool.not_eq_true] at hfin
    have hfin' : (o.map f).finished = false := hfin
    by_cases hn : xs.length ≤ o.offset + n
    · have hn' : (xs.map f).length ≤ (o.map f).offset + n := by
        rw [List.length_map]
        exact hn
      rw [page_last hfin hn, page_last hfin' hn']
      unfold map
      rw [List.map_append, List.map_drop]
    · have hn' : ¬ (xs.map f).length ≤ (o.map f).offset + n := by
        rw [List.length_map]
        exact hn
      rw [page_next hfin hn, page_next hfin' hn']
      unfold map
      rw [List.map_append, List.map_take, List.map_drop]

theorem mem_page_out {xs : List α} {o : OffsetScan α} {n : Nat} {x : α}
    (h : x ∈ (o.page xs n).out) : x ∈ o.out ∨ x ∈ xs := by
  by_cases hfin : o.finished = true
  · rw [page_finished hfin] at h
    exact .inl h
  · rw [Bool.not_eq_true] at hfin
    have hout : (o.page xs n).out = o.out ++ (xs.drop o.offset).take n := by
      unfold page
      rw [hfin, if_neg Bool.false_ne_true]
      split <;> rfl
    rw [hout, List.mem_append] at h
    exact h.imp_right fun h => List.mem_of_mem_drop (List.mem_of_mem_take h)

end OffsetScan

end RustyAnt.Lib
