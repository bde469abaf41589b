import Mathlib.Data.List.Basic

/-!
# Requests that continue from a cursor

A client sends a request with a cursor, keeps the page and goes on from the cursor of the
reply until a reply has none.  Where every request serves the front of some list of work
and leaves the rest for its cursor, the pages together serve the whole list.
-/

namespace RustyAnt.Lib

variable {σ κ ω π : Type}

/-- The pages up to the first reply without a cursor, within a number of requests. -/
def pages (request : σ → κ → σ × π × Option κ) : Nat → σ → κ → Option (σ × List π)
  | 0, _, _ => none
  | fuel + 1, s, c =>
      match request s c with
      | (s, page, none) => some (s, [page])
      | (s, page, some c) => (pages request fuel s c).map fun r => (r.1, page :: r.2)

variable {request : σ → κ → σ × π × Option κ}

theorem pages_last {s s' : σ} {c : κ} {page : π} (h : request s c = (s', page, none))
    (fuel : Nat) : pages request (fuel + 1) s c = some (s', [page]) := by
  unfold pages
  rw [h]

theorem pages_next {s s' : σ} {c c' : κ} {page : π} (h : request s c = (s', page, some c'))
    (fuel : Nat) : pages request (fuel + 1) s c =
      (pages request fuel s' c').map fun r => (r.1, page :: r.2) := by
  rw [pages, h]

/-- One request: the front of the work is served, and the cursor stands for the rest. -/
structure ServesFront (Inv : σ → κ → Prop) (work : σ → κ → List ω)
    (Serves : σ → List ω → List π → σ → Prop) (s : σ) (c : κ) (s' : σ) (page : π)
    (next : Option κ) (front rest : List ω) : Prop where
  split : work s c = front ++ rest
  serves : Serves s front [page] s'
  last : next = none → rest = []
  more : ∀ c', next = some c' → front ≠ [] ∧ Inv s' c' ∧ work s' c' = rest

/-- One request more than there is work is enough, and together they serve it. -/
theorem pages_serve {Inv : σ → κ → Prop} {work : σ → κ → List ω}
    {Serves : σ → List ω → List π → σ → Prop}
    (happend : ∀ s front page s₁ rest ps s', Serves s front [page] s₁ → Serves s₁ rest ps s' →
      Serves s (front ++ rest) (page :: ps) s')
    (hrequest : ∀ s c, Inv s c → ∃ front rest, ServesFront Inv work Serves s c (request s c).1
      (request s c).2.1 (request s c).2.2 front rest)
    (fuel : Nat) (s : σ) (c : κ) (hinv : Inv s c) (hfuel : (work s c).length < fuel) :
    ∃ s' ps, pages request fuel s c = some (s', ps) ∧ Serves s (work s c) ps s' := by
  induction fuel generalizing s c with
  | zero => omega
  | succ fuel ih =>
      obtain ⟨front, rest, hsplit, hserves, hlast, hmore⟩ := hrequest s c hinv
      generalize hreply : request s c = reply at hserves hlast hmore
      obtain ⟨s₁, page, next⟩ := reply
      rw [hsplit] at hfuel ⊢
      cases next with
      | none =>
          rw [hlast rfl, List.append_nil]
          exact ⟨s₁, [page], pages_last hreply fuel, hserves⟩
      | some c' =>
          obtain ⟨hfront, hinv', hwork⟩ := hmore c' rfl
          have hpos := List.length_pos_iff.mpr hfront
          have hrest : (work s₁ c').length < fuel := by
            rw [hwork]
            rw [List.length_append] at hfuel
            omega
          obtain ⟨s', ps, hpages, hall⟩ := ih s₁ c' hinv' hrest
          rw [hwork] at hall
          refine ⟨s', page :: ps, ?_, happend s front page s₁ rest ps s' hserves hall⟩
          rw [pages_next hreply, hpages]
          rfl

/-- However many requests it takes, pages that have come to an end have served the work. -/
theorem pages_serves {Inv : σ → κ → Prop} {work : σ → κ → List ω}
    {Serves : σ → List ω → List π → σ → Prop}
    (happend : ∀ s front page s₁ rest ps s', Serves s front [page] s₁ → Serves s₁ rest ps s' →
      Serves s (front ++ rest) (page :: ps) s')
    (hrequest : ∀ s c, Inv s c → ∃ front rest, ServesFront Inv work Serves s c (request s c).1
      (request s c).2.1 (request s c).2.2 front rest)
    {fuel : Nat} {s s' : σ} {c : κ} {ps : List π} (hinv : Inv s c)
    (h : pages request fuel s c = some (s', ps)) : Serves s (work s c) ps s' := by
  induction fuel generalizing s c ps with
  | zero => cases h
  | succ fuel ih =>
      obtain ⟨front, rest, hsplit, hserves, hlast, hmore⟩ := hrequest s c hinv
      generalize hreply : request s c = reply at hserves hlast hmore
      obtain ⟨s₁, page, next⟩ := reply
      rw [hsplit]
      cases next with
      | none =>
          rw [pages_last hreply] at h
          cases h
          rw [hlast rfl, List.append_nil]
          exact hserves
      | some c' =>
          obtain ⟨-, hinv', hwork⟩ := hmore c' rfl
          rw [pages_next hreply] at h
          obtain ⟨r, hr, heq⟩ := Option.map_eq_some_iff.mp h
          cases heq
          have hrest := ih hinv' hr
          rw [hwork] at hrest
          exact happend s front page s₁ rest r.2 r.1 hserves hrest

theorem pages_add {fuel : Nat} {s : σ} {c : κ} {r : σ × List π}
    (h : pages request fuel s c = some r) (more : Nat) :
    pages request (fuel + more) s c = some r := by
  induction fuel generalizing s c r with
  | zero => cases h
  | succ fuel ih =>
      rw [Nat.succ_add]
      rcases hreply : request s c with ⟨s₁, page, next⟩
      cases next with
      | none =>
          rw [pages_last hreply] at h ⊢
          exact h
      | some c' =>
          rw [pages_next hreply] at h ⊢
          obtain ⟨r', hr', heq⟩ := Option.map_eq_some_iff.mp h
          rw [ih hr', Option.map_some, heq]

theorem pages_unique {fuel fuel' : Nat} {s : σ} {c : κ} {r r' : σ × List π}
    (h : pages request fuel s c = some r) (h' : pages request fuel' s c = some r') : r = r' := by
  have hmore := pages_add h fuel'
  rw [Nat.add_comm, pages_add h' fuel] at hmore
  exact (Option.some.inj hmore).symm

/-- Requests that correspond bring pages that correspond. -/
theorem pages_map {σ' κ' π' : Type} {request' : σ' → κ' → σ' × π' × Option κ'} (st : σ → σ')
    (tok : κ → κ') (pg : π → π') (Sent : κ → Prop)
    (hsent : ∀ s c c', Sent c → (request s c).2.2 = some c' → Sent c')
    (hrequest : ∀ s c, Sent c → request' (st s) (tok c) =
      (st (request s c).1, pg (request s c).2.1, (request s c).2.2.map tok))
    (fuel : Nat) (s : σ) (c : κ) (hc : Sent c) :
    pages request' fuel (st s) (tok c) =
      (pages request fuel s c).map fun r => (st r.1, r.2.map pg) := by
  induction fuel generalizing s c with
  | zero => rfl
  | succ fuel ih =>
      have hreq := hrequest s c hc
      have hmore := fun c' => hsent s c c' hc
      rcases hreply : request s c with ⟨s₁, page, next⟩
      rw [hreply] at hreq hmore
      cases next with
      | none =>
          rw [pages_last hreply, pages_last hreq]
          rfl
      | some c' =>
          rw [pages_next hreply, pages_next hreq, ih s₁ c' (hmore c' rfl), Option.map_map,
            Option.map_map]
          rfl

/-! ## A client that stops early -/

/-- A later request is made in this state from this cursor. -/
inductive Reaches (request : σ → κ → σ × π × Option κ) : σ → κ → σ → κ → Prop
  | next {s s' : σ} {c c' : κ} {page : π} (h : request s c = (s', page, some c')) :
      Reaches request s c s' c'
  | later {s s' s'' : σ} {c c' c'' : κ} {page : π} (h : request s c = (s', page, some c'))
      (hrest : Reaches request s' c' s'' c'') : Reaches request s c s'' c''

/-- The same requests for a client that takes some cursors for the end. -/
def stopAt (stop : κ → Bool) (request : σ → κ → σ × π × Option κ) (s : σ) (c : κ) :
    σ × π × Option κ :=
  ((request s c).1, (request s c).2.1, (request s c).2.2.filter fun c' => !stop c')

/-- It gets all pages, or those in front of the first such cursor. -/
theorem pages_stopAt (stop : κ → Bool) {fuel : Nat} {s s' : σ} {c : κ} {ps : List π}
    (h : pages request fuel s c = some (s', ps)) :
    ((∀ s₁ c₁, Reaches request s c s₁ c₁ → stop c₁ = false) ∧
      pages (stopAt stop request) fuel s c = some (s', ps)) ∨
    ∃ s₁ c₁ front back fuel', Reaches request s c s₁ c₁ ∧ stop c₁ = true ∧
      pages (stopAt stop request) fuel s c = some (s₁, front) ∧
      pages request fuel' s₁ c₁ = some (s', back) ∧ ps = front ++ back := by
  induction fuel generalizing s c ps with
  | zero => cases h
  | succ fuel ih =>
      rcases hreply : request s c with ⟨s₁, page, next⟩
      have hstop : stopAt stop request s c = (s₁, page, next.filter fun c' => !stop c') := by
        unfold stopAt
        rw [hreply]
      cases next with
      | none =>
          rw [pages_last hreply] at h
          cases h
          refine .inl ⟨fun s₂ c₂ hreach => ?_, pages_last hstop fuel⟩
          cases hreach with
          | next h => rw [hreply] at h; cases h
          | later h _ => rw [hreply] at h; cases h
      | some c' =>
          rw [pages_next hreply] at h
          obtain ⟨r, hr, heq⟩ := Option.map_eq_some_iff.mp h
          cases heq
          cases hc' : stop c' with
          | true =>
              rw [Option.filter_some, hc'] at hstop
              exact .inr ⟨s₁, c', [page], r.2, fuel, .next hreply, hc', pages_last hstop fuel,
                hr, rfl⟩
          | false =>
              rw [Option.filter_some, hc'] at hstop
              rcases ih hr with ⟨hnever, hpages⟩ |
                ⟨s₂, c₂, front, back, fuel', hreach, hc₂, hpages, hback, hps⟩
              · refine .inl ⟨fun s₂ c₂ hreach => ?_, ?_⟩
                · cases hreach with
                  | next h =>
                      rw [hreply] at h
                      cases h
                      exact hc'
                  | later h hrest =>
                      rw [hreply] at h
                      cases h
                      exact hnever _ _ hrest
                · rw [pages_next hstop, hpages]
                  rfl
              · refine .inr ⟨s₂, c₂, page :: front, back, fuel', .later hreply hreach, hc₂, ?_,
                  hback, ?_⟩
                · rw [pages_next hstop, hpages]
                  rfl
                · rw [hps]
                  rfl

/-! ## Pages of a fixed list -/

section Listing

variable {α : Type} [DecidableEq α]

/-- What stands behind the cursor. -/
def behind (xs : List α) : Option α → List α
  | none => xs
  | some c => (xs.dropWhile (· ≠ c)).drop 1

/-- At most `n` elements from behind the cursor, with the last of them as the next cursor when
more may follow. -/
structure IsPage (xs : List α) (n : Nat) (c : Option α) (page : List α) (next : Option α) :
    Prop where
  size : page.length ≤ n
  front : ∃ rest, behind xs c = page ++ rest ∧ (next = none → rest = [])
  cursor : ∀ c', next = some c' → page.getLast? = some c'

variable {xs : List α}

theorem behind_of_split {before rest : List α} {c : α} (hxs : xs = before ++ c :: rest)
    (hc : c ∉ before) : behind xs (some c) = rest := by
  have hbefore : ∀ a ∈ before, decide (a ≠ c) = true := by
    intro a ha
    rw [decide_eq_true_iff]
    intro heq
    exact hc (heq ▸ ha)
  unfold behind
  dsimp only
  rw [hxs, List.dropWhile_append_of_pos hbefore, List.dropWhile_cons_of_neg (by simp),
    List.drop_one, List.tail_cons]

theorem behind_suffix (xs : List α) (c : Option α) : behind xs c <:+ xs := by
  unfold behind
  cases c with
  | none => exact List.suffix_refl xs
  | some c => exact (List.drop_suffix 1 _).trans (List.dropWhile_suffix _)

theorem behind_next (hxs : xs.Nodup) {c : Option α} {page rest : List α} {c' : α}
    (hsplit : behind xs c = page ++ rest) (hlast : page.getLast? = some c') :
    behind xs (some c') = rest := by
  obtain ⟨before, hbefore⟩ := behind_suffix xs c
  obtain ⟨front, hfront⟩ := List.getLast?_eq_some_iff.mp hlast
  have hall : xs = (before ++ front) ++ c' :: rest := by
    rw [← hbefore, hsplit, hfront]
    simp only [List.append_assoc, List.singleton_append]
  apply behind_of_split hall
  rw [hall] at hxs
  intro hmem
  exact (List.nodup_append.mp hxs).2.2 c' hmem c' List.mem_cons_self rfl

/-- A server that cuts the list after `limit` elements, and says so. -/
theorem isPage_take {n limit : Nat} (hpos : 1 ≤ limit) (hle : limit ≤ n) (c : Option α) :
    IsPage xs n c ((behind xs c).take limit)
      (if ((behind xs c).take limit).length < (behind xs c).length then
        ((behind xs c).take limit).getLast? else none) := by
  constructor
  · exact Nat.le_trans (List.length_take_le limit _) hle
  · refine ⟨(behind xs c).drop limit, (List.take_append_drop limit _).symm, fun hnone => ?_⟩
    apply List.drop_eq_nil_of_le
    by_contra hlong
    rw [List.length_take, if_pos (by omega), List.getLast?_eq_none_iff,
      List.take_eq_nil_iff] at hnone
    rcases hnone with hzero | hnil
    · omega
    · rw [hnil, List.length_nil] at hlong
      omega
  · intro c' hc'
    split at hc'
    · exact hc'
    · cases hc'

/-- In an ordered list, what is behind an element is what is above it. -/
theorem behind_of_ordered {r : α → α → Prop} [DecidableRel r]
    (hasymm : ∀ a b, r a b → ¬ r b a) (hxs : xs.Pairwise r) {c : α} (hc : c ∈ xs) :
    behind xs (some c) = xs.filter fun a => decide (r c a) := by
  obtain ⟨before, rest, hsplit⟩ := List.append_of_mem hc
  rw [hsplit, List.pairwise_append, List.pairwise_cons] at hxs
  have hbelow : ∀ a ∈ before, r a c := fun a ha => hxs.2.2 a ha c List.mem_cons_self
  have hself : ¬ r c c := fun h => hasymm c c h h
  have hnone : before.filter (fun a => decide (r c a)) = [] := by
    rw [List.filter_eq_nil_iff]
    intro a ha
    rw [decide_eq_true_iff]
    exact hasymm a c (hbelow a ha)
  have hall : rest.filter (fun a => decide (r c a)) = rest := by
    rw [List.filter_eq_self]
    intro a ha
    rw [decide_eq_true_iff]
    exact hxs.2.1.1 a ha
  rw [behind_of_split hsplit fun hmem => hself (hbelow c hmem), hsplit, List.filter_append,
    List.filter_cons_of_neg (by simpa using hself), hnone, hall, List.nil_append]

/-- A server of the pages of a list. -/
def Pager (xs : List α) (pager : Option α → Nat → List α × Option α) : Prop :=
  ∀ c n, 1 ≤ n → (∀ c' ∈ c, c' ∈ xs) → IsPage xs n c (pager c n).1 (pager c n).2

/-- A server that cuts what is behind the cursor. -/
def cutPager (xs : List α) (c : Option α) (n : Nat) : List α × Option α :=
  ((behind xs c).take n,
    if ((behind xs c).take n).length < (behind xs c).length then
      ((behind xs c).take n).getLast? else none)

theorem cutPager_pager (xs : List α) : Pager xs (cutPager xs) :=
  fun c _ hn _ => isPage_take hn (Nat.le_refl _) c

/-- The walk through the pages, with `counts i` as the size of the `i`-th and what `p` keeps
of it. -/
def walk (p : α → Bool) (pager : Option α → Nat → List α × Option α) (counts : Nat → Nat)
    (i : Nat) (c : Option α) : Nat × List α × Option (Option α) :=
  (i + 1, (pager c (counts i)).1.filter p, (pager c (counts i)).2.map some)

variable {p : α → Bool} {pager : Option α → Nat → List α × Option α} {counts : Nat → Nat}

/-- What the pages have served of the work. -/
def Filtered (p : α → Bool) (_ : Nat) (work : List α) (ps : List (List α)) (_ : Nat) : Prop :=
  ps.flatten = work.filter p

omit [DecidableEq α] in
theorem filtered_append (i : Nat) (front : List α) (page : List α) (j : Nat) (rest : List α)
    (ps : List (List α)) (k : Nat) (hfront : Filtered p i front [page] j)
    (hrest : Filtered p j rest ps k) : Filtered p i (front ++ rest) (page :: ps) k := by
  unfold Filtered at hfront hrest ⊢
  rw [List.flatten_singleton] at hfront
  rw [List.flatten_cons, hfront, hrest, List.filter_append]

/-- The cursor of the walk is an element of the list. -/
def Listed (xs : List α) (_ : Nat) (c : Option α) : Prop := ∀ c' ∈ c, c' ∈ xs

omit [DecidableEq α] in
theorem listed_none (i : Nat) : Listed xs i none := nofun

theorem walk_serves (hxs : xs.Nodup) (hpager : Pager xs pager) (hcounts : ∀ i, 1 ≤ counts i)
    (i : Nat) (c : Option α) (hc : Listed xs i c) :
    ∃ front rest, ServesFront (Listed xs) (fun _ => behind xs) (Filtered p) i c
      (walk p pager counts i c).1 (walk p pager counts i c).2.1 (walk p pager counts i c).2.2
      front rest := by
  obtain ⟨-, ⟨rest, hsplit, hlast⟩, hcursor⟩ := hpager c (counts i) (hcounts i) hc
  refine ⟨(pager c (counts i)).1, rest, hsplit, ?_, fun hnone => ?_, fun c' hc' => ?_⟩
  · exact List.flatten_singleton
  · exact hlast (Option.map_eq_none_iff.mp hnone)
  · obtain ⟨k, hk, hsome⟩ := Option.map_eq_some_iff.mp hc'
    have hend := hcursor k hk
    subst hsome
    refine ⟨fun hnil => ?_, ?_, behind_next hxs hsplit hend⟩
    · rw [hnil] at hend
      cases hend
    · intro k' hk'
      rw [← Option.some.inj hk']
      have hmem : k ∈ behind xs c := by
        rw [hsplit]
        exact List.mem_append_left _ (List.mem_of_getLast? hend)
      exact (behind_suffix xs c).subset hmem

/-- The walk comes to its end and has brought everything. -/
theorem pages_walk (p : α → Bool) (hxs : xs.Nodup) (hpager : Pager xs pager)
    (hcounts : ∀ i, 1 ≤ counts i) : ∃ fuel i' ps, pages (walk p pager counts) fuel 0 none =
      some (i', ps) ∧ ps.flatten = xs.filter p := by
  obtain ⟨i', ps, hpages, hserved⟩ := pages_serve filtered_append
    (walk_serves (p := p) hxs hpager hcounts) (xs.length + 1) 0 none (listed_none 0)
    (Nat.lt_succ_self _)
  exact ⟨_, i', ps, hpages, hserved⟩

theorem walk_flatten (hxs : xs.Nodup) (hpager : Pager xs pager) (hcounts : ∀ i, 1 ≤ counts i)
    {fuel i i' : Nat} {c : Option α} {ps : List (List α)} (hc : Listed xs i c)
    (h : pages (walk p pager counts) fuel i c = some (i', ps)) :
    ps.flatten = (behind xs c).filter p :=
  pages_serves filtered_append (walk_serves (p := p) hxs hpager hcounts) hc h

theorem listed_of_reaches (hxs : xs.Nodup) (hpager : Pager xs pager)
    (hcounts : ∀ i, 1 ≤ counts i) {i j : Nat} {c c' : Option α} (hc : Listed xs i c)
    (h : Reaches (walk p pager counts) i c j c') : Listed xs j c' := by
  induction h with
  | next h =>
      obtain ⟨front, rest, hserves⟩ := walk_serves (p := p) hxs hpager hcounts _ _ hc
      rw [h] at hserves
      exact (hserves.more _ rfl).2.1
  | later h _ ih =>
      obtain ⟨front, rest, hserves⟩ := walk_serves (p := p) hxs hpager hcounts _ _ hc
      rw [h] at hserves
      exact ih (hserves.more _ rfl).2.1

/-- A client that takes one cursor for the end, if any, gets everything iff nothing with `p`
follows that cursor where a page ends on it. -/
theorem complete_iff_of_stop (hxs : xs.Nodup) (hpager : Pager xs pager)
    (hcounts : ∀ i, 1 ≤ counts i) {stop : Option α → Bool}
    (hone : ∀ c c', stop c = true → stop c' = true → c = c') :
    (∃ fuel i' ps, pages (stopAt stop (walk p pager counts)) fuel 0 none = some (i', ps) ∧
      ps.flatten.Perm (xs.filter p)) ↔
    ∀ i c, Reaches (walk p pager counts) 0 none i c → stop c = true →
      (behind xs c).filter p = [] := by
  obtain ⟨fuel, i', ps, hpages, hall⟩ := pages_walk p hxs hpager hcounts
  rcases pages_stopAt stop hpages with ⟨hnever, hstopped⟩ |
    ⟨j, c₁, front, back, fuel', hreach, hc₁, hstopped, hback, hps⟩
  · apply iff_of_true
    · refine ⟨fuel, i', ps, hstopped, ?_⟩
      rw [hall]
    · intro i c hreach hc
      rw [hnever i c hreach] at hc
      cases hc
  · have hrest := walk_flatten hxs hpager hcounts
      (listed_of_reaches hxs hpager hcounts (listed_none 0) hreach) hback
    rw [hps, List.flatten_append, hrest] at hall
    constructor
    · rintro ⟨fuel₂, i₂, ps₂, hpages₂, hperm⟩ i c _ hc
      have hsame := pages_unique hpages₂ hstopped
      cases hsame
      have hlen := hperm.length_eq
      rw [← hall, List.length_append] at hlen
      rw [hone c c₁ hc hc₁]
      exact List.eq_nil_of_length_eq_zero (by omega)
    · intro hnone
      refine ⟨fuel, j, front, hstopped, ?_⟩
      rw [hnone j c₁ hreach hc₁, List.append_nil] at hall
      rw [hall]

/-- A client that takes the cursor `z` for the end gets everything iff nothing with `p` follows
`z` where a page ends on it. -/
theorem stopped_complete_iff (hxs : xs.Nodup) (hpager : Pager xs pager)
    (hcounts : ∀ i, 1 ≤ counts i) (z : α) :
    (∃ fuel i' ps, pages (stopAt (fun c => decide (c = some z)) (walk p pager counts)) fuel 0 none =
      some (i', ps) ∧ ps.flatten.Perm (xs.filter p)) ↔
    ∀ i, Reaches (walk p pager counts) 0 none i (some z) → (behind xs (some z)).filter p = [] := by
  rw [complete_iff_of_stop hxs hpager hcounts fun c c' hc hc' =>
    (of_decide_eq_true hc).trans (of_decide_eq_true hc').symm]
  constructor
  · intro h i hreach
    exact h i (some z) hreach (decide_eq_true rfl)
  · intro h i c hreach hc
    have hz : c = some z := of_decide_eq_true hc
    rw [hz] at hreach ⊢
    exact h i hreach

theorem IsPage.of_one {c : Option α} {page : List α} {next : Option α}
    (h : IsPage xs 1 c page next) {a : α} {rest : List α} (hwork : behind xs c = a :: rest)
    (hrest : rest ≠ []) : page = [a] ∧ next = some a := by
  obtain ⟨hsize, ⟨left, hsplit, hlast⟩, hcursor⟩ := h
  rw [hwork] at hsplit
  cases page with
  | nil =>
      cases next with
      | none =>
          rw [hlast rfl] at hsplit
          cases hsplit
      | some c' => cases hcursor c' rfl
  | cons b page =>
      obtain rfl : page = [] := by
        rw [List.length_cons] at hsize
        exact List.eq_nil_of_length_eq_zero (by omega)
      obtain ⟨rfl, rfl⟩ := List.cons.inj hsplit
      cases next with
      | none => exact absurd (hlast rfl) hrest
      | some c' => exact ⟨rfl, (hcursor c' rfl).symm⟩

/-- With one element on a page, a request is made from every element with more behind it. -/
theorem reaches_of_ones (hxs : xs.Nodup) (hpager : Pager xs pager) (hcounts : ∀ i, counts i = 1)
    {c : Option α} (hc : Listed xs 0 c) {before rest : List α} {z : α}
    (hwork : behind xs c = before ++ z :: rest) (hrest : rest ≠ []) (i : Nat) :
    ∃ j, Reaches (walk p pager counts) i c j (some z) := by
  induction before generalizing c i with
  | nil =>
      have hpage := hpager c (counts i) (Nat.le_of_eq (hcounts i).symm) hc
      rw [hcounts i] at hpage
      obtain ⟨-, hnext⟩ := hpage.of_one hwork hrest
      have hstep : (walk p pager counts i c).2.2 = some (some z) := by
        rw [walk, hcounts i, hnext]
        rfl
      exact ⟨i + 1, .next (Prod.ext rfl (Prod.ext rfl hstep))⟩
  | cons a before ih =>
      have hpage := hpager c (counts i) (Nat.le_of_eq (hcounts i).symm) hc
      rw [hcounts i] at hpage
      have hmore : before ++ z :: rest ≠ [] := by simp
      obtain ⟨hone, hnext⟩ := hpage.of_one hwork hmore
      have hsplit : behind xs c = [a] ++ (before ++ z :: rest) := hwork
      have hbehind : behind xs (some a) = before ++ z :: rest := behind_next hxs hsplit rfl
      have hlisted : Listed xs 0 (some a) := by
        intro k hk
        rw [← Option.some.inj hk]
        exact (behind_suffix xs c).subset (by rw [hwork]; exact List.mem_cons_self)
      have hstep : (walk p pager counts i c).2.2 = some (some a) := by
        rw [walk, hcounts i, hnext]
        rfl
      obtain ⟨j, hreach⟩ := ih hlisted hbehind (i + 1)
      exact ⟨j, .later (Prod.ext rfl (Prod.ext rfl hstep)) hreach⟩

end Listing

/-! ## Pages that leave out what is gone -/

section Gaps

variable {α : Type} (p : α → Bool) (n : Nat)

/-- The elements with `p` in front of the first `n` in a row without it, after `k` without it. -/
def untilGap : Nat → List α → List α
  | _, [] => []
  | k, a :: rest =>
      if p a then a :: untilGap 0 rest
      else if k + 1 < n then untilGap (k + 1) rest
      else []

/-- Fewer than `n` elements without `p` stand in a row in front of one with it. -/
def GapsBelow (xs : List α) : Prop :=
  ∀ before gap a after, xs = before ++ gap ++ a :: after → (∀ b ∈ gap, p b = false) →
    p a = true → gap.length < n

variable {p n}

theorem untilGap_sublist (k : Nat) (xs : List α) : (untilGap p n k xs).Sublist (xs.filter p) := by
  induction xs generalizing k with
  | nil => exact List.Sublist.refl _
  | cons a rest ih =>
      unfold untilGap
      by_cases ha : p a = true
      · rw [if_pos ha, List.filter_cons_of_pos ha]
        exact (ih 0).cons_cons a
      · rw [if_neg ha, List.filter_cons_of_neg ha]
        split
        · exact ih (k + 1)
        · exact List.nil_sublist _

/-- Nothing is found past `n` elements in a row without `p`. -/
theorem untilGap_gone {gap : List α} (hgap : ∀ a ∈ gap, p a = false) {k : Nat} (hk : k < n)
    (hlong : n ≤ k + gap.length) (rest : List α) : untilGap p n k (gap ++ rest) = [] := by
  induction gap generalizing k with
  | nil =>
      rw [List.length_nil] at hlong
      omega
  | cons a gap ih =>
      have ha : ¬ p a = true := by simp [hgap a List.mem_cons_self]
      rw [List.cons_append, untilGap, if_neg ha]
      split
      · rename_i hlt
        apply ih (fun b hb => hgap b (List.mem_cons_of_mem _ hb)) hlt
        rw [List.length_cons] at hlong
        omega
      · rfl

theorem untilGap_none {xs : List α} (h : ∀ a ∈ xs, p a = false) (k : Nat) :
    untilGap p n k xs = [] := by
  have hsub := @untilGap_sublist α p n k xs
  have hnil : xs.filter p = [] := by
    rw [List.filter_eq_nil_iff]
    intro a ha
    rw [h a ha]
    exact Bool.false_ne_true
  rw [hnil] at hsub
  exact List.sublist_nil.mp hsub

/-- An empty page of `n` is the last one. -/
theorem untilGap_empty_page (hn : 1 ≤ n) {xs : List α} (h : (xs.take n).filter p = []) :
    untilGap p n 0 xs = [] := by
  rw [List.filter_eq_nil_iff] at h
  have hgap : ∀ a ∈ xs.take n, p a = false := fun a ha => by simpa using h a ha
  by_cases hlen : xs.length ≤ n
  · rw [List.take_of_length_le hlen] at hgap
    exact untilGap_none hgap 0
  · rw [← List.take_append_drop n xs]
    apply untilGap_gone hgap (by omega)
    rw [List.length_take]
    omega

/-- Up to the last element with `p` of a page, nothing is left out. -/
theorem untilGap_page {front : List α} {a : α} (ha : p a = true) {k : Nat}
    (hshort : k + front.length < n) (rest : List α) :
    untilGap p n k (front ++ a :: rest) = front.filter p ++ a :: untilGap p n 0 rest := by
  induction front generalizing k with
  | nil => rw [List.nil_append, untilGap, if_pos ha, List.filter_nil, List.nil_append]
  | cons b front ih =>
      rw [List.length_cons] at hshort
      rw [List.cons_append, untilGap]
      by_cases hb : p b = true
      · rw [if_pos hb, List.filter_cons_of_pos hb, List.cons_append, ih (by omega)]
      · rw [if_neg hb, if_pos (by omega), List.filter_cons_of_neg hb, ih (by omega)]

theorem GapsBelow.tail {a : α} {xs : List α} (h : GapsBelow p n (a :: xs)) : GapsBelow p n xs :=
  fun before gap b after heq => h (a :: before) gap b after (by rw [heq]; rfl)

theorem untilGap_eq_filter {k : Nat} {xs : List α} (h : GapsBelow p n xs)
    (hfront : ∀ gap a after, xs = gap ++ a :: after → (∀ b ∈ gap, p b = false) → p a = true →
      k + gap.length < n) :
    untilGap p n k xs = xs.filter p := by
  induction xs generalizing k with
  | nil => rfl
  | cons a rest ih =>
      unfold untilGap
      by_cases ha : p a = true
      · rw [if_pos ha, List.filter_cons_of_pos ha, ih h.tail]
        intro gap b after heq hgap hb
        rw [Nat.zero_add]
        exact h [a] gap b after (by rw [heq]; rfl) hgap hb
      · rw [if_neg ha, List.filter_cons_of_neg ha]
        have hgone : p a = false := by rwa [Bool.not_eq_true] at ha
        have hlonger : ∀ gap b after, rest = gap ++ b :: after → (∀ c ∈ gap, p c = false) →
            p b = true → k + 1 + gap.length < n := by
          intro gap b after heq hgap hb
          have hlt := hfront (a :: gap) b after (by rw [heq]; rfl)
            (List.forall_mem_cons.mpr ⟨hgone, hgap⟩) hb
          rw [List.length_cons] at hlt
          omega
        split
        · exact ih h.tail hlonger
        · rename_i hfull
          symm
          rw [List.filter_eq_nil_iff]
          intro b hb htrue
          obtain ⟨gap, c, after, heq, hgap, hc⟩ : ∃ gap c after, rest = gap ++ c :: after ∧
              (∀ d ∈ gap, p d = false) ∧ p c = true := by
            have hsome : (rest.find? p).isSome := List.find?_isSome.mpr ⟨b, hb, htrue⟩
            obtain ⟨c, hfind⟩ := Option.isSome_iff_exists.mp hsome
            obtain ⟨hc, gap, after, heq, hgap⟩ := List.find?_eq_some_iff_append.mp hfind
            exact ⟨gap, c, after, heq, fun d hd => by simpa using hgap d hd, hc⟩
          have hlt := hlonger gap c after heq hgap hc
          omega

theorem untilGap_subset {gap : List α} (hgap : ∀ a ∈ gap, p a = false) (hlong : n ≤ gap.length)
    (hn : 1 ≤ n) (before after : List α) {k : Nat} (hk : k < n) :
    untilGap p n k (before ++ gap ++ after) ⊆ before := by
  induction before generalizing k with
  | nil =>
      rw [List.nil_append, untilGap_gone hgap hk (by omega)]
      exact List.Subset.refl _
  | cons b before ih =>
      rw [List.cons_append, List.cons_append, untilGap]
      split
      · exact List.cons_subset_cons b (ih (by omega))
      · split
        · exact List.Subset.trans (ih (by assumption)) (List.subset_cons_self b before)
        · exact List.nil_subset _

/-- Everything with `p` is found iff no gap is long. -/
theorem untilGap_complete_iff (hn : 1 ≤ n) {xs : List α} (hnodup : xs.Nodup) :
    (∀ a ∈ xs, p a = true → a ∈ untilGap p n 0 xs) ↔ GapsBelow p n xs := by
  constructor
  · intro h before gap a after heq hgap ha
    by_contra hlong
    have hmem : a ∈ xs := by
      rw [heq]
      simp
    have hfound := h a hmem ha
    rw [heq] at hfound hnodup
    have hbefore := untilGap_subset hgap (by omega) hn before (a :: after) (by omega) hfound
    have hdisjoint := (List.nodup_append.mp hnodup).2.2 a (List.mem_append_left _ hbefore) a
    exact hdisjoint List.mem_cons_self rfl
  · intro h a hmem ha
    rw [untilGap_eq_filter h]
    · exact List.mem_filter.mpr ⟨hmem, ha⟩
    · intro gap b after heq hgap hb
      rw [Nat.zero_add]
      exact h [] gap b after heq hgap hb

end Gaps

end RustyAnt.Lib
