import RustyAnt.Lib.Prog
import Mathlib.Algebra.BigOperators.Group.Finset.Piecewise
import Mathlib.Data.List.Induction

/-!
# Interleaved programs over a shared service

A `Pool` is a family of programs that share one service.  At each step one of
them, chosen arbitrarily, has its next operation answered; the service is a
transition relation, so its answers may be nondeterministic.  `Run` records the
answered operations as events, each with the service's state before and after
it.

A client that issues several requests in turn is a set of programs of which
each starts after the previous one has ended; that is one of the interleavings,
so a family of single requests covers every number of clients and every
sequence of requests.
-/

namespace RustyAnt.Lib

variable {Op : Type} {Res : Op → Type} {ε σ ι : Type} {α : ι → Type}

/-- The programs still to be run and the state of the service they share. -/
structure Pool (Op : Type) (Res : Op → Type) (ε σ : Type) {ι : Type} (α : ι → Type) where
  state : σ
  prog : (i : ι) → Prog Op Res ε (α i)

/-- One answered operation of program `who`. -/
structure Event (Op : Type) (Res : Op → Type) (ε σ ι : Type) where
  who : ι
  op : Op
  answer : Except ε (Res op)
  before : σ
  after : σ

/-- A transition relation of the service. -/
abbrev Service (Op : Type) (Res : Op → Type) (ε σ : Type) :=
  σ → (op : Op) → Except ε (Res op) → σ → Prop

namespace Pool

variable [DecidableEq ι]

/-- `c` becomes `c'` by answering the next operation of one program. -/
inductive Step (service : Service Op Res ε σ) :
    Pool Op Res ε σ α → Event Op Res ε σ ι → Pool Op Res ε σ α → Prop
  | mk {c : Pool Op Res ε σ α} {i : ι} {op : Op}
      {k : Except ε (Res op) → Prog Op Res ε (α i)}
      {answer : Except ε (Res op)} {after : σ}
      (hprog : c.prog i = .call op k) (hserve : service c.state op answer after) :
      Step service c ⟨i, op, answer, c.state, after⟩
        ⟨after, Function.update c.prog i (k answer)⟩

/-- The interleavings of a pool, with the events they consist of. -/
inductive Run (service : Service Op Res ε σ) (c : Pool Op Res ε σ α) :
    List (Event Op Res ε σ ι) → Pool Op Res ε σ α → Prop
  | nil : Run service c [] c
  | snoc {evs : List (Event Op Res ε σ ι)} {ev : Event Op Res ε σ ι}
      {d e : Pool Op Res ε σ α}
      (hrun : Run service c evs d) (hstep : Step service d ev e) :
      Run service c (evs ++ [ev]) e

variable {service : Service Op Res ε σ} {c d e : Pool Op Res ε σ α}
variable {evs : List (Event Op Res ε σ ι)} {ev : Event Op Res ε σ ι}

theorem Step.before_eq (h : Step service c ev d) : ev.before = c.state := by
  cases h
  rfl

theorem Step.after_eq (h : Step service c ev d) : ev.after = d.state := by
  cases h
  rfl

theorem Step.serve (h : Step service c ev d) :
    service ev.before ev.op ev.answer ev.after := by
  cases h with
  | mk _ hserve => exact hserve

theorem Step.prog_of_ne (h : Step service c ev d) {j : ι} (hj : j ≠ ev.who) :
    d.prog j = c.prog j := by
  cases h with
  | mk _ _ => exact Function.update_of_ne hj _ _

/-- Programs that obey a guarantee still do after a step, and the operation that
was answered is within it. -/
theorem Step.obeys {rely : (op : Op) → Except ε (Res op) → Prop} {guar : Op → Prop}
    {post : (i : ι) → Except ε (α i) → Prop}
    (hobeys : ∀ i, (c.prog i).Obeys rely guar (post i))
    (h : Step service c ev d) (hrely : rely ev.op ev.answer) :
    guar ev.op ∧ ∀ i, (d.prog i).Obeys rely guar (post i) := by
  cases h with
  | @mk i op k answer after hprog hserve =>
      have hi := hobeys i
      rw [hprog] at hi
      refine ⟨hi.1, fun j => ?_⟩
      by_cases hj : j = i
      · subst hj
        simpa using hi.2 answer hrely
      · simpa [Function.update_of_ne hj] using hobeys j

theorem Run.obeys {rely : (op : Op) → Except ε (Res op) → Prop} {guar : Op → Prop}
    {post : (i : ι) → Except ε (α i) → Prop}
    (hobeys : ∀ i, (c.prog i).Obeys rely guar (post i))
    (h : Run service c evs d) (hrely : ∀ ev ∈ evs, rely ev.op ev.answer) :
    (∀ ev ∈ evs, guar ev.op) ∧ ∀ i, (d.prog i).Obeys rely guar (post i) := by
  induction h with
  | nil => exact ⟨by simp, hobeys⟩
  | @snoc evs ev d e _ hs ih =>
      obtain ⟨hguar, hd⟩ := ih fun x hx => hrely x (List.mem_append_left _ hx)
      obtain ⟨hlast, he⟩ := hs.obeys hd (hrely ev (by simp))
      refine ⟨fun x hx => ?_, he⟩
      rcases List.mem_append.mp hx with hx | hx
      · exact hguar x hx
      · rw [List.mem_singleton.mp hx]
        exact hlast

theorem Run.restrict {guar : Op → Prop} (hguar : ∀ i, (c.prog i).Requests guar)
    (h : Run service c evs d) :
    Run (fun s op answer s' => service s op answer s' ∧ guar op) c evs d := by
  have hops := (h.obeys hguar fun _ _ => trivial).1
  induction h with
  | nil => exact .nil
  | snoc _ hs ih =>
      rw [List.forall_mem_append, List.forall_mem_singleton] at hops
      refine (ih hops.1).snoc ?_
      cases hs with
      | mk hprog hserve => exact .mk hprog ⟨hserve, hops.2⟩

theorem Run.serve (h : Run service c evs d) :
    ∀ ev ∈ evs, service ev.before ev.op ev.answer ev.after := by
  induction h with
  | nil => simp
  | snoc _ hs ih =>
      simp only [List.forall_mem_append, List.forall_mem_singleton]
      exact ⟨ih, hs.serve⟩

/-- What holds at the start and is kept by the service holds before and after
every event. -/
theorem Run.state_invariant (inv : σ → Prop) (hinit : inv c.state)
    (hserve : ∀ {s op answer s'}, inv s → service s op answer s' → inv s')
    (h : Run service c evs d) :
    inv d.state ∧ ∀ ev ∈ evs, inv ev.before ∧ inv ev.after := by
  induction h with
  | nil => exact ⟨hinit, by simp⟩
  | snoc _ hs ih =>
      obtain ⟨hd, hevs⟩ := ih
      rw [← hs.before_eq] at hd
      have he := hserve hd hs.serve
      simp only [List.forall_mem_append, List.forall_mem_singleton]
      exact ⟨hs.after_eq ▸ he, hevs, hd, he⟩

/-- The states of a run are the one it starts in and those its events lead to. -/
theorem Run.state_mem (h : Run service c evs d) :
    d.state = c.state ∨ ∃ ev ∈ evs, ev.after = d.state := by
  cases h with
  | nil => exact .inl rfl
  | @snoc _ ev _ _ _ hs => exact .inr ⟨ev, by simp, hs.after_eq⟩

theorem Run.snoc_inv (h : Run service c (evs ++ [ev]) e) :
    ∃ d, Run service c evs d ∧ Step service d ev e := by
  generalize hl : evs ++ [ev] = l at h
  cases h with
  | nil => simp at hl
  | snoc hrun hs =>
      obtain ⟨rfl, hev⟩ := List.append_inj' hl rfl
      cases hev
      exact ⟨_, hrun, hs⟩

theorem Run.split {evs' : List (Event Op Res ε σ ι)}
    (h : Run service c (evs ++ evs') e) : ∃ d, Run service c evs d ∧ Run service d evs' e := by
  induction evs' using List.reverseRecOn generalizing e with
  | nil =>
      rw [List.append_nil] at h
      exact ⟨e, h, .nil⟩
  | append_singleton init last ih =>
      rw [← List.append_assoc] at h
      obtain ⟨d, hd, hs⟩ := h.snoc_inv
      obtain ⟨m, hm, hmd⟩ := ih hd
      exact ⟨m, hm, hmd.snoc hs⟩

theorem Run.nil_inv (h : Run service c [] d) : d = c := by
  generalize hl : ([] : List (Event Op Res ε σ ι)) = l at h
  cases h with
  | nil => rfl
  | snoc _ _ => simp at hl

theorem Run.head_before (h : Run service c (ev :: evs) e) : c.state = ev.before := by
  rw [← List.singleton_append] at h
  obtain ⟨d, hd, -⟩ := h.split
  rw [← List.nil_append [ev]] at hd
  obtain ⟨c', hc', hs⟩ := hd.snoc_inv
  rw [hs.before_eq, hc'.nil_inv]

/-- Where a reading of the state differs at the end, some event has changed it. -/
theorem Run.exists_change {β : Type} (f : σ → β) (h : Run service c evs d)
    (hne : f c.state ≠ f d.state) : ∃ ev ∈ evs, f ev.before ≠ f ev.after := by
  induction h with
  | nil => exact absurd rfl hne
  | @snoc evs ev d e _ hs ih =>
      by_cases hd : f d.state = f e.state
      · rw [← hd] at hne
        obtain ⟨x, hx, hxne⟩ := ih hne
        exact ⟨x, List.mem_append_left _ hx, hxne⟩
      · refine ⟨ev, by simp, ?_⟩
        rw [hs.before_eq, hs.after_eq]
        exact hd

theorem Run.persists {P : σ → Prop} (h : Run service c evs d)
    (hkeeps : ∀ ev ∈ evs, P ev.before → P ev.after) (hc : P c.state) : P d.state := by
  induction h with
  | nil => exact hc
  | snoc _ hs ih =>
      simp only [List.forall_mem_append, List.forall_mem_singleton] at hkeeps
      rw [← hs.after_eq]
      refine hkeeps.2 ?_
      rw [hs.before_eq]
      exact ih hkeeps.1

theorem Run.until {rest : List (Event Op Res ε σ ι)} (h : Run service c (evs ++ ev :: rest) e) :
    ∃ m : Pool Op Res ε σ α, Run service c evs m ∧ m.state = ev.before := by
  obtain ⟨m, hm, hrest⟩ := h.split
  exact ⟨m, hm, hrest.head_before⟩

theorem Run.since {rest : List (Event Op Res ε σ ι)} (h : Run service c (evs ++ ev :: rest) e) :
    ∃ m : Pool Op Res ε σ α, Run service m rest e ∧ m.state = ev.after := by
  rw [List.append_cons] at h
  obtain ⟨m, hm, hrest⟩ := h.split
  obtain ⟨_, _, hs⟩ := hm.snoc_inv
  exact ⟨m, hrest, hs.after_eq.symm⟩

/-- Between two of its events a run is a run, from the state after the first to
the state before the second. -/
theorem Run.between {ev' : Event Op Res ε σ ι} {mid rest : List (Event Op Res ε σ ι)}
    (h : Run service c (evs ++ ev :: (mid ++ ev' :: rest)) e) :
    ∃ m m' : Pool Op Res ε σ α, Run service m mid m' ∧ m.state = ev.after ∧ m'.state = ev'.before := by
  obtain ⟨m, hrest, hm⟩ := h.since
  obtain ⟨m', hmid, hm'⟩ := hrest.until
  exact ⟨m, m', hmid, hm, hm'⟩

omit [DecidableEq ι] in
theorem two_events {a b : Event Op Res ε σ ι} (ha : a ∈ evs) (hb : b ∈ evs) (hne : a ≠ b) :
    (∃ pre mid post, evs = pre ++ a :: (mid ++ b :: post)) ∨
      ∃ pre mid post, evs = pre ++ b :: (mid ++ a :: post) := by
  obtain ⟨pre, post, rfl⟩ := List.append_of_mem ha
  rw [List.mem_append, List.mem_cons] at hb
  rcases hb with hb | hb | hb
  · obtain ⟨pre, mid, rfl⟩ := List.append_of_mem hb
    exact .inr ⟨pre, mid, post, by simp⟩
  · exact absurd hb.symm hne
  · obtain ⟨mid, post, rfl⟩ := List.append_of_mem hb
    exact .inl ⟨pre, mid, post, rfl⟩

/-! ## Quantities along a run -/

section Quantity

variable {M : Type} [AddCommGroup M]

theorem Run.sum_change (f : σ → M) (h : Run service c evs d) :
    f d.state = f c.state + (evs.map fun ev => f ev.after - f ev.before).sum := by
  induction h with
  | nil => simp
  | snoc _ hs ih =>
      rw [List.map_append, List.sum_append, ← add_assoc, ← ih, List.map_singleton,
        List.sum_singleton, hs.after_eq, hs.before_eq, add_sub_cancel]

theorem sum_by_program [Fintype ι] (g : Event Op Res ε σ ι → M)
    (evs : List (Event Op Res ε σ ι)) :
    (evs.map g).sum = ∑ i, ((evs.filter fun ev => ev.who = i).map g).sum := by
  induction evs with
  | nil => simp
  | cons ev evs ih =>
      have hcons : ∀ i, (((ev :: evs).filter fun x => x.who = i).map g).sum =
          (if ev.who = i then g ev else 0) + ((evs.filter fun x => x.who = i).map g).sum := by
        intro i
        by_cases hi : ev.who = i
        · rw [List.filter_cons_of_pos (by simpa using hi), if_pos hi, List.map_cons,
            List.sum_cons]
        · rw [List.filter_cons_of_neg (by simpa using hi), if_neg hi, zero_add]
      simp only [hcons, Finset.sum_add_distrib, Finset.sum_ite_eq, Finset.mem_univ, if_true]
      rw [List.map_cons, List.sum_cons, ih]

end Quantity

/-! ## One program among the others -/

section Follows

variable {β γ : Type}

/-- Program `p`, answered by the events in turn, has become `q`. -/
inductive Follows :
    Prog Op Res ε β → List (Event Op Res ε σ ι) → Prog Op Res ε β → Prop
  | nil (p : Prog Op Res ε β) : Follows p [] p
  | cons {who : ι} {op : Op} {k : Except ε (Res op) → Prog Op Res ε β}
      {answer : Except ε (Res op)} {before after : σ}
      {evs : List (Event Op Res ε σ ι)} {q : Prog Op Res ε β}
      (h : Follows (k answer) evs q) :
      Follows (.call op k) (⟨who, op, answer, before, after⟩ :: evs) q

omit [DecidableEq ι] in
theorem Follows.snoc {p q : Prog Op Res ε β} {who : ι} {op : Op}
    {k : Except ε (Res op) → Prog Op Res ε β} {answer : Except ε (Res op)} {before after : σ}
    (h : Follows p evs q) (hq : q = .call op k) :
    Follows p (evs ++ [⟨who, op, answer, before, after⟩]) (k answer) := by
  induction h with
  | nil p =>
      rw [hq]
      exact .cons (.nil _)
  | cons _ ih => exact .cons (ih hq)

omit [DecidableEq ι] in
theorem Follows.done_inv {r : Except ε β} {q : Prog Op Res ε β}
    (h : Follows (.done r) evs q) : evs = [] ∧ q = .done r := by
  cases h
  exact ⟨rfl, rfl⟩

omit [DecidableEq ι] in
/-- A requested operation is pending or has been answered. -/
theorem Follows.call_inv {op : Op} {k : Except ε (Res op) → Prog Op Res ε β}
    {q : Prog Op Res ε β} (h : Follows (.call op k) evs q) :
    (evs = [] ∧ q = .call op k) ∨
      ∃ who answer before after evs', evs = ⟨who, op, answer, before, after⟩ :: evs' ∧
        Follows (k answer) evs' q := by
  cases h with
  | nil => exact .inl ⟨rfl, rfl⟩
  | cons h => exact .inr ⟨_, _, _, _, _, rfl, h⟩

/-- Seen from one of its programs, a run is that program's own events. -/
theorem Run.follows (h : Run service c evs d) (i : ι) :
    Follows (c.prog i) (evs.filter fun ev => ev.who = i) (d.prog i) := by
  induction h with
  | nil => exact .nil _
  | @snoc evs ev d e _ hs ih =>
      rw [List.filter_append]
      by_cases hwho : ev.who = i
      · rw [List.filter_cons_of_pos (by simpa using hwho), List.filter_nil]
        cases hs with
        | mk hprog hserve =>
            subst hwho
            dsimp only
            rw [Function.update_self]
            exact ih.snoc hprog
      · rw [List.filter_cons_of_neg (by simpa using hwho), List.filter_nil, List.append_nil,
          hs.prog_of_ne (Ne.symm hwho)]
        exact ih

omit [DecidableEq ι] in
/-- What has been answered of a sequence is part of its first program, or all of
that and part of what comes next. -/
theorem Follows.bind_inv {p : Prog Op Res ε β} {f : β → Prog Op Res ε γ}
    {q : Prog Op Res ε γ} (h : Follows (p.bind f) evs q) :
    (∃ op k, Follows p evs (.call op k) ∧ q = (Prog.call op k).bind f) ∨
      ∃ evs₁ evs₂ r, evs = evs₁ ++ evs₂ ∧ Follows p evs₁ (.done r) ∧
        Follows ((Prog.done r).bind f) evs₂ q := by
  induction p generalizing evs with
  | done r => exact .inr ⟨[], evs, r, rfl, .nil _, h⟩
  | call op k ih =>
      rw [Prog.call_bind] at h
      cases h with
      | nil => exact .inl ⟨op, k, .nil _, rfl⟩
      | cons h =>
          rcases ih _ h with ⟨op', k', hp, hq⟩ | ⟨evs₁, evs₂, r, rfl, hp, hf⟩
          · exact .inl ⟨op', k', .cons hp, hq⟩
          · exact .inr ⟨_ :: evs₁, evs₂, r, rfl, .cons hp, hf⟩

omit [DecidableEq ι] in
/-- A program ends at one point of its events and in one way. -/
theorem Follows.unique {p : Prog Op Res ε β} {evs evs' rest rest' : List (Event Op Res ε σ ι)}
    {r r' : Except ε β} (h : Follows p evs (.done r)) (h' : Follows p evs' (.done r'))
    (hsplit : evs ++ rest = evs' ++ rest') : evs = evs' ∧ rest = rest' ∧ r = r' := by
  induction p generalizing evs evs' with
  | done r₀ =>
      obtain ⟨rfl, hr⟩ := h.done_inv
      obtain ⟨rfl, hr'⟩ := h'.done_inv
      cases hr
      cases hr'
      exact ⟨rfl, hsplit, rfl⟩
  | call op k ih =>
      rcases h.call_inv with ⟨-, hq⟩ | ⟨who, answer, before, after, evs, rfl, hk⟩
      · cases hq
      rcases h'.call_inv with ⟨-, hq⟩ | ⟨who', answer', before', after', evs', rfl, hk'⟩
      · cases hq
      rw [List.cons_append, List.cons_append, List.cons.injEq] at hsplit
      obtain ⟨hev, hrest⟩ := hsplit
      cases hev
      obtain ⟨rfl, hrests, hr⟩ := ih answer hk hk' hrest
      exact ⟨rfl, hrests, hr⟩

omit [DecidableEq ι] in
theorem Follows.obeys {rely : (op : Op) → Except ε (Res op) → Prop} {guar : Op → Prop}
    {post : Except ε β → Prop} {p q : Prog Op Res ε β} (h : Follows p evs q)
    (hobeys : p.Obeys rely guar post) (hrely : ∀ ev ∈ evs, rely ev.op ev.answer) :
    ∀ ev ∈ evs, guar ev.op := by
  induction h with
  | nil p => simp
  | cons _ ih =>
      simp only [List.forall_mem_cons] at hrely ⊢
      exact ⟨hobeys.1, ih (hobeys.2 _ hrely.1) hrely.2⟩

omit [DecidableEq ι] in
theorem Follows.obeys_rest {rely : (op : Op) → Except ε (Res op) → Prop} {guar : Op → Prop}
    {post : Except ε β → Prop} {p q : Prog Op Res ε β} (h : Follows p evs q)
    (hobeys : p.Obeys rely guar post) (hrely : ∀ ev ∈ evs, rely ev.op ev.answer) :
    q.Obeys rely guar post := by
  induction h with
  | nil p => exact hobeys
  | cons _ ih =>
      rw [List.forall_mem_cons] at hrely
      exact ih (hobeys.2 _ hrely.1) hrely.2

end Follows

/-! ## Schedules

A run of a deterministic service is fixed by the order in which the programs
are answered.
-/

/-- Answer the programs in the order of `sched`; a program that has ended is
skipped. -/
def exec (serve : (op : Op) → σ → Except ε (Res op) × σ) :
    List ι → Pool Op Res ε σ α → Pool Op Res ε σ α
  | [], c => c
  | i :: sched, c =>
      match c.prog i with
      | .done _ => exec serve sched c
      | .call op k =>
          let r := serve op c.state
          exec serve sched ⟨r.2, Function.update c.prog i (k r.1)⟩

theorem Run.trans {evs' : List (Event Op Res ε σ ι)} (h : Run service c evs d)
    (h' : Run service d evs' e) : Run service c (evs ++ evs') e := by
  induction h' with
  | nil =>
      rw [List.append_nil]
      exact h
  | snoc _ hs ih =>
      rw [← List.append_assoc]
      exact ih.snoc hs

/-- The events of a schedule. -/
def trace (serve : (op : Op) → σ → Except ε (Res op) × σ) :
    List ι → Pool Op Res ε σ α → List (Event Op Res ε σ ι)
  | [], _ => []
  | i :: sched, c =>
      match c.prog i with
      | .done _ => trace serve sched c
      | .call op k =>
          let r := serve op c.state
          ⟨i, op, r.1, c.state, r.2⟩ :: trace serve sched ⟨r.2, Function.update c.prog i (k r.1)⟩

/-- A schedule is a run of every service that allows the deterministic
answers. -/
theorem exec_trace {serve : (op : Op) → σ → Except ε (Res op) × σ}
    (hserve : ∀ op s, service s op (serve op s).1 (serve op s).2) (sched : List ι)
    (c : Pool Op Res ε σ α) : Run service c (trace serve sched c) (exec serve sched c) := by
  induction sched generalizing c with
  | nil => exact .nil
  | cons i sched ih =>
      rw [exec, trace]
      cases hprog : c.prog i with
      | done r => exact ih c
      | call op k =>
          have hrest := ih ⟨(serve op c.state).2, Function.update c.prog i (k (serve op c.state).1)⟩
          exact (Run.nil.snoc (.mk hprog (hserve op c.state))).trans hrest

theorem exec_run {serve : (op : Op) → σ → Except ε (Res op) × σ}
    (hserve : ∀ op s, service s op (serve op s).1 (serve op s).2) (sched : List ι)
    (c : Pool Op Res ε σ α) : ∃ evs, Run service c evs (exec serve sched c) :=
  ⟨_, exec_trace hserve sched c⟩

end Pool

/-! Schedules of two and three clients write them as numerals of `Fin`. -/

instance neZero_two : @NeZero Nat Zero.ofOfNat0 2 := ⟨by decide⟩

instance neZero_three : @NeZero Nat Zero.ofOfNat0 3 := ⟨by decide⟩

end RustyAnt.Lib
