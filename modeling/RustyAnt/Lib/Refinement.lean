import RustyAnt.Lib.Serial

/-!
# Refining a service

A pool of programs is compiled, operation by operation, to the requests of a lower service.
Where every compiled operation takes effect at one of its own requests, as an abstraction of the
lower service's states shows it, a run of the compiled pool is a run of the pool itself: the
effects, in the order in which they come up.
-/

namespace RustyAnt.Lib

variable {Op Op' : Type} {Res : Op → Type} {Res' : Op' → Type} {ε σ τ ι β γ : Type}
variable {α : ι → Type}

/-! ## Lists in parts -/

theorem exists_annotated [DecidableEq ι] (part : β → ι) (xs : List β) (marks : ι → List (β × γ))
    (h : ∀ i, (marks i).map Prod.fst = xs.filter fun x => part x = i) :
    ∃ all : List (β × γ), all.map Prod.fst = xs ∧
      ∀ i, (all.filter fun m => part m.1 = i) = marks i := by
  induction xs generalizing marks with
  | nil =>
      refine ⟨[], rfl, fun i => ?_⟩
      have hi := h i
      rw [List.filter_nil, List.map_eq_nil_iff] at hi
      rw [hi, List.filter_nil]
  | cons x xs ih =>
      have hx := h (part x)
      rw [List.filter_cons_of_pos (by simp), List.map_eq_cons_iff] at hx
      obtain ⟨m, rest, hm, rfl, hrest⟩ := hx
      have hparts : ∀ i, (Function.update marks (part m.1) rest i).map Prod.fst =
          xs.filter fun y => part y = i := by
        intro i
        by_cases hi : part m.1 = i
        · subst hi
          rw [Function.update_self]
          exact hrest
        · rw [Function.update_of_ne (Ne.symm hi), h i, List.filter_cons_of_neg (by simpa using hi)]
      obtain ⟨all, hall, hfilter⟩ := ih _ hparts
      refine ⟨m :: all, by rw [List.map_cons, hall], fun i => ?_⟩
      by_cases hi : part m.1 = i
      · subst hi
        rw [List.filter_cons_of_pos (by simp), hfilter, Function.update_self, hm]
      · rw [List.filter_cons_of_neg (by simpa using hi), hfilter, Function.update_of_ne (Ne.symm hi)]

/-! ## Operations answered beforehand -/

namespace Prog

variable {known : (op : Op) → Option (Except ε (Res op))}

/-- The program with the operations whose answers are known left out. -/
def resolve (known : (op : Op) → Option (Except ε (Res op))) : Prog Op Res ε β → Prog Op Res ε β
  | done r => done r
  | call op k =>
      match known op with
      | some r => (k r).resolve known
      | none => call op fun r => (k r).resolve known

theorem resolve_call_known {op : Op} {k : Except ε (Res op) → Prog Op Res ε β}
    {r : Except ε (Res op)} (h : known op = some r) :
    (call op k).resolve known = (k r).resolve known := by
  rw [resolve, h]

theorem resolve_call {op : Op} {k : Except ε (Res op) → Prog Op Res ε β} (h : known op = none) :
    (call op k).resolve known = call op fun r => (k r).resolve known := by
  rw [resolve, h]

theorem resolve_bind (p : Prog Op Res ε β) (f : β → Prog Op Res ε γ) :
    (p.bind f).resolve known = (p.resolve known).bind fun a => (f a).resolve known := by
  induction p with
  | done r => cases r <;> rfl
  | call op k ih =>
      cases h : known op with
      | some r =>
          rw [resolve_call_known h, call_bind, resolve_call_known h]
          exact ih r
      | none =>
          rw [resolve_call h, call_bind, resolve_call h, call_bind]
          exact congrArg (call op) (funext ih)

theorem resolve_of_requests {p : Prog Op Res ε β} (h : p.Requests fun op => known op = none) :
    p.resolve known = p := by
  induction p with
  | done r => rfl
  | call op k ih =>
      rw [resolve_call h.1]
      exact congrArg (call op) (funext fun r => ih r (h.2 r trivial))

theorem Obeys.resolve {rely : (op : Op) → Except ε (Res op) → Prop} {guar : Op → Prop}
    {post : Except ε β → Prop} {p : Prog Op Res ε β} (h : p.Obeys rely guar post)
    (hknown : ∀ op r, known op = some r → rely op r) :
    (p.resolve known).Obeys rely (fun op => guar op ∧ known op = none) post := by
  induction p with
  | done r => exact h
  | call op k ih =>
      cases hop : known op with
      | some r =>
          rw [resolve_call_known hop]
          exact ih r (h.2 r (hknown op r hop))
      | none =>
          rw [resolve_call hop]
          exact ⟨⟨h.1, hop⟩, fun r hr => ih r (h.2 r hr)⟩

/-- Where the known answers are the ones the implementation gives without a request, the compiled
program is the same. -/
theorem interp_resolve {impl : (op : Op) → Prog Op' Res' ε (Res op)}
    (h : ∀ op r, known op = some r → impl op = done r) (p : Prog Op Res ε β) :
    (p.resolve known).interp impl = p.interp impl := by
  induction p with
  | done r => rfl
  | call op k ih =>
      cases hop : known op with
      | some r =>
          rw [resolve_call_known hop, ih, interp, h op r hop]
          rfl
      | none =>
          rw [resolve_call hop, interp, interp]
          exact congrArg _ (funext ih)

/-- What every implementation keeps to, the compiled program keeps to. -/
theorem Obeys.interp {rely : (op : Op') → Except ε (Res' op) → Prop} {guar : Op' → Prop}
    {impl : (op : Op) → Prog Op' Res' ε (Res op)}
    (h : ∀ op, (impl op).Obeys rely guar fun _ => True) (p : Prog Op Res ε β) :
    (p.interp impl).Obeys rely guar fun _ => True := by
  induction p with
  | done r => trivial
  | call op k ih => exact Obeys.bind (Obeys.attempt (h op)) (fun r _ => ih r) fun _ _ => trivial

end Prog

namespace Pool

/-! ## Runs and their events -/

theorem Follows.nil_inv {p q : Prog Op Res ε β}
    (h : Follows p ([] : List (Event Op Res ε σ ι)) q) : q = p := by
  cases h
  rfl

theorem Follows.cons_inv {p q : Prog Op Res ε β} {ev : Event Op Res ε σ ι}
    {evs : List (Event Op Res ε σ ι)} (h : Follows p (ev :: evs) q) :
    ∃ k, p = .call ev.op k ∧ Follows (k ev.answer) evs q := by
  cases h with
  | cons h => exact ⟨_, rfl, h⟩

section Events

variable [DecidableEq ι] {service : Service Op Res ε σ} {c d : Pool Op Res ε σ α}
variable {evs : List (Event Op Res ε σ ι)}

theorem Run.mono {service' : Service Op Res ε σ} (h : Run service c evs d)
    (himp : ∀ {s op r t}, service s op r t → service' s op r t) : Run service' c evs d := by
  induction h with
  | nil => exact .nil
  | snoc _ hs ih =>
      refine ih.snoc ?_
      cases hs with
      | mk hprog hserve => exact .mk hprog (himp hserve)

theorem Run.linked (h : Run service c evs d) : Linked c.state evs d.state := by
  induction h with
  | nil => rfl
  | snoc _ hs ih =>
      rw [← hs.before_eq] at ih
      rw [← hs.after_eq]
      exact ih.append (.single _)

/-- Answers of the service, each given where the last one has left it, are a run of every pool
whose programs can follow them. -/
theorem run_of_follows {t : σ} {q : (i : ι) → Prog Op Res ε (α i)}
    (hlinked : Linked c.state evs t)
    (hserve : ∀ ev ∈ evs, service ev.before ev.op ev.answer ev.after)
    (hfollows : ∀ i, Follows (c.prog i) (evs.filter fun ev => ev.who = i) (q i)) :
    Run service c evs ⟨t, q⟩ := by
  induction evs generalizing c with
  | nil =>
      have hq : q = c.prog := funext fun i => (hfollows i).nil_inv
      rw [hq, show t = c.state from hlinked]
      exact .nil
  | cons ev evs ih =>
      obtain ⟨who, op, answer, before, after⟩ := ev
      rw [List.forall_mem_cons] at hserve
      obtain ⟨hbefore, hlinked⟩ := hlinked
      dsimp only at hbefore
      subst hbefore
      have hown := hfollows who
      rw [List.filter_cons_of_pos (by simp)] at hown
      obtain ⟨k, hprog, hrest⟩ := hown.cons_inv
      have hrun := ih (c := ⟨after, Function.update c.prog who (k answer)⟩) hlinked hserve.2 fun i => by
        by_cases hi : who = i
        · subst hi
          dsimp only
          rw [Function.update_self]
          exact hrest
        · have hother := hfollows i
          rw [List.filter_cons_of_neg (by simpa using hi)] at hother
          dsimp only
          rw [Function.update_of_ne (Ne.symm hi)]
          exact hother
      exact (Run.nil.snoc (.mk hprog hserve.1)).trans hrun

end Events

/-! ## Events above and below -/

variable {service : Service Op Res ε σ} {abs : τ → σ}

/-- The event below is not seen above. -/
def Hidden (abs : τ → σ) (ev : Event Op' Res' ε τ ι) : Prop := abs ev.after = abs ev.before

/-- What the event below is above: nothing, or an answer of the service. -/
inductive Stands (service : Service Op Res ε σ) (abs : τ → σ) :
    Event Op' Res' ε τ ι → Option (Event Op Res ε σ ι) → Prop
  | hidden (ev : Event Op' Res' ε τ ι) (h : Hidden abs ev) : Stands service abs ev none
  | effect (ev : Event Op' Res' ε τ ι) (op : Op) (answer : Except ε (Res op))
      (h : service (abs ev.before) op answer (abs ev.after)) :
      Stands service abs ev (some ⟨ev.who, op, answer, abs ev.before, abs ev.after⟩)

section Marks

theorem snds_none (b : β) (l : List (β × Option γ)) :
    ((b, none) :: l).filterMap Prod.snd = l.filterMap Prod.snd := rfl

theorem snds_some (b : β) (x : γ) (l : List (β × Option γ)) :
    ((b, some x) :: l).filterMap Prod.snd = x :: l.filterMap Prod.snd := rfl

variable {marks : List (Event Op' Res' ε τ ι × Option (Event Op Res ε σ ι))}

theorem linked_above {s t : τ} (h : Linked s (marks.map Prod.fst) t)
    (hmarks : ∀ m ∈ marks, Stands service abs m.1 m.2) :
    Linked (abs s) (marks.filterMap Prod.snd) (abs t) := by
  induction marks generalizing s with
  | nil => exact congrArg abs h
  | cons m marks ih =>
      rw [List.forall_mem_cons] at hmarks
      obtain ⟨ev, o⟩ := m
      obtain ⟨hev, hmarks⟩ := hmarks
      obtain ⟨hbefore, hrest⟩ := h
      have htail := ih hrest hmarks
      dsimp only at hev
      cases hev with
      | hidden hhidden =>
          rw [snds_none]
          rwa [show abs ev.after = abs ev.before from hhidden,
            show ev.before = s from hbefore] at htail
      | effect op answer _ =>
          rw [snds_some]
          exact ⟨congrArg abs hbefore, htail⟩

theorem served_above (hmarks : ∀ m ∈ marks, Stands service abs m.1 m.2) :
    ∀ ev ∈ marks.filterMap Prod.snd, service ev.before ev.op ev.answer ev.after := by
  intro ev hev
  obtain ⟨m, hm, hsome⟩ := List.mem_filterMap.mp hev
  have hstands := hmarks m hm
  rw [hsome] at hstands
  cases hstands with
  | effect op answer h => exact h

theorem who_above (hmarks : ∀ m ∈ marks, Stands service abs m.1 m.2) :
    ((marks.filterMap Prod.snd).map Event.who).Sublist ((marks.map Prod.fst).map Event.who) := by
  induction marks with
  | nil => exact .slnil
  | cons m marks ih =>
      rw [List.forall_mem_cons] at hmarks
      obtain ⟨ev, o⟩ := m
      obtain ⟨hev, hmarks⟩ := hmarks
      dsimp only at hev
      cases hev with
      | hidden _ =>
          rw [snds_none]
          exact (ih hmarks).cons _
      | effect op answer _ =>
          rw [snds_some]
          exact (ih hmarks).cons_cons _

theorem filter_above [DecidableEq ι] (hmarks : ∀ m ∈ marks, Stands service abs m.1 m.2) (i : ι) :
    (marks.filterMap Prod.snd).filter (fun ev => ev.who = i) =
      (marks.filter fun m => m.1.who = i).filterMap Prod.snd := by
  induction marks with
  | nil => rfl
  | cons m marks ih =>
      rw [List.forall_mem_cons] at hmarks
      obtain ⟨ev, o⟩ := m
      obtain ⟨hev, hmarks⟩ := hmarks
      have htail := ih hmarks
      dsimp only at hev
      cases hev with
      | hidden _ =>
          rw [snds_none, htail]
          by_cases hi : ev.who = i
          · rw [List.filter_cons_of_pos (by simpa using hi), snds_none]
          · rw [List.filter_cons_of_neg (by simpa using hi)]
      | effect op answer _ =>
          rw [snds_some]
          by_cases hi : ev.who = i
          · rw [List.filter_cons_of_pos (by simpa using hi),
              List.filter_cons_of_pos (by simpa using hi), snds_some, htail]
          · rw [List.filter_cons_of_neg (by simpa using hi),
              List.filter_cons_of_neg (by simpa using hi), htail]

end Marks

/-- What the events below are above has made `q` of `p`. -/
def Refined (service : Service Op Res ε σ) (abs : τ → σ) (p : Prog Op Res ε β)
    (evs : List (Event Op' Res' ε τ ι)) (q : Prog Op Res ε β) : Prop :=
  ∃ marks : List (Event Op' Res' ε τ ι × Option (Event Op Res ε σ ι)),
    marks.map Prod.fst = evs ∧ (∀ m ∈ marks, Stands service abs m.1 m.2) ∧
      Follows p (marks.filterMap Prod.snd) q

/-- A run below of which each program's part is refined is a run above. -/
theorem Run.refined [DecidableEq ι] {lower : Service Op' Res' ε τ} {c d : Pool Op' Res' ε τ α}
    {evs : List (Event Op' Res' ε τ ι)} (h : Run lower c evs d)
    {p q : (i : ι) → Prog Op Res ε (α i)}
    (hrefined : ∀ i, Refined service abs (p i) (evs.filter fun ev => ev.who = i) (q i)) :
    ∃ above, Run service ⟨abs c.state, p⟩ above ⟨abs d.state, q⟩ ∧
      (above.map Event.who).Sublist (evs.map Event.who) := by
  choose marks hfst hstands hfollows using hrefined
  obtain ⟨all, rfl, hall⟩ := exists_annotated Event.who evs marks hfst
  have hmarks : ∀ m ∈ all, Stands service abs m.1 m.2 := by
    intro m hm
    refine hstands m.1.who m ?_
    rw [← hall, List.mem_filter]
    exact ⟨hm, by simp⟩
  refine ⟨_, run_of_follows (linked_above h.linked hmarks) (served_above hmarks) fun i => ?_,
    who_above hmarks⟩
  rw [filter_above hmarks, hall]
  exact hfollows i

/-! ## Compiled operations -/

/-- The events answer the operation: one of them takes effect above, the others are hidden. -/
def Answers (service : Service Op Res ε σ) (abs : τ → σ) (op : Op)
    (evs : List (Event Op' Res' ε τ ι)) (answer : Except ε (Res op)) : Prop :=
  ∃ pre ev post, evs = pre ++ ev :: post ∧ (∀ x ∈ pre ++ post, Hidden abs x) ∧
    service (abs ev.before) op answer (abs ev.after)

/-- The program takes the effect of the operation at one of its requests, and nothing of it is
seen before it has ended. -/
structure Linearizes (service : Service Op Res ε σ) (abs : τ → σ) (op : Op)
    (evs : List (Event Op' Res' ε τ ι)) (q : Prog Op' Res' ε (Res op)) : Prop where
  ended : ∀ r, q = .done r → Answers service abs op evs r
  pending : (∀ r, q ≠ .done r) → ∀ ev ∈ evs, Hidden abs ev

theorem Linearizes.of_done {op : Op} {evs : List (Event Op' Res' ε τ ι)}
    {r : Except ε (Res op)} (h : Answers service abs op evs r) :
    Linearizes service abs op evs (Prog.done r) where
  ended := by
    rintro r' ⟨⟩
    exact h
  pending hq := absurd rfl (hq r)

theorem Linearizes.of_call {op : Op} {evs : List (Event Op' Res' ε τ ι)} {op' : Op'}
    {k : Except ε (Res' op') → Prog Op' Res' ε (Res op)} (h : ∀ ev ∈ evs, Hidden abs ev) :
    Linearizes service abs op evs (Prog.call op' k) where
  ended := nofun
  pending _ := h

theorem Answers.last {op : Op} {evs : List (Event Op' Res' ε τ ι)} {ev : Event Op' Res' ε τ ι}
    {r : Except ε (Res op)} (hevs : ∀ x ∈ evs, Hidden abs x)
    (h : service (abs ev.before) op r (abs ev.after)) : Answers service abs op (evs ++ [ev]) r :=
  ⟨evs, ev, [], rfl, by simpa using hevs, h⟩

theorem Answers.first {op : Op} {evs : List (Event Op' Res' ε τ ι)} {ev : Event Op' Res' ε τ ι}
    {r : Except ε (Res op)} (hevs : ∀ x ∈ evs, Hidden abs x)
    (h : service (abs ev.before) op r (abs ev.after)) : Answers service abs op (ev :: evs) r :=
  ⟨[], ev, evs, rfl, hevs, h⟩

/-- What happens hidden in front of the program changes nothing about it. -/
theorem Linearizes.hidden_append {op : Op} {evs evs' : List (Event Op' Res' ε τ ι)}
    {q : Prog Op' Res' ε (Res op)} (hevs : ∀ ev ∈ evs, Hidden abs ev)
    (h : Linearizes service abs op evs' q) : Linearizes service abs op (evs ++ evs') q where
  ended r hr := by
    obtain ⟨pre, ev, post, rfl, hhidden, hserve⟩ := h.ended r hr
    refine ⟨evs ++ pre, ev, post, by simp, ?_, hserve⟩
    rw [List.append_assoc, List.forall_mem_append]
    exact ⟨hevs, hhidden⟩
  pending hq := List.forall_mem_append.mpr ⟨hevs, h.pending hq⟩

theorem Linearizes.of_request {op : Op} {op' : Op'} {k : Except ε (Res' op') → Prog Op' Res' ε (Res op)}
    {evs : List (Event Op' Res' ε τ ι)} {q : Prog Op' Res' ε (Res op)}
    (h : Follows (.call op' k) evs q)
    (hanswer : ∀ who answer before after, ⟨who, op', answer, before, after⟩ ∈ evs →
      ∃ r, k answer = .done r ∧ service (abs before) op r (abs after)) :
    Linearizes service abs op evs q := by
  rcases h.call_inv with ⟨rfl, rfl⟩ | ⟨who, answer, before, after, rest, rfl, hrest⟩
  · exact .of_call (by simp)
  · obtain ⟨r, hr, hserve⟩ := hanswer who answer before after List.mem_cons_self
    rw [hr] at hrest
    obtain ⟨rfl, rfl⟩ := hrest.done_inv
    exact .of_done (.first (by simp) hserve)

theorem snds_hidden (xs : List β) :
    (xs.map fun x => (x, (none : Option γ))).filterMap Prod.snd = [] := by
  rw [List.filterMap_map, List.filterMap_eq_nil_iff]
  exact fun _ _ => rfl

theorem fsts_hidden (xs : List β) : (xs.map fun x => (x, (none : Option γ))).map Prod.fst = xs := by
  rw [List.map_map]
  exact List.map_id xs

theorem stands_hidden {evs : List (Event Op' Res' ε τ ι)} (h : ∀ ev ∈ evs, Hidden abs ev) :
    ∀ m ∈ evs.map fun ev => (ev, none), Stands service abs m.1 m.2 := by
  intro m hm
  obtain ⟨ev, hev, rfl⟩ := List.mem_map.mp hm
  exact .hidden ev (h ev hev)

theorem refined_of_hidden {p : Prog Op Res ε β} {evs : List (Event Op' Res' ε τ ι)}
    (h : ∀ ev ∈ evs, Hidden abs ev) : Refined service abs p evs p := by
  refine ⟨_, fsts_hidden evs, stands_hidden h, ?_⟩
  rw [snds_hidden]
  exact .nil p

theorem Refined.call {op : Op} {k : Except ε (Res op) → Prog Op Res ε β} {q : Prog Op Res ε β}
    {evs evs' : List (Event Op' Res' ε τ ι)} {r : Except ε (Res op)}
    (hanswers : Answers service abs op evs r) (h : Refined service abs (k r) evs' q) :
    Refined service abs (.call op k) (evs ++ evs') q := by
  obtain ⟨pre, ev, post, rfl, hhidden, hserve⟩ := hanswers
  obtain ⟨marks, rfl, hmarks, hfollows⟩ := h
  rw [List.forall_mem_append] at hhidden
  refine ⟨(pre.map fun x => (x, none)) ++
    (ev, some ⟨ev.who, op, r, abs ev.before, abs ev.after⟩) ::
      ((post.map fun x => (x, none)) ++ marks), ?_, ?_, ?_⟩
  · rw [List.map_append, List.map_cons, List.map_append, fsts_hidden, fsts_hidden,
      List.append_assoc, List.cons_append]
  · rw [List.forall_mem_append, List.forall_mem_cons, List.forall_mem_append]
    exact ⟨stands_hidden hhidden.1, .effect ev op r hserve, stands_hidden hhidden.2, hmarks⟩
  · rw [List.filterMap_append, snds_hidden, snds_some, List.filterMap_append, snds_hidden]
    exact .cons hfollows

section Compiled

variable {impl : (op : Op) → Prog Op' Res' ε (Res op)}
variable {rely : (op : Op) → Except ε (Res op) → Prop} {guar : Op → Prop}
variable {good : List (Event Op' Res' ε τ ι) → Prop}

theorem Follows.attempt_inv {p : Prog Op Res ε β} {evs : List (Event Op Res ε σ ι)}
    {q : Prog Op Res ε (Except ε β)} (h : Follows p.attempt evs q) :
    ∃ q', Follows p evs q' ∧ q = q'.attempt := by
  induction p generalizing evs with
  | done r =>
      obtain ⟨rfl, rfl⟩ := h.done_inv
      exact ⟨_, .nil _, rfl⟩
  | call op k ih =>
      rw [Prog.call_attempt] at h
      rcases h.call_inv with ⟨rfl, rfl⟩ | ⟨who, answer, before, after, rest, rfl, hk⟩
      · exact ⟨_, .nil _, rfl⟩
      · obtain ⟨q', hq', rfl⟩ := ih answer hk
        exact ⟨q', .cons hq', rfl⟩

/-- The part of a compiled program in a run, by induction on the program above: its operations
are answered block by block, and all that is left below of a program that has ended is its end. -/
theorem interp_refined {p : Prog Op Res ε β} (hobeys : p.Obeys rely guar fun _ => True)
    (hrely : ∀ s op r t, service (abs s) op r (abs t) → rely op r)
    (hlin : ∀ op, guar op → ∀ (evs : List (Event Op' Res' ε τ ι)) (q : Prog Op' Res' ε (Res op)),
      Follows (impl op) evs q → good evs → Linearizes service abs op evs q)
    {evs : List (Event Op' Res' ε τ ι)} {q : Prog Op' Res' ε β}
    (h : Follows (p.interp impl) evs q) (hgood : ∀ block, block <:+: evs → good block) :
    ∃ above, Refined service abs p evs above ∧ ∀ r, q = .done r ↔ above = .done r := by
  induction p generalizing evs with
  | done r =>
      obtain ⟨rfl, rfl⟩ := h.done_inv
      refine ⟨.done r, refined_of_hidden (by simp), fun r' => ?_⟩
      rw [Prog.done.injEq, Prog.done.injEq]
  | call op k ih =>
      rw [Prog.interp] at h
      rcases h.bind_inv with ⟨op', k', hblock, rfl⟩ | ⟨block, rest, r, rfl, hblock, hrest⟩
      · obtain ⟨q', hq', hattempt⟩ := hblock.attempt_inv
        cases q' with
        | done r => cases hattempt
        | call op'' k'' =>
            have hpending : ∀ r, Prog.call op'' k'' ≠ Prog.done r := by
              intro r hr
              cases hr
            have hhidden := (hlin op hobeys.1 evs _ hq' (hgood evs (List.infix_refl evs))).pending
              hpending
            refine ⟨.call op k, refined_of_hidden hhidden, fun r => ⟨fun hr => ?_, fun hr => ?_⟩⟩
            · cases hr
            · cases hr
      · obtain ⟨q', hq', hattempt⟩ := hblock.attempt_inv
        cases q' with
        | call op'' k'' => cases hattempt
        | done answer =>
            cases hattempt
            have hinfix : block <:+: block ++ rest := ⟨[], rest, by simp⟩
            obtain ⟨hended, -⟩ := hlin op hobeys.1 block _ hq' (hgood block hinfix)
            have hanswers := hended answer rfl
            have hanswer : rely op answer := by
              obtain ⟨pre, ev, post, -, -, hserve⟩ := hanswers
              exact hrely _ _ _ _ hserve
            have hbehind : ∀ b, b <:+: rest → good b := fun b hb =>
              hgood b (hb.trans ⟨block, [], by simp⟩)
            obtain ⟨above, habove, hend⟩ := ih answer (hobeys.2 answer hanswer) hrest hbehind
            exact ⟨above, .call hanswers habove, hend⟩

/-- A run of a compiled pool is a run of the pool, with the same results. -/
theorem Run.interp [DecidableEq ι] {lower : Service Op' Res' ε τ} {p : (i : ι) → Prog Op Res ε (α i)}
    {s : τ} {evs : List (Event Op' Res' ε τ ι)} {d : Pool Op' Res' ε τ α}
    (h : Run lower ⟨s, fun i => (p i).interp impl⟩ evs d)
    (hobeys : ∀ i, (p i).Obeys rely guar fun _ => True)
    (hrely : ∀ s op r t, service (abs s) op r (abs t) → rely op r)
    (hlin : ∀ op, guar op → ∀ (evs : List (Event Op' Res' ε τ ι)) (q : Prog Op' Res' ε (Res op)),
      Follows (impl op) evs q → good evs → Linearizes service abs op evs q)
    (hgood : ∀ i block, block <:+: (evs.filter fun ev => ev.who = i) → good block) :
    ∃ above q, Run service ⟨abs s, p⟩ above ⟨abs d.state, q⟩ ∧
      (above.map Event.who).Sublist (evs.map Event.who) ∧
      ∀ i r, d.prog i = .done r ↔ q i = .done r := by
  choose q hrefined hend using fun i =>
    interp_refined (hobeys i) hrely hlin (h.follows i) (hgood i)
  obtain ⟨above, hrun, hwho⟩ := h.refined hrefined
  exact ⟨above, q, hrun, hwho, hend⟩

end Compiled

end Pool

end RustyAnt.Lib
