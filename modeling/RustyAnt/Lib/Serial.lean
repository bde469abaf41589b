import RustyAnt.Lib.Pool

/-!
# Serial runs

A program that takes effect at one of its events, and leaves the state alone at all others,
might as well have been run without interruption at that point.  Where every program of a pool
is of this kind, a run comes to the same as one in which the programs that have ended are run
one after the other.
-/

namespace RustyAnt.Lib

variable {Op : Type} {Res : Op → Type} {ε σ ι β γ : Type} {α : ι → Type}

/-- The event leaves the state as it was. -/
def Event.Still (ev : Event Op Res ε σ ι) : Prop := ev.after = ev.before

namespace Pool

variable {service : Service Op Res ε σ} {evs evs' : List (Event Op Res ε σ ι)}
variable {ev : Event Op Res ε σ ι} {s t u : σ}

/-- Each event begins in the state that the one before it has left. -/
def Linked : σ → List (Event Op Res ε σ ι) → σ → Prop
  | s, [], t => t = s
  | s, ev :: evs, t => ev.before = s ∧ Linked ev.after evs t

theorem Linked.append (h : Linked s evs t) (h' : Linked t evs' u) : Linked s (evs ++ evs') u := by
  induction evs generalizing s with
  | nil =>
      rw [← show t = s from h]
      exact h'
  | cons ev evs ih => exact ⟨h.1, ih h.2⟩

theorem Linked.split (h : Linked s (evs ++ evs') u) : ∃ t, Linked s evs t ∧ Linked t evs' u := by
  induction evs generalizing s with
  | nil => exact ⟨s, rfl, h⟩
  | cons ev evs ih =>
      obtain ⟨t, ht, hrest⟩ := ih h.2
      exact ⟨t, ⟨h.1, ht⟩, hrest⟩

theorem Linked.single (ev : Event Op Res ε σ ι) : Linked ev.before [ev] ev.after := ⟨rfl, rfl⟩

/-! ## The events that count -/

/-- Only the given event, if any, changes the state. -/
inductive OnlyAt : List (Event Op Res ε σ ι) → Option (Event Op Res ε σ ι) → Prop
  | never {evs : List (Event Op Res ε σ ι)} (h : ∀ ev ∈ evs, ev.Still) : OnlyAt evs none
  | once (pre : List (Event Op Res ε σ ι)) (ev : Event Op Res ε σ ι)
      (post : List (Event Op Res ε σ ι)) (h : ∀ x ∈ pre ++ post, x.Still) :
      OnlyAt (pre ++ ev :: post) (some ev)

theorem OnlyAt.snoc_inv {point : Option (Event Op Res ε σ ι)} (h : OnlyAt (evs ++ [ev]) point) :
    (point = some ev ∧ OnlyAt evs none) ∨ (ev.Still ∧ OnlyAt evs point) := by
  generalize hl : evs ++ [ev] = l at h
  cases h with
  | never h =>
      subst hl
      rw [List.forall_mem_append, List.forall_mem_singleton] at h
      exact .inr ⟨h.2, .never h.1⟩
  | once pre x post h =>
      rw [List.forall_mem_append] at h
      rcases List.eq_nil_or_concat post with rfl | ⟨post, last, rfl⟩
      · obtain ⟨rfl, hx⟩ := List.append_inj' hl rfl
        cases hx
        exact .inl ⟨rfl, .never h.1⟩
      · rw [List.concat_eq_append] at hl h
        rw [← List.cons_append, ← List.append_assoc] at hl
        obtain ⟨rfl, hlast⟩ := List.append_inj' hl rfl
        cases hlast
        rw [List.forall_mem_append, List.forall_mem_singleton] at h
        exact .inr ⟨h.2.2, .once pre x post (List.forall_mem_append.mpr ⟨h.1, h.2.1⟩)⟩

variable [DecidableEq ι] {c d e : Pool Op Res ε σ α}

/-- The events that change the state lead from the first state of a run to its last one. -/
theorem Run.points (h : Run service c evs d)
    (point : ι → Option (Event Op Res ε σ ι))
    (hpoint : ∀ i, OnlyAt (evs.filter fun ev => ev.who = i) (point i)) :
    ∃ points : List (Event Op Res ε σ ι), points.Sublist evs ∧ Linked c.state points d.state ∧
      (points.map Event.who).Nodup ∧ ∀ i ev, (ev ∈ points ∧ ev.who = i) ↔ point i = some ev := by
  induction h generalizing point with
  | nil =>
      refine ⟨[], .slnil, rfl, .nil, fun i ev => ?_⟩
      have hi := hpoint i
      rw [List.filter_nil] at hi
      have hnone : point i = none := by
        generalize hl : ([] : List (Event Op Res ε σ ι)) = l at hi
        generalize point i = o at hi
        cases hi with
        | never _ => rfl
        | once pre x post _ => simp at hl
      rw [hnone]
      exact ⟨fun hx => absurd hx.1 List.not_mem_nil, fun hx => by cases hx⟩
  | @snoc evs ev d e hrun hs ih =>
      have hother : ∀ i, ev.who ≠ i → OnlyAt (evs.filter fun x => x.who = i) (point i) := by
        intro i hi
        have h := hpoint i
        rwa [List.filter_append, List.filter_cons_of_neg (by simpa using hi), List.filter_nil,
          List.append_nil] at h
      have hown := hpoint ev.who
      rw [List.filter_append, List.filter_cons_of_pos (by simp), List.filter_nil] at hown
      rcases hown.snoc_inv with ⟨hev, hbefore⟩ | ⟨hstill, hbefore⟩
      · -- the last event is its program's point, and nothing of that program was one before
        obtain ⟨points, hsub, hlinked, hnodup, hmem⟩ :=
          ih (Function.update point ev.who none) fun i => by
            by_cases hi : ev.who = i
            · subst hi
              rw [Function.update_self]
              exact hbefore
            · rw [Function.update_of_ne (Ne.symm hi)]
              exact hother i hi
        have hfresh : ∀ x ∈ points, x.who ≠ ev.who := by
          intro x hx hwho
          have hnone := (hmem ev.who x).mp ⟨hx, hwho⟩
          rw [Function.update_self] at hnone
          cases hnone
        refine ⟨points ++ [ev], hsub.append (.refl _), ?_, ?_, fun i x => ?_⟩
        · rw [← hs.after_eq]
          rw [← hs.before_eq] at hlinked
          exact hlinked.append (.single ev)
        · rw [List.map_append, List.map_singleton, List.nodup_append]
          refine ⟨hnodup, List.nodup_singleton _, ?_⟩
          rintro i hi j hj rfl
          obtain ⟨x, hx, hwho⟩ := List.mem_map.mp hi
          exact hfresh x hx (hwho.trans (List.mem_singleton.mp hj))
        · rw [List.mem_append, List.mem_singleton]
          by_cases hi : ev.who = i
          · subst hi
            constructor
            · rintro ⟨hx | rfl, hwho⟩
              · exact absurd hwho (hfresh x hx)
              · exact hev
            · intro hx
              rw [hev, Option.some.injEq] at hx
              exact ⟨.inr hx.symm, congrArg Event.who hx.symm⟩
          · have hi' := hmem i x
            rw [Function.update_of_ne (Ne.symm hi)] at hi'
            rw [← hi']
            constructor
            · rintro ⟨hx | rfl, hwho⟩
              · exact ⟨hx, hwho⟩
              · exact absurd hwho hi
            · rintro ⟨hx, hwho⟩
              exact ⟨.inl hx, hwho⟩
      · obtain ⟨points, hsub, hlinked, hrest⟩ := ih point fun i => by
          by_cases hi : ev.who = i
          · exact hi ▸ hbefore
          · exact hother i hi
        refine ⟨points, hsub.trans (List.sublist_append_left _ _), ?_, hrest⟩
        rw [← hs.after_eq, show ev.after = ev.before from hstill, hs.before_eq]
        exact hlinked

/-! ## A program alone -/

/-- Program `p` of `who`, run from `s` without interruption, has become `q` in `t`. -/
structure Alone (service : Service Op Res ε σ) (who : ι) (p : Prog Op Res ε β) (s : σ)
    (evs : List (Event Op Res ε σ ι)) (q : Prog Op Res ε β) (t : σ) : Prop where
  follows : Follows p evs q
  linked : Linked s evs t
  served : ∀ ev ∈ evs, service ev.before ev.op ev.answer ev.after
  own : ∀ ev ∈ evs, ev.who = who

omit [DecidableEq ι] in
theorem Alone.nil (who : ι) (p : Prog Op Res ε β) (s : σ) :
    Alone service who p s [] p s :=
  ⟨.nil p, rfl, by simp, by simp⟩

omit [DecidableEq ι] in
theorem Alone.cons {who : ι} {op : Op} {k : Except ε (Res op) → Prog Op Res ε β}
    {answer : Except ε (Res op)} {q : Prog Op Res ε β} (hserve : service s op answer t)
    (h : Alone service who (k answer) t evs q u) :
    Alone service who (.call op k) s (⟨who, op, answer, s, t⟩ :: evs) q u :=
  ⟨.cons h.follows, ⟨rfl, h.linked⟩, List.forall_mem_cons.mpr ⟨hserve, h.served⟩,
    List.forall_mem_cons.mpr ⟨rfl, h.own⟩⟩

omit [DecidableEq ι] in
theorem Follows.bind {p : Prog Op Res ε β} {f : β → Prog Op Res ε γ} {r : Except ε β}
    {q : Prog Op Res ε γ} (h : Follows p evs (.done r))
    (hf : Follows ((Prog.done r).bind f) evs' q) : Follows (p.bind f) (evs ++ evs') q := by
  induction p generalizing evs with
  | done r' =>
      obtain ⟨rfl, hr⟩ := h.done_inv
      cases hr
      exact hf
  | call op k ih =>
      rcases h.call_inv with ⟨-, hq⟩ | ⟨who, answer, before, after, evs, rfl, hk⟩
      · cases hq
      · exact .cons (ih answer hk)

omit [DecidableEq ι] in
theorem Alone.bind {who : ι} {p : Prog Op Res ε β} {f : β → Prog Op Res ε γ} {r : Except ε β}
    {q : Prog Op Res ε γ} (h : Alone service who p s evs (.done r) t)
    (hf : Alone service who ((Prog.done r).bind f) t evs' q u) :
    Alone service who (p.bind f) s (evs ++ evs') q u :=
  ⟨h.follows.bind hf.follows, h.linked.append hf.linked,
    List.forall_mem_append.mpr ⟨h.served, hf.served⟩, List.forall_mem_append.mpr ⟨h.own, hf.own⟩⟩

theorem Alone.run {i : ι} {p q : Prog Op Res ε (α i)} (h : Alone service i p s evs q t)
    (hprog : c.prog i = p) (hstate : c.state = s) :
    Run service c evs ⟨t, Function.update c.prog i q⟩ := by
  obtain ⟨hfollows, hlinked, hserved, hown⟩ := h
  induction hfollows generalizing c s with
  | nil p =>
      rw [← hprog, Function.update_eq_self, show t = s from hlinked, ← hstate]
      exact .nil
  | @cons who op k answer before after evs q hk ih =>
      rw [List.forall_mem_cons] at hserved hown
      obtain ⟨hserve, hserved⟩ := hserved
      obtain ⟨hwho, hown⟩ := hown
      obtain ⟨hbefore, hlinked⟩ := hlinked
      dsimp only at hserve hwho hbefore
      subst hwho hbefore hstate
      have hrest := ih (c := ⟨after, Function.update c.prog who (k answer)⟩)
        (Function.update_self _ _ _) rfl hlinked hserved hown
      rw [Function.update_idem] at hrest
      exact (Run.nil.snoc (.mk hprog hserve)).trans hrest

/-! ## One program after the other -/

/-- Programs run one after the other, in the order given and each to its end. -/
inductive Serial (service : Service Op Res ε σ) (c : Pool Op Res ε σ α) :
    List ι → Pool Op Res ε σ α → Prop
  | nil : Serial service c [] c
  | snoc {order : List ι} {d e : Pool Op Res ε σ α} (h : Serial service c order d) (i : ι)
      (hnew : i ∉ order) (block : List (Event Op Res ε σ ι)) (hrun : Run service d block e)
      (hown : ∀ ev ∈ block, ev.who = i) (r : Except ε (α i)) (hend : e.prog i = .done r) :
      Serial service c (order ++ [i]) e

/-- The program has ended with one event at which it could have been run alone, or it has
changed nothing; then, if it has ended, it was with the error of one of its requests, or it had
ended before any. -/
inductive InOne (service : Service Op Res ε σ) (p : Prog Op Res ε β)
    (evs : List (Event Op Res ε σ ι)) (q : Prog Op Res ε β) : Prop
  | effect (r : Except ε β) (hq : q = .done r) (pre : List (Event Op Res ε σ ι))
      (ev : Event Op Res ε σ ι) (post : List (Event Op Res ε σ ι)) (hevs : evs = pre ++ ev :: post)
      (hstill : ∀ x ∈ pre ++ post, x.Still) (block : List (Event Op Res ε σ ι))
      (halone : Alone service ev.who p ev.before block (.done r) ev.after)
  | unchanged (hstill : ∀ ev ∈ evs, ev.Still)
      (hq : ∀ r, q = .done r →
        (∃ e, r = .error e ∧ ∃ ev ∈ evs, ev.answer = .error e) ∨ p = .done r)

omit [DecidableEq ι] in
theorem InOne.failed {p q : Prog Op Res ε β} (hstill : ∀ ev ∈ evs, ev.Still)
    (hq : ∀ r, q = .done r → ∃ e, r = .error e ∧ ∃ ev ∈ evs, ev.answer = .error e) :
    InOne service p evs q :=
  .unchanged hstill fun r hr => .inl (hq r hr)

omit [DecidableEq ι] in
theorem InOne.ended {p q : Prog Op Res ε β} {r : Except ε β} (hp : p = .done r)
    (h : Follows p evs q) : InOne service p evs q := by
  subst hp
  obtain ⟨rfl, rfl⟩ := h.done_inv
  exact .unchanged (by simp) fun r hr => .inr hr

omit [DecidableEq ι] in
/-- What is made of the result needs no further request. -/
theorem InOne.reply {p : Prog Op Res ε β} {f : β → Except ε γ} {q : Prog Op Res ε γ}
    (h : Follows (p.bind fun a => .done (f a)) evs q)
    (hone : ∀ q', Follows p evs q' → InOne service p evs q') :
    InOne service (p.bind fun a => .done (f a)) evs q := by
  rcases h.bind_inv with ⟨op, k, hp, rfl⟩ | ⟨evs₁, evs₂, r, rfl, hp, hrest⟩
  · cases hone _ hp with
    | effect r hq _ _ _ _ _ _ _ => cases hq
    | unchanged hstill _ => exact .failed hstill nofun
  · have hdone : (Prog.done r : Prog Op Res ε β).bind (fun a => .done (f a)) =
        .done (r.bind f) := by
      cases r <;> rfl
    rw [hdone] at hrest
    obtain ⟨rfl, rfl⟩ := hrest.done_inv
    rw [List.append_nil] at hone ⊢
    cases hone _ hp with
    | effect r' hq pre ev post hevs hstill block halone =>
        cases hq
        have hreply : Alone service ev.who
            ((Prog.done r : Prog Op Res ε β).bind fun a => .done (f a)) ev.after []
            (.done (r.bind f)) ev.after := by
          rw [hdone]
          exact .nil _ _ _
        exact .effect (r.bind f) rfl pre ev post hevs hstill _ (halone.bind hreply)
    | unchanged hstill hq =>
        refine .unchanged hstill ?_
        rintro _ ⟨⟩
        rcases hq r rfl with ⟨e, rfl, hev⟩ | rfl
        · exact .inl ⟨e, rfl, hev⟩
        · exact .inr hdone

omit [DecidableEq ι] in
theorem InOne.onlyAt {p q : Prog Op Res ε β} (h : InOne service p evs q) :
    ∃ point, OnlyAt evs point ∧
      (∀ ev, point = some ev →
        ∃ r block, q = .done r ∧ Alone service ev.who p ev.before block (.done r) ev.after) ∧
      (point = none → ∀ r, q = .done r →
        (∃ e, r = .error e ∧ ∃ ev ∈ evs, ev.answer = .error e) ∨ p = .done r) := by
  cases h with
  | effect r hq pre ev post hevs hstill block halone =>
      subst hevs
      refine ⟨some ev, .once pre ev post hstill, ?_, by simp⟩
      rintro x ⟨⟩
      exact ⟨r, block, hq, halone⟩
  | unchanged hstill hq => exact ⟨none, .never hstill, by simp, fun _ => hq⟩

theorem serial_of_points {points : List (Event Op Res ε σ ι)} (hlinked : Linked c.state points s)
    (hnodup : (points.map Event.who).Nodup)
    (halone : ∀ ev ∈ points, ∃ r block, d.prog ev.who = .done r ∧
      Alone service ev.who (c.prog ev.who) ev.before block (.done r) ev.after) :
    ∃ e, Serial service c (points.map Event.who) e ∧ e.state = s ∧
      (∀ i ∈ points.map Event.who, e.prog i = d.prog i) ∧
      ∀ i, i ∉ points.map Event.who → e.prog i = c.prog i := by
  induction points using List.reverseRecOn generalizing s with
  | nil => exact ⟨c, .nil, (show s = c.state from hlinked).symm, by simp, by simp⟩
  | append_singleton points ev ih =>
      obtain ⟨m, hm, hbefore, rfl⟩ := hlinked.split
      rw [List.map_append, List.map_singleton, List.nodup_append] at hnodup
      have hnew : ev.who ∉ points.map Event.who := fun hin =>
        hnodup.2.2 _ hin _ (List.mem_singleton_self _) rfl
      rw [List.forall_mem_append, List.forall_mem_singleton] at halone
      obtain ⟨e, hserial, hstate, hin, hout⟩ := ih hm hnodup.1 halone.1
      obtain ⟨r, block, hend, hblock⟩ := halone.2
      have hrun := hblock.run (hout _ hnew) (hstate.trans hbefore.symm)
      rw [List.map_append, List.map_singleton]
      refine ⟨_, hserial.snoc ev.who hnew block hrun hblock.own r (Function.update_self _ _ _), rfl,
        fun i hi => ?_, fun i hi => ?_⟩
      · by_cases hwho : i = ev.who
        · subst hwho
          rw [hend]
          exact Function.update_self _ _ _
        · rw [List.mem_append, List.mem_singleton] at hi
          rw [← hin i (hi.resolve_right hwho)]
          exact Function.update_of_ne hwho _ _
      · rw [List.mem_append, List.mem_singleton, not_or] at hi
        rw [← hout i hi.1]
        exact Function.update_of_ne hi.2 _ _

/-- A run of programs that each take effect at one point is as good as a run of one program
after the other: those that have ended with a result of their own, in an order in which one of
its events comes up for each of them. -/
theorem Run.serial (h : Run service c evs d)
    (hone : ∀ i, InOne service (c.prog i) (evs.filter fun ev => ev.who = i) (d.prog i)) :
    ∃ order e, Serial service c order e ∧ e.state = d.state ∧
      order.Sublist (evs.map Event.who) ∧ (∀ i ∈ order, e.prog i = d.prog i) ∧
      ∀ i, i ∉ order → e.prog i = c.prog i ∧ ∀ r, d.prog i = .done r →
        (∃ e, r = .error e ∧ ∃ ev ∈ evs, ev.who = i ∧ ev.answer = .error e) ∨
          c.prog i = .done r := by
  choose point honly halone hfailed using fun i => (hone i).onlyAt
  obtain ⟨points, hsub, hlinked, hnodup, hmem⟩ := h.points point honly
  obtain ⟨e, hserial, hstate, hin, hout⟩ := serial_of_points hlinked hnodup
    fun ev hev => halone ev.who ev ((hmem ev.who ev).mp ⟨hev, rfl⟩)
  refine ⟨points.map Event.who, e, hserial, hstate, hsub.map _, hin, fun i hi => ⟨hout i hi, ?_⟩⟩
  have hnone : point i = none := by
    rw [Option.eq_none_iff_forall_ne_some]
    intro ev hev
    obtain ⟨hev, hwho⟩ := (hmem i ev).mpr hev
    exact hi (List.mem_map.mpr ⟨ev, hev, hwho⟩)
  intro r hr
  rcases hfailed i hnone r hr with ⟨e, he, ev, hev, hanswer⟩ | hended
  · obtain ⟨hev, hwho⟩ := List.mem_filter.mp hev
    exact .inl ⟨e, he, ev, hev, of_decide_eq_true hwho, hanswer⟩
  · exact .inr hended

end Pool

end RustyAnt.Lib
