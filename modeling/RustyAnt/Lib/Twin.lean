import RustyAnt.Lib.Prog

/-!
# One program on two services

A program is run on two deterministic services whose states are related.  Two
runs agree when they end with the same outcome in related states; a program that
agrees with itself from every pair of related states cannot tell the services
apart.  Only runs are compared whose requests, as the first service sees them,
are all in `allow`.
-/

namespace RustyAnt.Lib

namespace Prog

variable {Op : Type} {Res : Op → Type} {ε α β σ : Type}

/-- Every operation requested in the run from `s` is in `allow`. -/
def Along (serve : (op : Op) → σ → Except ε (Res op) × σ) (allow : Op → Prop) :
    Prog Op Res ε α → σ → Prop
  | done _, _ => True
  | call op k, s => allow op ∧ Along serve allow (k (serve op s).1) (serve op s).2

section Along

variable {serve : (op : Op) → σ → Except ε (Res op) × σ} {allow : Op → Prop}

instance Along.decidable [DecidablePred allow] :
    (p : Prog Op Res ε α) → (s : σ) → Decidable (p.Along serve allow s)
  | done _, _ => .isTrue trivial
  | call op k, s =>
      have := Along.decidable (k (serve op s).1) (serve op s).2
      inferInstanceAs (Decidable (_ ∧ _))

theorem Along.bind_left {p : Prog Op Res ε α} {f : α → Prog Op Res ε β} {s : σ}
    (h : (p.bind f).Along serve allow s) : p.Along serve allow s := by
  induction p generalizing s with
  | done r => trivial
  | call op k ih => exact ⟨h.1, ih _ h.2⟩

theorem Along.bind_right {p : Prog Op Res ε α} {f : α → Prog Op Res ε β} {s : σ}
    (h : (p.bind f).Along serve allow s) {a : α} (hp : (p.run serve s).1 = .ok a) :
    (f a).Along serve allow (p.run serve s).2 := by
  induction p generalizing s with
  | done r =>
      rw [run_done] at hp
      subst hp
      exact h
  | call op k ih => exact ih _ h.2 hp

theorem Along.attempt {p : Prog Op Res ε α} {s : σ} (h : p.attempt.Along serve allow s) :
    p.Along serve allow s := by
  induction p generalizing s with
  | done r => trivial
  | call op k ih => exact ⟨h.1, ih _ h.2⟩

end Along

end Prog

open Prog

/-- Two services with related states. -/
structure Twin (Op : Type) (Res : Op → Type) (ε σ₁ σ₂ : Type) where
  serve₁ : (op : Op) → σ₁ → Except ε (Res op) × σ₁
  serve₂ : (op : Op) → σ₂ → Except ε (Res op) × σ₂
  rel : σ₁ → σ₂ → Prop
  allow : Op → Prop

namespace Twin

variable {Op : Type} {Res : Op → Type} {ε α β σ₁ σ₂ : Type} (T : Twin Op Res ε σ₁ σ₂)

/-- The run of `p` on the first service and that of `q` on the second end with
outcomes related by `post` in related states. -/
def Ends (post : Except ε α → Except ε β → σ₁ → σ₂ → Prop) (p : Prog Op Res ε α)
    (q : Prog Op Res ε β) (s₁ : σ₁) (s₂ : σ₂) : Prop :=
  p.Along T.serve₁ T.allow s₁ →
    T.rel (p.run T.serve₁ s₁).2 (q.run T.serve₂ s₂).2 ∧
    post (p.run T.serve₁ s₁).1 (q.run T.serve₂ s₂).1
      (p.run T.serve₁ s₁).2 (q.run T.serve₂ s₂).2

/-- The two runs end with the same outcome in related states. -/
def Agree (p q : Prog Op Res ε α) (s₁ : σ₁) (s₂ : σ₂) : Prop :=
  T.Ends (fun r₁ r₂ _ _ => r₁ = r₂) p q s₁ s₂

/-- The program cannot tell the services apart. -/
def Uniform (p : Prog Op Res ε α) : Prop := ∀ s₁ s₂, T.rel s₁ s₂ → T.Agree p p s₁ s₂

variable {T}

/-- Sequencing of two related runs: errors have to be the same, and the
continuations have to agree from every pair of values the first parts end with. -/
theorem Ends.bind {post : Except ε α → Except ε α → σ₁ → σ₂ → Prop}
    {post' : Except ε β → Except ε β → σ₁ → σ₂ → Prop}
    {p q : Prog Op Res ε α} {f g : α → Prog Op Res ε β} {s₁ : σ₁} {s₂ : σ₂}
    (h : T.Ends post p q s₁ s₂)
    (hshape : ∀ r₁ r₂ t₁ t₂, post r₁ r₂ t₁ t₂ →
      (∃ e, r₁ = .error e ∧ r₂ = .error e ∧ post' (.error e) (.error e) t₁ t₂) ∨
      ∃ a b, r₁ = .ok a ∧ r₂ = .ok b)
    (hok : ∀ a b t₁ t₂, T.rel t₁ t₂ → post (.ok a) (.ok b) t₁ t₂ →
      T.Ends post' (f a) (g b) t₁ t₂) :
    T.Ends post' (p.bind f) (q.bind g) s₁ s₂ := by
  intro halong
  obtain ⟨hrel, hpost⟩ := h halong.bind_left
  rw [run_bind, run_bind]
  rcases hshape _ _ _ _ hpost with ⟨e, h₁, h₂, herr⟩ | ⟨a, b, h₁, h₂⟩
  · rw [← Prod.eta (p.run T.serve₁ s₁), ← Prod.eta (q.run T.serve₂ s₂), h₁, h₂]
    exact ⟨hrel, herr⟩
  · have htail := halong.bind_right h₁
    rw [h₁, h₂] at hpost
    rw [← Prod.eta (p.run T.serve₁ s₁), ← Prod.eta (q.run T.serve₂ s₂), h₁, h₂]
    exact hok a b _ _ hrel hpost htail

theorem Agree.bind {p q : Prog Op Res ε α} {f g : α → Prog Op Res ε β} {s₁ : σ₁} {s₂ : σ₂}
    (h : T.Agree p q s₁ s₂) (hok : ∀ a t₁ t₂, T.rel t₁ t₂ → T.Agree (f a) (g a) t₁ t₂) :
    T.Agree (p.bind f) (q.bind g) s₁ s₂ := by
  refine Ends.bind h ?_ ?_
  · rintro r₁ r₂ t₁ t₂ rfl
    cases r₁ with
    | ok a => exact .inr ⟨a, a, rfl, rfl⟩
    | error e => exact .inl ⟨e, rfl, rfl, rfl⟩
  · intro a b t₁ t₂ hrel hab
    cases hab
    exact hok a t₁ t₂ hrel

theorem Agree.attempt {p q : Prog Op Res ε α} {s₁ : σ₁} {s₂ : σ₂} (h : T.Agree p q s₁ s₂) :
    T.Agree p.attempt q.attempt s₁ s₂ := by
  intro halong
  obtain ⟨hrel, hout⟩ := h halong.attempt
  rw [run_attempt, run_attempt]
  exact ⟨hrel, congrArg Except.ok hout⟩

theorem Agree.done {s₁ : σ₁} {s₂ : σ₂} (h : T.rel s₁ s₂) (r : Except ε α) :
    T.Agree (Prog.done r) (Prog.done r) s₁ s₂ :=
  fun _ => ⟨h, rfl⟩

theorem Uniform.done (r : Except ε α) : T.Uniform (Prog.done r) := fun _ _ h => Agree.done h r

theorem Uniform.bind {p : Prog Op Res ε α} {f : α → Prog Op Res ε β} (hp : T.Uniform p)
    (hf : ∀ a, T.Uniform (f a)) : T.Uniform (p.bind f) :=
  fun s₁ s₂ h => Agree.bind (hp s₁ s₂ h) fun a t₁ t₂ ht => hf a t₁ t₂ ht

theorem Uniform.attempt {p : Prog Op Res ε α} (hp : T.Uniform p) : T.Uniform p.attempt :=
  fun s₁ s₂ h => (hp s₁ s₂ h).attempt

end Twin

end RustyAnt.Lib
