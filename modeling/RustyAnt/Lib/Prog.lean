import Mathlib.Logic.Function.Basic
import Mathlib.Data.List.Basic

/-!
# Programs that call a service

A `Prog` is a finite-depth tree of calls to a service: each node names the
operation it requests and continues with whatever the service answers.  An
answer is itself fallible, so a program can inspect an error (`attempt`) or let
it end the program (`bind`).

The same tree is used in three ways: it is run alone against a deterministic
service (`run`), it is compiled down to the operations of a lower service
(`interp`), and it is interleaved with other programs (`Lib.Pool`).  `Obeys` is
the rely/guarantee judgment which carries an invariant of the service through
all three.
-/

namespace RustyAnt.Lib

/-- A program over the operations `Op`, whose answers have type `Res op` or are
errors `ε`, ending with a value of `α` or an error. -/
inductive Prog (Op : Type) (Res : Op → Type) (ε α : Type) where
  | done (r : Except ε α)
  | call (op : Op) (k : Except ε (Res op) → Prog Op Res ε α)

namespace Prog

variable {Op Op' : Type} {Res : Op → Type} {Res' : Op' → Type}
variable {ε α β γ σ : Type}

/-- Sequencing; an error ends the program, as the `?` operator does. -/
def bind : Prog Op Res ε α → (α → Prog Op Res ε β) → Prog Op Res ε β
  | done (.ok a), f => f a
  | done (.error e), _ => done (.error e)
  | call op k, f => call op fun r => (k r).bind f

/-- Make the outcome of a program a value, so that its error can be inspected. -/
def attempt : Prog Op Res ε α → Prog Op Res ε (Except ε α)
  | done r => done (.ok r)
  | call op k => call op fun r => (k r).attempt

/-- Request one operation. -/
def perform (op : Op) : Prog Op Res ε (Res op) := call op done

/-- End with an error. -/
def fail (e : ε) : Prog Op Res ε α := done (.error e)

/-- End with the outcome of a pure fallible computation. -/
def ofExcept (r : Except ε α) : Prog Op Res ε α := done r

/-- The value a program has ended with. -/
def returned : Prog Op Res ε α → Option α
  | done (.ok a) => some a
  | done (.error _) => none
  | call _ _ => none

theorem returned_eq_some {p : Prog Op Res ε α} {a : α} :
    p.returned = some a ↔ p = done (.ok a) := by
  cases p with
  | done r => cases r <;> simp [returned]
  | call op k => simp [returned]

instance : Monad (Prog Op Res ε) where
  pure a := done (.ok a)
  bind := bind

theorem pure_eq (a : α) : (pure a : Prog Op Res ε α) = done (.ok a) := rfl

theorem bind_eq (p : Prog Op Res ε α) (f : α → Prog Op Res ε β) :
    p >>= f = p.bind f := rfl

@[simp] theorem done_ok_bind (a : α) (f : α → Prog Op Res ε β) :
    (done (.ok a) : Prog Op Res ε α).bind f = f a := rfl

@[simp] theorem done_error_bind (e : ε) (f : α → Prog Op Res ε β) :
    (done (.error e) : Prog Op Res ε α).bind f = done (.error e) := rfl

@[simp] theorem call_bind (op : Op) (k : Except ε (Res op) → Prog Op Res ε α)
    (f : α → Prog Op Res ε β) :
    (call op k).bind f = call op fun r => (k r).bind f := rfl

theorem bind_assoc (p : Prog Op Res ε α) (f : α → Prog Op Res ε β) (g : β → Prog Op Res ε γ) :
    (p.bind f).bind g = p.bind fun a => (f a).bind g := by
  induction p with
  | done r => cases r <;> rfl
  | call op k ih => exact congrArg (call op) (funext fun r => ih r)

theorem bind_pure (p : Prog Op Res ε α) : (p.bind fun a => done (.ok a)) = p := by
  induction p with
  | done r => cases r <;> rfl
  | call op k ih => exact congrArg (call op) (funext fun r => ih r)

@[simp] theorem done_attempt (r : Except ε α) :
    (done r : Prog Op Res ε α).attempt = done (.ok r) := rfl

@[simp] theorem call_attempt (op : Op) (k : Except ε (Res op) → Prog Op Res ε α) :
    (call op k).attempt = call op fun r => (k r).attempt := rfl

/-! ## Running alone -/

/-- Run a program against a deterministic service with state `σ`. -/
def run (serve : (op : Op) → σ → Except ε (Res op) × σ) :
    Prog Op Res ε α → σ → Except ε α × σ
  | done r, s => (r, s)
  | call op k, s => run serve (k (serve op s).1) (serve op s).2

section Run

variable (serve : (op : Op) → σ → Except ε (Res op) × σ)

@[simp] theorem run_done (r : Except ε α) (s : σ) :
    (done r : Prog Op Res ε α).run serve s = (r, s) := rfl

@[simp] theorem run_call (op : Op) (k : Except ε (Res op) → Prog Op Res ε α) (s : σ) :
    (call op k).run serve s = (k (serve op s).1).run serve (serve op s).2 := rfl

@[simp] theorem run_perform (op : Op) (s : σ) :
    (perform op : Prog Op Res ε (Res op)).run serve s = serve op s := rfl

@[simp] theorem run_ofExcept (r : Except ε α) (s : σ) :
    (ofExcept r : Prog Op Res ε α).run serve s = (r, s) := rfl

theorem run_bind (p : Prog Op Res ε α) (f : α → Prog Op Res ε β) (s : σ) :
    (p.bind f).run serve s =
      match p.run serve s with
      | (.ok a, t) => (f a).run serve t
      | (.error e, t) => (.error e, t) := by
  induction p generalizing s with
  | done r => cases r <;> rfl
  | call op k ih => exact ih _ _

theorem run_bind_ok {p : Prog Op Res ε α} {f : α → Prog Op Res ε β} {s t : σ} {b : β}
    (h : (p.bind f).run serve s = (.ok b, t)) :
    ∃ a u, p.run serve s = (.ok a, u) ∧ (f a).run serve u = (.ok b, t) := by
  rw [run_bind] at h
  generalize p.run serve s = out at h
  match out, h with
  | (.ok a, u), h => exact ⟨a, u, rfl, h⟩
  | (.error _, _), h => cases congrArg Prod.fst h

theorem run_attempt (p : Prog Op Res ε α) (s : σ) :
    p.attempt.run serve s = (.ok (p.run serve s).1, (p.run serve s).2) := by
  induction p generalizing s with
  | done r => rfl
  | call op k ih => exact ih _ _

end Run

/-! ## Compiling to a lower service -/

/-- Replace every operation by a program over the operations of a lower
service. -/
def interp (impl : (op : Op) → Prog Op' Res' ε (Res op)) :
    Prog Op Res ε α → Prog Op' Res' ε α
  | done r => done r
  | call op k => (impl op).attempt.bind fun r => interp impl (k r)

/-- Running the compiled program is running the source program against the
service that the implementation programs make of the lower one. -/
theorem run_interp (impl : (op : Op) → Prog Op' Res' ε (Res op))
    (serve : (op : Op') → σ → Except ε (Res' op) × σ)
    (p : Prog Op Res ε α) (s : σ) :
    (p.interp impl).run serve s =
      p.run (fun op => (impl op).run serve) s := by
  induction p generalizing s with
  | done r => rfl
  | call op k ih =>
      rw [interp, run_bind, run_attempt]
      exact ih _ _

/-! ## Rely/guarantee reasoning

`rely op r` is what the caller may assume of an answer `r` to `op`; `guar op` is
what it owes for each operation it requests.
-/

/-- Every operation the program requests is in `guar` and its outcome is in
`post`, as long as every answer it gets is in `rely`. -/
def Obeys (rely : (op : Op) → Except ε (Res op) → Prop) (guar : Op → Prop)
    (post : Except ε α → Prop) : Prog Op Res ε α → Prop
  | done r => post r
  | call op k => guar op ∧ ∀ r, rely op r → (k r).Obeys rely guar post

section Obeys

variable {rely : (op : Op) → Except ε (Res op) → Prop} {guar : Op → Prop}

theorem Obeys.mono {post post' : Except ε α → Prop} {p : Prog Op Res ε α}
    (h : p.Obeys rely guar post) (himp : ∀ r, post r → post' r) :
    p.Obeys rely guar post' := by
  induction p with
  | done r => exact himp r h
  | call op k ih => exact ⟨h.1, fun r hr => ih r (h.2 r hr)⟩

theorem Obeys.done {post : Except ε α → Prop} {r : Except ε α} (h : post r) :
    (Prog.done r : Prog Op Res ε α).Obeys rely guar post := h

theorem Obeys.perform {op : Op} {post : Except ε (Res op) → Prop} (hguar : guar op)
    (hpost : ∀ r, rely op r → post r) :
    (Prog.perform op : Prog Op Res ε (Res op)).Obeys rely guar post :=
  ⟨hguar, hpost⟩

theorem Obeys.bind {post : Except ε α → Prop} {post' : Except ε β → Prop}
    {p : Prog Op Res ε α} {f : α → Prog Op Res ε β}
    (h : p.Obeys rely guar post)
    (hok : ∀ a, post (.ok a) → (f a).Obeys rely guar post')
    (herr : ∀ e, post (.error e) → post' (.error e)) :
    (p.bind f).Obeys rely guar post' := by
  induction p with
  | done r =>
      cases r with
      | ok a => exact hok a h
      | error e => exact herr e h
  | call op k ih => exact ⟨h.1, fun r hr => ih r (h.2 r hr)⟩

theorem Obeys.attempt {post : Except ε α → Prop} {p : Prog Op Res ε α}
    (h : p.Obeys rely guar post) :
    p.attempt.Obeys rely guar (fun r => ∃ r', r = .ok r' ∧ post r') := by
  induction p with
  | done r => exact ⟨r, rfl, h⟩
  | call op k ih => exact ⟨h.1, fun r hr => ih r (h.2 r hr)⟩

/-- Every operation the program can request is in `guar`, whatever it is
answered. -/
def Requests (guar : Op → Prop) (p : Prog Op Res ε α) : Prop :=
  p.Obeys (fun _ _ => True) guar (fun _ => True)

theorem Requests.done (r : Except ε α) : (Prog.done r : Prog Op Res ε α).Requests guar := trivial

theorem Requests.perform {op : Op} (h : guar op) :
    (Prog.perform op : Prog Op Res ε (Res op)).Requests guar :=
  Obeys.perform h fun _ _ => trivial

theorem Requests.bind {p : Prog Op Res ε α} {f : α → Prog Op Res ε β} (hp : p.Requests guar)
    (hf : ∀ a, (f a).Requests guar) : (p.bind f).Requests guar :=
  Obeys.bind hp (fun a _ => hf a) fun _ _ => trivial

theorem Requests.mono {guar' : Op → Prop} {p : Prog Op Res ε α} (hp : p.Requests guar)
    (himp : ∀ op, guar op → guar' op) : p.Requests guar' := by
  induction p with
  | done r => trivial
  | call op k ih => exact ⟨himp op hp.1, fun r hr => ih r (hp.2 r hr)⟩

theorem Requests.attempt {p : Prog Op Res ε α} (hp : p.Requests guar) :
    p.attempt.Requests guar :=
  Obeys.mono (Obeys.attempt hp) fun _ _ => trivial

/-- Whatever the program is answered, a value it returns is in `post`. -/
def Returns (post : α → Prop) (p : Prog Op Res ε α) : Prop :=
  p.Obeys (fun _ _ => True) (fun _ => True) fun r => ∀ a, r = .ok a → post a

theorem Returns.any (p : Prog Op Res ε α) : p.Returns fun _ => True := by
  induction p with
  | done r => exact fun _ _ => trivial
  | call op k ih => exact ⟨trivial, fun r _ => ih r⟩

theorem Returns.error (post : α → Prop) (e : ε) :
    (Prog.done (.error e) : Prog Op Res ε α).Returns post := nofun

theorem Returns.ok {post : α → Prop} {a : α} (h : post a) :
    (Prog.done (.ok a) : Prog Op Res ε α).Returns post := by
  rintro _ ⟨⟩
  exact h

theorem Returns.bind {post : α → Prop} {post' : β → Prop} {p : Prog Op Res ε α}
    {f : α → Prog Op Res ε β} (hp : p.Returns post) (hf : ∀ a, post a → (f a).Returns post') :
    (p.bind f).Returns post' :=
  Obeys.bind hp (fun a h => hf a (h a rfl)) fun _ _ => nofun

/-- Programs that go on alike wherever the first one can end are the same. -/
theorem Returns.bind_congr {post : α → Prop} {p : Prog Op Res ε α} {f g : α → Prog Op Res ε β}
    (hp : p.Returns post) (h : ∀ a, post a → f a = g a) : p.bind f = p.bind g := by
  induction p with
  | done r =>
      cases r with
      | ok a => exact h a (hp a rfl)
      | error e => rfl
  | call op k ih => exact congrArg (call op) (funext fun r => ih r (hp.2 r trivial))

/-- A program that obeys its guarantee, run alone on a service which keeps `inv`
and answers within `rely`, ends in `inv` with its postcondition. -/
theorem Obeys.run {post : Except ε α → Prop} {inv : σ → Prop}
    {serve : (op : Op) → σ → Except ε (Res op) × σ}
    (hserve : ∀ op s, inv s → guar op →
      rely op (serve op s).1 ∧ inv (serve op s).2)
    {p : Prog Op Res ε α} (h : p.Obeys rely guar post) {s : σ} (hs : inv s) :
    post (p.run serve s).1 ∧ inv (p.run serve s).2 := by
  induction p generalizing s with
  | done r => exact ⟨h, hs⟩
  | call op k ih =>
      have hstep := hserve op s hs h.1
      exact ih _ (h.2 _ hstep.1) hstep.2

theorem run_mono {serve : (op : Op) → σ → Except ε (Res op) × σ} (measure : σ → Nat)
    (hserve : ∀ op s, measure s ≤ measure (serve op s).2) (p : Prog Op Res ε α) (s : σ) :
    measure s ≤ measure (p.run serve s).2 := by
  induction p generalizing s with
  | done r => exact Nat.le_refl _
  | call op k ih => exact Nat.le_trans (hserve op s) (ih _ _)

theorem run_below {bound : σ → Prop} {serve : (op : Op) → σ → Except ε (Res op) × σ}
    (hdown : ∀ op s, bound (serve op s).2 → bound s) {p : Prog Op Res ε α} {s : σ}
    (hb : bound (p.run serve s).2) : bound s := by
  induction p generalizing s with
  | done r => exact hb
  | call op k ih => exact hdown op s (ih _ hb)

/-- `Obeys.run` where the service keeps `inv` only until the run has ended, as a `bound`
that holds of the last state and so of each one before it says. -/
theorem Obeys.run_below {post : Except ε α → Prop} (inv bound : σ → Prop)
    {serve : (op : Op) → σ → Except ε (Res op) × σ}
    (hdown : ∀ op s, bound (serve op s).2 → bound s)
    (hserve : ∀ op s, inv s → guar op → bound (serve op s).2 →
      rely op (serve op s).1 ∧ inv (serve op s).2)
    {p : Prog Op Res ε α} (h : p.Obeys rely guar post) {s : σ} (hs : inv s)
    (hb : bound (p.run serve s).2) :
    post (p.run serve s).1 ∧ inv (p.run serve s).2 := by
  induction p generalizing s with
  | done r => exact ⟨h, hs⟩
  | call op k ih =>
      have hstep := hserve op s hs h.1 (Prog.run_below hdown hb)
      exact ih _ (h.2 _ hstep.1) hstep.2 hb

end Obeys

end Prog

end RustyAnt.Lib
