import Mathlib.Algebra.Group.Nat.Defs
import Mathlib.Data.List.Basic
import Mathlib.Data.Nat.Notation

/-!
# Computations that may panic

A Rust function that returns a `Result` can end in three ways.  The operations
that panic are here: indexing, slicing, 64-bit `usize` arithmetic with overflow
and the allocation of a vector.
-/

namespace RustyAnt.Lib

inductive Outcome (ε α : Type) where
  | ok (a : α)
  | err (e : ε)
  | panic
  deriving DecidableEq

namespace Outcome

variable {ε α β σ : Type}

def bind : Outcome ε α → (α → Outcome ε β) → Outcome ε β
  | ok a, f => f a
  | err e, _ => err e
  | panic, _ => panic

instance : Monad (Outcome ε) where
  pure := ok
  bind := bind

@[simp] theorem pure_eq_ok (a : α) : (pure a : Outcome ε α) = ok a := rfl

@[simp] theorem ok_bind (a : α) (f : α → Outcome ε β) : (ok a >>= f) = f a := rfl

@[simp] theorem err_bind (e : ε) (f : α → Outcome ε β) : ((err e : Outcome ε α) >>= f) = err e :=
  rfl

@[simp] theorem panic_bind (f : α → Outcome ε β) : ((panic : Outcome ε α) >>= f) = panic := rfl

theorem bind_assoc {γ : Type} (x : Outcome ε α) (f : α → Outcome ε β) (g : β → Outcome ε γ) :
    (x >>= f) >>= g = x >>= fun a => f a >>= g := by
  cases x <;> rfl

theorem bind_eq_ok {x : Outcome ε α} {f : α → Outcome ε β} {b : β} :
    (x >>= f) = ok b ↔ ∃ a, x = ok a ∧ f a = ok b := by
  cases x with
  | ok a => simp
  | err e => simp
  | panic => simp

theorem bind_eq_panic {x : Outcome ε α} {f : α → Outcome ε β} :
    (x >>= f) = panic ↔ x = panic ∨ ∃ a, x = ok a ∧ f a = panic := by
  cases x with
  | ok a => simp
  | err e => simp
  | panic => simp

theorem bind_eq_panic_of {x : Outcome ε α} {f : α → Outcome ε β} (hx : x ≠ panic) :
    (x >>= f) = panic ↔ ∃ a, x = ok a ∧ f a = panic := by
  rw [bind_eq_panic]
  constructor
  · rintro (h | h)
    · exact absurd h hx
    · exact h
  · exact .inr

/-! ## What panics -/

/-- One past the greatest `usize`. -/
def usizeBound : Nat := 2 ^ 64

def isizeMax : Nat := 2 ^ 63 - 1

/-- `xs[i]` -/
def index (xs : List α) (i : Nat) : Outcome ε α :=
  match xs[i]? with
  | some x => ok x
  | none => panic

/-- `xs[i] = x` -/
def store (xs : List α) (i : Nat) (x : α) : Outcome ε (List α) :=
  if i < xs.length then ok (xs.set i x) else panic

/-- `xs[a..b]` -/
def slice (xs : List α) (a b : Nat) : Outcome ε (List α) :=
  if a ≤ b ∧ b ≤ xs.length then ok ((xs.drop a).take (b - a)) else panic

/-- `[xs[off], xs[off + 1], ...]`, with `n` elements -/
def gather (xs : List α) (off : Nat) : (n : Nat) → Outcome ε (List α)
  | 0 => ok []
  | n + 1 => do
      let x ← index xs off
      let rest ← gather xs (off + 1) n
      return x :: rest

/-- `a + b` on `usize` -/
def add (a b : Nat) : Outcome ε Nat := if a + b < usizeBound then ok (a + b) else panic

/-- `Vec::<u8>::with_capacity(n)` -/
def withCapacity (n : Nat) : Outcome ε Unit := if n ≤ isizeMax then ok () else panic

theorem index_eq_ok {xs : List α} {i : Nat} (h : i < xs.length) :
    (index xs i : Outcome ε α) = ok (xs.get ⟨i, h⟩) := by
  simp [index, List.getElem?_eq_getElem h]

theorem store_eq_ok {xs : List α} {i : Nat} (h : i < xs.length) (x : α) :
    (store xs i x : Outcome ε (List α)) = ok (xs.set i x) :=
  if_pos h

theorem slice_eq_ok {xs : List α} {a b : Nat} (hab : a ≤ b) (hb : b ≤ xs.length) :
    (slice xs a b : Outcome ε (List α)) = ok ((xs.drop a).take (b - a)) :=
  if_pos ⟨hab, hb⟩

theorem gather_eq_ok {xs : List α} {off n : Nat} (h : off + n ≤ xs.length) :
    (gather xs off n : Outcome ε (List α)) = ok ((xs.drop off).take n) := by
  induction n generalizing off with
  | zero => simp [gather]
  | succ n ih =>
      have hoff : off < xs.length := by omega
      have hrest : off + 1 + n ≤ xs.length := by omega
      rw [gather, index_eq_ok hoff, ok_bind, ih hrest, ok_bind, pure_eq_ok,
        List.drop_eq_getElem_cons hoff, List.take_succ_cons]
      rfl

theorem add_eq_of_ok {a b c : Nat} (h : (add a b : Outcome ε Nat) = ok c) : c = a + b := by
  unfold add at h
  split at h
  · cases h
    rfl
  · cases h

/-! ## Counted loops -/

/-- `for _ in 0..n { body }` -/
def times (body : σ → Outcome ε σ) : (n : Nat) → σ → Outcome ε σ
  | 0, s => ok s
  | n + 1, s => do
      let s ← body s
      times body n s

theorem times_eq_panic {body : σ → Outcome ε σ} {n : Nat} {s : σ} :
    times body n s = panic ↔ ∃ i < n, ∃ s', times body i s = ok s' ∧ body s' = panic := by
  induction n generalizing s with
  | zero => simp [times]
  | succ n ih =>
      rw [times, bind_eq_panic]
      constructor
      · rintro (h | ⟨s₁, hs₁, h⟩)
        · exact ⟨0, Nat.succ_pos n, s, rfl, h⟩
        · obtain ⟨i, hi, s', htimes, hpanic⟩ := ih.mp h
          exact ⟨i + 1, Nat.succ_lt_succ hi, s', by rw [times, hs₁, ok_bind, htimes], hpanic⟩
      · rintro ⟨i, hi, s', htimes, hpanic⟩
        cases i with
        | zero =>
            cases htimes
            exact .inl hpanic
        | succ i =>
            obtain ⟨s₁, hs₁, htimes⟩ := bind_eq_ok.mp htimes
            exact .inr ⟨s₁, hs₁, ih.mpr ⟨i, Nat.lt_of_succ_lt_succ hi, s', htimes, hpanic⟩⟩

theorem times_invariant {body : σ → Outcome ε σ} {P : σ → Prop}
    (hbody : ∀ s s', P s → body s = ok s' → P s') {n : Nat} {s s' : σ} (hs : P s)
    (h : times body n s = ok s') : P s' := by
  induction n generalizing s with
  | zero =>
      cases h
      exact hs
  | succ n ih =>
      obtain ⟨s₁, hs₁, h⟩ := bind_eq_ok.mp h
      exact ih (hbody s s₁ hs hs₁) h

/-- `for i in 0..n { body }` -/
def forUpTo (body : Nat → σ → Outcome ε σ) : (n : Nat) → σ → Outcome ε σ
  | 0, s => ok s
  | n + 1, s => do
      let s ← forUpTo body n s
      body n s

/-- A loop whose rounds all go through, with what holds before each of them. -/
theorem forUpTo_invariant {body : Nat → σ → Outcome ε σ} {P : Nat → σ → Prop} {n : Nat} {s : σ}
    (hbody : ∀ i < n, ∀ s, P i s → ∃ s', body i s = ok s' ∧ P (i + 1) s') (hs : P 0 s) :
    ∃ s', forUpTo body n s = ok s' ∧ P n s' := by
  induction n with
  | zero => exact ⟨s, rfl, hs⟩
  | succ n ih =>
      have hbefore : ∀ i < n, ∀ s, P i s → ∃ s', body i s = ok s' ∧ P (i + 1) s' := by
        intro i hi
        exact hbody i (by omega)
      obtain ⟨s₁, hrun, hs₁⟩ := ih hbefore
      obtain ⟨s₂, hround, hs₂⟩ := hbody n (by omega) s₁ hs₁
      exact ⟨s₂, by rw [forUpTo, hrun, ok_bind, hround], hs₂⟩

end Outcome

end RustyAnt.Lib
