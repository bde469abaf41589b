import RustyAnt.Lib.Outcome

/-!
# Computations that a change of the state does not disturb

A computation reads a state and hands it on.  Under a map on states it is stable when it
succeeds from the mapped state as it did before, and leaves the state it left, mapped.
-/

namespace RustyAnt.Lib.Outcome

variable {ε α β σ ρ : Type} {move : ρ → ρ}

/-- What succeeds goes on succeeding behind the map, with the same result. -/
def Stable (move : ρ → ρ) (f : ρ → Outcome ε (α × ρ)) : Prop :=
  ∀ r a r', f r = ok (a, r') → f (move r) = ok (a, move r')

/-- The same of a computation that keeps its state to itself. -/
def Settled (move : ρ → ρ) (f : ρ → Outcome ε α) : Prop :=
  ∀ r a, f r = ok a → f (move r) = ok a

namespace Stable

theorem pure (a : α) : Stable move fun r => (ok (a, r) : Outcome ε (α × ρ)) := by
  intro r b r' h
  cases h
  rfl

theorem err (e : ε) : Stable move fun _ => (Outcome.err e : Outcome ε (α × ρ)) := by
  intro r a r' h
  cases h

theorem bind {f : ρ → Outcome ε (α × ρ)} {g : α × ρ → Outcome ε (β × ρ)} (hf : Stable move f)
    (hg : ∀ a, Stable move fun r => g (a, r)) : Stable move fun r => f r >>= g := by
  intro r b r' h
  obtain ⟨⟨a, r₁⟩, hread, h⟩ := bind_eq_ok.mp h
  show f (move r) >>= g = _
  rw [hf r a r₁ hread, ok_bind]
  exact hg a r₁ b r' h

theorem lift {x : Outcome ε α} {g : α → ρ → Outcome ε (β × ρ)} (hg : ∀ a, Stable move (g a)) :
    Stable move fun r => x >>= fun a => g a r := by
  intro r b r' h
  obtain ⟨a, rfl, h⟩ := bind_eq_ok.mp h
  exact hg a r b r' h

theorem ite {c : Prop} [Decidable c] {f g : ρ → Outcome ε (α × ρ)} (hf : Stable move f)
    (hg : Stable move g) : Stable move fun r => if c then f r else g r := by
  by_cases hc : c
  · simpa only [if_pos hc] using hf
  · simpa only [if_neg hc] using hg

theorem times {body : σ × ρ → Outcome ε (σ × ρ)} (hbody : ∀ s, Stable move fun r => body (s, r))
    (n : Nat) (s : σ) : Stable move fun r => Outcome.times body n (s, r) := by
  induction n generalizing s with
  | zero => exact pure s
  | succ n ih => exact (hbody s).bind fun s₁ => ih s₁

end Stable

namespace Settled

theorem const (x : Outcome ε α) : Settled move fun _ => x := fun _ _ h => h

theorem bind {f : ρ → Outcome ε (α × ρ)} {g : α × ρ → Outcome ε β} (hf : Stable move f)
    (hg : ∀ a, Settled move fun r => g (a, r)) : Settled move fun r => f r >>= g := by
  intro r b h
  obtain ⟨⟨a, r₁⟩, hread, h⟩ := bind_eq_ok.mp h
  show f (move r) >>= g = _
  rw [hf r a r₁ hread, ok_bind]
  exact hg a r₁ b h

theorem ite {c : Prop} [Decidable c] {f g : ρ → Outcome ε α} (hf : Settled move f)
    (hg : Settled move g) : Settled move fun r => if c then f r else g r := by
  by_cases hc : c
  · simpa only [if_pos hc] using hf
  · simpa only [if_neg hc] using hg

end Settled

end RustyAnt.Lib.Outcome
