import RustyAnt.Storage.Keeps

/-!
# What programs that only load find

Run alone, a program that only loads finds each key as it was at the start, or finds it
expired.  It changes nothing, but that expired entries may be collected.
-/

namespace RustyAnt

open Lib

namespace Solo

variable {env : Solo} {s s' : Keyspace} {key : String} {n bound : Nat}

/-- What a load finds at the key, some time during the first `bound` calls. -/
def Found (env : Solo) (s : Keyspace) (bound : Nat) : KeyInv := fun key entry =>
  ∃ n < bound, entry = (env.seen n s key).map Prod.fst

/-- Nothing has changed, but that a key found expired may have been collected. -/
def Collected (env : Solo) (s : Keyspace) (bound : Nat) (s' : Keyspace) : Prop :=
  ∀ key, s' key = s key ∨ s' key = none ∧ env.Found s bound key none

theorem Found.mono {entry : Option StoredValue} {bound' : Nat} (h : env.Found s bound key entry)
    (hle : bound ≤ bound') : env.Found s bound' key entry := by
  obtain ⟨n, hn, hentry⟩ := h
  exact ⟨n, by omega, hentry⟩

theorem Collected.mono {bound' : Nat} (h : env.Collected s bound s') (hle : bound ≤ bound') :
    env.Collected s bound' s' := by
  intro key
  exact (h key).imp_right fun hgone => ⟨hgone.1, hgone.2.mono hle⟩

/-- A later load finds what the first one would have found at that time. -/
theorem Collected.found (h : env.Collected s bound s') (hn : n < bound) (key : String) :
    env.Found s bound key ((env.seen n s' key).map Prod.fst) := by
  rcases h key with hsame | ⟨hgone, hfound⟩
  · refine ⟨n, hn, ?_⟩
    unfold seen
    rw [hsame]
  · rw [seen_of_none hgone]
    exact hfound

theorem Collected.collect (h : env.Collected s bound s') (hn : n < bound)
    (hkey : env.seen n s' key = none) :
    env.Collected s bound (Function.update s' key none) := by
  intro key'
  by_cases hne : key' = key
  · subst hne
    right
    have hfound := h.found hn key'
    rw [hkey] at hfound
    exact ⟨Function.update_self _ _ _, hfound⟩
  · rw [Function.update_of_ne hne]
    exact h key'

theorem Collected.load (h : env.Collected s bound s') (hn : n < bound) (key : String) :
    (env.Found s bound).rely (.load key) (env.serve (.load key) (n, s')).1 ∧
      env.Collected s bound (env.serve (.load key) (n, s')).2.2 := by
  have hfound := h.found hn key
  rcases serve_cases env n (.load key) rfl s' with ⟨e, -, hserve⟩ | hserve
  · rw [hserve]
    exact ⟨trivial, h⟩
  · rw [hserve]
    cases hkey : s' key with
    | none =>
        rw [seen_of_none hkey] at hfound
        rw [answer_load_missing env n hkey]
        exact ⟨hfound, h⟩
    | some p =>
        rw [answer_load_found env n hkey]
        by_cases hexp : p.1.isExpired (env.now n) = true
        · rw [if_pos hexp]
          have hgone := seen_of_expired hkey hexp
          rw [hgone] at hfound
          refine ⟨hfound, ?_⟩
          dsimp only
          split
          · exact h.collect hn hgone
          · exact h
        · rw [if_neg hexp]
          rw [seen_of_live hkey (Bool.not_eq_true _ |>.mp hexp)] at hfound
          exact ⟨hfound, h⟩

end Solo

/-- The program only loads, and what it returns has the property if what it loads is within
the condition. -/
def KV.Gathers {α : Type} (I : KeyInv) (p : KV α) (Q : α → Prop) : Prop :=
  p.Obeys I.rely (fun op => ∃ key, op = .load key) fun r => ∀ a, r = .ok a → Q a

namespace KV.Gathers

variable {α β : Type} {I : KeyInv} {Q : α → Prop} {Q' : β → Prop} {key : String}

theorem fail (e : RustyAntError) : KV.Gathers I (.done (.error e)) Q := by
  rintro a ⟨⟩

theorem done {a : α} (h : Q a) : KV.Gathers I (.done (.ok a)) Q := by
  rintro _ ⟨⟩
  exact h

theorem bind {p : KV α} {f : α → KV β} (hp : p.Gathers I Q) (hf : ∀ a, Q a → (f a).Gathers I Q') :
    KV.Gathers I (p.bind f) Q' :=
  Prog.Obeys.bind hp (fun a ha => hf a (ha a rfl)) fun _ _ _ ha => nomatch ha

theorem loadEntry : KV.Gathers I (KV.loadEntry key) (I key) := by
  refine ⟨⟨key, rfl⟩, fun answer hanswer => ?_⟩
  cases answer with
  | ok loaded => exact done hanswer
  | error e => exact fail e

theorem read (v : View α) {absent : β} {f : α → β} (habsent : I key none → Q' absent)
    (hfound : ∀ x exp, I key (some ⟨exp, v.wrap x⟩) → Q' (f x)) :
    KV.Gathers I (v.read key absent f) Q' := by
  apply bind loadEntry
  intro entry hentry
  cases hfind : v.find key entry with
  | error e => exact fail e
  | ok found =>
      cases found with
      | none =>
          rw [v.find_none hfind] at hentry
          exact done (habsent hentry)
      | some p =>
          rw [v.find_some hfind] at hentry
          exact done (hfound p.1 p.2 hentry)

end KV.Gathers

/-- What a program that only loads returns and leaves, run alone. -/
theorem Solo.finds_run {α : Type} {env : Solo} {p : KV α} {s : Keyspace} {Q : α → Prop}
    (h : p.Gathers (env.Found s (env.run p s).2.1) Q) :
    (∀ a, (env.run p s).1 = .ok a → Q a) ∧
      env.Collected s (env.run p s).2.1 (env.run p s).2.2 := by
  have hle : ∀ (op : KVOp) (w : Nat × Keyspace), w.1 ≤ (env.serve op w).2.1 ∧
      ((∃ key, op = .load key) → w.1 < (env.serve op w).2.1) := by
    intro op w
    unfold serve
    split
    · exact ⟨Nat.le_succ _, fun _ => Nat.lt_succ_self _⟩
    · exact ⟨Nat.le_succ _, fun _ => Nat.lt_succ_self _⟩
  apply Prog.Obeys.run_below (fun w => env.Collected s (env.run p s).2.1 w.2)
    (fun w => w.1 ≤ (env.run p s).2.1) _ _ h (s := (0, s)) (fun _ => .inl rfl) (Nat.le_refl _)
  · intro op w hdown
    exact (hle op w).1.trans hdown
  · rintro op w hkept ⟨key, rfl⟩ hdown
    exact hkept.load (((hle _ w).2 ⟨key, rfl⟩).trans_le hdown) key

end RustyAnt
