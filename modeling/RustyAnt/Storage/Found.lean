import RustyAnt.Storage.Keys
import RustyAnt.Storage.Solo

/-!
# A value of one kind, or none

What a client alone finds at a key through a `View`, and what its reads and its CAS calls
come to there.
-/

namespace RustyAnt

open Lib

namespace View

variable {α R : Type} (V : View α)

def entry (found : Option (α × Option Int)) : Option StoredValue :=
  found.map fun p => ⟨p.2, V.wrap p.1⟩

/-- What the key holds when this is found there. -/
def holding (found : Option (α × Option Int)) (token : String) : Option (StoredValue × String) :=
  (V.entry found).map fun e => (e, token)

theorem map_fst_holding (found : Option (α × Option Int)) (token : String) :
    (V.holding found token).map Prod.fst = V.entry found := by
  unfold holding
  rw [Option.map_map]
  exact Option.map_id'

theorem find_entry (key : String) (found : Option (α × Option Int)) :
    V.find key (V.entry found) = .ok found := by
  cases found with
  | none => rfl
  | some p => exact V.find_wrap key p.2 p.1

theorem findOr_entry (key : String) (fresh : α) (found : Option (α × Option Int)) :
    V.findOr key fresh (V.entry found) = .ok (found.getD (fresh, none)) := by
  unfold findOr
  rw [find_entry]
  rfl

end View

namespace Solo

variable {env : Solo} {n : Nat} {s : Keyspace} {key : String} {α R : Type} {V : View α}
  {found : Option (α × Option Int)}

/-- What is found at the key, that a load has not collected. -/
def Sees (env : Solo) (n : Nat) (s : Keyspace) (key : String) (V : View α)
    (found : Option (α × Option Int)) : Prop :=
  (env.seen n s key).map Prod.fst = V.entry found

theorem Sees.of_none (h : s key = none) : env.Sees n s key V none := by
  unfold Sees
  rw [seen_of_none h]
  rfl

theorem Sees.of_live {exp : Option Int} {x : α} {token : String}
    (h : s key = some (⟨exp, V.wrap x⟩, token))
    (hlive : (⟨exp, V.wrap x⟩ : StoredValue).isExpired (env.now n) = false) :
    env.Sees n s key V (some (x, exp)) := by
  unfold Sees
  rw [seen_of_live h hlive]
  rfl

theorem Sees.of_holding {token : String} (h : s key = V.holding found token)
    (hlive : env.seen n s key = s key) : env.Sees n s key V found := by
  unfold Sees
  rw [hlive, h, V.map_fst_holding]

theorem Sees.seen (h : env.Sees n s key V found) :
    ∃ token, env.seen n s key = V.holding found token := by
  unfold Sees at h
  cases hseen : env.seen n s key with
  | none =>
      rw [hseen] at h
      exact ⟨"", by rw [View.holding, ← h]; rfl⟩
  | some p =>
      rw [hseen] at h
      exact ⟨p.2, by rw [View.holding, ← h]; rfl⟩

theorem Sees.live {x : α} {exp : Option Int} (h : env.Sees n s key V (some (x, exp))) :
    (⟨exp, V.wrap x⟩ : StoredValue).isExpired (env.now n) = false := by
  obtain ⟨token, hseen⟩ := h.seen
  exact (seen_eq_some.mp hseen).2

theorem Sees.swept (h : env.Sees n s key V found) :
    ∃ token, env.swept n s key = Function.update s key (V.holding found token) := by
  obtain ⟨token, hseen⟩ := h.seen
  exact ⟨token, by rw [Solo.swept, hseen]⟩

theorem Sees.read {β : Type} (h : env.Sees n s key V found) (hf : env.Faultless) (absent : β)
    (f : α → β) :
    env.runFrom n (V.read key absent f) s =
      (.ok (found.elim absent fun p => f p.1), n + 1, env.swept n s key) := by
  rw [read_runs hf, readAnswer, show _ = V.entry found from h, V.find_entry]
  rfl

theorem Sees.cas (h : env.Sees n s key V found) (hf : env.Faultless)
    (modify : Option StoredValue → Result (CasAction R)) :
    env.runFrom n (cas key modify) s = env.casRuns n s key (modify (V.entry found)) := by
  rw [cas_runs hf, show _ = V.entry found from h]

theorem nanos_runs (env : Solo) (n : Nat) (s : Keyspace) :
    env.runFrom n KV.nanos s = (.ok (env.other n .nanos), n + 1, s) := rfl

/-- A sampler reads the clock when there is something to sample. -/
theorem Sees.readRand {β : Type} (h : env.Sees n s key V found) (hf : env.Faultless) (absent : β)
    (f : α → UInt64 → β) :
    ∃ rand w, env.runFrom n (V.readRand key absent f) s =
      (.ok (found.elim absent fun p => f p.1 rand), w) := by
  have hload : env.runFrom n (V.readRand key absent f) s = _ :=
    runFrom_step (loadEntry_runs hf n key s)
  rw [hload, show _ = V.entry found from h, V.find_entry]
  cases found with
  | none => exact ⟨0, _, rfl⟩
  | some p => exact ⟨pseudoRandU64 (env.other (n + 1) .nanos), _, rfl⟩

/-- What is decided on the entry that was seen is carried out. -/
theorem casCommit_leaves (hf : env.Faultless) (m n : Nat) (key : String) (s : Keyspace)
    (action : CasAction R) :
    ∃ w, env.runFrom m (casCommit key (env.seen n s key) action) (env.swept n s key) =
        (.ok (some action.result), w) ∧
      (w.2 key).map Prod.fst = action.apply ((env.seen n s key).map Prod.fst) := by
  refine ⟨_, casCommit_runs hf m action, ?_⟩
  cases action with
  | noOp r => exact congrArg (Option.map Prod.fst) swept_self
  | delete r => exact congrArg (Option.map Prod.fst) (Function.update_self key none s)
  | write entry r => exact congrArg (Option.map Prod.fst) (Function.update_self key _ s)

/-- A closure that reads the clock decides on what is found at some reading. -/
theorem Sees.casNanos (h : env.Sees n s key V found) (hf : env.Faultless)
    (modify : UInt64 → Option StoredValue → Result (CasAction R)) :
    ∃ nanos, ∀ action, modify nanos (V.entry found) = .ok action →
      ∃ w, env.runFrom n (casWith key KV.nanos modify) s = (.ok action.result, w) ∧
        (w.2 key).map Prod.fst = action.apply (V.entry found) := by
  refine ⟨env.other (n + 1) .nanos, fun action hmodify => ?_⟩
  have hentry : (env.seen n s key).map Prod.fst = V.entry found := h
  obtain ⟨w, hcommit, hleft⟩ := @casCommit_leaves env R hf (n + 2) n key s action
  refine ⟨w, ?_, hentry ▸ hleft⟩
  unfold casWith casMut maxCasRetries casFrom
  refine (runFrom_step (load_runs hf n key s)).trans ?_
  refine (runFrom_step (nanos_runs env (n + 1) _)).trans ?_
  refine (runFrom_parse (show modify _ _ = .ok action by rw [hentry]; exact hmodify)).trans ?_
  exact runFrom_step hcommit

theorem sees_after_load (h : ∀ n, env.Sees n s key V found) (n m : Nat) :
    env.Sees n (env.swept m s key) key V found := by
  obtain ⟨token, hseen⟩ := (h m).seen
  cases found with
  | none =>
      apply Sees.of_none
      rw [swept_self, hseen]
      rfl
  | some p =>
      rw [swept_of_seen (show env.seen m s key = some _ from hseen)]
      exact h n

theorem Sees.of_ne {key' : String} (h : env.Sees n s key' V found) (hne : key' ≠ key) (m : Nat) :
    env.Sees n (env.swept m s key) key' V found := by
  unfold Sees Solo.seen at *
  rwa [swept_of_ne hne]

theorem delete_leaves (h : env.Faultless) (n : Nat) (key : String) (s : Keyspace) :
    ∃ b w, env.runFrom n (Storage.delete key) s = (.ok b, w) ∧ w.2 key = none := by
  have hrun : env.runFrom n (Storage.delete key) s = _ := runFrom_step (loadEntry_runs h n key s)
  rw [hrun]
  cases hseen : env.seen n s key with
  | none => exact ⟨false, (n + 1, env.swept n s key), rfl, swept_self.trans hseen⟩
  | some p =>
      have hdelete : env.runFrom (n + 1) (KV.delete key .any) (env.swept n s key) = _ :=
        delete_runs h trivial
      exact ⟨true, _, runFrom_step hdelete, Function.update_self _ _ _⟩

end Solo
end RustyAnt
