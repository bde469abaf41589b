import RustyAnt.Storage.Linearizable

/-!
# A client alone on a faulty backend

One client, and no other.  Any backend call may fail, which changes nothing; a load may
collect the expired entry that it finds.
-/

namespace RustyAnt

open Lib

/-- What the client meets: the calls that fail, the clock, whether a load collects the
expired entry it finds, the token of each save and the answers of the other calls. -/
structure Solo where
  fails : Nat → Option RustyAntError
  now : Nat → Int
  collects : Nat → Bool
  token : Nat → String
  other : Nat → (op : KVOp) → op.Res

namespace Solo

/-- Answers of an empty backend. -/
def nothing : (op : KVOp) → op.Res
  | .load _ => none
  | .save _ _ _ => ()
  | .delete _ _ => ()
  | .listPage _ _ => ⟨[], none⟩
  | .walk => ([] : List String)
  | .countKeys => (0 : Int)
  | .flushAll => ()
  | .nowMs => (0 : Int)
  | .nanos => (0 : UInt64)

variable (env : Solo)

/-- The answer to a call that does not fail. -/
def answer (n : Nat) : (op : KVOp) → Keyspace → Result op.Res × Keyspace
  | .load key, s =>
      match s key with
      | none => (.ok none, s)
      | some p =>
          if p.1.isExpired (env.now n) then
            (.ok none, if env.collects n then Function.update s key none else s)
          else (.ok (some p), s)
  | .save key entry cond, s =>
      if cond.Met (s key) then (.ok (), Function.update s key (some (entry, env.token n)))
      else (.error .contention, s)
  | .delete key cond, s =>
      if cond.Met (s key) then (.ok (), Function.update s key none)
      else (.error .contention, s)
  | .flushAll, _ => (.ok (), fun _ => none)
  | .nowMs, s => (.ok (env.now n), s)
  | op, s => (.ok (env.other n op), s)

/-- The clocks are read, not asked. -/
def asked : KVOp → Bool
  | .nowMs => false
  | .nanos => false
  | _ => true

/-- The `n`-th call. -/
def serve (op : KVOp) (w : Nat × Keyspace) : Result op.Res × (Nat × Keyspace) :=
  match if asked op then env.fails w.1 else none with
  | some e => (.error e, w.1 + 1, w.2)
  | none => ((env.answer w.1 op w.2).1, w.1 + 1, (env.answer w.1 op w.2).2)

/-- A program run alone, from the `n`-th call on. -/
def runFrom {α : Type} (n : Nat) (p : KV α) (s : Keyspace) : Result α × (Nat × Keyspace) :=
  p.run env.serve (n, s)

def run {α : Type} (p : KV α) (s : Keyspace) : Result α × (Nat × Keyspace) := env.runFrom 0 p s

/-! ## One call -/

variable {env : Solo} {n : Nat} {s : Keyspace}

theorem runFrom_done {α : Type} (r : Result α) : env.runFrom n (.done r) s = (r, n, s) := rfl

theorem runFrom_bind {α β : Type} (p : KV α) (f : α → KV β) :
    env.runFrom n (p.bind f) s =
      match env.runFrom n p s with
      | (.ok a, w) => env.runFrom w.1 (f a) w.2
      | (.error e, w) => (.error e, w) := by
  unfold runFrom
  rw [Prog.run_bind]
  rcases p.run env.serve (n, s) with ⟨answer | answer, n', s'⟩ <;> rfl

theorem runFrom_step {α β : Type} {p : KV α} {f : α → KV β} {a : α} {w : Nat × Keyspace}
    (h : env.runFrom n p s = (.ok a, w)) :
    env.runFrom n (p.bind f) s = env.runFrom w.1 (f a) w.2 := by
  rw [runFrom_bind, h]

theorem runFrom_parse {α β : Type} {r : Result α} {f : α → KV β} {a : α} (h : r = .ok a) :
    env.runFrom n ((Prog.ofExcept r).bind f) s = env.runFrom n (f a) s := by
  rw [h]
  rfl

theorem runFrom_attempt {α : Type} (p : KV α) :
    env.runFrom n p.attempt s = (.ok (env.runFrom n p s).1, (env.runFrom n p s).2) :=
  Prog.run_attempt _ _ _

theorem answer_load_missing (env : Solo) (n : Nat) {key : String} (h : s key = none) :
    env.answer n (.load key) s = (.ok none, s) := by
  unfold answer
  dsimp only
  rw [h]

theorem answer_load_found (env : Solo) (n : Nat) {key : String} {p : StoredValue × String}
    (h : s key = some p) :
    env.answer n (.load key) s =
      if p.1.isExpired (env.now n) then
        (.ok none, if env.collects n then Function.update s key none else s)
      else (.ok (some p), s) := by
  unfold answer
  dsimp only
  rw [h]

theorem serve_cases (env : Solo) (n : Nat) (op : KVOp) (hop : asked op = true) (s : Keyspace) :
    (∃ e, env.fails n = some e ∧ env.serve op (n, s) = (.error e, n + 1, s)) ∨
      env.serve op (n, s) = ((env.answer n op s).1, n + 1, (env.answer n op s).2) := by
  unfold serve
  rw [if_pos hop]
  cases env.fails n with
  | some e => exact .inl ⟨e, rfl, rfl⟩
  | none => exact .inr rfl

/-- The key holds what it held, or has lost an expired entry. -/
def Old (env : Solo) (s s' : Keyspace) (key : String) : Prop :=
  s' key = s key ∨
    s' key = none ∧ ∃ p m, s key = some p ∧ p.1.isExpired (env.now m) = true

/-- A load that finds nothing: what was stored there has expired. -/
structure Missed (env : Solo) (n : Nat) (key : String) (s s' : Keyspace) : Prop where
  expired : ∀ p, s key = some p → p.1.isExpired (env.now n) = true
  old : env.Old s s' key
  frame : ∀ key', key' ≠ key → s' key' = s key'
  collected : env.collects n = true → s' key = none

theorem Missed.of_none {key : String} (h : s key = none) : env.Missed n key s s := by
  refine ⟨fun p hp => ?_, .inl rfl, fun _ _ => rfl, fun _ => h⟩
  rw [h] at hp
  cases hp

theorem Missed.of_expired {key : String} {p : StoredValue × String} (h : s key = some p)
    (hexp : p.1.isExpired (env.now n) = true) :
    env.Missed n key s (if env.collects n then Function.update s key none else s) := by
  constructor
  · intro q hq
    rw [h] at hq
    rwa [← Option.some.inj hq]
  · split
    · exact .inr ⟨Function.update_self _ _ _, p, n, h, hexp⟩
    · exact .inl rfl
  · intro key' hne
    split
    · exact Function.update_of_ne hne _ _
    · rfl
  · intro hcollects
    rw [if_pos hcollects, Function.update_self]

theorem load_cases (env : Solo) (n : Nat) (key : String) (s : Keyspace) :
    (∃ e, env.fails n = some e ∧ env.runFrom n (KV.load key) s = (.error e, n + 1, s)) ∨
    (∃ p, s key = some p ∧ p.1.isExpired (env.now n) = false ∧
      env.runFrom n (KV.load key) s = (.ok (some p), n + 1, s)) ∨
    ∃ s', env.Missed n key s s' ∧ env.runFrom n (KV.load key) s = (.ok none, n + 1, s') := by
  rw [show env.runFrom n (KV.load key) s = env.serve (.load key) (n, s) from rfl]
  rcases serve_cases env n (.load key) rfl s with hfail | hserve
  · exact .inl hfail
  · right
    cases hkey : s key with
    | none =>
        rw [answer_load_missing env n hkey] at hserve
        exact .inr ⟨s, .of_none hkey, hserve⟩
    | some p =>
        rw [answer_load_found env n hkey] at hserve
        by_cases hexp : p.1.isExpired (env.now n) = true
        · rw [if_pos hexp] at hserve
          exact .inr ⟨_, .of_expired hkey hexp, hserve⟩
        · rw [if_neg hexp] at hserve
          rw [Bool.not_eq_true] at hexp
          exact .inl ⟨p, rfl, hexp, hserve⟩

/-- What a save comes to: it is refused and changes nothing, or its entry is stored. -/
theorem save_cases (env : Solo) (n : Nat) (key : String) (entry : StoredValue)
    (cond : WriteCondition) (s : Keyspace) :
    (∃ e, (env.fails n = some e ∨ ¬ cond.Met (s key)) ∧
      env.runFrom n (KV.save key entry cond) s = (.error e, n + 1, s)) ∨
    env.runFrom n (KV.save key entry cond) s =
      (.ok (), n + 1, Function.update s key (some (entry, env.token n))) := by
  rw [show env.runFrom n (KV.save key entry cond) s = env.serve (.save key entry cond) (n, s)
    from rfl]
  rcases serve_cases env n (.save key entry cond) rfl s with ⟨e, hfail, hserve⟩ | hserve
  · exact .inl ⟨e, .inl hfail, hserve⟩
  · by_cases hmet : cond.Met (s key)
    · rw [show env.answer n (.save key entry cond) s = _ from if_pos hmet] at hserve
      exact .inr hserve
    · rw [show env.answer n (.save key entry cond) s = _ from if_neg hmet] at hserve
      exact .inl ⟨.contention, .inr hmet, hserve⟩

theorem delete_any_cases (env : Solo) (n : Nat) (key : String) (s : Keyspace) :
    (∃ e, env.fails n = some e ∧
      env.runFrom n (KV.delete key .any) s = (.error e, n + 1, s)) ∨
    env.runFrom n (KV.delete key .any) s = (.ok (), n + 1, Function.update s key none) := by
  rw [show env.runFrom n (KV.delete key .any) s = env.serve (.delete key .any) (n, s) from rfl]
  rcases serve_cases env n (.delete key .any) rfl s with hfail | hserve
  · exact .inl hfail
  · have hanswer : env.answer n (.delete key .any) s = (.ok (), Function.update s key none) := by
      have hmet : DeleteCondition.Met (s key) .any := trivial
      unfold answer
      exact if_pos hmet
    rw [hanswer] at hserve
    exact .inr hserve

theorem loadEntry_cases (env : Solo) (n : Nat) (key : String) (s : Keyspace) :
    (∃ e, env.fails n = some e ∧ env.runFrom n (KV.loadEntry key) s = (.error e, n + 1, s)) ∨
    (∃ p, s key = some p ∧ p.1.isExpired (env.now n) = false ∧
      env.runFrom n (KV.loadEntry key) s = (.ok (some p.1), n + 1, s)) ∨
    ∃ s', env.Missed n key s s' ∧ env.runFrom n (KV.loadEntry key) s = (.ok none, n + 1, s') := by
  have hbind : env.runFrom n (KV.loadEntry key) s = _ := runFrom_bind (KV.load key) _
  rcases load_cases env n key s with
    ⟨e, hfail, hload⟩ | ⟨p, hkey, hlive, hload⟩ | ⟨s', hmissed, hload⟩
  · rw [hload] at hbind
    exact .inl ⟨e, hfail, hbind⟩
  · rw [hload] at hbind
    exact .inr (.inl ⟨p, hkey, hlive, hbind⟩)
  · rw [hload] at hbind
    exact .inr (.inr ⟨s', hmissed, hbind⟩)

theorem read_congr {α β : Type} {v : View α} {key : String} {absent : β} {f g : α → β} (n : Nat)
    (h : ∀ exp x token, s key = some (⟨exp, v.wrap x⟩, token) → f x = g x) :
    env.runFrom n (v.read key absent f) s = env.runFrom n (v.read key absent g) s := by
  unfold View.read
  rw [Prog.bind_eq, Prog.bind_eq, runFrom_bind, runFrom_bind]
  rcases loadEntry_cases env n key s with
    ⟨e, -, hload⟩ | ⟨p, hkey, -, hload⟩ | ⟨s', -, hload⟩
  · rw [hload]
  · rw [hload]
    dsimp only
    cases hfind : v.find key (some p.1) with
    | error e => rfl
    | ok found =>
        cases found with
        | none => rfl
        | some q =>
            have hentry : p.1 = ⟨q.2, v.wrap q.1⟩ := Option.some.inj (v.find_some hfind)
            have heq : f q.1 = g q.1 := by
              apply h q.2 q.1 p.2
              rw [hkey, ← hentry]
            show env.runFrom _ (.done (.ok (f q.1))) _ = env.runFrom _ (.done (.ok (g q.1))) _
            rw [heq]
  · rw [hload]
    rfl

/-- Nothing fails, and every expired entry is collected. -/
structure Faultless (env : Solo) : Prop where
  fails : ∀ n, env.fails n = none
  collects : ∀ n, env.collects n = true

/-- Nothing fails and the clock stands still. -/
def still (now : Int) : Solo where
  fails _ := none
  now _ := now
  collects _ := true
  token n := toString n
  other _ := nothing

theorem still_faultless (now : Int) : (still now).Faultless := ⟨fun _ => rfl, fun _ => rfl⟩

/-! ## A CAS that nothing fails -/

section Cas

variable {R : Type} {key : String} {modify : Option StoredValue → Result (CasAction R)}

theorem load_found (h : env.Faultless) {p : StoredValue × String} (hkey : s key = some p)
    (hlive : p.1.isExpired (env.now n) = false) :
    env.runFrom n (KV.load key) s = (.ok (some p), n + 1, s) := by
  rcases load_cases env n key s with ⟨e, hfail, -⟩ | ⟨q, hq, -, hload⟩ | ⟨s', hmissed, -⟩
  · rw [h.fails n] at hfail
    cases hfail
  · rw [hload, Option.some.inj (hq.symm.trans hkey)]
  · rw [hmissed.expired p hkey] at hlive
    cases hlive

theorem load_missed (h : env.Faultless)
    (hgone : ∀ p, s key = some p → p.1.isExpired (env.now n) = true) :
    ∃ s', env.Missed n key s s' ∧ env.runFrom n (KV.load key) s = (.ok none, n + 1, s') := by
  rcases load_cases env n key s with ⟨e, hfail, -⟩ | ⟨p, hkey, hlive, -⟩ | hmissed
  · rw [h.fails n] at hfail
    cases hfail
  · rw [hgone p hkey] at hlive
    cases hlive
  · exact hmissed

theorem save_found (h : env.Faultless) {entry entry' : StoredValue} {token : String}
    (hkey : s key = some (entry', token)) :
    env.runFrom n (KV.save key entry (.ifMatch token)) s =
      (.ok (), n + 1, Function.update s key (some (entry, env.token n))) := by
  rcases save_cases env n key entry (.ifMatch token) s with ⟨e, hfail | hmet, -⟩ | hsave
  · rw [h.fails n] at hfail
    cases hfail
  · exact absurd ⟨entry', hkey⟩ hmet
  · exact hsave

/-- What a `cas` call does first: it loads the key, decides and writes. -/
theorem runFrom_cas (env : Solo) (n : Nat) (key : String)
    (modify : Option StoredValue → Result (CasAction R)) (s : Keyspace) :
    ∃ retry : Option (StoredValue × String) → KV R, env.runFrom n (cas key modify) s =
      match env.runFrom n (KV.load key) s with
      | (.error e, w) => (.error e, w)
      | (.ok loaded, w) =>
          env.runFrom w.1 ((Prog.ofExcept (modify (loaded.map Prod.fst))).bind fun action =>
            (casCommit key loaded action).bind fun done => match done with
              | some r => .done (.ok r)
              | none => retry loaded) w.2 := by
  refine ⟨fun loaded => casFrom key (pure ()) (fun _ _ => modify) 4
    ([] ++ [((), loaded.map Prod.fst)]), ?_⟩
  unfold cas casWith casMut maxCasRetries casFrom
  rw [Prog.bind_eq, runFrom_bind]
  rcases env.runFrom n (KV.load key) s with ⟨answer | loaded, w⟩
  · rfl
  · dsimp only
    rw [Prog.bind_eq, show (pure () : KV Unit) = .done (.ok ()) from rfl, Prog.done_ok_bind]
    rfl

theorem cas_refused {loaded : Option (StoredValue × String)} {w : Nat × Keyspace} {e : RustyAntError}
    (hload : env.runFrom n (KV.load key) s = (.ok loaded, w))
    (hmodify : modify (loaded.map Prod.fst) = .error e) :
    env.runFrom n (cas key modify) s = (.error e, w) := by
  obtain ⟨retry, hcas⟩ := runFrom_cas env n key modify s
  rw [hcas, hload]
  dsimp only
  rw [hmodify]
  rfl

theorem cas_written (h : env.Faultless) {entry entry' : StoredValue} {token : String} {r : R}
    (hkey : s key = some (entry, token)) (hlive : entry.isExpired (env.now n) = false)
    (hmodify : modify (some entry) = .ok (.write entry' r)) :
    env.runFrom n (cas key modify) s =
      (.ok r, n + 2, Function.update s key (some (entry', env.token (n + 1)))) := by
  obtain ⟨retry, hcas⟩ := runFrom_cas env n key modify s
  rw [hcas, load_found h hkey hlive]
  dsimp only
  rw [Option.map_some, hmodify]
  show env.runFrom (n + 1) ((orContention r (KV.save key entry' (.ifMatch token))).bind _) s = _
  unfold orContention
  rw [Prog.bind_eq, Prog.bind_assoc, runFrom_bind, runFrom_attempt, save_found h hkey]
  rfl

end Cas

/-! ## What is there -/

section Seen

variable {key key' : String}

/-- The entry that a load finds. -/
def seen (env : Solo) (n : Nat) (s : Keyspace) (key : String) : Option (StoredValue × String) :=
  (s key).filter fun p => !p.1.isExpired (env.now n)

/-- A load has collected what it did not find. -/
def swept (env : Solo) (n : Nat) (s : Keyspace) (key : String) : Keyspace :=
  Function.update s key (env.seen n s key)

theorem seen_of_none (h : s key = none) : env.seen n s key = none := by
  rw [seen, h, Option.filter_none]

theorem seen_of_expired {p : StoredValue × String} (h : s key = some p)
    (hexp : p.1.isExpired (env.now n) = true) : env.seen n s key = none := by
  rw [seen, h, Option.filter_some, hexp]
  rfl

theorem seen_of_live {p : StoredValue × String} (h : s key = some p)
    (hlive : p.1.isExpired (env.now n) = false) : env.seen n s key = some p := by
  rw [seen, h, Option.filter_some, hlive]
  rfl

theorem seen_eq_some {p : StoredValue × String} :
    env.seen n s key = some p ↔ s key = some p ∧ p.1.isExpired (env.now n) = false := by
  rw [seen, Option.filter_eq_some_iff, Bool.not_eq_true']

theorem swept_self : env.swept n s key key = env.seen n s key := Function.update_self _ _ _

theorem swept_of_ne (h : key' ≠ key) : env.swept n s key key' = s key' :=
  Function.update_of_ne h _ _

theorem swept_of_seen {p : StoredValue × String} (h : env.seen n s key = some p) :
    env.swept n s key = s := by
  rw [swept, h, ← (seen_eq_some.mp h).1, Function.update_eq_self]

theorem swept_of_none (h : s key = none) : env.swept n s key = s := by
  rw [swept, seen_of_none h, ← h, Function.update_eq_self]

theorem update_swept (x : Option (StoredValue × String)) :
    Function.update (env.swept n s key) key x = Function.update s key x :=
  Function.update_idem _ _ _

variable {R : Type}

theorem load_runs (h : env.Faultless) (n : Nat) (key : String) (s : Keyspace) :
    env.runFrom n (KV.load key) s = (.ok (env.seen n s key), n + 1, env.swept n s key) := by
  have hserve : env.runFrom n (KV.load key) s =
      ((env.answer n (.load key) s).1, n + 1, (env.answer n (.load key) s).2) := by
    show env.serve (.load key) (n, s) = _
    unfold serve
    rw [h.fails n, ite_self]
  rw [hserve]
  cases hkey : s key with
  | none =>
      rw [answer_load_missing env n hkey, seen_of_none hkey, swept_of_none hkey]
      rfl
  | some p =>
      rw [answer_load_found env n hkey]
      by_cases hexp : p.1.isExpired (env.now n) = true
      · rw [if_pos hexp, h.collects n, if_pos rfl, swept, seen_of_expired hkey hexp]
        rfl
      · have hlive : p.1.isExpired (env.now n) = false := Bool.not_eq_true _ |>.mp hexp
        have hseen := seen_of_live hkey hlive
        rw [if_neg hexp, hseen, swept_of_seen hseen]
        rfl

theorem loadEntry_runs (h : env.Faultless) (n : Nat) (key : String) (s : Keyspace) :
    env.runFrom n (KV.loadEntry key) s =
      (.ok ((env.seen n s key).map Prod.fst), n + 1, env.swept n s key) := by
  have hbind : env.runFrom n (KV.loadEntry key) s = _ := runFrom_bind (KV.load key) _
  rw [hbind, load_runs h]
  rfl

theorem save_runs (h : env.Faultless) {entry : StoredValue} {cond : WriteCondition}
    (hmet : cond.Met (s key)) :
    env.runFrom n (KV.save key entry cond) s =
      (.ok (), n + 1, Function.update s key (some (entry, env.token n))) := by
  rcases save_cases env n key entry cond s with ⟨e, hfail | hunmet, -⟩ | hsave
  · rw [h.fails n] at hfail
    cases hfail
  · exact absurd hmet hunmet
  · exact hsave

theorem delete_runs (h : env.Faultless) {cond : DeleteCondition} (hmet : cond.Met (s key)) :
    env.runFrom n (KV.delete key cond) s = (.ok (), n + 1, Function.update s key none) := by
  show env.serve (.delete key cond) (n, s) = _
  unfold serve answer
  rw [h.fails n, ite_self]
  dsimp only
  rw [if_pos hmet]
  rfl

/-- What a `cas` call comes to. -/
def casRuns (env : Solo) (n : Nat) (s : Keyspace) (key : String) :
    Result (CasAction R) → Result R × (Nat × Keyspace)
  | .error e => (.error e, n + 1, env.swept n s key)
  | .ok (.noOp r) => (.ok r, n + 1, env.swept n s key)
  | .ok (.delete r) =>
      (.ok r, if (env.seen n s key).isSome then n + 2 else n + 1, Function.update s key none)
  | .ok (.write entry r) => (.ok r, n + 2, Function.update s key (some (entry, env.token (n + 1))))

theorem casRuns_writeOrDelete {α : Type} (env : Solo) (n : Nat) (s : Keyspace) (key : String)
    (V : View α) (exp : Option Int) (x : α) (r : R) :
    ∃ n' token, env.casRuns n s key (.ok (V.writeOrDelete exp x r)) = (.ok r, n',
      Function.update s key (if V.isEmpty x then none else some (⟨exp, V.wrap x⟩, token))) := by
  unfold View.writeOrDelete
  by_cases hempty : V.isEmpty x = true
  · simp only [if_pos hempty]
    exact ⟨_, "", rfl⟩
  · simp only [if_neg hempty]
    exact ⟨_, _, rfl⟩

theorem orContention_runs {p : KV Unit} {r : R} {w : Nat × Keyspace}
    (h : env.runFrom n p s = (.ok (), w)) :
    env.runFrom n (orContention r p) s = (.ok (some r), w) := by
  unfold orContention
  rw [Prog.bind_eq, runFrom_bind, runFrom_attempt, h]
  rfl

/-- The requests and the keyspace once an action on the entry loaded before request `n` is
committed at request `m`. -/
def committed (env : Solo) (m n : Nat) (s : Keyspace) (key : String) :
    CasAction R → Nat × Keyspace
  | .noOp _ => (m, env.swept n s key)
  | .delete _ => (if (env.seen n s key).isSome then m + 1 else m, Function.update s key none)
  | .write entry _ => (m + 1, Function.update s key (some (entry, env.token m)))

theorem casCommit_runs (h : env.Faultless) (m : Nat) (action : CasAction R) :
    env.runFrom m (casCommit key (env.seen n s key) action) (env.swept n s key) =
      (.ok (some action.result), env.committed m n s key action) := by
  have hkey : env.swept n s key key = env.seen n s key := swept_self
  cases action with
  | noOp r => rfl
  | delete r =>
      rw [committed]
      cases hseen : env.seen n s key with
      | none =>
          rw [swept, hseen]
          rfl
      | some p =>
          have hmet : (DeleteCondition.ifMatch p.2).Met (env.swept n s key key) :=
            ⟨p.1, by rw [hkey, hseen]⟩
          show env.runFrom m (orContention r (KV.delete key (.ifMatch p.2))) _ = _
          rw [orContention_runs (delete_runs h hmet), update_swept]
          rfl
  | write entry r =>
      rw [committed]
      cases hseen : env.seen n s key with
      | none =>
          have hmet : WriteCondition.createOnly.Met (env.swept n s key key) := hkey.trans hseen
          show env.runFrom m (orContention r (KV.save key entry .createOnly)) _ = _
          rw [orContention_runs (save_runs h hmet), update_swept]
          rfl
      | some p =>
          have hmet : (WriteCondition.ifMatch p.2).Met (env.swept n s key key) :=
            ⟨p.1, by rw [hkey, hseen]⟩
          show env.runFrom m (orContention r (KV.save key entry (.ifMatch p.2))) _ = _
          rw [orContention_runs (save_runs h hmet), update_swept]
          rfl

theorem cas_runs (h : env.Faultless) (n : Nat) (key : String)
    (modify : Option StoredValue → Result (CasAction R)) (s : Keyspace) :
    env.runFrom n (cas key modify) s =
      env.casRuns n s key (modify ((env.seen n s key).map Prod.fst)) := by
  obtain ⟨retry, hcas⟩ := runFrom_cas env n key modify s
  rw [hcas, load_runs h]
  dsimp only
  cases hmodify : modify ((env.seen n s key).map Prod.fst) with
  | error e => rfl
  | ok action =>
      rw [show (Prog.ofExcept (.ok action) : KV (CasAction R)) = .done (.ok action) from rfl,
        Prog.done_ok_bind, runFrom_bind, casCommit_runs h]
      cases action with
      | noOp r => rfl
      | delete r => rfl
      | write entry r => rfl

theorem nowMs_runs (env : Solo) (n : Nat) (s : Keyspace) :
    env.runFrom n KV.nowMs s = (.ok (env.now n), n + 1, s) := rfl

/-- What a read of one kind answers. -/
def readAnswer {α β : Type} (V : View α) (key : String) (absent : β) (f : α → β)
    (entry : Option StoredValue) : Result β :=
  (V.find key entry).map fun found => found.elim absent fun p => f p.1

theorem read_runs {α β : Type} (h : env.Faultless) (V : View α) (n : Nat) (key : String)
    (absent : β) (f : α → β) (s : Keyspace) :
    env.runFrom n (V.read key absent f) s =
      (readAnswer V key absent f ((env.seen n s key).map Prod.fst), n + 1, env.swept n s key) := by
  unfold View.read readAnswer
  rw [Prog.bind_eq, runFrom_bind, loadEntry_runs h]
  dsimp only
  cases V.find key ((env.seen n s key).map Prod.fst) with
  | error e => rfl
  | ok found =>
      cases found with
      | none => rfl
      | some p => rfl

theorem read_seen {α β : Type} (h : env.Faultless) {V : View α} {exp : Option Int} {x : α}
    {token : String} (hseen : env.seen n s key = some (⟨exp, V.wrap x⟩, token)) (absent : β)
    (f : α → β) :
    env.runFrom n (V.read key absent f) s = (.ok (f x), n + 1, s) := by
  rw [read_runs h, hseen, swept_of_seen hseen, Option.map_some, readAnswer, V.find_wrap]
  rfl

theorem cas_seen (h : env.Faultless) {entry : StoredValue} {token : String}
    (hseen : env.seen n s key = some (entry, token))
    (modify : Option StoredValue → Result (CasAction R)) :
    env.runFrom n (cas key modify) s = env.casRuns n s key (modify (some entry)) := by
  rw [cas_runs h, hseen, Option.map_some]

end Seen

end Solo
end RustyAnt
