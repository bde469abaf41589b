import RustyAnt.Lib.Pool
import RustyAnt.Storage.Strings
import Mathlib.Data.Fintype.Basic
import Mathlib.Data.Fin.VecNotation

/-!
# The CAS loop takes effect once

Any number of programs share a backend whose conditional writes are atomic.  A
`cas` call that returns `Ok` has taken effect at exactly one of its events, by
the decision its closure takes on the entry stored at that event; a call that
has not returned `Ok` has changed nothing.
-/

namespace RustyAnt

open Lib

/-- Key to entry and version token. -/
abbrev Keyspace := String → Option (StoredValue × String)

namespace Keyspace

def entryAt (s : Keyspace) (key : String) : Option StoredValue := (s key).map Prod.fst

/-- Every stored token determines the entry stored with it. -/
def Versioned (content : String → StoredValue) (s : Keyspace) : Prop :=
  ∀ key e token, s key = some (e, token) → content token = e

end Keyspace

namespace WriteCondition

/-- The condition, on what is stored at the key. -/
def Met (cur : Option (StoredValue × String)) : WriteCondition → Prop
  | any => True
  | createOnly => cur = none
  | ifMatch etag => ∃ e, cur = some (e, etag)

instance (cur : Option (StoredValue × String)) (cond : WriteCondition) :
    Decidable (cond.Met cur) :=
  match cond, cur with
  | any, _ => .isTrue trivial
  | createOnly, none => .isTrue rfl
  | createOnly, some _ => .isFalse nofun
  | ifMatch _, none => .isFalse nofun
  | ifMatch etag, some (e, token) =>
      if h : token = etag then .isTrue ⟨e, by rw [h]⟩
      else .isFalse fun ⟨_, heq⟩ => h (Prod.mk.inj (Option.some.inj heq)).2

end WriteCondition

namespace DeleteCondition

def Met (cur : Option (StoredValue × String)) : DeleteCondition → Prop
  | any => True
  | ifMatch etag => ∃ e, cur = some (e, etag)

instance (cur : Option (StoredValue × String)) (cond : DeleteCondition) :
    Decidable (cond.Met cur) :=
  match cond, cur with
  | any, _ => .isTrue trivial
  | ifMatch _, none => .isFalse nofun
  | ifMatch etag, some (e, token) =>
      if h : token = etag then .isTrue ⟨e, by rw [h]⟩
      else .isFalse fun ⟨_, heq⟩ => h (Prod.mk.inj (Option.some.inj heq)).2

end DeleteCondition

/-- A backend whose `load` is atomic, which checks the condition of a write
together with the write, whose tokens determine the entry (`content`), and on
which a failed request has no effect.  A request may fail for any reason. -/
inductive casService (content : String → StoredValue) :
    Service KVOp KVOp.Res RustyAntError Keyspace
  | load (s : Keyspace) (key : String) :
      casService content s (.load key) (.ok (s key : Option (StoredValue × String))) s
  | save (s : Keyspace) (key : String) (cond : WriteCondition) (token : String)
      (hcond : cond.Met (s key)) :
      casService content s (.save key (content token) cond) (.ok ())
        (Function.update s key (some (content token, token)))
  | delete (s : Keyspace) (key : String) (cond : DeleteCondition) (hcond : cond.Met (s key)) :
      casService content s (.delete key cond) (.ok ()) (Function.update s key none)
  | flushAll (s : Keyspace) (kept : String → Bool) (answer : Result Unit) :
      casService content s .flushAll answer fun key => if kept key then s key else none
  | listPage (s : Keyspace) (cursor : Option String) (maxKeys : Nat) (page : ListPage) :
      casService content s (.listPage cursor maxKeys) (.ok page) s
  | walk (s : Keyspace) (keys : List String) : casService content s .walk (.ok keys) s
  | countKeys (s : Keyspace) (n : Int) : casService content s .countKeys (.ok n) s
  | nowMs (s : Keyspace) (now : Int) : casService content s .nowMs (.ok now) s
  | nanos (s : Keyspace) (n : UInt64) : casService content s .nanos (.ok n) s
  | fault (s : Keyspace) (op : KVOp) (e : RustyAntError) (hop : op ≠ .flushAll) :
      casService content s op (.error e) s

theorem casService_versioned {content : String → StoredValue} {s s' : Keyspace} {op : KVOp}
    {answer : Result op.Res} (hs : s.Versioned content)
    (h : casService content s op answer s') : s'.Versioned content := by
  cases h with
  | save _ key cond token hcond =>
      intro key' e t hkey
      by_cases hk : key' = key
      · subst hk
        rw [Function.update_self, Option.some.injEq, Prod.mk.injEq] at hkey
        rw [← hkey.1, hkey.2]
      · rw [Function.update_of_ne hk] at hkey
        exact hs key' e t hkey
  | delete _ key cond hcond =>
      intro key' e t hkey
      by_cases hk : key' = key
      · subst hk
        rw [Function.update_self] at hkey
        cases hkey
      · rw [Function.update_of_ne hk] at hkey
        exact hs key' e t hkey
  | flushAll _ kept answer =>
      intro key' e t hkey
      dsimp only at hkey
      split at hkey
      · exact hs key' e t hkey
      · cases hkey
  | load _ key => exact hs
  | listPage _ cursor maxKeys page => exact hs
  | walk _ keys => exact hs
  | countKeys _ n => exact hs
  | nowMs _ now => exact hs
  | nanos _ n => exact hs
  | fault _ e hop => exact hs

/-- What a closure of `cas` may call besides the backend: the clocks. -/
def ReadsClock {δ : Type} (draw : KV δ) : Prop :=
  draw.Requests fun op => op = .nowMs ∨ op = .nanos

abbrev KVEvent (ι : Type) := Event KVOp KVOp.Res RustyAntError Keyspace ι

section Effect

variable {ι δ R : Type} {content : String → StoredValue}

/-- The event leaves the keyspace as it was. -/
def Silent (ev : KVEvent ι) : Prop := ev.after = ev.before

/-- At `ev` the keyspace changes as the closure decides on the entry stored at
that point, and `r` is that decision's result. -/
def Decided (key : String)
    (modify : List (δ × Option StoredValue) → δ → Option StoredValue → Result (CasAction R))
    (r : R) (ev : KVEvent ι) : Prop :=
  ∃ seen d action, modify seen d (ev.before.entryAt key) = .ok action ∧ action.result = r ∧
    ev.after.entryAt key = action.apply (ev.before.entryAt key) ∧
    ∀ key', key' ≠ key → ev.after key' = ev.before key'

/-- One event of the list is `Decided`, all others are silent. -/
def DecidedOnce (key : String)
    (modify : List (δ × Option StoredValue) → δ → Option StoredValue → Result (CasAction R))
    (r : R) (evs : List (KVEvent ι)) : Prop :=
  ∃ pre ev post, evs = pre ++ ev :: post ∧ Decided key modify r ev ∧
    ∀ x ∈ pre ++ post, Silent x

/-- What can be said of the events of a `cas` call which has become `q`. -/
def Accounted (key : String)
    (modify : List (δ × Option StoredValue) → δ → Option StoredValue → Result (CasAction R))
    (evs : List (KVEvent ι)) (q : KV R) : Prop :=
  (∃ r, q = .done (.ok r) ∧ DecidedOnce key modify r evs) ∨
    ((∀ r, q ≠ .done (.ok r)) ∧ ∀ ev ∈ evs, Silent ev)

/-- The event is answered by the backend, whose tokens determine the entries. -/
def Served (content : String → StoredValue) (ev : KVEvent ι) : Prop :=
  casService content ev.before ev.op ev.answer ev.after ∧ ev.before.Versioned content

variable {key : String}
variable {modify : List (δ × Option StoredValue) → δ → Option StoredValue → Result (CasAction R)}

theorem Silent.of_clock {ev : KVEvent ι} (h : Served content ev)
    (hop : ev.op = .nowMs ∨ ev.op = .nanos) : Silent ev := by
  obtain ⟨who, op, answer, before, after⟩ := ev
  obtain ⟨h, -⟩ := h
  dsimp only at h hop
  rcases hop with rfl | rfl <;> cases h <;> rfl

theorem Silent.of_load {ev : KVEvent ι} (h : Served content ev) {key : String}
    (hop : ev.op = .load key) : Silent ev := by
  obtain ⟨who, op, answer, before, after⟩ := ev
  obtain ⟨h, -⟩ := h
  dsimp only at h hop
  subst hop
  cases h <;> rfl

theorem Accounted.append_silent {evs evs' : List (KVEvent ι)} {q : KV R}
    (hsilent : ∀ ev ∈ evs, Silent ev) (h : Accounted key modify evs' q) :
    Accounted key modify (evs ++ evs') q := by
  rcases h with ⟨r, hq, pre, ev, post, rfl, hdec, hrest⟩ | ⟨hq, hrest⟩
  · refine .inl ⟨r, hq, evs ++ pre, ev, post, by simp, hdec, ?_⟩
    rw [List.append_assoc, List.forall_mem_append]
    exact ⟨hsilent, hrest⟩
  · refine .inr ⟨hq, ?_⟩
    rw [List.forall_mem_append]
    exact ⟨hsilent, hrest⟩

/-- A quantity of the keyspace that every decision changes by what its result says
changes by that once the call has returned, and not before. -/
theorem Accounted.sum_change {M : Type} [AddCommGroup M] {evs : List (KVEvent ι)} {q : KV R}
    (h : Accounted key modify evs q) (f : Keyspace → M) (change : R → M)
    (hchange : ∀ r (ev : KVEvent ι), Decided key modify r ev →
      f ev.after - f ev.before = change r) :
    (evs.map fun ev => f ev.after - f ev.before).sum = q.returned.elim 0 change := by
  have hsilent : ∀ {l : List (KVEvent ι)}, (∀ ev ∈ l, Silent ev) →
      (l.map fun ev => f ev.after - f ev.before).sum = 0 := by
    intro l hl
    refine List.sum_eq_zero ?_
    simp only [List.mem_map]
    rintro x ⟨ev, hev, rfl⟩
    rw [show ev.after = ev.before from hl ev hev, sub_self]
  rcases h with ⟨r, rfl, pre, ev, post, rfl, hdec, hrest⟩ | ⟨hq, hall⟩
  · rw [List.forall_mem_append] at hrest
    rw [List.map_append, List.sum_append, List.map_cons, List.sum_cons, hsilent hrest.1,
      hsilent hrest.2, hchange r ev hdec, zero_add, add_zero]
    rfl
  · have hnone : q.returned = none := by
      rw [Option.eq_none_iff_forall_ne_some]
      intro r hr
      exact hq r (Prog.returned_eq_some.mp hr)
    rw [hsilent hall, hnone]
    rfl

/-- An entry loaded with its token, as the backend had it. -/
def Loaded (content : String → StoredValue) (loaded : Option (StoredValue × String)) : Prop :=
  ∀ e token, loaded = some (e, token) → content token = e

/-- A token that still matches still stands for the entry loaded with it. -/
theorem entryAt_of_token {s : Keyspace} (hs : s.Versioned content) {e : StoredValue}
    {token : String} (hloaded : content token = e) (hmet : ∃ e', s key = some (e', token)) :
    s.entryAt key = some e := by
  obtain ⟨e', he'⟩ := hmet
  have hcur := hs key e' token he'
  rw [Keyspace.entryAt, he', Option.map_some, ← hcur, hloaded]

theorem entryAt_update (s : Keyspace) (key : String) (cur : Option (StoredValue × String)) :
    Keyspace.entryAt (Function.update s key cur) key = cur.map Prod.fst := by
  rw [Keyspace.entryAt, Function.update_self]

/-- How `cas` goes on after a conditional write has been answered. -/
def settle (r : R) : Result Unit → KV (Option R)
  | .ok () => .done (.ok (some r))
  | .error .contention => .done (.ok none)
  | .error e => .done (.error e)

theorem settle_cases (r : R) (answer : Result Unit) :
    (answer = .ok () ∧ settle r answer = .done (.ok (some r))) ∨
      ((∃ e, answer = .error e) ∧
        ∃ u, settle r answer = .done u ∧ ∀ r', u ≠ .ok (some r')) := by
  cases answer with
  | ok u => exact .inl ⟨rfl, rfl⟩
  | error e =>
      refine .inr ⟨⟨e, rfl⟩, ?_⟩
      cases e <;> exact ⟨_, rfl, by simp⟩

theorem orContention_save (r : R) (key : String) (entry : StoredValue) (cond : WriteCondition) :
    orContention r (KV.save key entry cond) = .call (.save key entry cond) (settle r) := by
  refine congrArg (Prog.call _) (funext fun answer => ?_)
  cases answer with
  | ok u => rfl
  | error e => cases e <;> rfl

theorem orContention_delete (r : R) (key : String) (cond : DeleteCondition) :
    orContention r (KV.delete key cond) = .call (.delete key cond) (settle r) := by
  refine congrArg (Prog.call _) (funext fun answer => ?_)
  cases answer with
  | ok u => rfl
  | error e => cases e <;> rfl

/-- A conditional write that has ended the loop was made on the entry that was
loaded; one that has not has changed nothing. -/
theorem save_follows {r : R} {entry : StoredValue} {cond : WriteCondition}
    {evs : List (KVEvent ι)} {q : KV (Option R)}
    (h : Pool.Follows (orContention r (KV.save key entry cond)) evs q)
    (hserved : ∀ ev ∈ evs, Served content ev) :
    (q = .done (.ok (some r)) ∧ ∃ ev, evs = [ev] ∧ cond.Met (ev.before key) ∧
        ∃ token, ev.after = Function.update ev.before key (some (entry, token))) ∨
      ((∀ r', q ≠ .done (.ok (some r'))) ∧ ∀ ev ∈ evs, Silent ev) := by
  rw [orContention_save] at h
  rcases h.call_inv with ⟨rfl, rfl⟩ | ⟨who, answer, before, after, evs', rfl, hk⟩
  · exact .inr ⟨by simp, by simp⟩
  · have hev := (hserved _ List.mem_cons_self).1
    dsimp only at hev
    rcases settle_cases r answer with ⟨rfl, hset⟩ | ⟨⟨e, rfl⟩, u, hset, hu⟩
    · rw [hset] at hk
      obtain ⟨rfl, rfl⟩ := hk.done_inv
      refine .inl ⟨rfl, _, rfl, ?_⟩
      cases hev with
      | save s key cond token hcond => exact ⟨hcond, token, rfl⟩
    · rw [hset] at hk
      obtain ⟨rfl, rfl⟩ := hk.done_inv
      refine .inr ⟨by simpa using hu, ?_⟩
      rw [List.forall_mem_singleton]
      cases hev
      rfl

theorem delete_follows {r : R} {cond : DeleteCondition}
    {evs : List (KVEvent ι)} {q : KV (Option R)}
    (h : Pool.Follows (orContention r (KV.delete key cond)) evs q)
    (hserved : ∀ ev ∈ evs, Served content ev) :
    (q = .done (.ok (some r)) ∧ ∃ ev, evs = [ev] ∧ cond.Met (ev.before key) ∧
        ev.after = Function.update ev.before key none) ∨
      ((∀ r', q ≠ .done (.ok (some r'))) ∧ ∀ ev ∈ evs, Silent ev) := by
  rw [orContention_delete] at h
  rcases h.call_inv with ⟨rfl, rfl⟩ | ⟨who, answer, before, after, evs', rfl, hk⟩
  · exact .inr ⟨by simp, by simp⟩
  · have hev := (hserved _ List.mem_cons_self).1
    dsimp only at hev
    rcases settle_cases r answer with ⟨rfl, hset⟩ | ⟨⟨e, rfl⟩, u, hset, hu⟩
    · rw [hset] at hk
      obtain ⟨rfl, rfl⟩ := hk.done_inv
      refine .inl ⟨rfl, _, rfl, ?_⟩
      cases hev with
      | delete s key cond hcond => exact ⟨hcond, rfl⟩
    · rw [hset] at hk
      obtain ⟨rfl, rfl⟩ := hk.done_inv
      refine .inr ⟨by simpa using hu, ?_⟩
      rw [List.forall_mem_singleton]
      cases hev
      rfl

/-- `ev` carries out the decision `action`, taken on the entry `cur`. -/
def CarriesOut (key : String) (cur : Option StoredValue) (action : CasAction R)
    (ev : KVEvent ι) : Prop :=
  ev.before.entryAt key = cur ∧ ev.after.entryAt key = action.apply cur ∧
    ∀ key', key' ≠ key → ev.after key' = ev.before key'

theorem casCommit_follows {loaded : Option (StoredValue × String)}
    (hloaded : Loaded content loaded) {action : CasAction R}
    {evs : List (KVEvent ι)} {q : KV (Option R)}
    (h : Pool.Follows (casCommit key loaded action) evs q)
    (hserved : ∀ ev ∈ evs, Served content ev) :
    (q = .done (.ok (some action.result)) ∧ evs = [] ∧
        action.apply (loaded.map Prod.fst) = loaded.map Prod.fst) ∨
      (q = .done (.ok (some action.result)) ∧
        ∃ ev, evs = [ev] ∧ CarriesOut key (loaded.map Prod.fst) action ev) ∨
      ((∀ r, q ≠ .done (.ok (some r))) ∧ ∀ ev ∈ evs, Silent ev) := by
  cases action with
  | noOp r =>
      obtain ⟨rfl, rfl⟩ := h.done_inv
      exact .inl ⟨rfl, rfl, rfl⟩
  | delete r =>
      cases loaded with
      | none =>
          obtain ⟨rfl, rfl⟩ := h.done_inv
          exact .inl ⟨rfl, rfl, rfl⟩
      | some p =>
          obtain ⟨e, etag⟩ := p
          rcases delete_follows h hserved with ⟨hq, ev, rfl, hmet, hafter⟩ | hsilent
          · refine .inr (.inl ⟨hq, ev, rfl, ?_, ?_, ?_⟩)
            · exact entryAt_of_token (hserved ev (by simp)).2 (hloaded e etag rfl) hmet
            · rw [hafter, entryAt_update]
              rfl
            · intro key' hkey'
              rw [hafter, Function.update_of_ne hkey']
          · exact .inr (.inr hsilent)
  | write entry r =>
      cases loaded with
      | none =>
          rcases save_follows h hserved with ⟨hq, ev, rfl, hmet, token, hafter⟩ | hsilent
          · refine .inr (.inl ⟨hq, ev, rfl, ?_, ?_, ?_⟩)
            · rw [Keyspace.entryAt, hmet]
            · rw [hafter, entryAt_update]
              rfl
            · intro key' hkey'
              rw [hafter, Function.update_of_ne hkey']
          · exact .inr (.inr hsilent)
      | some p =>
          obtain ⟨e, etag⟩ := p
          rcases save_follows h hserved with ⟨hq, ev, rfl, hmet, token, hafter⟩ | hsilent
          · refine .inr (.inl ⟨hq, ev, rfl, ?_, ?_, ?_⟩)
            · exact entryAt_of_token (hserved ev (by simp)).2 (hloaded e etag rfl) hmet
            · rw [hafter, entryAt_update]
              rfl
            · intro key' hkey'
              rw [hafter, Function.update_of_ne hkey']
          · exact .inr (.inr hsilent)

/-- The rest of an attempt once the closure has decided. -/
theorem attempt_accounted {loaded : Option (StoredValue × String)} {action : CasAction R}
    {seen : List (δ × Option StoredValue)} {d : δ} {pre evs : List (KVEvent ι)} {q : KV R}
    {retry : KV R} {who : ι} {s : Keyspace} (hs : s.Versioned content) (hloaded : s key = loaded)
    (hmodify : modify seen d (loaded.map Prod.fst) = .ok action)
    (hpre : ∀ ev ∈ pre, Silent ev)
    (hserved : ∀ ev ∈ evs, Served content ev)
    (hretry : ∀ evs' : List (KVEvent ι), Pool.Follows retry evs' q → (∀ ev ∈ evs', Served content ev) →
      Accounted key modify evs' q)
    (h : Pool.Follows ((casCommit key loaded action).bind fun res =>
      match res with
      | some r => pure r
      | none => retry) evs q) :
    Accounted key modify (⟨who, .load key, .ok (s key), s, s⟩ :: (pre ++ evs)) q := by
  have hload : Loaded content loaded := fun e token heq => hs key e token (hloaded.trans heq)
  have hentry : s.entryAt key = loaded.map Prod.fst := by rw [Keyspace.entryAt, hloaded]
  have hhead : ∀ ev ∈ (⟨who, .load key, .ok (s key), s, s⟩ : KVEvent ι) :: pre, Silent ev := by
    rw [List.forall_mem_cons]
    exact ⟨rfl, hpre⟩
  rw [← List.cons_append]
  rcases h.bind_inv with ⟨op, k, hcommit, rfl⟩ | ⟨evs₁, evs₂, res, rfl, hcommit, hrest⟩
  · rcases casCommit_follows hload hcommit hserved with ⟨hq, -⟩ | ⟨hq, -⟩ | ⟨-, hsilent⟩
    · cases hq
    · cases hq
    · exact .append_silent hhead (.inr ⟨by simp, hsilent⟩)
  · rw [List.forall_mem_append] at hserved
    rcases casCommit_follows hload hcommit hserved.1 with
      ⟨hq, rfl, happly⟩ | ⟨hq, ev, rfl, hcarry⟩ | ⟨hq, hsilent⟩
    · -- nothing to write: the decision is the load's
      cases hq
      obtain ⟨rfl, rfl⟩ := Pool.Follows.done_inv hrest
      rw [List.append_nil, List.append_nil]
      refine .inl ⟨action.result, rfl, [], _, pre, rfl, ?_, by simpa using hpre⟩
      refine ⟨seen, d, action, ?_, rfl, ?_, fun _ _ => rfl⟩
      · rw [hentry]
        exact hmodify
      · rw [hentry]
        exact happly.symm
    · cases hq
      obtain ⟨rfl, rfl⟩ := Pool.Follows.done_inv hrest
      refine .inl ⟨action.result, rfl, _, ev, [], rfl, ?_, by simpa using hhead⟩
      obtain ⟨hbefore, hafter, hframe⟩ := hcarry
      refine ⟨seen, d, action, ?_, rfl, ?_, hframe⟩
      · rw [hbefore]
        exact hmodify
      · rw [hbefore]
        exact hafter
    · refine .append_silent hhead (.append_silent hsilent ?_)
      cases res with
      | error e =>
          obtain ⟨rfl, rfl⟩ := Pool.Follows.done_inv hrest
          exact .inr ⟨by simp, by simp⟩
      | ok res =>
          cases res with
          | some r => exact absurd rfl (hq r)
          | none => exact hretry evs₂ hrest hserved.2

/-- The attempts of `cas`, by induction on how many are left: an attempt that
ends in `Contention` has left nothing behind. -/
theorem casFrom_accounted {draw : KV δ} (hdraw : ReadsClock draw) (left : Nat)
    (seen : List (δ × Option StoredValue)) {evs : List (KVEvent ι)} {q : KV R}
    (h : Pool.Follows (casFrom key draw modify left seen) evs q)
    (hserved : ∀ ev ∈ evs, Served content ev) : Accounted key modify evs q := by
  induction left generalizing seen evs with
  | zero =>
      obtain ⟨rfl, rfl⟩ := h.done_inv
      exact .inr ⟨by simp, by simp⟩
  | succ left ih =>
      rcases Pool.Follows.call_inv h with ⟨rfl, rfl⟩ |
        ⟨who, answer, before, after, evs, rfl, hrest⟩
      · exact .inr ⟨by simp, by simp⟩
      rw [List.forall_mem_cons] at hserved
      obtain ⟨hload, hserved⟩ := hserved
      have hsilent : Silent (⟨who, .load key, answer, before, after⟩ : KVEvent ι) :=
        Silent.of_load hload rfl
      have hclock : ∀ {evs₁ : List (KVEvent ι)} {p : KV δ}, Pool.Follows draw evs₁ p →
          (∀ ev ∈ evs₁, Served content ev) → ∀ ev ∈ evs₁, Silent ev := by
        intro evs₁ p hp hserved₁ ev hev
        exact Silent.of_clock (hserved₁ ev hev) (hp.obeys hdraw (fun _ _ => trivial) ev hev)
      cases answer with
      | error e =>
          obtain ⟨rfl, rfl⟩ := Pool.Follows.done_inv hrest
          exact .inr ⟨by simp, by simpa using hsilent⟩
      | ok loaded =>
          have hbefore : before key = loaded := by
            have hserve := hload.1
            dsimp only at hserve
            cases hserve
            rfl
          have hafter : after = before := hsilent
          subst hafter hbefore
          rcases Pool.Follows.bind_inv (p := draw) hrest with
            ⟨op, k, hp, rfl⟩ | ⟨evs₁, evs₂, d, rfl, hp, hrest⟩
          · refine .inr ⟨by simp, ?_⟩
            rw [List.forall_mem_cons]
            exact ⟨hsilent, hclock hp hserved⟩
          · rw [List.forall_mem_append] at hserved
            have hsilent₁ := hclock hp hserved.1
            cases d with
            | error e =>
                obtain ⟨rfl, rfl⟩ := Pool.Follows.done_inv hrest
                refine .inr ⟨by simp, ?_⟩
                simpa using ⟨hsilent, hsilent₁⟩
            | ok d =>
                cases hmodify : modify seen d ((after key).map Prod.fst) with
                | error e =>
                    have hdone : Pool.Follows (Prog.done (.error e) : KV R) evs₂ q := by
                      simpa [Prog.ofExcept, hmodify, Prog.bind_eq] using hrest
                    obtain ⟨rfl, rfl⟩ := hdone.done_inv
                    refine .inr ⟨by simp, ?_⟩
                    simpa using ⟨hsilent, hsilent₁⟩
                | ok action =>
                    refine attempt_accounted hload.2 rfl hmodify hsilent₁ hserved.2
                      (fun _ => ih (seen ++ [(d, (after key).map Prod.fst)])) ?_
                    simp only [Prog.ofExcept, hmodify, Prog.bind_eq, Prog.done_ok_bind] at hrest
                    exact hrest

end Effect

section Runs

variable {ι : Type} [DecidableEq ι] {α : ι → Type} {content : String → StoredValue}
variable {c d : Pool KVOp KVOp.Res RustyAntError Keyspace α} {evs : List (KVEvent ι)}

/-- The events of one program, as the backend answered them. -/
theorem run_served (hc : c.state.Versioned content)
    (hrun : Pool.Run (casService content) c evs d) (i : ι) :
    ∀ ev ∈ evs.filter fun ev => ev.who = i, Served content ev := by
  intro ev hev
  have hmem := (List.mem_filter.mp hev).1
  exact ⟨hrun.serve ev hmem, ((hrun.state_invariant _ hc casService_versioned).2 ev hmem).1⟩

/-- The events of one `cas` call in a run of any programs. -/
theorem run_accounted (hc : c.state.Versioned content)
    (hrun : Pool.Run (casService content) c evs d) {i : ι} {δ : Type} {key : String}
    {draw : KV δ} (hdraw : ReadsClock draw)
    {modify : List (δ × Option StoredValue) → δ → Option StoredValue → Result (CasAction (α i))}
    (hprog : c.prog i = casMut key draw modify) :
    Accounted key modify (evs.filter fun ev => ev.who = i) (d.prog i) := by
  have hfollows := hrun.follows i
  rw [hprog] at hfollows
  exact casFrom_accounted hdraw maxCasRetries [] hfollows (run_served hc hrun i)

end Runs

/-! ## Counters -/

namespace Storage

/-- The number `incr_by` takes the entry for; entries it refuses count as `0`. -/
def counterVal (entry : Option StoredValue) : Int :=
  match counterOf "" entry with
  | .ok (n, _) => n
  | .error _ => 0

theorem checkedAdd_eq_some {a b n : Int} :
    checkedAdd a b = some n ↔ n = a + b ∧ i64Min ≤ n ∧ n ≤ i64Max := by
  unfold checkedAdd
  split
  · rename_i h
    constructor
    · rintro ⟨⟩
      exact ⟨rfl, h⟩
    · rintro ⟨rfl, -⟩
      rfl
  · rename_i h
    constructor
    · rintro ⟨⟩
    · rintro ⟨rfl, hn⟩
      exact absurd hn h

/-- The counter does not depend on the key named in the errors. -/
theorem counterVal_of_ok {key : String} {entry : Option StoredValue} {n : Int}
    {exp : Option Int} (h : counterOf key entry = .ok (n, exp)) : counterVal entry = n := by
  have hsame : counterOf "" entry = .ok (n, exp) := by
    unfold counterOf at h ⊢
    rw [Result.bind_eq_ok] at h ⊢
    obtain ⟨found, hfind, hrest⟩ := h
    refine ⟨found, ?_, hrest⟩
    cases found with
    | none =>
        rw [View.string.find_none hfind]
        rfl
    | some p =>
        rw [View.string.find_some hfind]
        rfl
  rw [counterVal, hsame]

/-- An increment that is decided adds exactly its delta. -/
theorem incrByModify_counterVal {key : String} {delta : Int} {entry : Option StoredValue}
    {action : CasAction Int} (h : incrByModify key delta entry = .ok action) :
    counterVal (action.apply entry) = counterVal entry + delta := by
  unfold incrByModify at h
  rw [Result.bind_eq_ok] at h
  obtain ⟨⟨current, exp⟩, hcounter, hrest⟩ := h
  rw [counterVal_of_ok hcounter]
  dsimp only at hrest
  split at hrest
  · cases hrest
  · rename_i newVal hadd
    obtain ⟨rfl, hmin, hmax⟩ := checkedAdd_eq_some.mp hadd
    cases hrest
    simp only [View.write, CasAction.apply, counterVal, counterOf, View.find, View.string,
      Result.ok_bind, parseI64_intBytes hmin hmax, Result.pure_eq_ok]

/-- The events of one `incr_by` call change the counter by its delta if the call
has returned `Ok`, and not at all otherwise. -/
theorem incrBy_sum_change {ι : Type} {key : String} {delta : Int} {evs : List (KVEvent ι)}
    {q : KV Int}
    (h : Accounted (δ := Unit) key (fun _ _ => incrByModify key delta) evs q) :
    (evs.map fun ev => counterVal (ev.after.entryAt key) -
      counterVal (ev.before.entryAt key)).sum = if q.returned.isSome then delta else 0 := by
  rw [h.sum_change (fun s => counterVal (s.entryAt key)) (fun _ => delta) fun r ev hdec => ?_]
  · cases q.returned <;> rfl
  · obtain ⟨seen, d, action, hmodify, -, happly, -⟩ := hdec
    have hev := incrByModify_counterVal hmodify
    rw [happly, hev]
    omega

theorem incrBy_run_sum {ι : Type} [Fintype ι] [DecidableEq ι] {content : String → StoredValue}
    {c d : Pool KVOp KVOp.Res RustyAntError Keyspace (fun _ : ι => Int)}
    {evs : List (KVEvent ι)} {key : String} {delta : ι → Int}
    (hc : c.state.Versioned content) (hrun : Pool.Run (casService content) c evs d)
    (hprog : ∀ i, c.prog i = incrBy key (delta i)) :
    counterVal (d.state.entryAt key) = counterVal (c.state.entryAt key) +
      ∑ i with (d.prog i).returned.isSome, delta i := by
  rw [hrun.sum_change fun s => counterVal (Keyspace.entryAt s key), Pool.sum_by_program,
    Finset.sum_filter]
  refine congrArg _ (Finset.sum_congr rfl fun i _ => ?_)
  have hclock : ReadsClock (pure () : KV Unit) := trivial
  exact incrBy_sum_change (run_accounted hc hrun hclock (hprog i))

end Storage

/-- Every `cas` call that returns `Ok(r)` takes effect at exactly one of its
events, where the store changes by its closure's decision on the entry stored at
that point and `r` is that decision's result; a call that has not returned `Ok`
has changed nothing.  Other programs of the pool are arbitrary.  For calls of
`incr_by` alone, the counter moves by the sum of the deltas of those that have
returned `Ok`. -/
theorem cas_takes_effect_once {ι : Type} [DecidableEq ι] {α : ι → Type}
    (content : String → StoredValue) (c d : Pool KVOp KVOp.Res RustyAntError Keyspace α)
    (evs : List (KVEvent ι)) (hc : c.state.Versioned content)
    (hrun : Pool.Run (casService content) c evs d) :
    (∀ (i : ι) (δ : Type) (key : String) (draw : KV δ)
      (modify : List (δ × Option StoredValue) → δ → Option StoredValue →
        Result (CasAction (α i))),
      ReadsClock draw → c.prog i = casMut key draw modify →
        (∀ r, d.prog i = .done (.ok r) →
          ∃ pre ev post, evs = pre ++ ev :: post ∧ ev.who = i ∧ Decided key modify r ev ∧
            ∀ x ∈ pre ++ post, x.who = i → Silent x) ∧
        ((∀ r, d.prog i ≠ .done (.ok r)) → ∀ x ∈ evs, x.who = i → Silent x)) ∧
    ∀ (n : Nat) (key : String) (delta : Fin n → Int)
      (c d : Pool KVOp KVOp.Res RustyAntError Keyspace (fun _ : Fin n => Int))
      (evs : List (KVEvent (Fin n))), c.state.Versioned content →
      Pool.Run (casService content) c evs d →
      (∀ i, c.prog i = Storage.incrBy key (delta i)) →
        Storage.counterVal (d.state.entryAt key) = Storage.counterVal (c.state.entryAt key) +
          ∑ i with (d.prog i).returned.isSome, delta i := by
  constructor
  · intro i δ key draw modify hdraw hprog
    have hacc := run_accounted hc hrun hdraw hprog
    constructor
    · intro r hr
      rcases hacc with ⟨r', hr', hdec⟩ | ⟨hnot, -⟩
      · have heq : r = r' := by
          rw [hr] at hr'
          cases hr'
          rfl
        subst heq
        obtain ⟨pre', ev, post', hsplit, hdec, hrest⟩ := hdec
        obtain ⟨pre, rest, rfl, hpre, hcons⟩ := List.filter_eq_append_iff.mp hsplit
        obtain ⟨mid, post, rfl, hmid, hwho, hpost⟩ := List.filter_eq_cons_iff.mp hcons
        refine ⟨pre ++ mid, ev, post, by simp, by simpa using hwho, hdec, ?_⟩
        intro x hx hxi
        refine hrest x ?_
        rw [← hpre, ← hpost]
        simp only [List.mem_append, List.mem_filter, decide_eq_true_eq] at hx ⊢
        rcases hx with (hx | hx) | hx
        · exact .inl ⟨hx, hxi⟩
        · exact absurd hxi (by simpa using hmid x hx)
        · exact .inr ⟨hx, hxi⟩
      · exact absurd hr (hnot r)
    · intro hnot x hx hxi
      rcases hacc with ⟨r, hr, -⟩ | ⟨-, hall⟩
      · exact absurd hr (hnot r)
      · exact hall x (List.mem_filter.mpr ⟨hx, by simpa using hxi⟩)
  · intro n key delta c d evs hc hrun hprog
    exact Storage.incrBy_run_sum hc hrun hprog

/-- A deterministic backend that stores the entries its tokens stand for, and never
fails otherwise. -/
def faultless (content : String → StoredValue) (tokenOf : StoredValue → String) :
    (op : KVOp) → Keyspace → Result op.Res × Keyspace
  | .load key, s => (.ok (s key : Option (StoredValue × String)), s)
  | .save key entry cond, s =>
      if content (tokenOf entry) = entry ∧ cond.Met (s key) then
        (.ok (), Function.update s key (some (entry, tokenOf entry)))
      else (.error .contention, s)
  | .delete key cond, s =>
      if cond.Met (s key) then (.ok (), Function.update s key none) else (.error .contention, s)
  | .listPage _ _, s => (.error .contention, s)
  | .walk, s => (.error .contention, s)
  | .countKeys, s => (.error .contention, s)
  | .flushAll, _ => (.ok (), fun _ => none)
  | .nowMs, s => (.ok (0 : Int), s)
  | .nanos, s => (.ok (0 : UInt64), s)

theorem faultless_service (content : String → StoredValue) (tokenOf : StoredValue → String)
    (op : KVOp) (s : Keyspace) :
    casService content s op (faultless content tokenOf op s).1
      (faultless content tokenOf op s).2 := by
  cases op with
  | load key => exact .load s key
  | save key entry cond =>
      simp only [faultless]
      split
      · rename_i h
        obtain ⟨hcontent, hmet⟩ := h
        have hsave : casService content s (.save key (content (tokenOf entry)) cond) (.ok ())
            (Function.update s key (some (content (tokenOf entry), tokenOf entry))) :=
          .save s key cond (tokenOf entry) hmet
        rw [hcontent] at hsave
        exact hsave
      · exact .fault s _ _ nofun
  | delete key cond =>
      simp only [faultless]
      split
      · rename_i hmet
        exact .delete s key cond hmet
      · exact .fault s _ _ nofun
  | listPage cursor maxKeys => exact .fault s _ _ nofun
  | walk => exact .fault s _ _ nofun
  | countKeys => exact .fault s _ _ nofun
  | flushAll => exact .flushAll s (fun _ => false) (.ok ())
  | nowMs => exact .nowMs s 0
  | nanos => exact .nanos s 0

/-! ## Two increments on one key -/

namespace TwoIncrements

/-- The three entries the two calls can store, each under its own text. -/
def content : String → StoredValue
  | "1" => ⟨none, .string [49]⟩
  | "2" => ⟨none, .string [50]⟩
  | _ => ⟨none, .string [51]⟩

def tokenOf (entry : StoredValue) : String :=
  if entry = content "1" then "1" else if entry = content "2" then "2" else "3"

/-- A backend with those tokens and without faults. -/
def serve : (op : KVOp) → Keyspace → Result op.Res × Keyspace := faultless content tokenOf

theorem serve_service (op : KVOp) (s : Keyspace) :
    casService content s op (serve op s).1 (serve op s).2 :=
  faultless_service content tokenOf op s

def deltas : Fin 2 → Int := ![1, 2]

def start : Pool KVOp KVOp.Res RustyAntError Keyspace (fun _ : Fin 2 => Int) :=
  ⟨fun _ => none, fun i => Storage.incrBy "k" (deltas i)⟩

/-- Both load, the first one's create wins, the second one loads again. -/
def schedule : List (Fin 2) := [0, 1, 0, 1, 1, 1]

end TwoIncrements

open TwoIncrements in
theorem cas_takes_effect_once_on_twoIncrements :
    ∃ evs d, Pool.Run (casService content) start evs d ∧
      (d.prog 0).returned = some 1 ∧ (d.prog 1).returned = some 3 ∧
      (∃ pre ev post, evs = pre ++ ev :: post ∧ ev.who = 1 ∧
        Decided (δ := Unit) "k" (fun _ _ => Storage.incrByModify "k" 2) 3 ev ∧
        ∀ x ∈ pre ++ post, x.who = 1 → Silent x) ∧
      Storage.counterVal (d.state.entryAt "k") =
        0 + ∑ i with (d.prog i).returned.isSome, deltas i := by
  obtain ⟨evs, hrun⟩ := Pool.exec_run serve_service schedule start
  have hc : start.state.Versioned content := nofun
  have hone : ((Pool.exec serve schedule start).prog 1).returned = some 3 := by decide
  have heffect := cas_takes_effect_once content start _ evs hc hrun
  refine ⟨evs, _, hrun, by decide, hone, ?_, ?_⟩
  · exact (heffect.1 1 Unit "k" (pure ()) (fun _ _ => Storage.incrByModify "k" 2) trivial rfl).1 3
      (Prog.returned_eq_some.mp hone)
  · exact heffect.2 2 "k" deltas start _ evs hc hrun fun _ => rfl

end RustyAnt
