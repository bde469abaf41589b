import RustyAnt.Storage.Contention

/-!
# The attempts of a finished call

What a `cas` call that has ended did, request by request: it loads the key, decides,
and carries the decision out with one conditional write; a write that is refused
with `Contention` starts the next attempt.
-/

namespace RustyAnt

open Lib

/-- The key a request names. -/
def KVOp.OnKey (key : String) : KVOp → Prop
  | .load key' => key' = key
  | .save key' _ _ => key' = key
  | .delete key' _ => key' = key
  | _ => False

instance (key : String) : (op : KVOp) → Decidable (op.OnKey key)
  | .load key' => inferInstanceAs (Decidable (key' = key))
  | .save key' _ _ => inferInstanceAs (Decidable (key' = key))
  | .delete key' _ => inferInstanceAs (Decidable (key' = key))
  | .listPage _ _ => .isFalse id
  | .walk => .isFalse id
  | .countKeys => .isFalse id
  | .flushAll => .isFalse id
  | .nowMs => .isFalse id
  | .nanos => .isFalse id

theorem KVOp.OnKey.unique {op : KVOp} {key key' : String} (h : op.OnKey key) (h' : op.OnKey key') :
    key = key' := by
  cases op with
  | load k => exact h.symm.trans h'
  | save k entry cond => exact h.symm.trans h'
  | delete k cond => exact h.symm.trans h'
  | _ => exact h.elim

section Attempts

variable {ι R : Type} {content : String → StoredValue} {key : String}
variable {modify : Option StoredValue → Result (CasAction R)}

/-- The write that carries out `action`. -/
def WriteOf (key : String) : CasAction R → KVOp → Prop
  | .write entry _, op => ∃ cond, op = .save key entry cond
  | .delete _, op => ∃ cond, op = .delete key cond
  | .noOp _, _ => False

/-- The reading an attempt starts with. -/
def reading (who : ι) (key : String) (s : Keyspace) : KVEvent ι :=
  ⟨who, .load key, .ok (s key), s, s⟩

/-- The events of a `cas` call that has ended with `r`. -/
inductive CasTrace (key : String) (modify : Option StoredValue → Result (CasAction R)) :
    List (KVEvent ι) → Result R → Prop
  | exhausted : CasTrace key modify [] (.error .contention)
  | unread (who : ι) (s : Keyspace) (e : RustyAntError) :
      CasTrace key modify [⟨who, .load key, .error e, s, s⟩] (.error e)
  | rejected (who : ι) (s : Keyspace) (e : RustyAntError)
      (hmodify : modify (s.entryAt key) = .error e) :
      CasTrace key modify [reading who key s] (.error e)
  | settled (who : ι) (s : Keyspace) (action : CasAction R)
      (hmodify : modify (s.entryAt key) = .ok action)
      (hkeeps : ∀ entry r, action ≠ .write entry r)
      (hsame : action.apply (s.entryAt key) = s.entryAt key) :
      CasTrace key modify [reading who key s] (.ok action.result)
  | committed (who : ι) (s : Keyspace) (action : CasAction R) (write : KVEvent ι)
      (hmodify : modify (s.entryAt key) = .ok action) (hop : WriteOf key action write.op)
      (hanswer : ∀ e, write.answer ≠ .error e)
      (hcarry : CarriesOut key (s.entryAt key) action write) :
      CasTrace key modify [reading who key s, write] (.ok action.result)
  | failed (who : ι) (s : Keyspace) (action : CasAction R) (write : KVEvent ι)
      (e : RustyAntError) (hmodify : modify (s.entryAt key) = .ok action)
      (hop : WriteOf key action write.op) (hsilent : Silent write)
      (hanswer : write.answer = .error e) :
      CasTrace key modify [reading who key s, write] (.error e)
  | retried (who : ι) (s : Keyspace) (action : CasAction R) (write : KVEvent ι)
      (evs : List (KVEvent ι)) (r : Result R) (hmodify : modify (s.entryAt key) = .ok action)
      (hop : WriteOf key action write.op) (hsilent : Silent write)
      (hanswer : write.answer = .error .contention) (hrest : CasTrace key modify evs r) :
      CasTrace key modify (reading who key s :: write :: evs) r

theorem WriteOf.onKey {action : CasAction R} {op : KVOp} (h : WriteOf key action op) :
    op.OnKey key := by
  cases action with
  | noOp r => exact h.elim
  | write entry r =>
      obtain ⟨cond, rfl⟩ := h
      rfl
  | delete r =>
      obtain ⟨cond, rfl⟩ := h
      rfl

theorem CasTrace.onKey {evs : List (KVEvent ι)} {r : Result R} (h : CasTrace key modify evs r) :
    ∀ ev ∈ evs, ev.op.OnKey key := by
  induction h with
  | exhausted => simp
  | unread who s e => exact List.forall_mem_singleton.mpr rfl
  | rejected who s e hmodify => exact List.forall_mem_singleton.mpr rfl
  | settled who s action hmodify hkeeps hsame => exact List.forall_mem_singleton.mpr rfl
  | committed who s action write hmodify hop hanswer hcarry =>
      rw [List.forall_mem_cons, List.forall_mem_singleton]
      exact ⟨rfl, hop.onKey⟩
  | failed who s action write e hmodify hop hsilent hanswer =>
      rw [List.forall_mem_cons, List.forall_mem_singleton]
      exact ⟨rfl, hop.onKey⟩
  | retried who s action write evs r hmodify hop hsilent hanswer hrest ih =>
      rw [List.forall_mem_cons, List.forall_mem_cons]
      exact ⟨rfl, hop.onKey, ih⟩

/-- A call that has returned took effect at its last event and nowhere else. -/
theorem CasTrace.last {evs : List (KVEvent ι)} {res : Result R} (h : CasTrace key modify evs res)
    {r : R} (hres : res = .ok r) :
    ∃ init ev action, evs = init ++ [ev] ∧ (∀ x ∈ init, Silent x) ∧ action.result = r ∧
      modify (ev.before.entryAt key) = .ok action ∧
      CarriesOut key (ev.before.entryAt key) action ev := by
  induction h with
  | exhausted => cases hres
  | unread who s e => cases hres
  | rejected who s e hmodify => cases hres
  | failed who s action write e hmodify hop hsilent hanswer => cases hres
  | settled who s action hmodify hkeeps hsame =>
      cases hres
      exact ⟨[], _, action, rfl, by simp, rfl, hmodify, rfl, hsame.symm, fun _ _ => rfl⟩
  | committed who s action write hmodify hop hanswer hcarry =>
      cases hres
      refine ⟨[reading who key s], write, action, rfl, ?_, rfl, ?_, ?_⟩
      · rw [List.forall_mem_singleton]
        rfl
      · rw [hcarry.1]
        exact hmodify
      · rw [hcarry.1]
        exact hcarry
  | retried who s action write evs r hmodify hop hsilent hanswer hrest ih =>
      obtain ⟨init, ev, action', rfl, hinit, hlast⟩ := ih hres
      refine ⟨reading who key s :: write :: init, ev, action', rfl, ?_, hlast⟩
      rw [List.forall_mem_cons, List.forall_mem_cons]
      exact ⟨rfl, hsilent, hinit⟩

theorem load_trace {β : Type} {k : Result (KVOp.load key).Res → KV β} {evs : List (KVEvent ι)}
    {r : Result β} (h : Pool.Follows (.call (.load key) k) evs (.done r))
    (hserved : ∀ ev ∈ evs, Served content ev) :
    ∃ who s rest, (evs = reading who key s :: rest ∧ Pool.Follows (k (.ok (s key))) rest (.done r)) ∨
      ∃ e, evs = ⟨who, .load key, .error e, s, s⟩ :: rest ∧
        Pool.Follows (k (.error e)) rest (.done r) := by
  rcases h.call_inv with ⟨-, hq⟩ | ⟨who, answer, before, after, rest, rfl, hrest⟩
  · cases hq
  have hload := hserved _ List.mem_cons_self
  have hsame : after = before := Silent.of_load hload rfl
  subst hsame
  cases answer with
  | error e => exact ⟨who, after, rest, .inr ⟨e, rfl, hrest⟩⟩
  | ok loaded =>
      have hkey : after key = loaded := by
        have hserve := hload.1
        dsimp only at hserve
        cases hserve
        rfl
      subst hkey
      exact ⟨who, after, rest, .inl ⟨rfl, hrest⟩⟩

theorem bind_trace {β γ : Type} {p : KV β} {f : β → KV γ} {evs : List (KVEvent ι)} {r : γ}
    (h : Pool.Follows (p.bind f) evs (.done (.ok r))) :
    ∃ evs₁ evs₂ b, evs = evs₁ ++ evs₂ ∧ Pool.Follows p evs₁ (.done (.ok b)) ∧
      Pool.Follows (f b) evs₂ (.done (.ok r)) := by
  rcases h.bind_inv with ⟨_, _, -, hq⟩ | ⟨evs₁, evs₂, out, rfl, hp, hrest⟩
  · cases hq
  · cases out with
    | error e =>
        obtain ⟨-, hq⟩ := Pool.Follows.done_inv hrest
        cases hq
    | ok b => exact ⟨evs₁, evs₂, b, rfl, hp, hrest⟩

/-- What a `loadEntry` that has returned read. -/
theorem loadEntry_trace {evs : List (KVEvent ι)} {entry : Option StoredValue}
    (h : Pool.Follows (KV.loadEntry key) evs (.done (.ok entry)))
    (hserved : ∀ ev ∈ evs, Served content ev) :
    ∃ who s, evs = [reading who key s] ∧ entry = s.entryAt key := by
  obtain ⟨who, s, rest, ⟨rfl, hrest⟩ | ⟨e, -, hrest⟩⟩ := load_trace h hserved
  · obtain ⟨rfl, hq⟩ := Pool.Follows.done_inv hrest
    cases hq
    exact ⟨who, s, rfl, rfl⟩
  · cases (Pool.Follows.done_inv hrest).2

theorem read_trace {α β : Type} {v : View α} {absent b : β} {f : α → β} {evs : List (KVEvent ι)}
    (h : Pool.Follows (v.read key absent f) evs (.done (.ok b)))
    (hserved : ∀ ev ∈ evs, Served content ev) :
    ∃ who s found, evs = [reading who key s] ∧ v.find key (s.entryAt key) = .ok found ∧
      b = found.elim absent fun p => f p.1 := by
  obtain ⟨evs₁, evs₂, entry, rfl, hload, hrest⟩ := bind_trace h
  rw [List.forall_mem_append] at hserved
  obtain ⟨who, s, rfl, rfl⟩ := loadEntry_trace hload hserved.1
  obtain ⟨evs₃, evs₄, found, rfl, hfind, hlast⟩ := bind_trace hrest
  obtain ⟨rfl, hfound⟩ := hfind.done_inv
  have hok : v.find key (s.entryAt key) = .ok found := (Prog.done.inj hfound).symm
  cases found with
  | none =>
      obtain ⟨rfl, hq⟩ := Pool.Follows.done_inv hlast
      cases hq
      exact ⟨who, s, none, rfl, hok, rfl⟩
  | some p =>
      obtain ⟨rfl, hq⟩ := Pool.Follows.done_inv hlast
      cases hq
      exact ⟨who, s, some p, rfl, hok, rfl⟩

/-- How `cas` goes on once a conditional write has been refused. -/
theorem settle_error (r : R) (e : RustyAntError) :
    (e = .contention ∧ settle r (.error e) = .done (.ok none)) ∨
      settle r (.error e) = .done (.error e) := by
  cases e with
  | contention => exact .inl ⟨rfl, rfl⟩
  | _ => exact .inr rfl

theorem casCommit_trace {loaded : Option (StoredValue × String)} (hloaded : Loaded content loaded)
    {action : CasAction R} {evs : List (KVEvent ι)} {res : Result (Option R)}
    (h : Pool.Follows (casCommit key loaded action) evs (.done res))
    (hserved : ∀ ev ∈ evs, Served content ev) :
    (evs = [] ∧ res = .ok (some action.result) ∧ (∀ entry r, action ≠ .write entry r) ∧
        action.apply (loaded.map Prod.fst) = loaded.map Prod.fst) ∨
      ∃ ev, evs = [ev] ∧ WriteOf key action ev.op ∧
        ((res = .ok (some action.result) ∧ (∀ e, ev.answer ≠ .error e) ∧
            CarriesOut key (loaded.map Prod.fst) action ev) ∨
          ∃ e, Silent ev ∧ ev.answer = .error e ∧
            ((e = .contention ∧ res = .ok none) ∨ res = .error e)) := by
  have hwrite : ∀ op (k : Result op.Res → KV (Option R)),
      casCommit key loaded action = .call op k → WriteOf key action op →
      (∀ answer, (∀ e, answer ≠ .error e) → k answer = .done (.ok (some action.result))) →
      (∀ e, (e = .contention ∧ k (.error e) = .done (.ok none)) ∨ k (.error e) = .done (.error e)) →
      op ≠ .flushAll → ∃ ev, evs = [ev] ∧ WriteOf key action ev.op ∧
        ((res = .ok (some action.result) ∧ (∀ e, ev.answer ≠ .error e) ∧
            CarriesOut key (loaded.map Prod.fst) action ev) ∨
          ∃ e, Silent ev ∧ ev.answer = .error e ∧
            ((e = .contention ∧ res = .ok none) ∨ res = .error e)) := by
    intro op k hcommit hop hok herror hflush
    have hcarried := casCommit_follows hloaded h hserved
    rw [hcommit] at h
    rcases h.call_inv with ⟨-, hq⟩ | ⟨who, answer, before, after, evs', rfl, hrest⟩
    · cases hq
    cases answer with
    | ok u =>
        rw [hok (.ok u) nofun] at hrest
        obtain ⟨rfl, hres⟩ := hrest.done_inv
        cases hres
        refine ⟨_, rfl, hop, .inl ⟨rfl, nofun, ?_⟩⟩
        rcases hcarried with ⟨-, hnil, -⟩ | ⟨-, ev, hev, hcarry⟩ | ⟨hnot, -⟩
        · cases hnil
        · cases hev
          exact hcarry
        · exact absurd rfl (hnot action.result)
    | error e =>
        have hsilent : Silent (⟨who, op, .error e, before, after⟩ : KVEvent ι) := by
          have hev := (hserved _ List.mem_cons_self).1
          dsimp only at hev
          cases hev with
          | fault => rfl
          | flushAll => exact absurd rfl hflush
        rcases herror e with ⟨hcontention, hk⟩ | hk
        · rw [hk] at hrest
          obtain ⟨rfl, hres⟩ := hrest.done_inv
          cases hres
          exact ⟨_, rfl, hop, .inr ⟨e, hsilent, rfl, .inl ⟨hcontention, rfl⟩⟩⟩
        · rw [hk] at hrest
          obtain ⟨rfl, hres⟩ := hrest.done_inv
          cases hres
          exact ⟨_, rfl, hop, .inr ⟨e, hsilent, rfl, .inr rfl⟩⟩
  have hsettled : ∀ answer : Result Unit, (∀ e, answer ≠ .error e) →
      settle action.result answer = .done (.ok (some action.result)) := by
    intro answer hanswer
    cases answer with
    | ok u => rfl
    | error e => exact absurd rfl (hanswer e)
  cases action with
  | noOp r =>
      obtain ⟨rfl, hres⟩ := h.done_inv
      cases hres
      exact .inl ⟨rfl, rfl, nofun, rfl⟩
  | delete r =>
      cases loaded with
      | none =>
          obtain ⟨rfl, hres⟩ := h.done_inv
          cases hres
          exact .inl ⟨rfl, rfl, nofun, rfl⟩
      | some p =>
          exact .inr (hwrite _ _ (orContention_delete r key (.ifMatch p.2)) ⟨_, rfl⟩ hsettled
            (settle_error r) nofun)
  | write entry r =>
      cases loaded with
      | none =>
          exact .inr (hwrite _ _ (orContention_save r key entry .createOnly) ⟨_, rfl⟩ hsettled
            (settle_error r) nofun)
      | some p =>
          exact .inr (hwrite _ _ (orContention_save r key entry (.ifMatch p.2)) ⟨_, rfl⟩ hsettled
            (settle_error r) nofun)

/-- The attempts of `cas`, by induction on how many are left. -/
theorem casFrom_trace (left : Nat) (seen : List (Unit × Option StoredValue))
    {evs : List (KVEvent ι)} {r : Result R}
    (h : Pool.Follows (casFrom key (pure ()) (fun _ _ => modify) left seen) evs (.done r))
    (hserved : ∀ ev ∈ evs, Served content ev) : CasTrace key modify evs r := by
  induction left generalizing seen evs with
  | zero =>
      obtain ⟨rfl, hr⟩ := h.done_inv
      cases hr
      exact .exhausted
  | succ left ih =>
      rcases Pool.Follows.call_inv h with ⟨-, hq⟩ | ⟨who, answer, before, after, evs, rfl, hrest⟩
      · cases hq
      rw [List.forall_mem_cons] at hserved
      obtain ⟨hload, hserved⟩ := hserved
      have hsame : after = before := Silent.of_load hload rfl
      subst hsame
      cases answer with
      | error e =>
          obtain ⟨rfl, hr⟩ := Pool.Follows.done_inv hrest
          cases hr
          exact .unread who after e
      | ok loaded =>
          have hkey : after key = loaded := by
            have hserve := hload.1
            dsimp only at hserve
            cases hserve
            rfl
          subst hkey
          have hdecide : Pool.Follows ((Prog.done (modify (after.entryAt key)) :
              KV (CasAction R)).bind fun action => (casCommit key (after key) action).bind _)
              evs (.done r) := hrest
          cases hmodify : modify (after.entryAt key) with
          | error e =>
              rw [hmodify] at hdecide
              obtain ⟨rfl, hr⟩ := Pool.Follows.done_inv hdecide
              cases hr
              exact .rejected who after e hmodify
          | ok action =>
              rw [hmodify, Prog.done_ok_bind] at hdecide
              have hloaded : Loaded content (after key) := fun e token heq => hload.2 key e token heq
              rcases hdecide.bind_inv with ⟨_, _, -, hq⟩ | ⟨evs₁, evs₂, res, rfl, hcommit, hnext⟩
              · cases hq
              rw [List.forall_mem_append] at hserved
              rcases casCommit_trace hloaded hcommit hserved.1 with
                ⟨rfl, rfl, hkeeps, hunchanged⟩ | ⟨write, rfl, hop, ⟨rfl, hanswer, hcarry⟩ |
                  ⟨e, hsilent, hanswer, ⟨rfl, rfl⟩ | rfl⟩⟩
              · obtain ⟨rfl, hr⟩ := Pool.Follows.done_inv hnext
                cases hr
                exact .settled who after action hmodify hkeeps hunchanged
              · obtain ⟨rfl, hr⟩ := Pool.Follows.done_inv hnext
                cases hr
                exact .committed who after action write hmodify hop hanswer hcarry
              · exact .retried who after action write evs₂ r hmodify hop hsilent hanswer
                  (ih _ hnext hserved.2)
              · obtain ⟨rfl, hr⟩ := Pool.Follows.done_inv hnext
                cases hr
                exact .failed who after action write e hmodify hop hsilent hanswer

theorem cas_trace {evs : List (KVEvent ι)} {r : Result R}
    (h : Pool.Follows (cas key modify) evs (.done r)) (hserved : ∀ ev ∈ evs, Served content ev) :
    CasTrace key modify evs r :=
  casFrom_trace maxCasRetries [] h hserved

end Attempts

end RustyAnt
