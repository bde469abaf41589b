import RustyAnt.Lib.Serial
import RustyAnt.Storage.Contention
import RustyAnt.Storage.Methods

/-!
# Methods that take effect in one step

A method that reads its key once, or that goes through `cas`, takes effect at one of its
requests.  Any number of such calls, interleaved request by request, come to the same as calls
made one after the other.
-/

namespace RustyAnt

open Lib

/-- A backend whose loads, writes and clocks take effect at once: a load answers with what is
stored, a write that goes through has met its condition, one that fails has no effect, and the
clocks answer as they do whatever is stored.  Its tokens determine the entries. -/
structure Steadfast (content : String → StoredValue)
    (service : Service KVOp KVOp.Res RustyAntError Keyspace) : Prop where
  load : ∀ key s, service s (.load key) (.ok (s key : Option (StoredValue × String))) s
  loaded : ∀ {key s t} {answer : Result (KVOp.load key).Res}, service s (.load key) answer t →
    t = s ∧ ∀ loaded, answer = .ok loaded → s key = loaded
  clock : ∀ {op s t} {answer : Result op.Res}, op = .nowMs ∨ op = .nanos →
    service s op answer t → t = s ∧ ∀ u, service u op answer u
  saved : ∀ {key entry cond s t} {answer : Result Unit}, service s (.save key entry cond) answer t →
    (∀ u, answer = .ok u → cond.Met (s key)) ∧ ∀ e, answer = .error e → t = s
  deleted : ∀ {key cond s t} {answer : Result Unit}, service s (.delete key cond) answer t →
    (∀ u, answer = .ok u → cond.Met (s key)) ∧ ∀ e, answer = .error e → t = s
  versioned : ∀ {op s t} {answer : Result op.Res}, s.Versioned content →
    service s op answer t → t.Versioned content

section Programs

variable {ι β δ R : Type} {content : String → StoredValue} {key : String}
variable {service : Service KVOp KVOp.Res RustyAntError Keyspace}
variable {evs : List (KVEvent ι)} {s t : Keyspace}

/-- The event is an answer of the backend to a keyspace whose tokens determine the entries. -/
def Sound (content : String → StoredValue)
    (service : Service KVOp KVOp.Res RustyAntError Keyspace) (ev : KVEvent ι) : Prop :=
  service ev.before ev.op ev.answer ev.after ∧ ev.before.Versioned content

/-! ## The clocks -/

theorem still_of_clock {p q : KV β} (hservice : Steadfast content service) (hclock : ReadsClock p)
    (h : Pool.Follows p evs q) (hsound : ∀ ev ∈ evs, Sound content service ev) :
    ∀ ev ∈ evs, ev.Still := fun ev hev =>
  (hservice.clock (h.obeys hclock (fun _ _ => trivial) ev hev) (hsound ev hev).1).1

/-- A program that reads clocks only may have read them at any state. -/
theorem clock_alone {p : KV β} (hservice : Steadfast content service) (hclock : ReadsClock p)
    {r : Result β} (h : Pool.Follows p evs (.done r))
    (hsound : ∀ ev ∈ evs, Sound content service ev) (who : ι) (t : Keyspace) :
    ∃ block, Pool.Alone service who p t block (.done r) t := by
  generalize hq : (.done r : KV β) = q at h
  induction h with
  | nil p => exact ⟨[], .nil who p t⟩
  | @cons _ op k answer before after evs q hk ih =>
      rw [List.forall_mem_cons] at hsound
      obtain ⟨block, hblock⟩ := ih (hclock.2 answer trivial) hsound.2 hq
      exact ⟨_, .cons ((hservice.clock hclock.1 hsound.1.1).2 t) hblock⟩

/-! ## Reading once -/

/-- The program loads its key and asks nothing of the backend afterwards. -/
def ReadsOnce (key : String) (p : KV β) : Prop :=
  ∃ k, p = .call (.load key) k ∧ (∀ e, k (.error e) = .done (.error e)) ∧
    ∀ loaded, ReadsClock (k (.ok loaded))

theorem ReadsOnce.of_entry {f : Option StoredValue → KV β} (h : ∀ entry, ReadsClock (f entry)) :
    ReadsOnce key ((KV.loadEntry key).bind f) :=
  ⟨_, rfl, fun _ => rfl, fun loaded => h (loaded.map Prod.fst)⟩

theorem ReadsOnce.read {α : Type} (v : View α) (absent : β) (f : α → β) :
    ReadsOnce key (v.read key absent f) := by
  refine .of_entry fun entry => .bind (Prog.Requests.done _) fun found => ?_
  cases found with
  | none => exact Prog.Requests.done _
  | some p => exact Prog.Requests.done _

theorem ReadsOnce.readRand {α : Type} (v : View α) (absent : β) (f : α → UInt64 → β) :
    ReadsOnce key (v.readRand key absent f) := by
  refine .of_entry fun entry => .bind (Prog.Requests.done _) fun found => ?_
  cases found with
  | none => exact Prog.Requests.done _
  | some p => exact .bind (.perform (.inr rfl)) fun _ => Prog.Requests.done _

theorem ReadsOnce.inOne {p q : KV β} (hservice : Steadfast content service) (hp : ReadsOnce key p)
    (h : Pool.Follows p evs q) (hsound : ∀ ev ∈ evs, Sound content service ev) :
    Pool.InOne service p evs q := by
  obtain ⟨k, rfl, herror, hclock⟩ := hp
  rcases h.call_inv with ⟨rfl, rfl⟩ | ⟨who, answer, before, after, rest, rfl, hrest⟩
  · exact .failed (by simp) nofun
  rw [List.forall_mem_cons] at hsound
  obtain ⟨hafter, hloaded⟩ := hservice.loaded hsound.1.1
  dsimp only at hafter hloaded
  subst hafter
  cases answer with
  | error e =>
      rw [herror e] at hrest
      obtain ⟨rfl, rfl⟩ := hrest.done_inv
      refine .failed (List.forall_mem_singleton.mpr rfl) ?_
      rintro r ⟨⟩
      exact ⟨e, rfl, _, List.mem_singleton_self _, rfl⟩
  | ok loaded =>
      have hstill := still_of_clock hservice (hclock loaded) hrest hsound.2
      cases q with
      | call op k' =>
          exact .failed (List.forall_mem_cons.mpr ⟨rfl, hstill⟩) nofun
      | done r =>
          obtain ⟨block, hblock⟩ := clock_alone hservice (hclock loaded) hrest hsound.2 who after
          obtain rfl := hloaded loaded rfl
          exact .effect r rfl [] _ rest rfl hstill _ (.cons (hservice.load key after) hblock)

/-! ## Going through `cas` -/

/-- A write under the condition that the key holds what was loaded. -/
inductive WritesOver (key : String) (loaded : Option (StoredValue × String)) : KVOp → Prop
  | create (entry : StoredValue) (h : loaded = none) :
      WritesOver key loaded (.save key entry .createOnly)
  | overwrite (entry : StoredValue) (p : StoredValue × String) (h : loaded = some p) :
      WritesOver key loaded (.save key entry (.ifMatch p.2))
  | delete (p : StoredValue × String) (h : loaded = some p) :
      WritesOver key loaded (.delete key (.ifMatch p.2))

theorem token_loaded {p : StoredValue × String} (hs : s.Versioned content)
    (hloaded : Loaded content (some p)) (hmet : ∃ e, s key = some (e, p.2)) : s key = some p := by
  obtain ⟨e, he⟩ := hmet
  rw [he, ← hs key e p.2 he, hloaded p.1 p.2 rfl]

theorem WritesOver.answered (hservice : Steadfast content service)
    {loaded : Option (StoredValue × String)} {op : KVOp} (hop : WritesOver key loaded op)
    (hloaded : Loaded content loaded) (hs : s.Versioned content) {answer : Result op.Res}
    (h : service s op answer t) :
    (∀ u, answer = .ok u → s key = loaded) ∧ ∀ e, answer = .error e → t = s := by
  cases hop with
  | create entry hnone =>
      obtain ⟨hmet, hfailed⟩ := hservice.saved h
      exact ⟨fun u hu => (hmet u hu).trans hnone.symm, hfailed⟩
  | overwrite entry p hsome =>
      obtain ⟨hmet, hfailed⟩ := hservice.saved h
      subst hsome
      exact ⟨fun u hu => token_loaded hs hloaded (hmet u hu), hfailed⟩
  | delete p hsome =>
      obtain ⟨hmet, hfailed⟩ := hservice.deleted h
      subst hsome
      exact ⟨fun u hu => token_loaded hs hloaded (hmet u hu), hfailed⟩

theorem settle_ok (r : R) (u : Unit) : settle r (.ok u) = .done (.ok (some r)) := rfl

theorem settle_failed (r : R) (e : RustyAntError) :
    (e = .contention ∧ settle r (.error e) = .done (.ok none)) ∨
      settle r (.error e) = .done (.error e) := by
  cases e with
  | contention => exact .inl ⟨rfl, rfl⟩
  | _ => exact .inr rfl

theorem commit_shape (loaded : Option (StoredValue × String)) (action : CasAction R) :
    casCommit key loaded action = .done (.ok (some action.result)) ∨
      ∃ op k, casCommit key loaded action = .call op k ∧ WritesOver key loaded op ∧
        (∀ u, k (.ok u) = .done (.ok (some action.result))) ∧
        ∀ e, (e = .contention ∧ k (.error e) = .done (.ok none)) ∨
          k (.error e) = .done (.error e) := by
  cases action with
  | noOp r => exact .inl rfl
  | delete r =>
      cases loaded with
      | none => exact .inl rfl
      | some p =>
          exact .inr ⟨_, _, orContention_delete r key _, .delete p rfl, settle_ok r, settle_failed r⟩
  | write entry r =>
      cases loaded with
      | none =>
          exact .inr ⟨_, _, orContention_save r key entry _, .create entry rfl, settle_ok r,
            settle_failed r⟩
      | some p =>
          exact .inr ⟨_, _, orContention_save r key entry _, .overwrite entry p rfl, settle_ok r,
            settle_failed r⟩

/-- What has come of a commit. -/
inductive Committed (key : String) (loaded : Option (StoredValue × String)) (r : R) :
    List (KVEvent ι) → KV (Option R) → Prop
  | pending (op : KVOp) (k : Result op.Res → KV (Option R)) : Committed key loaded r [] (.call op k)
  | nothing : Committed key loaded r [] (.done (.ok (some r)))
  | written (ev : KVEvent ι) (h : ev.before key = loaded) :
      Committed key loaded r [ev] (.done (.ok (some r)))
  | refused (ev : KVEvent ι) (hstill : ev.Still) (h : ev.answer = .error .contention) :
      Committed key loaded r [ev] (.done (.ok none))
  | failed (ev : KVEvent ι) (e : RustyAntError) (hstill : ev.Still) (h : ev.answer = .error e) :
      Committed key loaded r [ev] (.done (.error e))

theorem commit_follows (hservice : Steadfast content service)
    {loaded : Option (StoredValue × String)} (hloaded : Loaded content loaded)
    {action : CasAction R} {q : KV (Option R)} (h : Pool.Follows (casCommit key loaded action) evs q)
    (hsound : ∀ ev ∈ evs, Sound content service ev) : Committed key loaded action.result evs q := by
  rcases commit_shape loaded action with hshape | ⟨op, k, hshape, hop, hok, herror⟩
  · rw [hshape] at h
    obtain ⟨rfl, rfl⟩ := h.done_inv
    exact .nothing
  · rw [hshape] at h
    rcases h.call_inv with ⟨rfl, rfl⟩ | ⟨who, answer, before, after, rest, rfl, hk⟩
    · exact .pending op k
    obtain ⟨hserve, hversioned⟩ := hsound _ List.mem_cons_self
    obtain ⟨hsame, hstill⟩ := hop.answered hservice hloaded hversioned hserve
    cases answer with
    | ok u =>
        rw [hok u] at hk
        obtain ⟨rfl, rfl⟩ := hk.done_inv
        exact .written _ (hsame u rfl)
    | error e =>
        rcases herror e with ⟨rfl, hnone⟩ | hfail
        · rw [hnone] at hk
          obtain ⟨rfl, rfl⟩ := hk.done_inv
          exact .refused _ (hstill _ rfl) rfl
        · rw [hfail] at hk
          obtain ⟨rfl, rfl⟩ := hk.done_inv
          exact .failed _ e (hstill e rfl) rfl

section Cas

variable {draw : KV δ} {modify : δ → Option StoredValue → Result (CasAction R)}

/-- An attempt of `cas` from its load on; `retry` is what it does about a refused write. -/
def attemptOf (key : String) (draw : KV δ) (modify : δ → Option StoredValue → Result (CasAction R))
    (retry : δ → KV R) (loaded : Option (StoredValue × String)) : KV R :=
  draw.bind fun d => (Prog.ofExcept (modify d (loaded.map Prod.fst))).bind fun action =>
    (casCommit key loaded action).bind fun res => res.elim (retry d) fun r => .done (.ok r)

theorem casFrom_succ (left : Nat) (seen : List (δ × Option StoredValue)) :
    casFrom key draw (fun _ => modify) (left + 1) seen =
      .call (.load key) fun answer => (Prog.done answer).bind fun loaded =>
        attemptOf key draw modify (fun d => casFrom key draw (fun _ => modify) left
          (seen ++ [(d, loaded.map Prod.fst)])) loaded := by
  rw [casFrom]
  refine congrArg (Prog.call _) (funext fun answer => ?_)
  cases answer with
  | error e => rfl
  | ok loaded =>
      refine congrArg (Prog.bind draw) (funext fun d => congrArg _ (funext fun action => ?_))
      refine congrArg (Prog.bind (casCommit key loaded action)) (funext fun res => ?_)
      cases res <;> rfl

/-- What has come of an attempt on `loaded`. -/
inductive Attempted (service : Service KVOp KVOp.Res RustyAntError Keyspace) (key : String) (draw : KV δ)
    (modify : δ → Option StoredValue → Result (CasAction R))
    (loaded : Option (StoredValue × String)) (retry : δ → KV R) (evs : List (KVEvent ι))
    (q : KV R) : Prop
  | unchanged (hstill : ∀ ev ∈ evs, ev.Still)
      (hq : ∀ r, q = .done r → ∃ e, r = .error e ∧ ∃ ev ∈ evs, ev.answer = .error e)
  | settled (r : Result R) (hq : q = .done r) (hstill : ∀ ev ∈ evs, ev.Still)
      (halone : ∀ (retry : δ → KV R) (who : ι) (s : Keyspace), ∃ block,
        Pool.Alone service who (attemptOf key draw modify retry loaded) s block
          (.done r) s)
  | written (r : R) (hq : q = .done (.ok r)) (pre : List (KVEvent ι)) (ev : KVEvent ι)
      (hevs : evs = pre ++ [ev]) (hstill : ∀ x ∈ pre, x.Still) (hkey : ev.before key = loaded)
      (halone : ∀ retry : δ → KV R, ∃ block,
        Pool.Alone service ev.who (attemptOf key draw modify retry loaded) ev.before
          block (.done (.ok r)) ev.after)
  | retried (d : δ) (pre rest : List (KVEvent ι)) (hevs : evs = pre ++ rest)
      (hstill : ∀ x ∈ pre, x.Still) (hrefused : ∃ ev ∈ pre, ev.answer = .error .contention)
      (hrest : Pool.Follows (retry d) rest q)

theorem attempt_alone {who : ι} {loaded : Option (StoredValue × String)} {d : δ}
    {action : CasAction R} {draws writes : List (KVEvent ι)} {r : R} (retry : δ → KV R)
    (hdraw : Pool.Alone service who draw s draws (.done (.ok d)) s)
    (hmodify : modify d (loaded.map Prod.fst) = .ok action)
    (hcommit : Pool.Alone service who (casCommit key loaded action) s writes
      (.done (.ok (some r))) t) :
    Pool.Alone service who (attemptOf key draw modify retry loaded) s
      (draws ++ (writes ++ [])) (.done (.ok r)) t := by
  refine hdraw.bind ?_
  rw [Prog.done_ok_bind, hmodify]
  exact hcommit.bind (.nil who _ t)

theorem attempt_follows (hservice : Steadfast content service) (hclock : ReadsClock draw) {loaded : Option (StoredValue × String)}
    (hloaded : Loaded content loaded) {retry : δ → KV R} {q : KV R}
    (h : Pool.Follows (attemptOf key draw modify retry loaded) evs q)
    (hsound : ∀ ev ∈ evs, Sound content service ev) :
    Attempted service key draw modify loaded retry evs q := by
  rcases h.bind_inv with ⟨op, k, hdraw, rfl⟩ | ⟨draws, rest, dr, rfl, hdraw, hrest⟩
  · exact .unchanged (still_of_clock hservice hclock hdraw hsound) nofun
  rw [List.forall_mem_append] at hsound
  have hdraws := still_of_clock hservice hclock hdraw hsound.1
  have hreplay := clock_alone hservice hclock hdraw hsound.1
  cases dr with
  | error e =>
      obtain ⟨rfl, rfl⟩ := hrest.done_inv
      refine .settled (.error e) rfl (by simpa using hdraws) fun retry' who s => ?_
      obtain ⟨block, hblock⟩ := hreplay who s
      exact ⟨_, hblock.bind (.nil who _ s)⟩
  | ok d =>
      rw [Prog.done_ok_bind] at hrest
      cases hmodify : modify d (loaded.map Prod.fst) with
      | error e =>
          rw [hmodify] at hrest
          obtain ⟨rfl, rfl⟩ := hrest.done_inv
          refine .settled (.error e) rfl (by simpa using hdraws) fun retry' who s => ?_
          obtain ⟨block, hblock⟩ := hreplay who s
          have hend : Pool.Alone service who ((Prog.done (.ok d)).bind fun d =>
              (Prog.ofExcept (modify d (loaded.map Prod.fst))).bind fun action =>
                (casCommit key loaded action).bind fun res =>
                  res.elim (retry' d) fun r => .done (.ok r)) s [] (.done (.error e)) s := by
            rw [Prog.done_ok_bind, hmodify]
            exact .nil who _ s
          exact ⟨_, hblock.bind hend⟩
      | ok action =>
          rw [hmodify] at hrest
          have hrest : Pool.Follows ((casCommit key loaded action).bind fun res =>
            res.elim (retry d) fun r => .done (.ok r)) rest q := hrest
          rcases hrest.bind_inv with
            ⟨op, k, hcommit, rfl⟩ | ⟨writes, later, res, rfl, hcommit, hlater⟩
          · cases commit_follows hservice hloaded hcommit hsound.2 with
            | pending _ _ => exact .unchanged (by simpa using hdraws) nofun
          rw [List.forall_mem_append] at hsound
          have hcommitted := commit_follows hservice hloaded hcommit hsound.2.1
          generalize hend : (.done res : KV (Option R)) = out at hcommitted
          cases hcommitted with
          | pending _ _ => cases hend
          | nothing =>
              cases hend
              obtain ⟨rfl, rfl⟩ := hlater.done_inv
              refine .settled _ rfl (by simpa using hdraws) fun retry' who s => ?_
              obtain ⟨block, hblock⟩ := hreplay who s
              exact ⟨_, attempt_alone retry' hblock hmodify ⟨hcommit, rfl, by simp, by simp⟩⟩
          | written ev hkey =>
              cases hend
              obtain ⟨rfl, rfl⟩ := hlater.done_inv
              refine .written _ rfl draws ev (by simp) hdraws hkey fun retry' => ?_
              obtain ⟨block, hblock⟩ := hreplay ev.who ev.before
              refine ⟨_, attempt_alone retry' hblock hmodify ⟨hcommit, .single ev, ?_, by simp⟩⟩
              exact fun x hx => (hsound.2.1 x hx).1
          | refused ev hstill hanswer =>
              cases hend
              refine .retried d (draws ++ [ev]) later (by simp) ?_ ⟨ev, by simp, hanswer⟩ hlater
              exact List.forall_mem_append.mpr ⟨hdraws, List.forall_mem_singleton.mpr hstill⟩
          | failed ev e hstill hanswer =>
              cases hend
              obtain ⟨rfl, rfl⟩ := hlater.done_inv
              refine .unchanged ?_ ?_
              · rw [List.append_nil]
                exact List.forall_mem_append.mpr ⟨hdraws, List.forall_mem_singleton.mpr hstill⟩
              · rintro r ⟨⟩
                exact ⟨e, rfl, ev, by simp, hanswer⟩

/-- The attempts that are left, behind those that were refused.  A call that runs alone makes
one attempt, whichever one it is that has gone through here. -/
theorem casFrom_inOne (hservice : Steadfast content service) (hclock : ReadsClock draw) (left : Nat)
    (seen : List (δ × Option StoredValue))
    (pre : List (KVEvent ι)) {q : KV R}
    (h : Pool.Follows (casFrom key draw (fun _ => modify) left seen) evs q)
    (hsound : ∀ ev ∈ evs, Sound content service ev) (hpre : ∀ ev ∈ pre, ev.Still)
    (hrefused : left = 0 → ∃ ev ∈ pre, ev.answer = .error .contention) (n : Nat)
    (start : List (δ × Option StoredValue)) :
    Pool.InOne service (casFrom key draw (fun _ => modify) (n + 1) start) (pre ++ evs) q := by
  induction left generalizing seen evs pre with
  | zero =>
      obtain ⟨rfl, rfl⟩ := h.done_inv
      obtain ⟨ev, hev, hanswer⟩ := hrefused rfl
      rw [List.append_nil]
      refine .failed hpre ?_
      rintro r ⟨⟩
      exact ⟨.contention, rfl, ev, hev, hanswer⟩
  | succ left ih =>
      rw [casFrom_succ] at h
      rcases h.call_inv with ⟨rfl, rfl⟩ | ⟨who, answer, before, after, rest, rfl, hrest⟩
      · exact .failed (by simpa using hpre) nofun
      rw [List.forall_mem_cons] at hsound
      obtain ⟨hafter, hanswer⟩ := hservice.loaded hsound.1.1
      dsimp only at hafter hanswer
      subst hafter
      have hload : (⟨who, .load key, answer, after, after⟩ : KVEvent ι).Still := rfl
      have hbefore : ∀ evs : List (KVEvent ι), (∀ ev ∈ evs, ev.Still) →
          ∀ ev ∈ pre ++ ⟨who, .load key, answer, after, after⟩ :: evs, ev.Still := fun evs hevs =>
        List.forall_mem_append.mpr ⟨hpre, List.forall_mem_cons.mpr ⟨hload, hevs⟩⟩
      cases answer with
      | error e =>
          obtain ⟨rfl, rfl⟩ := hrest.done_inv
          refine .failed (hbefore [] (by simp)) ?_
          rintro r ⟨⟩
          exact ⟨e, rfl, _, List.mem_append_right _ (List.mem_singleton_self _), rfl⟩
      | ok loaded =>
          obtain rfl := hanswer loaded rfl
          have hloaded : Loaded content (after key) := fun e token => hsound.1.2 key e token
          have hrest : Pool.Follows (attemptOf key draw modify (fun d =>
            casFrom key draw (fun _ => modify) left (seen ++ [(d, (after key).map Prod.fst)]))
              (after key)) rest q := hrest
          have halways : ∀ {who : ι} {s t : Keyspace} {block : List (KVEvent ι)} {r : Result R},
              s key = after key →
              Pool.Alone service who (attemptOf key draw modify (fun d =>
                casFrom key draw (fun _ => modify) n (start ++ [(d, (after key).map Prod.fst)]))
                  (after key)) s block (.done r) t →
              Pool.Alone service who (casFrom key draw (fun _ => modify) (n + 1) start)
                s (⟨who, .load key, .ok (s key), s, s⟩ :: block) (.done r) t := by
            intro who s t block r hkey hblock
            rw [casFrom_succ]
            refine .cons (hservice.load key s) ?_
            rw [hkey]
            exact hblock
          cases attempt_follows hservice hclock hloaded hrest hsound.2 with
          | unchanged hstill hq =>
              refine .failed (hbefore rest hstill) fun r hr => ?_
              obtain ⟨e, he, ev, hev, hfault⟩ := hq r hr
              exact ⟨e, he, ev, by simp [hev], hfault⟩
          | settled r hq hstill halone =>
              obtain ⟨block, hblock⟩ := halone _ who after
              exact .effect r hq pre _ rest rfl (List.forall_mem_append.mpr ⟨hpre, hstill⟩) _
                (halways rfl hblock)
          | written r hq draws ev hevs hstill hkey halone =>
              subst hevs
              obtain ⟨block, hblock⟩ := halone _
              refine .effect (.ok r) hq (pre ++ ⟨who, .load key, .ok (after key), after, after⟩ :: draws)
                ev [] (by simp) ?_ _ (halways hkey hblock)
              rw [List.append_nil]
              exact hbefore draws hstill
          | retried d refused later hevs hstill hcontention hlater =>
              subst hevs
              rw [List.forall_mem_append] at hsound
              rw [← List.cons_append, ← List.append_assoc]
              refine ih _ _ hlater hsound.2.2 (hbefore refused hstill) fun _ => ?_
              obtain ⟨ev, hev, hanswer⟩ := hcontention
              exact ⟨ev, by simp [hev], hanswer⟩

theorem casWith_inOne (hservice : Steadfast content service) (hclock : ReadsClock draw) {q : KV R}
    (h : Pool.Follows (casWith key draw modify) evs q) (hsound : ∀ ev ∈ evs, Sound content service ev) :
    Pool.InOne service (casWith key draw modify) evs q :=
  casFrom_inOne hservice hclock maxCasRetries [] [] h hsound (by simp) nofun 4 []

end Cas

/-! ## The other shapes -/

theorem save_inOne {entry : StoredValue} {q : KV Unit}
    (h : Pool.Follows (KV.save key entry .any) evs q) (hsound : ∀ ev ∈ evs, Sound content service ev) :
    Pool.InOne service (KV.save key entry .any) evs q := by
  rcases Pool.Follows.call_inv h with ⟨rfl, rfl⟩ | ⟨who, answer, before, after, rest, rfl, hrest⟩
  · exact .failed (by simp) nofun
  obtain ⟨rfl, rfl⟩ := hrest.done_inv
  have hserve := (hsound _ List.mem_cons_self).1
  exact .effect answer rfl [] _ [] rfl (by simp) _ (.cons hserve (.nil who _ after))

/-- What `set_string_nx` does with the answer to its create. -/
def created : Result Unit → KV Bool
  | .ok () => .done (.ok true)
  | .error .contention => .done (.ok false)
  | .error e => .done (.error e)

theorem setStringNx_eq (value : Bytes) (exp : Option Int) :
    Storage.setStringNx key value exp = .call (.load key) fun answer =>
      (Prog.done answer).bind fun _ => .call (.save key ⟨exp, .string value⟩ .createOnly) created := by
  refine congrArg (Prog.call _) (funext fun answer => ?_)
  cases answer with
  | error e => rfl
  | ok loaded =>
      refine congrArg (Prog.call _) (funext fun saved => ?_)
      cases saved with
      | ok u => rfl
      | error e => cases e <;> rfl

theorem created_done (answer : Result Unit) :
    (∃ b, created answer = .done (.ok b) ∧ ∀ e, answer = .error e → e = .contention) ∨
      ∃ e, answer = .error e ∧ created answer = .done (.error e) := by
  cases answer with
  | ok u => exact .inl ⟨true, rfl, nofun⟩
  | error e =>
      by_cases he : e = .contention
      · subst he
        exact .inl ⟨false, rfl, fun e h => (Except.error.inj h).symm⟩
      · exact .inr ⟨e, rfl, by cases e <;> first | rfl | exact absurd rfl he⟩

/-- A create is decided by its write, which is refused only where the key is there. -/
theorem setStringNx_inOne (hservice : Steadfast content service) {value : Bytes} {exp : Option Int} {q : KV Bool}
    (h : Pool.Follows (Storage.setStringNx key value exp) evs q)
    (hsound : ∀ ev ∈ evs, Sound content service ev) :
    Pool.InOne service (Storage.setStringNx key value exp) evs q := by
  rw [setStringNx_eq] at h ⊢
  rcases h.call_inv with ⟨rfl, rfl⟩ | ⟨who, answer, before, after, rest, rfl, hrest⟩
  · exact .failed (by simp) nofun
  rw [List.forall_mem_cons] at hsound
  obtain ⟨hafter, -⟩ := hservice.loaded hsound.1.1
  dsimp only at hafter
  subst hafter
  cases answer with
  | error e =>
      obtain ⟨rfl, rfl⟩ := hrest.done_inv
      refine .failed (List.forall_mem_singleton.mpr rfl) ?_
      rintro r ⟨⟩
      exact ⟨e, rfl, _, List.mem_singleton_self _, rfl⟩
  | ok loaded =>
      rcases Pool.Follows.call_inv hrest with
        ⟨rfl, rfl⟩ | ⟨who', saved, before', after', last, rfl, hlast⟩
      · exact .failed (List.forall_mem_singleton.mpr rfl) nofun
      obtain ⟨hserve, hversioned⟩ := hsound.2 _ List.mem_cons_self
      dsimp only at hserve hversioned
      rcases created_done saved with ⟨b, hb, hrefused⟩ | ⟨e, rfl, he⟩
      · rw [hb] at hlast
        obtain ⟨rfl, rfl⟩ := hlast.done_inv
        have hwrite : Pool.Alone service who'
            (.call (.save key ⟨exp, .string value⟩ .createOnly) created) before'
            [⟨who', .save key ⟨exp, .string value⟩ .createOnly, saved, before', after'⟩]
            (.done (.ok b)) after' := by
          refine .cons hserve ?_
          rw [hb]
          exact .nil who' _ after'
        exact .effect (.ok b) rfl [⟨who, .load key, .ok loaded, after, after⟩] _ [] rfl
          (List.forall_mem_singleton.mpr rfl) _ (.cons (hservice.load key before') hwrite)
      · rw [he] at hlast
        obtain ⟨rfl, rfl⟩ := hlast.done_inv
        have hstill : after' = before' :=
          ((WritesOver.create _ rfl).answered hservice nofun hversioned hserve).2 e rfl
        refine .failed ?_ ?_
        · exact List.forall_mem_cons.mpr ⟨rfl, List.forall_mem_singleton.mpr hstill⟩
        · rintro r ⟨⟩
          exact ⟨e, rfl, _, List.mem_cons_of_mem _ (List.mem_singleton_self _), rfl⟩

theorem inOne_of_clock (hservice : Steadfast content service) {op : KVOp}
    (hop : op = .nowMs ∨ op = .nanos) {f : op.Res → KV β} {q : KV β}
    (hf : ∀ now evs, Pool.Follows (f now) evs q → (∀ ev ∈ evs, Sound content service ev) →
      Pool.InOne service (f now) (evs : List (KVEvent ι)) q)
    (h : Pool.Follows (Prog.bind (.perform op) f) evs q)
    (hsound : ∀ ev ∈ evs, Sound content service ev) :
    Pool.InOne service (Prog.bind (.perform op) f) evs q := by
  rcases Pool.Follows.call_inv h with ⟨rfl, rfl⟩ | ⟨who, answer, before, after, rest, rfl, hrest⟩
  · exact .failed (by simp) nofun
  rw [List.forall_mem_cons] at hsound
  obtain ⟨hstill, hanywhere⟩ := hservice.clock hop hsound.1.1
  cases answer with
  | error e =>
      obtain ⟨rfl, rfl⟩ := hrest.done_inv
      refine .failed (List.forall_mem_singleton.mpr hstill) ?_
      rintro r ⟨⟩
      exact ⟨e, rfl, _, List.mem_singleton_self _, rfl⟩
  | ok now =>
      have hrest : Pool.Follows (f now) rest q := hrest
      cases hf now rest hrest hsound.2 with
      | effect r hq pre ev post hevs hothers block halone =>
          subst hevs
          exact .effect r hq (⟨who, op, .ok now, before, after⟩ :: pre) ev post rfl
            (List.forall_mem_cons.mpr ⟨hstill, hothers⟩) _ (.cons (hanywhere ev.before) halone)
      | unchanged hothers hq =>
          cases hnow : f now with
          | done r =>
              -- the reading of the clock is all there is of the program
              rw [hnow] at hrest
              obtain ⟨rfl, rfl⟩ := hrest.done_inv
              have hended : Pool.Alone service who (f now) after ([] : List (KVEvent ι)) (.done r)
                  after := by
                rw [hnow]
                exact .nil _ _ _
              exact .effect r rfl [] ⟨who, op, .ok now, before, after⟩ [] rfl (by simp) _
                (.cons hsound.1.1 hended)
          | call op k =>
              refine .failed (List.forall_mem_cons.mpr ⟨hstill, hothers⟩) fun r hr => ?_
              rcases hq r hr with ⟨e, he, ev, hev, hanswer⟩ | hended
              · exact ⟨e, he, ev, List.mem_cons_of_mem _ hev, hanswer⟩
              · rw [hnow] at hended
                cases hended

/-- The shapes of programs that take effect in one step. -/
inductive OneStep : {β : Type} → KV β → Prop
  | reads {β : Type} {key : String} {p : KV β} (h : ReadsOnce key p) : OneStep p
  | cas {δ R : Type} (key : String) (draw : KV δ) (h : ReadsClock draw)
      (modify : δ → Option StoredValue → Result (CasAction R)) : OneStep (casWith key draw modify)
  | save (key : String) (entry : StoredValue) : OneStep (KV.save key entry .any)
  | create (key : String) (value : Bytes) (exp : Option Int) :
      OneStep (Storage.setStringNx key value exp)
  | timed {δ R : Type} (key : String) (draw : KV δ) (h : ReadsClock draw)
      (modify : Int → δ → Option StoredValue → Result (CasAction R)) :
      OneStep (KV.nowMs.bind fun now => casWith key draw (modify now))

theorem OneStep.asks {p : KV β} (hp : OneStep p) (r : Result β) : p ≠ .done r := by
  cases hp with
  | reads h =>
      obtain ⟨k, rfl, -⟩ := h
      exact nofun
  | cas key draw h modify => exact nofun
  | save key entry => exact nofun
  | create key value exp =>
      rw [setStringNx_eq]
      exact nofun
  | timed key draw h modify => exact nofun

theorem OneStep.inOne (hservice : Steadfast content service) {p q : KV β} (hp : OneStep p) (h : Pool.Follows p evs q)
    (hsound : ∀ ev ∈ evs, Sound content service ev) : Pool.InOne service p evs q := by
  cases hp with
  | reads hreads => exact hreads.inOne hservice h hsound
  | cas key draw hclock modify => exact casWith_inOne hservice hclock h hsound
  | save key entry => exact save_inOne h hsound
  | create key value exp => exact setStringNx_inOne hservice h hsound
  | timed key draw hclock modify =>
      exact inOne_of_clock hservice (.inl rfl) (fun now evs => casWith_inOne hservice hclock) h hsound

end Programs

/-! ## The methods -/

/-- Methods with one key that read it once or go through one `cas` (or one write). -/
def StringMethod.single {α : Type} : StringMethod α → Bool
  | .mget _ => false
  | .mset _ => false
  | .msetnx _ => false
  | .pfcount _ => false
  | .pfmerge _ _ => false
  | _ => true

def ListMethod.single {α : Type} : ListMethod α → Bool
  | .listMove source dest _ _ => source == dest
  | _ => true

def SetMethod.single {α : Type} : SetMethod α → Bool
  | .sinter _ => false
  | .sunion _ => false
  | .sdiff _ => false
  | _ => true

def StreamMethod.single {α : Type} : StreamMethod α → Bool
  | .xread _ _ => false
  | .xreadgroup _ _ _ _ _ _ => false
  | _ => true

def KeyMethod.single {α : Type} : KeyMethod α → Bool
  | .existsKey _ => true
  | .expireAt _ _ => true
  | .ttlMs _ => true
  | .expireTimeMs _ => true
  | .kind _ => true
  | .memUsage _ => true
  | .persist _ => true
  | .dump _ => true
  | _ => false

def Method.single {α : Type} : Method α → Bool
  | .string m => m.single
  | .hash _ => true
  | .list m => m.single
  | .set m => m.single
  | .zset _ => true
  | .stream m => m.single
  | .key m => m.single

section Table

variable {α β δ R : Type} {x : Externs}

theorem oneStep_cas (key : String) (modify : Option StoredValue → Result (CasAction R)) :
    OneStep (cas key modify) :=
  .cas key (pure ()) (Prog.Requests.done _) fun _ => modify

theorem oneStep_read {v : View α} {key : String} {absent : β} {f : α → β} :
    OneStep (v.read key absent f) :=
  .reads (.read v absent f)

theorem oneStep_readRand {v : View α} {key : String} {absent : β} {f : α → UInt64 → β} :
    OneStep (v.readRand key absent f) :=
  .reads (.readRand v absent f)

theorem oneStep_entry {key : String} {f : Option StoredValue → KV β}
    (h : ∀ entry, ReadsClock (f entry)) : OneStep ((KV.loadEntry key).bind f) :=
  .reads (.of_entry h)

theorem StringMethod.oneStep (m : StringMethod α) (hm : m.single = true) :
    OneStep (m.prog x) := by
  cases m with
  | getString key => exact oneStep_read
  | getStringWithTtl key op =>
      cases op with
      | leave => exact oneStep_read
      | setExpireAtMs t => exact oneStep_cas key _
      | persist => exact oneStep_cas key _
  | setString key value exp => exact .save key _
  | setStringNx key value exp => exact .create key value exp
  | getset key value => exact (oneStep_cas key _ : OneStep (Storage.getset key value))
  | getAndDelete key => exact (oneStep_cas key _ : OneStep (Storage.getAndDelete key))
  | strlen key => exact oneStep_read
  | append key value => exact (oneStep_cas key _ : OneStep (Storage.append key value))
  | mget keys => cases hm
  | mset pairs => cases hm
  | msetnx pairs => cases hm
  | incrBy key delta => exact (oneStep_cas key _ : OneStep (Storage.incrBy key delta))
  | incrByFloat key delta =>
      exact (oneStep_cas key _ : OneStep (Storage.incrByFloat x.fo key delta))
  | getrange key start stop => exact oneStep_read
  | setrange key offset value =>
      exact (oneStep_cas key _ : OneStep (Storage.setrange key offset value))
  | getbit key offset => exact oneStep_read
  | setbit key offset value => exact (oneStep_cas key _ : OneStep (Storage.setbit key offset value))
  | pfadd key elements => exact (oneStep_cas key _ : OneStep (Storage.pfadd key elements))
  | pfcount keys => cases hm
  | pfmerge dest sources => cases hm

theorem HashMethod.oneStep (m : HashMethod α) : OneStep (m.prog x) := by
  cases m with
  | hset key pairs => exact (oneStep_cas key _ : OneStep (Storage.hset key pairs))
  | hsetnx key field value => exact (oneStep_cas key _ : OneStep (Storage.hsetnx key field value))
  | hget key field => exact oneStep_read
  | hdel key fields => exact (oneStep_cas key _ : OneStep (Storage.hdel key fields))
  | hgetall key => exact oneStep_read
  | hscan key cursor pattern count => exact oneStep_read
  | hlen key => exact oneStep_read
  | hkeys key => exact oneStep_read
  | hvals key => exact oneStep_read
  | hexists key field => exact oneStep_read
  | hstrlen key field => exact oneStep_read
  | hmget key fields => exact oneStep_read
  | hincrBy key field delta => exact (oneStep_cas key _ : OneStep (Storage.hincrBy key field delta))
  | hincrByFloat key field delta =>
      exact (oneStep_cas key _ : OneStep (Storage.hincrByFloat x.fo key field delta))
  | hrandfield key count allowDuplicates => exact oneStep_readRand

theorem ListMethod.oneStep (m : ListMethod α) (hm : m.single = true) : OneStep m.prog := by
  cases m with
  | listPush key values left =>
      exact (oneStep_cas key _ : OneStep (Storage.listPush key values left))
  | listPushx key values left =>
      exact (oneStep_cas key _ : OneStep (Storage.listPushx key values left))
  | listPop key count left => exact (oneStep_cas key _ : OneStep (Storage.listPop key count left))
  | lrange key start stop => exact oneStep_read
  | llen key => exact oneStep_read
  | lindex key index => exact oneStep_read
  | lset key index value => exact (oneStep_cas key _ : OneStep (Storage.lset key index value))
  | lrem key count value => exact (oneStep_cas key _ : OneStep (Storage.lrem key count value))
  | linsert key before pivot value =>
      exact (oneStep_cas key _ : OneStep (Storage.linsert key before pivot value))
  | ltrim key start stop => exact (oneStep_cas key _ : OneStep (Storage.ltrim key start stop))
  | listMove source dest fromLeft toLeft =>
      obtain rfl := eq_of_beq hm
      show OneStep (Storage.listMove source source fromLeft toLeft)
      rw [Storage.listMove, if_pos rfl]
      exact oneStep_cas source _
  | lpos key element rank count maxlen => exact oneStep_read

theorem SetMethod.oneStep (m : SetMethod α) (hm : m.single = true) : OneStep (m.prog x) := by
  cases m with
  | sadd key members => exact (oneStep_cas key _ : OneStep (Storage.sadd key members))
  | srem key members => exact (oneStep_cas key _ : OneStep (Storage.srem key members))
  | smembers key => exact oneStep_read
  | sismember key member => exact oneStep_read
  | smismember key members => exact oneStep_read
  | scard key => exact oneStep_read
  | sinter keys => cases hm
  | sunion keys => cases hm
  | sdiff keys => cases hm
  | spop key count =>
      show OneStep (Storage.spop key count)
      unfold Storage.spop
      split
      · exact oneStep_read
      · exact .cas key _ (Prog.Requests.perform (.inr rfl)) _
  | srandmember key count allowDuplicates => exact oneStep_readRand
  | sscan key cursor pattern count => exact oneStep_read

theorem oneStep_zpop (key : String) (count : Nat) (fromMax : Bool) :
    OneStep (Storage.zpopImpl key count fromMax) := by
  unfold Storage.zpopImpl
  split
  · exact oneStep_read
  · exact oneStep_cas key _

theorem oneStep_zremrange (key : String) (split : Storage.ZMap → Storage.ZMap × Nat) :
    OneStep (Storage.zremrange key split) :=
  oneStep_cas key _

theorem ZSetMethod.oneStep (m : ZSetMethod α) : OneStep (m.prog x) := by
  cases m with
  | zadd key pairs => exact (oneStep_cas key _ : OneStep (Storage.zadd key pairs))
  | zaddExt key pairs flags => exact (oneStep_cas key _ : OneStep (Storage.zaddExt key pairs flags))
  | zaddExtIncr key delta member flags =>
      exact (oneStep_cas key _ : OneStep (Storage.zaddExtIncr x.fo key delta member flags))
  | zitems key => exact oneStep_read
  | zrem key members => exact (oneStep_cas key _ : OneStep (Storage.zrem key members))
  | zincrBy key member delta =>
      exact (oneStep_cas key _ : OneStep (Storage.zincrBy x.fo key member delta))
  | zrange key start stop => exact oneStep_read
  | zrevrange key start stop => exact oneStep_read
  | zrangebyscore key min max => exact oneStep_read
  | zrevrangebyscore key max min => exact oneStep_read
  | zremrangebyrank key start stop =>
      exact oneStep_zremrange key fun m => Storage.partitionZsetByRank m start stop
  | zremrangebyscore key min max =>
      exact oneStep_zremrange key fun m => Storage.partitionZsetByScore m min max
  | zrangebylex key min max limit => exact oneStep_read
  | zrevrangebylex key max min limit => exact oneStep_read
  | zlexcount key min max => exact oneStep_read
  | zremrangebylex key min max =>
      exact oneStep_zremrange key fun m => Storage.partitionZsetByLex m min max
  | zpopmin key count => exact oneStep_zpop key count false
  | zpopmax key count => exact oneStep_zpop key count true
  | zscore key member => exact oneStep_read
  | zcard key => exact oneStep_read
  | zrank key member => exact oneStep_read
  | zrevrank key member => exact oneStep_read
  | zcount key min max => exact oneStep_read
  | zmscore key members => exact oneStep_read
  | zrandmember key count allowDuplicates => exact oneStep_readRand
  | zscan key cursor pattern count => exact oneStep_read

theorem readsClock_group {g : Result α} {f : α → KV β} (h : ∀ a, ReadsClock (f a)) :
    ReadsClock ((Prog.ofExcept g).bind f) :=
  .bind (Prog.Requests.done _) h

theorem StreamMethod.oneStep (m : StreamMethod α) (hm : m.single = true) : OneStep m.prog := by
  cases m with
  | xadd key spec fields nomkstream trim =>
      exact .timed key (pure ()) (Prog.Requests.done _) fun now _ => _
  | xlen key => exact oneStep_read
  | xrange key start stop count reverse => exact oneStep_read
  | xdel key ids => exact (oneStep_cas key _ : OneStep (Storage.xdel key ids))
  | xtrim key bound limit => exact (oneStep_cas key _ : OneStep (Storage.xtrim key bound limit))
  | xread keys count => cases hm
  | xinfoStream key => exact oneStep_read
  | xgroup key op => exact (oneStep_cas key _ : OneStep (Storage.xgroup key op))
  | xreadgroup group consumer streams count noack now => cases hm
  | xack key group ids => exact (oneStep_cas key _ : OneStep (Storage.xack key group ids))
  | xclaim key group consumer minIdleMs ids opts =>
      exact (oneStep_cas key _ : OneStep (Storage.xclaim key group consumer minIdleMs ids opts))
  | xpendingSummary key group =>
      refine oneStep_entry fun entry => readsClock_group fun g => ?_
      split <;> exact Prog.Requests.done _
  | xpendingDetail key group start stop count consumer idleMs now =>
      exact oneStep_entry fun entry => readsClock_group fun g => Prog.Requests.done _
  | xautoclaim key group consumer minIdleMs start count justId now =>
      exact (oneStep_cas key _ : OneStep (Storage.xautoclaim key group consumer minIdleMs start count justId now))
  | xinfoGroups key => exact oneStep_read
  | xinfoConsumers key group =>
      exact oneStep_entry fun entry => readsClock_group fun g =>
        .bind (Prog.Requests.perform (.inl rfl)) fun now => Prog.Requests.done _

theorem KeyMethod.oneStep (m : KeyMethod α) (hm : m.single = true) : OneStep (m.prog x) := by
  cases m with
  | existsKey key => exact oneStep_entry fun entry => Prog.Requests.done _
  | expireAt key expiresAtMs =>
      exact (oneStep_cas key _ : OneStep (Storage.expireAt key expiresAtMs))
  | ttlMs key =>
      refine oneStep_entry fun entry => ?_
      cases entry with
      | none => exact Prog.Requests.done _
      | some e =>
          obtain ⟨expiresAtMs, value⟩ := e
          cases expiresAtMs with
          | none => exact Prog.Requests.done _
          | some exp => exact .bind (Prog.Requests.perform (.inl rfl)) fun now => Prog.Requests.done _
  | expireTimeMs key =>
      refine oneStep_entry fun entry => ?_
      cases entry <;> exact Prog.Requests.done _
  | kind key => exact oneStep_entry fun entry => Prog.Requests.done _
  | memUsage key => exact oneStep_entry fun entry => Prog.Requests.done _
  | persist key => exact (oneStep_cas key _ : OneStep (Storage.persist key))
  | dump key =>
      refine oneStep_entry fun entry => ?_
      cases entry with
      | none => exact Prog.Requests.done _
      | some e => exact .bind (Prog.Requests.done _) fun payload => Prog.Requests.done _
  | _ => cases hm

theorem Method.oneStep (m : Method α) (hm : m.single = true) : OneStep (m.prog x) := by
  cases m with
  | string m => exact m.oneStep hm
  | hash m => exact m.oneStep
  | list m => exact m.oneStep hm
  | set m => exact m.oneStep hm
  | zset m => exact m.oneStep
  | stream m => exact m.oneStep hm
  | key m => exact m.oneStep hm

end Table

/-! ## Whole runs -/

section Runs

variable {ι : Type} [DecidableEq ι] {α : ι → Type} {content : String → StoredValue}
variable {service : Service KVOp KVOp.Res RustyAntError Keyspace}
variable {c d : Pool KVOp KVOp.Res RustyAntError Keyspace α} {evs : List (KVEvent ι)}

theorem run_sound (hservice : Steadfast content service) (hc : c.state.Versioned content)
    (hrun : Pool.Run service c evs d) : ∀ ev ∈ evs, Sound content service ev := fun ev hev =>
  ⟨hrun.serve ev hev, ((hrun.state_invariant _ hc hservice.versioned).2 ev hev).1⟩

theorem run_inOne (hservice : Steadfast content service) (hc : c.state.Versioned content)
    (hrun : Pool.Run service c evs d) (i : ι) (hstep : OneStep (c.prog i)) :
    Pool.InOne service (c.prog i) (evs.filter fun ev => ev.who = i) (d.prog i) :=
  hstep.inOne hservice (hrun.follows i) fun ev hev =>
    run_sound hservice hc hrun ev (List.mem_filter.mp hev).1

/-- On a steadfast backend a run of such programs comes to the same as a serial one. -/
theorem run_serial (hservice : Steadfast content service) (hc : c.state.Versioned content)
    (hrun : Pool.Run service c evs d) (hstep : ∀ i, OneStep (c.prog i)) :
    ∃ order e, Pool.Serial service c order e ∧ e.state = d.state ∧
      order.Sublist (evs.map Event.who) ∧ (∀ i ∈ order, e.prog i = d.prog i) ∧
      ∀ i, i ∉ order → e.prog i = c.prog i ∧ ∀ r, d.prog i = .done r →
        ∃ err, r = .error err ∧ ∃ ev ∈ evs, ev.who = i ∧ ev.answer = .error err := by
  obtain ⟨order, e, hserial, hstate, hsub, hin, hout⟩ :=
    hrun.serial fun i => run_inOne hservice hc hrun i (hstep i)
  refine ⟨order, e, hserial, hstate, hsub, hin, fun i hi => ⟨(hout i hi).1, fun r hr => ?_⟩⟩
  exact ((hout i hi).2 r hr).resolve_right ((hstep i).asks r)

end Runs

end RustyAnt
