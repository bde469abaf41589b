import RustyAnt.Storage.Keys
import RustyAnt.Storage.Linearizable

/-!
# The CAS loop gives up only under contention

A backend refuses a conditional write only when its condition is false.  Every
attempt of `cas` is then refused because the key has changed since that attempt
loaded it, so a call that gives up has been overtaken once in each attempt.
-/

namespace RustyAnt

open Lib

/-- A backend which checks a condition together with its write and refuses the
write exactly when the condition is false.  A request may still fail with any
other error. -/
inductive strictService : Service KVOp KVOp.Res RustyAntError Keyspace
  | load (s : Keyspace) (key : String) :
      strictService s (.load key) (.ok (s key : Option (StoredValue × String))) s
  | save (s : Keyspace) (key : String) (entry : StoredValue) (cond : WriteCondition)
      (token : String) (hcond : cond.Met (s key)) :
      strictService s (.save key entry cond) (.ok ()) (Function.update s key (some (entry, token)))
  | saveRefused (s : Keyspace) (key : String) (entry : StoredValue) (cond : WriteCondition)
      (hcond : ¬ cond.Met (s key)) :
      strictService s (.save key entry cond) (.error .contention) s
  | delete (s : Keyspace) (key : String) (cond : DeleteCondition) (hcond : cond.Met (s key)) :
      strictService s (.delete key cond) (.ok ()) (Function.update s key none)
  | deleteRefused (s : Keyspace) (key : String) (cond : DeleteCondition)
      (hcond : ¬ cond.Met (s key)) :
      strictService s (.delete key cond) (.error .contention) s
  | flushAll (s : Keyspace) (kept : String → Bool) (answer : Result Unit) :
      strictService s .flushAll answer fun key => if kept key then s key else none
  | listPage (s : Keyspace) (cursor : Option String) (maxKeys : Nat) (page : ListPage) :
      strictService s (.listPage cursor maxKeys) (.ok page) s
  | walk (s : Keyspace) (keys : List String) : strictService s .walk (.ok keys) s
  | countKeys (s : Keyspace) (n : Int) : strictService s .countKeys (.ok n) s
  | nowMs (s : Keyspace) (now : Int) : strictService s .nowMs (.ok now) s
  | nanos (s : Keyspace) (n : UInt64) : strictService s .nanos (.ok n) s
  | fault (s : Keyspace) (op : KVOp) (e : RustyAntError) (hop : op ≠ .flushAll)
      (he : e ≠ .contention) : strictService s op (.error e) s

/-- What a closure of `cas` reads besides the entry: the clocks, and it does not
itself end with `Contention` as long as they do not. -/
def DrawsClock {δ : Type} (draw : KV δ) : Prop :=
  draw.Obeys (fun op answer => (op = .nowMs ∨ op = .nanos) → answer ≠ .error .contention)
    (fun op => op = .nowMs ∨ op = .nanos) fun outcome => outcome ≠ .error .contention

section Attempts

variable {ι δ R : Type}

/-- What is stored at `key` changes at the event. -/
def Changes (key : String) (ev : KVEvent ι) : Prop := ev.before key ≠ ev.after key

instance (key : String) (ev : KVEvent ι) : Decidable (Changes key ev) :=
  inferInstanceAs (Decidable (ev.before key ≠ ev.after key))

theorem strictService_clock {s s' : Keyspace} {op : KVOp} {answer : Result op.Res}
    (h : strictService s op answer s') (hop : op = .nowMs ∨ op = .nanos) :
    s' = s ∧ answer ≠ .error .contention := by
  rcases hop with rfl | rfl
  · cases h with
    | nowMs _ now => exact ⟨rfl, nofun⟩
    | fault _ _ e _ he => exact ⟨rfl, by simpa using he⟩
  · cases h with
    | nanos _ n => exact ⟨rfl, nofun⟩
    | fault _ _ e _ he => exact ⟨rfl, by simpa using he⟩

theorem strictService_save_refused {s s' : Keyspace} {key : String} {entry : StoredValue}
    {cond : WriteCondition}
    (h : strictService s (.save key entry cond) (.error .contention) s') :
    ¬ cond.Met (s key) := by
  cases h with
  | saveRefused _ _ _ _ hcond => exact hcond
  | fault _ _ e _ he => exact absurd rfl he

theorem strictService_delete_refused {s s' : Keyspace} {key : String} {cond : DeleteCondition}
    (h : strictService s (.delete key cond) (.error .contention) s') :
    ¬ cond.Met (s key) := by
  cases h with
  | deleteRefused _ _ _ hcond => exact hcond
  | fault _ _ e _ he => exact absurd rfl he

/-- `n` attempts of program `i`, one after the other, each from its load to the
refusal of its write; in each of them another program changes the key. -/
def Overtaken [DecidableEq ι] (i : ι) (key : String) : Nat → List (KVEvent ι) → Prop
  | 0, evs => ∀ ev ∈ evs, ev.who ≠ i
  | n + 1, evs =>
      ∃ pre load mid write rest, evs = pre ++ load :: (mid ++ write :: rest) ∧
        (∀ ev ∈ pre, ev.who ≠ i) ∧ load.who = i ∧ load.op = .load key ∧ write.who = i ∧
        (∃ ev ∈ mid, ev.who ≠ i ∧ Changes key ev) ∧ Overtaken i key n rest

/-- The write of an attempt carries a condition which what was loaded meets. -/
theorem casCommit_cases (key : String) (loaded : Option (StoredValue × String))
    (action : CasAction R) :
    casCommit key loaded action = .done (.ok (some action.result)) ∨
      (∃ entry cond, casCommit key loaded action =
          .call (.save key entry cond) (settle action.result) ∧ cond.Met loaded) ∨
      ∃ cond, casCommit key loaded action =
          .call (.delete key cond) (settle action.result) ∧ cond.Met loaded := by
  cases action with
  | noOp r => exact .inl rfl
  | delete r =>
      cases loaded with
      | none => exact .inl rfl
      | some p => exact .inr (.inr ⟨.ifMatch p.2, orContention_delete r key _, p.1, rfl⟩)
  | write entry r =>
      cases loaded with
      | none => exact .inr (.inl ⟨entry, .createOnly, orContention_save r key entry _, rfl⟩)
      | some p =>
          exact .inr (.inl ⟨entry, .ifMatch p.2, orContention_save r key entry _, p.1, rfl⟩)

/-- Only a write refused with `Contention` lets the loop go on. -/
theorem settle_follows {r : R} {answer : Result Unit} {evs : List (KVEvent ι)}
    {res : Result (Option R)} (h : Pool.Follows (settle r answer) evs (.done res)) :
    evs = [] ∧ ((∃ r', res = .ok (some r')) ∨ (∃ e, e ≠ .contention ∧ res = .error e) ∨
      (answer = .error .contention ∧ res = .ok none)) := by
  cases answer with
  | ok u =>
      obtain ⟨rfl, hres⟩ := h.done_inv
      cases hres
      exact ⟨rfl, .inl ⟨r, rfl⟩⟩
  | error e =>
      by_cases he : e = .contention
      · subst he
        obtain ⟨rfl, hres⟩ := h.done_inv
        cases hres
        exact ⟨rfl, .inr (.inr ⟨rfl, rfl⟩)⟩
      · have hsettle : settle r (.error e) = .done (.error e) := by
          cases e <;> first | rfl | exact absurd rfl he
        rw [hsettle] at h
        obtain ⟨rfl, hres⟩ := h.done_inv
        cases hres
        exact ⟨rfl, .inr (.inl ⟨e, he, rfl⟩)⟩

/-- A commit that asks for another attempt was answered once, when the key no
longer held what had been loaded. -/
theorem casCommit_refused {key : String} {loaded : Option (StoredValue × String)}
    {action : CasAction R} {evs : List (KVEvent ι)} {res : Result (Option R)}
    (h : Pool.Follows (casCommit key loaded action) evs (.done res))
    (hserve : ∀ ev ∈ evs, strictService ev.before ev.op ev.answer ev.after) :
    (∃ r', res = .ok (some r')) ∨ (∃ e, e ≠ .contention ∧ res = .error e) ∨
      ∃ ev, evs = [ev] ∧ ev.before key ≠ loaded ∧ res = .ok none := by
  rcases casCommit_cases key loaded action with hcommit | ⟨entry, cond, hcommit, hmet⟩ |
    ⟨cond, hcommit, hmet⟩
  · rw [hcommit] at h
    obtain ⟨-, hres⟩ := h.done_inv
    cases hres
    exact .inl ⟨_, rfl⟩
  · rw [hcommit] at h
    rcases h.call_inv with ⟨-, hq⟩ | ⟨who, answer, before, after, evs', rfl, hrest⟩
    · cases hq
    rw [List.forall_mem_cons] at hserve
    obtain ⟨rfl, hres | hres | ⟨rfl, hres⟩⟩ := settle_follows hrest
    · exact .inl hres
    · exact .inr (.inl hres)
    · refine .inr (.inr ⟨_, rfl, fun heq => ?_, hres⟩)
      have hrefused := strictService_save_refused hserve.1
      rw [← heq] at hmet
      exact hrefused hmet
  · rw [hcommit] at h
    rcases h.call_inv with ⟨-, hq⟩ | ⟨who, answer, before, after, evs', rfl, hrest⟩
    · cases hq
    rw [List.forall_mem_cons] at hserve
    obtain ⟨rfl, hres | hres | ⟨rfl, hres⟩⟩ := settle_follows hrest
    · exact .inl hres
    · exact .inr (.inl hres)
    · refine .inr (.inr ⟨_, rfl, fun heq => ?_, hres⟩)
      have hrefused := strictService_delete_refused hserve.1
      rw [← heq] at hmet
      exact hrefused hmet

variable {key : String} {draw : KV δ}
variable {modify : List (δ × Option StoredValue) → δ → Option StoredValue → Result (CasAction R)}

/-- One attempt of a call that ends with `Contention`: its load, its clock
readings, and its write when the key held something else. -/
theorem casFrom_attempt (hdraw : DrawsClock draw)
    (hmodify : ∀ seen d cur, modify seen d cur ≠ .error .contention) {left : Nat}
    {seen : List (δ × Option StoredValue)} {evs : List (KVEvent ι)}
    (h : Pool.Follows (casFrom key draw modify (left + 1) seen) evs (.done (.error .contention)))
    (hserve : ∀ ev ∈ evs, strictService ev.before ev.op ev.answer ev.after) :
    ∃ (load write : KVEvent ι) (draws rest : List (KVEvent ι)) (seen' : _),
      evs = load :: (draws ++ write :: rest) ∧
      load.op = .load key ∧ (∀ ev ∈ draws, ev.after = ev.before) ∧ load.after = load.before ∧
      write.before key ≠ load.before key ∧
      Pool.Follows (casFrom key draw modify left seen') rest (.done (.error .contention)) := by
  rcases Pool.Follows.call_inv h with ⟨-, hq⟩ | ⟨who, answer, before, after, evs', rfl, hrest⟩
  · cases hq
  rw [List.forall_mem_cons] at hserve
  obtain ⟨hload, hserve⟩ := hserve
  dsimp only at hload
  cases answer with
  | error e =>
      have hne : e ≠ .contention := by
        cases hload with
        | fault _ _ _ _ he => exact he
      obtain ⟨-, hq⟩ := Pool.Follows.done_inv hrest
      cases hq
      exact absurd rfl hne
  | ok loaded =>
      obtain ⟨rfl, rfl⟩ : after = before ∧ loaded = before key := by
        cases hload
        exact ⟨rfl, rfl⟩
      rcases Pool.Follows.bind_inv (p := draw) hrest with
        ⟨op, k, -, hq⟩ | ⟨draws, evs₂, outcome, rfl, hdraws, hrest⟩
      · cases hq
      rw [List.forall_mem_append] at hserve
      have hrely : ∀ ev ∈ draws,
          (ev.op = .nowMs ∨ ev.op = .nanos) → ev.answer ≠ .error .contention :=
        fun ev hev hop => (strictService_clock (hserve.1 ev hev) hop).2
      have hsilent : ∀ ev ∈ draws, ev.after = ev.before := by
        intro ev hev
        exact (strictService_clock (hserve.1 ev hev) (hdraws.obeys hdraw hrely ev hev)).1
      have houtcome : outcome ≠ .error .contention := hdraws.obeys_rest hdraw hrely
      cases outcome with
      | error e =>
          obtain ⟨-, hq⟩ := Pool.Follows.done_inv hrest
          cases hq
          exact absurd rfl houtcome
      | ok d =>
          rw [Prog.done_ok_bind] at hrest
          cases hdecide : modify seen d ((after key).map Prod.fst) with
          | error e =>
              have hdone : Pool.Follows (Prog.done (.error e) : KV R) evs₂
                  (.done (.error .contention)) := by
                simpa [Prog.ofExcept, hdecide, Prog.bind_eq] using hrest
              obtain ⟨-, hq⟩ := hdone.done_inv
              cases hq
              exact absurd hdecide (hmodify seen d _)
          | ok action =>
              simp only [Prog.ofExcept, hdecide, Prog.bind_eq, Prog.done_ok_bind] at hrest
              rcases hrest.bind_inv with ⟨op, k, -, hq⟩ | ⟨writes, rest, res, rfl, hcommit, hrest⟩
              · cases hq
              rw [List.forall_mem_append] at hserve
              rcases casCommit_refused hcommit hserve.2.1 with
                ⟨r', rfl⟩ | ⟨e, he, rfl⟩ | ⟨write, rfl, hchanged, rfl⟩
              · obtain ⟨-, hq⟩ := Pool.Follows.done_inv hrest
                cases hq
              · obtain ⟨-, hq⟩ := Pool.Follows.done_inv hrest
                cases hq
                exact absurd rfl he
              · exact ⟨_, write, draws, rest, _, rfl, rfl, hsilent, rfl, hchanged, hrest⟩

end Attempts

section Runs

variable {ι : Type} [DecidableEq ι] {α : ι → Type} {δ R : Type}
variable {c d : Pool KVOp KVOp.Res RustyAntError Keyspace α} {evs : List (KVEvent ι)}
variable {key : String} {draw : KV δ}
variable {modify : List (δ × Option StoredValue) → δ → Option StoredValue → Result (CasAction R)}

/-- The attempts of a call that ends with `Contention`, found among the events of
the whole run. -/
theorem casFrom_overtaken (hdraw : DrawsClock draw)
    (hmodify : ∀ seen d cur, modify seen d cur ≠ .error .contention) (left : Nat)
    (seen : List (δ × Option StoredValue)) (hrun : Pool.Run strictService c evs d) {i : ι}
    (h : Pool.Follows (casFrom key draw modify left seen) (evs.filter fun ev => ev.who = i)
      (.done (.error .contention))) : Overtaken i key left evs := by
  induction left generalizing seen c evs with
  | zero =>
      obtain ⟨hnil, -⟩ := h.done_inv
      rw [List.filter_eq_nil_iff] at hnil
      simpa [Overtaken] using hnil
  | succ left ih =>
      have hserve : ∀ ev ∈ evs.filter fun ev => ev.who = i,
          strictService ev.before ev.op ev.answer ev.after :=
        fun ev hev => hrun.serve ev (List.mem_filter.mp hev).1
      obtain ⟨load, write, draws, rest, seen', heq, hop, hdraws, hload, hne, hfollows⟩ :=
        casFrom_attempt hdraw hmodify h hserve
      obtain ⟨pre, evs₁, rfl, hpre, hwho, hevs₁⟩ := List.filter_eq_cons_iff.mp heq
      obtain ⟨mid₁, evs₂, rfl, rfl, hevs₂⟩ := List.filter_eq_append_iff.mp hevs₁
      obtain ⟨mid₂, rest', rfl, hmid₂, hwrite, rfl⟩ := List.filter_eq_cons_iff.mp hevs₂
      rw [← List.append_assoc mid₁] at hrun
      obtain ⟨c₂, c₃, hbetween, hc₂, hc₃⟩ := hrun.between
      refine ⟨pre, load, mid₁ ++ mid₂, write, rest', by simp, by simpa using hpre,
        by simpa using hwho, hop, by simpa using hwrite, ?_, ?_⟩
      · have hkey : c₂.state key ≠ c₃.state key := by
          rw [hc₂, hc₃, hload]
          exact hne.symm
        obtain ⟨ev, hev, hchange⟩ := hbetween.exists_change (fun s => s key) hkey
        refine ⟨ev, hev, fun hi => ?_, hchange⟩
        rcases List.mem_append.mp hev with hev | hev
        · -- its own reading of the clock leaves the key alone
          have hsilent := hdraws ev (List.mem_filter.mpr ⟨hev, by simpa using hi⟩)
          rw [hsilent] at hchange
          exact hchange rfl
        · exact hmid₂ ev hev (by simpa using hi)
      · have hsplit : pre ++ load :: (mid₁ ++ mid₂ ++ write :: rest') =
            (pre ++ load :: (mid₁ ++ mid₂)) ++ write :: rest' := by simp
        rw [hsplit] at hrun
        obtain ⟨c₄, hrest, -⟩ := hrun.since
        exact ih seen' hrest hfollows

theorem Overtaken.charged {i : ι} {n : Nat} (h : Overtaken i key (n + 1) evs) :
    ∃ (pre mid post : List (KVEvent ι)) (first last : KVEvent ι),
      evs = pre ++ first :: (mid ++ last :: post) ∧
      first.who = i ∧ first.op = .load key ∧ last.who = i ∧
      (∀ ev ∈ pre ++ post, ev.who ≠ i) ∧
      n + 1 ≤ (mid.filter fun ev => ev.who ≠ i ∧ Changes key ev).length := by
  induction n generalizing evs with
  | zero =>
      obtain ⟨pre, load, mid, write, rest, rfl, hpre, hload, hop, hwrite, hmid, hrest⟩ := h
      refine ⟨pre, mid, rest, load, write, rfl, hload, hop, hwrite, ?_, ?_⟩
      · rw [List.forall_mem_append]
        exact ⟨hpre, hrest⟩
      · obtain ⟨ev, hev, hchange⟩ := hmid
        exact List.length_pos_of_mem (List.mem_filter.mpr ⟨hev, by simpa using hchange⟩)
  | succ n ih =>
      obtain ⟨pre, load, mid, write, rest, rfl, hpre, hload, hop, hwrite, hmid, hrest⟩ := h
      obtain ⟨pre', mid', post, first, last, rfl, -, -, hlast, hothers, hcount⟩ := ih hrest
      rw [List.forall_mem_append] at hothers
      refine ⟨pre, mid ++ write :: (pre' ++ first :: mid'), post, load, last, by simp, hload, hop,
        hlast, ?_, ?_⟩
      · rw [List.forall_mem_append]
        exact ⟨hpre, hothers.2⟩
      · obtain ⟨ev, hev, hchange⟩ := hmid
        have hone : 1 ≤ (mid.filter fun ev => ev.who ≠ i ∧ Changes key ev).length :=
          List.length_pos_of_mem (List.mem_filter.mpr ⟨hev, by simpa using hchange⟩)
        have htail : (mid'.filter fun ev => ev.who ≠ i ∧ Changes key ev).length ≤
            ((write :: (pre' ++ first :: mid')).filter
              fun ev => ev.who ≠ i ∧ Changes key ev).length := by
          refine List.Sublist.length_le (List.Sublist.filter _ ?_)
          exact ((List.sublist_append_of_sublist_right (List.sublist_cons_self _ _))).cons _
        rw [List.filter_append, List.length_append]
        omega

end Runs

/-- A `cas` call returns `Contention` only if at least `maxCasRetries` changes of
its key by other programs took effect between its first load and its last
request.  Run alone it never does. -/
theorem cas_gives_up_only_under_contention {ι : Type} [DecidableEq ι] {α : ι → Type}
    (c d : Pool KVOp KVOp.Res RustyAntError Keyspace α) (evs : List (KVEvent ι))
    (hrun : Pool.Run strictService c evs d) (i : ι) (δ : Type) (key : String) (draw : KV δ)
    (modify : List (δ × Option StoredValue) → δ → Option StoredValue → Result (CasAction (α i)))
    (hdraw : DrawsClock draw) (hmodify : ∀ seen d cur, modify seen d cur ≠ .error .contention)
    (hprog : c.prog i = casMut key draw modify) :
    (d.prog i = .done (.error .contention) →
      ∃ (pre mid post : List (KVEvent ι)) (first last : KVEvent ι),
        evs = pre ++ first :: (mid ++ last :: post) ∧
        first.who = i ∧ first.op = .load key ∧ last.who = i ∧
        (∀ ev ∈ pre ++ post, ev.who ≠ i) ∧
        maxCasRetries ≤ (mid.filter fun ev => ev.who ≠ i ∧ Changes key ev).length) ∧
    ((∀ ev ∈ evs, ev.who = i) → d.prog i ≠ .done (.error .contention)) := by
  have hcharged : d.prog i = .done (.error .contention) → Overtaken i key maxCasRetries evs := by
    intro hend
    have hfollows := hrun.follows i
    rw [hprog, hend] at hfollows
    exact casFrom_overtaken hdraw hmodify maxCasRetries [] hrun hfollows
  refine ⟨fun hend => (hcharged hend).charged, fun halone hend => ?_⟩
  obtain ⟨pre, load, mid, write, rest, rfl, -, -, -, -, ⟨ev, hev, hother, -⟩, -⟩ := hcharged hend
  exact hother (halone ev (by simp [hev]))

/-! ## An update overtaken five times -/

namespace FiveOverwrites

/-- The token of an entry; the entries written below differ in it. -/
def tokenOf (entry : StoredValue) : String :=
  if entry = ⟨none, .string [49]⟩ then "1" else "2"

/-- A backend without faults. -/
def serve : (op : KVOp) → Keyspace → Result op.Res × Keyspace
  | .load key, s => (.ok (s key : Option (StoredValue × String)), s)
  | .save key entry cond, s =>
      if cond.Met (s key) then (.ok (), Function.update s key (some (entry, tokenOf entry)))
      else (.error .contention, s)
  | .delete key cond, s =>
      if cond.Met (s key) then (.ok (), Function.update s key none) else (.error .contention, s)
  | .listPage _ _, s => (.ok ⟨[], none⟩, s)
  | .walk, s => (.ok ([] : List String), s)
  | .countKeys, s => (.ok (0 : Int), s)
  | .flushAll, _ => (.ok (), fun _ => none)
  | .nowMs, s => (.ok (0 : Int), s)
  | .nanos, s => (.ok (0 : UInt64), s)

theorem serve_service (op : KVOp) (s : Keyspace) :
    strictService s op (serve op s).1 (serve op s).2 := by
  cases op with
  | load key => exact .load s key
  | save key entry cond =>
      simp only [serve]
      split
      · rename_i hmet
        exact .save s key entry cond _ hmet
      · rename_i hmet
        exact .saveRefused s key entry cond hmet
  | delete key cond =>
      simp only [serve]
      split
      · rename_i hmet
        exact .delete s key cond hmet
      · rename_i hmet
        exact .deleteRefused s key cond hmet
  | listPage cursor maxKeys => exact .listPage s cursor maxKeys _
  | walk => exact .walk s _
  | countKeys => exact .countKeys s _
  | flushAll => exact .flushAll s (fun _ => false) (.ok ())
  | nowMs => exact .nowMs s 0
  | nanos => exact .nanos s 0

/-- `PEXPIREAT` against five `SET`s of alternating values. -/
def progs : Fin 6 → KV Bool
  | 0 => Storage.expireAt "k" 5
  | i => do
      KV.save "k" ⟨none, .string [if i.val % 2 = 0 then 50 else 49]⟩ .any
      return true

def start : Pool KVOp KVOp.Res RustyAntError Keyspace (fun _ : Fin 6 => Bool) :=
  ⟨Function.update (fun _ => none) "k" (some (⟨none, .string [50]⟩, "2")), progs⟩

/-- Each overwrite falls between a load and the write that follows it. -/
def schedule : List (Fin 6) := [0, 1, 0, 0, 2, 0, 0, 3, 0, 0, 4, 0, 0, 5, 0]

end FiveOverwrites

open FiveOverwrites in
theorem cas_gives_up_only_under_contention_on_fiveOverwrites :
    ∃ evs d, Pool.Run strictService start evs d ∧ d.prog 0 = .done (.error .contention) ∧
      ∃ (pre mid post : List (KVEvent (Fin 6))) (first last : KVEvent (Fin 6)),
        evs = pre ++ first :: (mid ++ last :: post) ∧
        first.who = 0 ∧ first.op = .load "k" ∧ last.who = 0 ∧
        (∀ ev ∈ pre ++ post, ev.who ≠ 0) ∧
        maxCasRetries ≤ (mid.filter fun ev => ev.who ≠ 0 ∧ Changes "k" ev).length := by
  obtain ⟨evs, hrun⟩ := Pool.exec_run serve_service schedule start
  have hend : (Pool.exec serve schedule start).prog 0 = .done (.error .contention) := by rfl
  have hmodify : ∀ (seen : List (Unit × Option StoredValue)) (d : Unit)
      (cur : Option StoredValue), Storage.expireAtModify 5 cur ≠ .error .contention := by
    intro _ _ cur
    cases cur <;> nofun
  have hgives := cas_gives_up_only_under_contention start _ evs hrun 0 Unit "k" (pure ())
    (fun _ _ => Storage.expireAtModify 5) nofun hmodify rfl
  exact ⟨evs, _, hrun, hend, hgives.1 hend⟩

end RustyAnt
