import RustyAnt.Storage.Keys
import RustyAnt.Storage.Linearizable

/-!
# A deletion and its reply

`DEL` loads the key and then deletes it without a condition; `GETDEL` deletes
under the token it has loaded.  Each removal of the key is reported by the
command that made it, but a `DEL` whose delete comes after another removal
reports one as well.
-/

namespace RustyAnt

open Lib

/-- A command that removes a string key: `DEL` / `UNLINK` counts the key, `GETDEL`
returns its value. -/
inductive Taker where
  | del
  | getDel

namespace Taker

def Reply : Taker → Type
  | del => Bool
  | getDel => Option Bytes

def prog (key : String) : (t : Taker) → KV t.Reply
  | del => Storage.delete key
  | getDel => Storage.getAndDelete key

/-- The reply reports the key, which held `data`, as removed. -/
def Removed (data : Bytes) : (t : Taker) → t.Reply → Prop
  | del, b => b = true
  | getDel, v => v = some data

/-- The reply reports the key as absent. -/
def Absent : (t : Taker) → t.Reply → Prop
  | del, b => b = false
  | getDel, v => v = none

end Taker

section Events

variable {ι : Type} {content : String → StoredValue} {key : String}

/-- The key is there before the event and gone after it. -/
def Removes (key : String) (ev : KVEvent ι) : Prop :=
  ev.before key ≠ none ∧ ev.after key = none

/-- `ev` is not an unconditional delete served when the key is gone already. -/
def FindsKey (key : String) (ev : KVEvent ι) : Prop :=
  ∀ who before after, ev = ⟨who, .delete key .any, .ok (), before, after⟩ → before key ≠ none

/-- `ev` neither changes anything nor is a delete served too late. -/
def Harmless (key : String) (ev : KVEvent ι) : Prop := Silent ev ∧ FindsKey key ev

theorem Silent.not_removes {ev : KVEvent ι} (h : Silent ev) : ¬ Removes key ev := by
  intro hremoves
  rw [Removes, h] at hremoves
  exact hremoves.1 hremoves.2

theorem findsKey_of_op {ev : KVEvent ι} (h : ev.op ≠ .delete key .any) : FindsKey key ev := by
  rintro who before after rfl
  exact absurd rfl h

theorem harmless_load (who : ι) (answer : Result (Option (StoredValue × String)))
    (s : Keyspace) : Harmless key (⟨who, .load key, answer, s, s⟩ : KVEvent ι) :=
  ⟨rfl, findsKey_of_op nofun⟩

theorem harmless_fault (who : ι) (e : RustyAntError) (s : Keyspace) :
    Harmless key (⟨who, .delete key .any, .error e, s, s⟩ : KVEvent ι) :=
  ⟨rfl, nofun⟩

theorem del_follows {evs : List (KVEvent ι)} {q : KV Bool}
    (h : Pool.Follows (Storage.delete key) evs q)
    (hserve : ∀ ev ∈ evs, casService content ev.before ev.op ev.answer ev.after) :
    ((∀ r, q ≠ .done (.ok r)) ∧ ∀ ev ∈ evs, Harmless key ev) ∨
      (q = .done (.ok false) ∧ ∃ load, evs = [load] ∧ Harmless key load ∧ load.before key = none) ∨
      (q = .done (.ok true) ∧ ∃ load who before, Harmless key load ∧
        evs = [load, ⟨who, .delete key .any, .ok (), before, Function.update before key none⟩]) := by
  rcases Pool.Follows.call_inv h with ⟨rfl, rfl⟩ | ⟨who, answer, before, after, evs, rfl, hrest⟩
  · exact .inl ⟨nofun, by simp⟩
  rw [List.forall_mem_cons] at hserve
  obtain ⟨hload, hserve⟩ := hserve
  have hsilent : after = before := by
    dsimp only at hload
    cases hload <;> rfl
  subst hsilent
  cases answer with
  | error e =>
      obtain ⟨rfl, rfl⟩ := Pool.Follows.done_inv hrest
      exact .inl ⟨nofun, by simpa using harmless_load who _ after⟩
  | ok loaded =>
      have hkey : after key = loaded := by
        dsimp only at hload
        cases hload
        rfl
      cases loaded with
      | none =>
          obtain ⟨rfl, rfl⟩ := Pool.Follows.done_inv hrest
          exact .inr (.inl ⟨rfl, _, rfl, harmless_load who _ after, hkey⟩)
      | some p =>
          rcases Pool.Follows.call_inv hrest with
            ⟨rfl, rfl⟩ | ⟨who', answer, before', after', evs', rfl, hlast⟩
          · exact .inl ⟨nofun, by simpa using harmless_load who _ after⟩
          rw [List.forall_mem_cons] at hserve
          have hdelete := hserve.1
          dsimp only at hdelete
          cases answer with
          | error e =>
              obtain ⟨rfl, rfl⟩ := Pool.Follows.done_inv hlast
              cases hdelete
              refine .inl ⟨nofun, ?_⟩
              simpa using ⟨harmless_load who _ after, harmless_fault who' e before'⟩
          | ok u =>
              obtain ⟨rfl, rfl⟩ := Pool.Follows.done_inv hlast
              cases hdelete
              exact .inr (.inr ⟨rfl, _, who', before', harmless_load who _ after, rfl⟩)

/-- The key holds the string `data` or nothing. -/
def HoldsOnly (key : String) (data : Bytes) (s : Keyspace) : Prop :=
  s key = none ∨ ∃ exp token, s key = some (⟨exp, .string data⟩, token)

/-- What the replies of a taker say about its own events. -/
structure TakerAccount (key : String) (data : Bytes) (t : Taker) (evs : List (KVEvent ι))
    (q : KV t.Reply) : Prop where
  /-- a removal, or a delete served too late, is reported -/
  reported : ∀ ev ∈ evs, Removes key ev ∨ ¬ FindsKey key ev →
    ∃ r, q = .done (.ok r) ∧ t.Removed data r
  /-- a removal is the taker's only delete -/
  only : ∀ ev ∈ evs, ∀ ev' ∈ evs, Removes key ev → FindsKey key ev'
  /-- a reply reports a delete, or an absence that was seen -/
  grounded : ∀ r, q = .done (.ok r) →
    (t.Removed data r ∧ ∃ ev ∈ evs, Removes key ev ∨ ¬ FindsKey key ev) ∨
      (t.Absent r ∧ ∃ ev ∈ evs, ev.before key = none)

/-- An unconditional delete that is served removes the key or is too late. -/
theorem deleted_cases (who : ι) (before : Keyspace) :
    Removes key (⟨who, .delete key .any, .ok (), before, Function.update before key none⟩ :
        KVEvent ι) ∨
      ¬ FindsKey key (⟨who, .delete key .any, .ok (), before, Function.update before key none⟩ :
        KVEvent ι) := by
  by_cases hkey : before key = none
  · exact .inr fun h => h who before _ rfl hkey
  · exact .inl ⟨hkey, Function.update_self key none before⟩

theorem del_account {data : Bytes} {evs : List (KVEvent ι)} {q : KV Bool}
    (h : Pool.Follows (Storage.delete key) evs q)
    (hserve : ∀ ev ∈ evs, casService content ev.before ev.op ev.answer ev.after) :
    TakerAccount key data .del evs q := by
  rcases del_follows h hserve with ⟨hq, hall⟩ | ⟨rfl, load, rfl, hload, hnone⟩ |
    ⟨rfl, load, who, before, hload, rfl⟩
  · constructor
    · intro ev hev hdeleted
      rcases hdeleted with hremoves | hlate
      · exact absurd hremoves (hall ev hev).1.not_removes
      · exact absurd (hall ev hev).2 hlate
    · intro ev hev ev' hev' _
      exact (hall ev' hev').2
    · intro r hr
      exact absurd hr (hq r)
  · constructor
    · intro ev hev hdeleted
      rw [List.mem_singleton.mp hev] at hdeleted
      rcases hdeleted with hremoves | hlate
      · exact absurd hremoves hload.1.not_removes
      · exact absurd hload.2 hlate
    · intro ev _ ev' hev' _
      rw [List.mem_singleton.mp hev']
      exact hload.2
    · intro r hr
      cases hr
      exact .inr ⟨rfl, load, List.mem_singleton_self load, hnone⟩
  · constructor
    · intro _ _ _
      exact ⟨true, rfl, rfl⟩
    · intro ev hev ev' hev' hremoves
      simp only [List.mem_cons, List.not_mem_nil, or_false] at hev hev'
      rcases hev with rfl | rfl
      · exact absurd hremoves hload.1.not_removes
      · rcases hev' with rfl | rfl
        · exact hload.2
        · rintro _ _ _ heq hnone
          cases heq
          exact hremoves.1 hnone
    · intro r hr
      cases hr
      exact .inl ⟨rfl, _, by simp, deleted_cases who before⟩

theorem getDelModify_ne_write {entry : Option StoredValue} {e : StoredValue}
    {r : Option Bytes} : Storage.getDelModify key entry ≠ .ok (.write e r) := by
  unfold Storage.getDelModify
  cases View.string.find key entry with
  | error err => nofun
  | ok found => cases found <;> nofun

/-- It writes nothing, and its deletes all carry a token. -/
theorem getAndDelete_requests (key : String) :
    (Storage.getAndDelete key).Requests fun op =>
      op = .load key ∨ ∃ etag, op = .delete key (.ifMatch etag) := by
  unfold Storage.getAndDelete cas casWith casMut Prog.Requests
  refine casFrom_obeys (.inl rfl) (Prog.Obeys.done trivial)
    (fun seen d loaded action _ hmodify => ?_) maxCasRetries []
  refine casCommit_obeys (fun entry r haction => ?_) fun r p _ _ => .inr ⟨_, rfl⟩
  rw [haction] at hmodify
  exact absurd hmodify getDelModify_ne_write

theorem entryAt_eq_none {s : Keyspace} : s.entryAt key = none ↔ s key = none := by
  rw [Keyspace.entryAt, Option.map_eq_none_iff]

theorem getDel_account {data : Bytes} {evs : List (KVEvent ι)} {q : KV (Option Bytes)}
    (hacc : Accounted (δ := Unit) key (fun _ _ => Storage.getDelModify key) evs q)
    (hops : ∀ ev ∈ evs, ev.op ≠ .delete key .any)
    (hholds : ∀ ev ∈ evs, HoldsOnly key data ev.before) :
    TakerAccount key data .getDel evs q := by
  have hfinds : ∀ ev ∈ evs, FindsKey key ev := fun ev hev => findsKey_of_op (hops ev hev)
  rcases hacc with ⟨r, rfl, pre, ev, post, rfl, ⟨seen, d, action, hmodify, rfl, happly, -⟩, hrest⟩ |
    ⟨hq, hall⟩
  · have hmem : ev ∈ pre ++ ev :: post := by simp
    have hothers : ∀ x ∈ pre ++ ev :: post, Removes key x → x = ev := by
      intro x hx hremoves
      by_contra hne
      refine (hrest x ?_).not_removes hremoves
      simp only [List.mem_append, List.mem_cons] at hx ⊢
      tauto
    rcases hholds ev hmem with hnone | ⟨exp, token, hsome⟩
    · rw [entryAt_eq_none.mpr hnone] at hmodify
      cases hmodify
      constructor
      · intro x hx hdeleted
        rcases hdeleted with hremoves | hlate
        · rw [hothers x hx hremoves] at hremoves
          exact absurd hnone hremoves.1
        · exact absurd (hfinds x hx) hlate
      · exact fun _ _ x hx _ => hfinds x hx
      · intro r hr
        cases hr
        exact .inr ⟨rfl, ev, hmem, hnone⟩
    · rw [Keyspace.entryAt, hsome] at hmodify
      cases hmodify
      have hremoves : Removes key ev := by
        refine ⟨by simp [hsome], ?_⟩
        rw [CasAction.apply, entryAt_eq_none] at happly
        exact happly
      constructor
      · exact fun _ _ _ => ⟨some data, rfl, rfl⟩
      · exact fun _ _ x hx _ => hfinds x hx
      · intro r hr
        cases hr
        exact .inl ⟨rfl, ev, hmem, .inl hremoves⟩
  · constructor
    · intro ev hev hdeleted
      rcases hdeleted with hremoves | hlate
      · exact absurd hremoves (hall ev hev).not_removes
      · exact absurd (hfinds ev hev) hlate
    · exact fun _ _ x hx _ => hfinds x hx
    · intro r hr
      exact absurd hr (hq r)

end Events

section Runs

variable {ι : Type} [DecidableEq ι] {takers : ι → Taker} {content : String → StoredValue}
variable {c d : Pool KVOp KVOp.Res RustyAntError Keyspace fun i => (takers i).Reply}
variable {evs : List (KVEvent ι)} {key : String} {data : Bytes}

/-- What a taker asks of the backend. -/
def Takes (key : String) (op : KVOp) : Prop :=
  op = .load key ∨ ∃ cond, op = .delete key cond

theorem taker_requests (key : String) (t : Taker) : (t.prog key).Requests (Takes key) := by
  cases t with
  | del =>
      refine Prog.Requests.bind (Prog.Requests.bind (Prog.Requests.perform (.inl rfl))
        fun _ => Prog.Requests.done _) fun entry => ?_
      split
      · exact Prog.Requests.bind (Prog.Requests.perform (.inr ⟨_, rfl⟩))
          fun _ => Prog.Requests.done _
      · exact Prog.Requests.done _
  | getDel =>
      refine (getAndDelete_requests key).mono fun op hop => ?_
      rcases hop with hop | ⟨etag, hop⟩
      · exact .inl hop
      · exact .inr ⟨_, hop⟩

theorem takes_step {s s' : Keyspace} {op : KVOp} {answer : Result op.Res}
    (h : casService content s op answer s' ∧ Takes key op) :
    s' = s ∨ s' = Function.update s key none := by
  obtain ⟨h, rfl | ⟨cond, rfl⟩⟩ := h
  · cases h <;> exact .inl rfl
  · cases h with
    | delete _ _ _ _ => exact .inr rfl
    | fault _ _ _ _ => exact .inl rfl

theorem takers_run (hrun : Pool.Run (casService content) c evs d)
    (hprog : ∀ i, c.prog i = (takers i).prog key) :
    Pool.Run (fun s op answer s' => casService content s op answer s' ∧ Takes key op) c evs d := by
  refine hrun.restrict fun i => ?_
  rw [hprog i]
  exact taker_requests key (takers i)

/-- Nobody writes the key: it keeps its value until it is gone. -/
theorem holdsOnly_run (hrun : Pool.Run (casService content) c evs d)
    (hprog : ∀ i, c.prog i = (takers i).prog key) (hc : HoldsOnly key data c.state) :
    ∀ ev ∈ evs, HoldsOnly key data ev.before := by
  intro ev hev
  refine (((takers_run hrun hprog).state_invariant _ hc fun hs hserve => ?_).2 ev hev).1
  rcases takes_step hserve with rfl | rfl
  · exact hs
  · exact .inl (Function.update_self _ _ _)

theorem removed_before
    (hrun : Pool.Run (fun s op answer s' => casService content s op answer s' ∧ Takes key op)
      c evs d) (hc : c.state key ≠ none) {ev : KVEvent ι} (hev : ev ∈ evs)
    (hnone : ev.before key = none) : ∃ x ∈ evs, Removes key x := by
  obtain ⟨pre, post, rfl⟩ := List.append_of_mem hev
  obtain ⟨m, hm, hstate⟩ := hrun.until
  have hne : c.state key ≠ m.state key := by
    rw [hstate, hnone]
    exact hc
  obtain ⟨x, hx, hchange⟩ := hm.exists_change (fun s => s key) hne
  refine ⟨x, List.mem_append_left _ hx, ?_⟩
  rcases takes_step (hm.serve x hx) with hsame | hgone
  · rw [hsame] at hchange
    exact absurd rfl hchange
  · have hafter : x.after key = none := by rw [hgone, Function.update_self]
    rw [hafter] at hchange
    exact ⟨hchange, hafter⟩

theorem not_removed_after {pre mid post : List (KVEvent ι)} {a b : KVEvent ι}
    (hrun : Pool.Run (fun s op answer s' => casService content s op answer s' ∧ Takes key op)
      c (pre ++ a :: (mid ++ b :: post)) d) (ha : Removes key a) : ¬ Removes key b := by
  obtain ⟨m, m', hmid, hm, hm'⟩ := hrun.between
  have hgone : m.state key = none := by
    rw [hm]
    exact ha.2
  have hstill : m'.state key = none := by
    refine (hmid.state_invariant (fun s => s key = none) hgone fun hs hserve => ?_).1
    rcases takes_step hserve with rfl | rfl
    · exact hs
    · exact Function.update_self _ _ _
  rw [hm'] at hstill
  exact fun hb => hb.1 hstill

theorem removed_once
    (hrun : Pool.Run (fun s op answer s' => casService content s op answer s' ∧ Takes key op)
      c evs d) {a b : KVEvent ι} (ha : a ∈ evs) (hb : b ∈ evs) (hremoves : Removes key a)
    (hremoves' : Removes key b) : a = b := by
  by_contra hne
  rcases Pool.two_events ha hb hne with ⟨pre, mid, post, rfl⟩ | ⟨pre, mid, post, rfl⟩
  · exact not_removed_after hrun hremoves hremoves'
  · exact not_removed_after hrun hremoves' hremoves

omit [DecidableEq ι] in
theorem follows_account (t : Taker) {q : KV t.Reply}
    (h : Pool.Follows (t.prog key) evs q) (hserved : ∀ ev ∈ evs, Served content ev)
    (hholds : ∀ ev ∈ evs, HoldsOnly key data ev.before) : TakerAccount key data t evs q := by
  cases t with
  | del => exact del_account h fun ev hev => (hserved ev hev).1
  | getDel =>
      have hclock : ReadsClock (pure () : KV Unit) := trivial
      refine getDel_account ?_ ?_ hholds
      · exact casFrom_accounted hclock maxCasRetries [] h hserved
      · intro ev hev heq
        have hops := h.obeys (getAndDelete_requests key) (fun _ _ => trivial) ev hev
        rw [heq] at hops
        simp at hops

theorem taker_account (hc : c.state.Versioned content) (hstart : HoldsOnly key data c.state)
    (hprog : ∀ i, c.prog i = (takers i).prog key)
    (hrun : Pool.Run (casService content) c evs d) (i : ι) :
    TakerAccount key data (takers i) (evs.filter fun ev => ev.who = i) (d.prog i) := by
  have hfollows := hrun.follows i
  rw [hprog i] at hfollows
  have hserved : ∀ ev ∈ evs.filter fun ev => ev.who = i, Served content ev := by
    intro ev hev
    have hmem := (List.mem_filter.mp hev).1
    exact ⟨hrun.serve ev hmem, ((hrun.state_invariant _ hc casService_versioned).2 ev hmem).1⟩
  refine follows_account (takers i) hfollows hserved fun ev hev => ?_
  exact holdsOnly_run hrun hprog hstart ev (List.mem_filter.mp hev).1

end Runs

/-- As soon as one of the commands has completed without error, exactly one of
them reports the key as removed and all others report it absent. -/
def RemovedOnce {ι : Type} {takers : ι → Taker} (data : Bytes)
    (d : Pool KVOp KVOp.Res RustyAntError Keyspace fun i => (takers i).Reply) : Prop :=
  (∃ i r, d.prog i = .done (.ok r)) →
    ∃ i r, d.prog i = .done (.ok r) ∧ (takers i).Removed data r ∧
      ∀ j, j ≠ i → ∀ r', d.prog j = .done (.ok r') → (takers j).Absent r'

theorem Taker.removed_not_absent {data : Bytes} (t : Taker) (r : t.Reply)
    (hremoved : t.Removed data r) : ¬ t.Absent r := by
  cases t with
  | del =>
      intro habsent
      rw [Absent, show r = true from hremoved] at habsent
      cases habsent
  | getDel =>
      intro habsent
      rw [Absent, show r = some data from hremoved] at habsent
      cases habsent

/-- `DEL`, `UNLINK` and `GETDEL` on a string key that nobody writes: the removal is
reported exactly once if and only if every unconditional delete that is served
still finds the key. -/
theorem removal_reported_once_iff {ι : Type} [DecidableEq ι] (takers : ι → Taker)
    (content : String → StoredValue) (key : String) (data : Bytes) (exp : Option Int)
    (token : String) (c d : Pool KVOp KVOp.Res RustyAntError Keyspace fun i => (takers i).Reply)
    (evs : List (KVEvent ι)) (hc : c.state.Versioned content)
    (hstart : c.state key = some (⟨exp, .string data⟩, token))
    (hprog : ∀ i, c.prog i = (takers i).prog key)
    (hrun : Pool.Run (casService content) c evs d) :
    RemovedOnce data d ↔ ∀ ev ∈ evs, FindsKey key ev := by
  have haccount := taker_account hc (.inr ⟨exp, token, hstart⟩) hprog hrun
  have halone := takers_run hrun hprog
  have hpresent : c.state key ≠ none := by simp [hstart]
  have hown : ∀ ev ∈ evs, ev ∈ evs.filter fun x => x.who = ev.who :=
    fun ev hev => List.mem_filter.mpr ⟨hev, by simp⟩
  have hreport : ∀ ev ∈ evs, Removes key ev ∨ ¬ FindsKey key ev →
      ∃ r, d.prog ev.who = .done (.ok r) ∧ (takers ev.who).Removed data r :=
    fun ev hev => (haccount ev.who).reported ev (hown ev hev)
  constructor
  · intro honce late hlate
    by_contra hfinds
    have hgone : late.before key = none := by
      simp only [FindsKey, not_forall, not_not] at hfinds
      obtain ⟨who, before, after, rfl, hgone⟩ := hfinds
      exact hgone
    obtain ⟨first, hfirst, hremoves⟩ := removed_before halone hpresent hlate hgone
    obtain ⟨r₁, hdone₁, hremoved₁⟩ := hreport first hfirst (.inl hremoves)
    obtain ⟨r₂, hdone₂, hremoved₂⟩ := hreport late hlate (.inr hfinds)
    have hwho : first.who ≠ late.who := by
      intro heq
      refine hfinds ((haccount late.who).only first ?_ late (hown late hlate) hremoves)
      exact List.mem_filter.mpr ⟨hfirst, by simpa using heq⟩
    obtain ⟨i, -, -, -, hothers⟩ := honce ⟨_, r₁, hdone₁⟩
    by_cases hi : first.who = i
    · have habsent := hothers late.who (by rw [← hi]; exact hwho.symm) r₂ hdone₂
      exact (takers late.who).removed_not_absent r₂ hremoved₂ habsent
    · exact (takers first.who).removed_not_absent r₁ hremoved₁ (hothers first.who hi r₁ hdone₁)
  · rintro hfinds ⟨i, r, hdone⟩
    have hremoval : ∃ x ∈ evs, Removes key x := by
      rcases (haccount i).grounded r hdone with ⟨-, ev, hev, hdeleted⟩ | ⟨-, ev, hev, hgone⟩
      · have hmem := (List.mem_filter.mp hev).1
        exact ⟨ev, hmem, hdeleted.resolve_right (not_not_intro (hfinds ev hmem))⟩
      · exact removed_before halone hpresent (List.mem_filter.mp hev).1 hgone
    obtain ⟨first, hfirst, hremoves⟩ := hremoval
    obtain ⟨r₁, hdone₁, hremoved₁⟩ := hreport first hfirst (.inl hremoves)
    refine ⟨first.who, r₁, hdone₁, hremoved₁, fun j hj r' hdone' => ?_⟩
    rcases (haccount j).grounded r' hdone' with ⟨-, ev, hev, hdeleted⟩ | ⟨habsent, -⟩
    · -- a second report would be a second removal
      obtain ⟨hmem, hwho⟩ := List.mem_filter.mp hev
      have hsecond := hdeleted.resolve_right (not_not_intro (hfinds ev hmem))
      rw [removed_once halone hfirst hmem hremoves hsecond] at hj
      exact absurd (by simpa using hwho) hj.symm
    · exact habsent

/-! ## Two `DEL`s on one key -/

namespace TwoDeletes

/-- Two clients that run `DEL`. -/
def twoDels : Fin 2 → Taker := fun _ => .del

def start (takers : Fin 2 → Taker) :
    Pool KVOp KVOp.Res RustyAntError Keyspace fun i => (takers i).Reply :=
  ⟨Function.update (fun _ => none) "k" (some (TwoIncrements.content "1", "1")),
    fun i => (takers i).prog "k"⟩

theorem start_versioned (takers : Fin 2 → Taker) :
    (start takers).state.Versioned TwoIncrements.content := by
  intro key e token hkey
  by_cases hk : key = "k"
  · subst hk
    cases hkey
    rfl
  · dsimp only [start] at hkey
    rw [Function.update_of_ne hk] at hkey
    cases hkey

end TwoDeletes

open TwoDeletes in
/-- Both load the key, both delete it and both count it. -/
theorem removal_reported_twice_by_twoDeletes :
    ∃ evs d, Pool.Run (casService TwoIncrements.content) (start twoDels) evs d ∧
      ¬ RemovedOnce [49] d := by
  obtain ⟨evs, hrun⟩ := Pool.exec_run TwoIncrements.serve_service [0, 1, 0, 1]
    (start twoDels)
  refine ⟨evs, _, hrun, fun honce => ?_⟩
  have hboth : ∀ i : Fin 2, (Pool.exec TwoIncrements.serve [0, 1, 0, 1]
      (start twoDels)).prog i = .done (.ok true) := by
    intro i
    match i with
    | 0 => rfl
    | 1 => rfl
  obtain ⟨i, -, -, -, hothers⟩ := honce ⟨0, true, hboth 0⟩
  have hne : ∀ i : Fin 2, i + 1 ≠ i := by decide
  exact absurd (hothers (i + 1) (hne i) true (hboth (i + 1))) nofun

open TwoDeletes in
theorem removal_reported_once_iff_on_delAndGetDel :
    ∃ evs d, Pool.Run (casService TwoIncrements.content) (start ![.del, .getDel]) evs d ∧
      (RemovedOnce [49] d ↔ ∀ ev ∈ evs, FindsKey "k" ev) := by
  obtain ⟨evs, hrun⟩ := Pool.exec_run TwoIncrements.serve_service [0, 1, 1, 0]
    (start ![.del, .getDel])
  exact ⟨evs, _, hrun, removal_reported_once_iff ![.del, .getDel] TwoIncrements.content "k" [49]
    none "1" _ _ evs (start_versioned _) rfl (fun _ => rfl) hrun⟩

end RustyAnt
