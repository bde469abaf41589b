import RustyAnt.Storage.Lapsing

/-!
# Programs of one call

A handler reads its arguments and perhaps the clock, makes one call of a method that takes effect
in one step, and turns the answer into a reply.  Such programs are serializable as the methods
are.
-/

namespace RustyAnt

open Lib

variable {α β γ : Type}

/-- At most one call that takes effect in one step, behind readings of the clocks and in front of
what is made of its answer. -/
inductive OneCall : {β : Type} → KV β → Prop
  | done {β : Type} (r : Result β) : OneCall (.done r)
  | answers {α β : Type} {p : KV α} (h : OneStep p) (f : α → Result β) :
      OneCall (p.bind fun a => .done (f a))
  | clock {β : Type} {op : KVOp} (hop : op = .nowMs ∨ op = .nanos) {f : op.Res → KV β}
      (h : ∀ now, OneCall (f now)) : OneCall (Prog.bind (.perform op) f)

/-- At most some readings of the clock, the error of one being passed on. -/
inductive Clocked : {β : Type} → KV β → Prop
  | done {β : Type} (r : Result β) : Clocked (.done r)
  | clock {β : Type} {f : Int → KV β} (h : ∀ now, Clocked (f now)) : Clocked (KV.nowMs.bind f)

namespace Clocked

theorem bind {p : KV α} {f : α → KV β} (hp : Clocked p) (hf : ∀ a, Clocked (f a)) :
    Clocked (p.bind f) := by
  induction hp with
  | done r =>
      cases r with
      | error e => exact .done _
      | ok a => exact hf a
  | clock h ih =>
      rw [Prog.bind_assoc]
      exact .clock fun now => ih now

theorem parse {x : Result α} {f : α → KV β} (h : ∀ a, Clocked (f a)) :
    Clocked ((Prog.ofExcept x).bind f) := bind (.done x) h

theorem nowMs : Clocked KV.nowMs := by
  have h : Clocked (KV.nowMs.bind fun now => .done (.ok now)) := .clock fun now => .done _
  rwa [Prog.bind_pure] at h

end Clocked

theorem Prog.ends_ofExcept_bind {x : Result α} {f : α → KV β} (h : ∀ a, ∃ r, f a = .done r) :
    ∃ r, (Prog.ofExcept x).bind f = .done r := by
  cases x with
  | error e => exact ⟨_, rfl⟩
  | ok a => exact h a

namespace OneCall

/-- Nothing more is asked of the storage once the call has been answered. -/
theorem bind {p : KV α} {f : α → KV β} (hp : OneCall p) (hf : ∀ a, ∃ r, f a = .done r) :
    OneCall (p.bind f) := by
  induction hp with
  | done r =>
      cases r with
      | error e => exact .done _
      | ok a =>
          obtain ⟨r, hr⟩ := hf a
          rw [Prog.done_ok_bind, hr]
          exact .done r
  | answers h g =>
      choose r hr using hf
      rw [Prog.bind_assoc, show (fun a => (Prog.done (g a)).bind f) =
        fun a => .done ((g a).bind r) from funext fun a => ?_]
      · exact .answers h _
      · cases g a with
        | error e => rfl
        | ok b => exact hr b
  | clock hop h ih =>
      rw [Prog.bind_assoc]
      exact .clock hop fun now => ih now hf

theorem of_oneStep {p : KV α} (h : OneStep p) : OneCall p := by
  have hp : OneCall (p.bind fun a => .done (.ok a)) := .answers h _
  rwa [Prog.bind_pure] at hp

theorem ends {p : KV α} {f : α → KV β} (h : OneStep p) (hf : ∀ a, ∃ r, f a = .done r) :
    OneCall (p.bind f) := bind (of_oneStep h) hf

theorem reply {p : KV α} {f : α → β} (h : OneStep p) :
    OneCall (p.bind fun a => .done (.ok (f a))) := .answers h _

theorem parse {x : Result α} {f : α → KV β} (h : ∀ a, OneCall (f a)) :
    OneCall ((Prog.ofExcept x).bind f) := by
  cases x with
  | error e => exact .done _
  | ok a => exact h a

theorem after {p : KV α} {f : α → KV β} (hp : Clocked p) (hf : ∀ a, OneCall (f a)) :
    OneCall (p.bind f) := by
  induction hp with
  | done r => exact parse hf
  | clock h ih =>
      rw [Prog.bind_assoc]
      exact .clock (.inl rfl) fun now => ih now

end OneCall

section Serial

variable {ι : Type} {content : String → StoredValue} {gone : String → Bool}
variable {service : Service KVOp KVOp.Res RustyAntError Keyspace}
variable {evs : List (KVEvent ι)}

theorem OneCall.inOne (hservice : Steadfast content service) {p q : KV β} (hp : OneCall p)
    (h : Pool.Follows p evs q) (hsound : ∀ ev ∈ evs, Sound content service ev) :
    Pool.InOne service p evs q := by
  induction hp generalizing evs with
  | done r => exact .ended rfl h
  | answers hp f => exact .reply h fun q' hq' => hp.inOne hservice hq' hsound
  | clock hop _ ih => exact inOne_of_clock hservice hop (fun now evs => ih now) h hsound

theorem OneCall.keepsTokens {p : KV β} (hp : OneCall p) : KeepsTokens content gone p := by
  induction hp with
  | done r => trivial
  | answers h f => exact Prog.Obeys.bind h.keepsTokens (fun _ _ => trivial) fun _ _ => trivial
  | clock hop _ ih =>
      refine Prog.Obeys.bind (keepsTokens_of_clock (.perform hop)) (fun now _ => ih now) ?_
      exact fun _ _ => trivial

/-- On a steadfast backend a run of such programs comes to the same as a serial one. -/
theorem calls_serial [DecidableEq ι] {α : ι → Type}
    {c d : Pool KVOp KVOp.Res RustyAntError Keyspace α} (hservice : Steadfast content service)
    (hc : c.state.Versioned content) (hrun : Pool.Run service c evs d)
    (hcall : ∀ i, OneCall (c.prog i)) :
    ∃ order e, Pool.Serial service c order e ∧ e.state = d.state ∧
      order.Sublist (evs.map Event.who) ∧ (∀ i ∈ order, e.prog i = d.prog i) ∧
      ∀ i, i ∉ order → e.prog i = c.prog i ∧ ∀ r, d.prog i = .done r →
        (∃ err, r = .error err ∧ ∃ ev ∈ evs, ev.who = i ∧ ev.answer = .error err) ∨
          c.prog i = .done r :=
  hrun.serial fun i => (hcall i).inOne hservice (hrun.follows i) fun ev hev =>
    run_sound hservice hc hrun ev (List.mem_filter.mp hev).1

end Serial

end RustyAnt
