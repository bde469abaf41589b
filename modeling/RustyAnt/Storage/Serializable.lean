import RustyAnt.Storage.OneStep

/-!
# Single-key methods are serializable

Any number of clients that call methods of `Storage` on one key each, interleaved request by
request on a backend whose requests are atomic, get the answers and leave the keyspace that the
same calls would have made one after the other.
-/

namespace RustyAnt

open Lib

/-- A backend whose tokens determine the entries and which refuses a conditional write exactly
when its condition is false. -/
def soundService (content : String → StoredValue) :
    Service KVOp KVOp.Res RustyAntError Keyspace :=
  fun s op answer s' => casService content s op answer s' ∧ strictService s op answer s'

section Steadfast

variable {content : String → StoredValue} {s t : Keyspace} {key : String}

theorem sound_load (content : String → StoredValue) (key : String) (s : Keyspace) :
    soundService content s (.load key) (.ok (s key : Option (StoredValue × String))) s :=
  ⟨.load s key, .load s key⟩

theorem sound_loaded {answer : Result (KVOp.load key).Res}
    (h : soundService content s (.load key) answer t) :
    t = s ∧ ∀ loaded, answer = .ok loaded → s key = loaded := by
  obtain ⟨h, -⟩ := h
  cases h with
  | load _ _ => exact ⟨rfl, fun loaded hloaded => Except.ok.inj hloaded⟩
  | fault _ _ e hop => exact ⟨rfl, nofun⟩

theorem sound_clock {op : KVOp} {answer : Result op.Res} (hop : op = .nowMs ∨ op = .nanos)
    (h : soundService content s op answer t) :
    t = s ∧ ∀ u, soundService content u op answer u := by
  obtain ⟨hcas, hstrict⟩ := h
  obtain ⟨rfl, hcontention⟩ := strictService_clock hstrict hop
  refine ⟨rfl, fun u => ?_⟩
  cases answer with
  | ok reading =>
      rcases hop with rfl | rfl
      · exact ⟨.nowMs u reading, .nowMs u reading⟩
      · exact ⟨.nanos u reading, .nanos u reading⟩
  | error e =>
      have he : e ≠ .contention := by
        rintro rfl
        exact hcontention rfl
      have hflush : op ≠ .flushAll := by
        rintro rfl
        rcases hop with hop | hop <;> cases hop
      exact ⟨.fault u op e hflush, .fault u op e hflush he⟩

theorem sound_saved {entry : StoredValue} {cond : WriteCondition} {answer : Result Unit}
    (h : soundService content s (.save key entry cond) answer t) :
    (∀ u, answer = .ok u → cond.Met (s key)) ∧ ∀ e, answer = .error e → t = s := by
  obtain ⟨h, -⟩ := h
  cases h with
  | save _ _ _ token hcond => exact ⟨fun _ _ => hcond, nofun⟩
  | fault _ _ e _ => exact ⟨nofun, fun _ _ => rfl⟩

theorem sound_deleted {cond : DeleteCondition} {answer : Result Unit}
    (h : soundService content s (.delete key cond) answer t) :
    (∀ u, answer = .ok u → cond.Met (s key)) ∧ ∀ e, answer = .error e → t = s := by
  obtain ⟨h, -⟩ := h
  cases h with
  | delete _ _ _ hcond => exact ⟨fun _ _ => hcond, nofun⟩
  | fault _ _ e _ => exact ⟨nofun, fun _ _ => rfl⟩

theorem steadfast_sound (content : String → StoredValue) :
    Steadfast content (soundService content) where
  load := sound_load content
  loaded := sound_loaded
  clock := sound_clock
  saved := sound_saved
  deleted := sound_deleted
  versioned hs h := casService_versioned hs h.1

end Steadfast

/-- Any interleaving of such calls is worth a run in which they are made one after the other,
without interruption, and which leaves the same keyspace.  It makes the calls that have ended,
each with the result it has, except for those that have passed on the error of a request and
have changed nothing; and it makes them in an order in which some request of each came up. -/
theorem methods_serializable {ι : Type} [DecidableEq ι] {α : ι → Type} (x : Externs)
    (content : String → StoredValue) (methods : (i : ι) → Method (α i)) (hsingle : ∀ i, (methods i).single = true) (s : Keyspace)
    (hs : s.Versioned content) (evs : List (KVEvent ι))
    (d : Pool KVOp KVOp.Res RustyAntError Keyspace α)
    (hrun : Pool.Run (soundService content) ⟨s, fun i => (methods i).prog x⟩ evs d) :
    ∃ order e, Pool.Serial (soundService content) ⟨s, fun i => (methods i).prog x⟩ order e ∧
      e.state = d.state ∧ order.Sublist (evs.map Event.who) ∧ (∀ i ∈ order, e.prog i = d.prog i) ∧
      ∀ i, i ∉ order → e.prog i = (methods i).prog x ∧ ∀ r, d.prog i = .done r →
        ∃ err, r = .error err ∧ ∃ ev ∈ evs, ev.who = i ∧ ev.answer = .error err :=
  run_serial (steadfast_sound content) hs hrun fun i => (methods i).oneStep (hsingle i)

/-- A backend of this kind that answers whatever it can, under the tokens given. -/
def steady (content : String → StoredValue) (tokenOf : StoredValue → String) :
    (op : KVOp) → Keyspace → Result op.Res × Keyspace
  | .load key, s => (.ok (s key : Option (StoredValue × String)), s)
  | .save key entry cond, s =>
      if content (tokenOf entry) = entry then
        if cond.Met (s key) then
          (.ok (), Function.update s key (some (entry, tokenOf entry)))
        else (.error .contention, s)
      else (.error (.io "no token"), s)
  | .delete key cond, s =>
      if cond.Met (s key) then (.ok (), Function.update s key none) else (.error .contention, s)
  | .listPage _ _, s => (.ok ⟨[], none⟩, s)
  | .walk, s => (.ok ([] : List String), s)
  | .countKeys, s => (.ok (0 : Int), s)
  | .flushAll, _ => (.ok (), fun _ => none)
  | .nowMs, s => (.ok (0 : Int), s)
  | .nanos, s => (.ok (0 : UInt64), s)

theorem steady_service (content : String → StoredValue) (tokenOf : StoredValue → String)
    (op : KVOp) (s : Keyspace) :
    soundService content s op (steady content tokenOf op s).1 (steady content tokenOf op s).2 := by
  cases op with
  | load key => exact sound_load content key s
  | save key entry cond =>
      unfold steady
      dsimp only
      by_cases htoken : content (tokenOf entry) = entry
      · rw [if_pos htoken]
        by_cases hmet : cond.Met (s key)
        · rw [if_pos hmet]
          have hsave : casService content s (.save key (content (tokenOf entry)) cond) (.ok ())
              (Function.update s key (some (content (tokenOf entry), tokenOf entry))) :=
            .save s key cond (tokenOf entry) hmet
          rw [htoken] at hsave
          exact ⟨hsave, .save s key entry cond _ hmet⟩
        · rw [if_neg hmet]
          exact ⟨.fault s _ _ nofun, .saveRefused s key entry cond hmet⟩
      · rw [if_neg htoken]
        exact ⟨.fault s _ _ nofun, .fault s _ _ nofun nofun⟩
  | delete key cond =>
      unfold steady
      dsimp only
      by_cases hmet : cond.Met (s key)
      · rw [if_pos hmet]
        exact ⟨.delete s key cond hmet, .delete s key cond hmet⟩
      · rw [if_neg hmet]
        exact ⟨.fault s _ _ nofun, .deleteRefused s key cond hmet⟩
  | listPage cursor maxKeys => exact ⟨.listPage s cursor maxKeys _, .listPage s cursor maxKeys _⟩
  | walk => exact ⟨.walk s _, .walk s _⟩
  | countKeys => exact ⟨.countKeys s _, .countKeys s _⟩
  | flushAll =>
      exact ⟨.flushAll s (fun _ => false) (.ok ()), .flushAll s (fun _ => false) (.ok ())⟩
  | nowMs => exact ⟨.nowMs s 0, .nowMs s 0⟩
  | nanos => exact ⟨.nanos s 0, .nanos s 0⟩

namespace TwoIncrements

/-- The two increments as methods. -/
def methods (i : Fin 2) : Method Int := .string (.incrBy "k" (deltas i))

end TwoIncrements

open TwoIncrements in
/-- Both load before the first of them writes, and the second one has to try again. -/
theorem methods_serializable_on_twoIncrements :
    ∃ evs d, Pool.Run (soundService content) start evs d ∧
      (d.prog 0).returned = some 1 ∧ (d.prog 1).returned = some 3 ∧
      ∃ order e, Pool.Serial (soundService content) start order e ∧ e.state = d.state ∧
        order.Sublist (evs.map Event.who) ∧ ∀ i ∈ order, e.prog i = d.prog i := by
  obtain ⟨evs, hrun⟩ := Pool.exec_run (steady_service content tokenOf) schedule start
  have hserial := methods_serializable ⟨.integral, fun _ _ => false⟩ content methods (fun _ => rfl) (fun _ => none) nofun evs _
    hrun
  obtain ⟨order, e, horder, hstate, hsub, hin, -⟩ := hserial
  exact ⟨evs, _, hrun, by decide, by decide, order, e, horder, hstate, hsub, hin⟩

end RustyAnt
