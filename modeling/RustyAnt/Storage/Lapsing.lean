import RustyAnt.Lib.Refinement
import RustyAnt.Storage.Serializable

/-!
# The store both backends implement

One atomic map from keys to entries and tokens, in which an entry whose token is gone (its
deadline has passed) is not kept.  It leaves open how an expired entry is found and collected,
which the two backends do in requests of their own.
-/

namespace RustyAnt

open Lib

variable {content : String → StoredValue} {gone : String → Bool}

/-- The entry stored under a token, unless it is gone. -/
def standing (content : String → StoredValue) (gone : String → Bool) (token : String) :
    Option (StoredValue × String) :=
  if gone token then none else some (content token, token)

theorem standing_eq_some {token : String} {p : StoredValue × String} :
    standing content gone token = some p ↔ gone token = false ∧ p = (content token, token) := by
  unfold standing
  cases gone token with
  | false => simp [eq_comm]
  | true => simp

theorem standing_of_not_gone {token : String} (h : gone token = false) :
    standing content gone token = some (content token, token) :=
  standing_eq_some.mpr ⟨h, rfl⟩

theorem standing_of_gone {token : String} (h : gone token = true) :
    standing content gone token = none := by
  unfold standing
  rw [h]
  rfl

/-- The atomic map as a service.  What a page, a walk or a count answers is left open: any page, any
keys and any number will do.  Clearing the whole store is not one of its operations. -/
inductive lapsingService (content : String → StoredValue) (gone : String → Bool) :
    Service KVOp KVOp.Res RustyAntError Keyspace
  | load (s : Keyspace) (key : String) :
      lapsingService content gone s (.load key) (.ok (s key : Option (StoredValue × String))) s
  | save (s : Keyspace) (key : String) (cond : WriteCondition) (token : String)
      (hcond : cond.Met (s key)) :
      lapsingService content gone s (.save key (content token) cond) (.ok ())
        (Function.update s key (standing content gone token))
  | delete (s : Keyspace) (key : String) (cond : DeleteCondition) (hcond : cond.Met (s key)) :
      lapsingService content gone s (.delete key cond) (.ok ()) (Function.update s key none)
  | listPage (s : Keyspace) (cursor : Option String) (maxKeys : Nat) (page : ListPage) :
      lapsingService content gone s (.listPage cursor maxKeys) (.ok page) s
  | walk (s : Keyspace) (keys : List String) : lapsingService content gone s .walk (.ok keys) s
  | countKeys (s : Keyspace) (n : Int) : lapsingService content gone s .countKeys (.ok n) s
  | nowMs (s : Keyspace) (now : Int) : lapsingService content gone s .nowMs (.ok now) s
  | nanos (s : Keyspace) (n : UInt64) : lapsingService content gone s .nanos (.ok n) s
  | fault (s : Keyspace) (op : KVOp) (e : RustyAntError) :
      lapsingService content gone s op (.error e) s

/-- All entries stand under their tokens, and none of them is gone. -/
def Keyspace.Standing (content : String → StoredValue) (gone : String → Bool) (s : Keyspace) :
    Prop := ∀ key p, s key = some p → standing content gone p.2 = some p

theorem Keyspace.Standing.versioned {s : Keyspace} (h : s.Standing content gone) :
    s.Versioned content := by
  intro key e token hkey
  have hstanding := standing_eq_some.mp (h key _ hkey)
  exact (congrArg Prod.fst hstanding.2).symm

section Laws

variable {s t : Keyspace} {key : String}

theorem lapsing_versioned {op : KVOp} {answer : Result op.Res} (hs : s.Versioned content)
    (h : lapsingService content gone s op answer t) : t.Versioned content := by
  cases h with
  | save _ key cond token hcond =>
      intro key' e token' hkey
      by_cases hk : key' = key
      · subst hk
        rw [Function.update_self] at hkey
        obtain ⟨-, hp⟩ := standing_eq_some.mp hkey
        cases hp
        rfl
      · rw [Function.update_of_ne hk] at hkey
        exact hs key' e token' hkey
  | delete _ key cond hcond =>
      intro key' e token' hkey
      by_cases hk : key' = key
      · subst hk
        rw [Function.update_self] at hkey
        cases hkey
      · rw [Function.update_of_ne hk] at hkey
        exact hs key' e token' hkey
  | load _ _ => exact hs
  | listPage _ _ _ _ => exact hs
  | walk _ _ => exact hs
  | countKeys _ _ => exact hs
  | nowMs _ _ => exact hs
  | nanos _ _ => exact hs
  | fault _ _ _ => exact hs

theorem lapsing_loaded {answer : Result (KVOp.load key).Res}
    (h : lapsingService content gone s (.load key) answer t) :
    t = s ∧ ∀ loaded, answer = .ok loaded → s key = loaded := by
  cases h with
  | load _ _ => exact ⟨rfl, fun loaded hloaded => Except.ok.inj hloaded⟩
  | fault _ _ _ => exact ⟨rfl, nofun⟩

theorem lapsing_clock {op : KVOp} {answer : Result op.Res} (hop : op = .nowMs ∨ op = .nanos)
    (h : lapsingService content gone s op answer t) :
    t = s ∧ ∀ u, lapsingService content gone u op answer u := by
  rcases hop with rfl | rfl
  · cases h with
    | nowMs _ now => exact ⟨rfl, fun u => .nowMs u now⟩
    | fault _ _ e => exact ⟨rfl, fun u => .fault u _ e⟩
  · cases h with
    | nanos _ n => exact ⟨rfl, fun u => .nanos u n⟩
    | fault _ _ e => exact ⟨rfl, fun u => .fault u _ e⟩

theorem lapsing_saved {entry : StoredValue} {cond : WriteCondition} {answer : Result Unit}
    (h : lapsingService content gone s (.save key entry cond) answer t) :
    (∀ u, answer = .ok u → cond.Met (s key)) ∧ ∀ e, answer = .error e → t = s := by
  cases h with
  | save _ _ _ token hcond => exact ⟨fun _ _ => hcond, nofun⟩
  | fault _ _ e => exact ⟨nofun, fun _ _ => rfl⟩

theorem lapsing_deleted {cond : DeleteCondition} {answer : Result Unit}
    (h : lapsingService content gone s (.delete key cond) answer t) :
    (∀ u, answer = .ok u → cond.Met (s key)) ∧ ∀ e, answer = .error e → t = s := by
  cases h with
  | delete _ _ _ hcond => exact ⟨fun _ _ => hcond, nofun⟩
  | fault _ _ e => exact ⟨nofun, fun _ _ => rfl⟩

theorem steadfast_lapsing (content : String → StoredValue) (gone : String → Bool) :
    Steadfast content (lapsingService content gone) where
  load key s := .load s key
  loaded := lapsing_loaded
  clock := lapsing_clock
  saved := lapsing_saved
  deleted := lapsing_deleted
  versioned := lapsing_versioned

/-- A failed request changes nothing, and may be what the whole operation has met with. -/
theorem fault_above (op : KVOp) (e : RustyAntError) (h : t = s) :
    lapsingService content gone s op (.error e) t := by
  rw [h]
  exact .fault s op e

theorem load_above {loaded : Option (StoredValue × String)} (h : t = s) (hloaded : s key = loaded) :
    lapsingService content gone s (.load key) (.ok loaded) t := by
  rw [h, ← hloaded]
  exact .load s key

theorem read_linearizes {Op : Type} {Res : Op → Type} {σ ι : Type} {abs : σ → Keyspace} (op : KVOp)
    {op' : Op} {k : Result (Res op') → Prog Op Res RustyAntError op.Res}
    {p q : Prog Op Res RustyAntError op.Res} {evs : List (Event Op Res RustyAntError σ ι)}
    (h : Pool.Follows p evs q) (hp : p = .call op' k) (herror : ∀ e, k (.error e) = .done (.error e))
    (hok : ∀ s r, ∃ out, k (.ok r) = .done out ∧ lapsingService content gone s op out s)
    (hhidden : ∀ ev ∈ evs, ev.op = op' → Pool.Hidden abs ev) :
    Pool.Linearizes (lapsingService content gone) abs op evs q := by
  subst hp
  refine .of_request h fun who answer before after hev => ?_
  rw [show abs after = abs before from hhidden _ hev rfl]
  cases answer with
  | error e => exact ⟨.error e, herror e, .fault _ op e⟩
  | ok r => exact hok (abs before) r

end Laws

/-! ## Programs that write under the tokens they have loaded -/

/-- What a load shows: entries under the tokens they stand under. -/
def Shown (content : String → StoredValue) (gone : String → Bool) :
    (op : KVOp) → Result op.Res → Prop
  | .load _, answer => ∀ p : StoredValue × String, answer = .ok (some p) →
      standing content gone p.2 = some p
  | _, _ => True

/-- A write under a token names one that stands, and the store is never cleared. -/
def NamesStanding (gone : String → Bool) : KVOp → Prop
  | .save _ _ (.ifMatch token) => gone token = false
  | .delete _ (.ifMatch token) => gone token = false
  | .flushAll => False
  | _ => True

theorem shown_of_standing {s : Keyspace} (hs : s.Standing content gone) {op : KVOp}
    {answer : Result op.Res} {t : Keyspace} (h : lapsingService content gone s op answer t) :
    Shown content gone op answer := by
  cases h with
  | load _ key =>
      intro p hp
      exact hs key p (Except.ok.inj hp)
  | fault _ op e =>
      cases op with
      | load key => exact nofun
      | _ => trivial
  | _ => trivial

section Obligations

variable {β R δ : Type} {key : String}

abbrev KeepsTokens (content : String → StoredValue) (gone : String → Bool) (p : KV β) : Prop :=
  p.Obeys (Shown content gone) (NamesStanding gone) fun _ => True

theorem KeepsTokens.of_requests {p : KV β} {guar : KVOp → Prop} (h : p.Requests guar)
    (himp : ∀ op, guar op → NamesStanding gone op) : KeepsTokens content gone p := by
  induction p with
  | done r => trivial
  | call op k ih => exact ⟨himp op h.1, fun r _ => ih r (h.2 r trivial)⟩

theorem keepsTokens_of_clock {p : KV β} (h : ReadsClock p) : KeepsTokens content gone p := by
  refine .of_requests h fun op hop => ?_
  rcases hop with rfl | rfl <;> trivial

theorem keepsTokens_casWith {draw : KV δ} (hclock : ReadsClock draw)
    (modify : δ → Option StoredValue → Result (CasAction R)) :
    KeepsTokens content gone (casWith key draw modify) := by
  unfold casWith casMut
  refine casFrom_obeys trivial (keepsTokens_of_clock hclock) ?_ maxCasRetries []
  intro seen d loaded action hloaded hmodify
  refine casCommit_obeys (fun entry r haction => ?_) fun r p haction hp => ?_
  · cases loaded with
    | none => trivial
    | some p => exact (standing_eq_some.mp (hloaded p rfl)).1
  · subst hp
    exact (standing_eq_some.mp (hloaded p rfl)).1

theorem OneStep.keepsTokens {p : KV β} (hp : OneStep p) : KeepsTokens content gone p := by
  cases hp with
  | reads h =>
      obtain ⟨k, rfl, herror, hclock⟩ := h
      refine ⟨trivial, fun answer _ => ?_⟩
      cases answer with
      | error e =>
          rw [herror e]
          trivial
      | ok loaded => exact keepsTokens_of_clock (hclock loaded)
  | cas key draw hclock modify => exact keepsTokens_casWith hclock modify
  | save key entry => exact ⟨trivial, fun _ _ => trivial⟩
  | create key value exp =>
      rw [setStringNx_eq]
      refine ⟨trivial, fun answer _ => ?_⟩
      cases answer with
      | error e => trivial
      | ok loaded =>
          refine ⟨trivial, fun saved _ => ?_⟩
          rcases created_done saved with ⟨b, hb, -⟩ | ⟨e, -, he⟩
          · rw [hb]
            trivial
          · rw [he]
            trivial
  | timed key draw hclock modify =>
      refine ⟨trivial, fun answer _ => ?_⟩
      cases answer with
      | error e => trivial
      | ok now => exact keepsTokens_casWith hclock (modify now)

end Obligations

end RustyAnt
