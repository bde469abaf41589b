import RustyAnt.DynamoDb.Refinement
import RustyAnt.Storage.OneCall

/-!
# Methods on DynamoDB

An entry over the item limit is refused before anything is sent, so a method on the tables is the
method of the store with a closure that looks at the size.  The single-key methods are
serializable on the tables as they are on the store.
-/

namespace RustyAnt

open Lib

namespace DynamoDb

/-! ## The item limit -/

section OneStep

variable {β R δ : Type} {fo : FloatOps}

def checked (fo : FloatOps) : CasAction R → Result (CasAction R)
  | .write entry r => (overLimit fo entry).elim (.ok (.write entry r)) .error
  | .delete r => .ok (.delete r)
  | .noOp r => .ok (.noOp r)

def limited (fo : FloatOps) (modify : δ → Option StoredValue → Result (CasAction R)) (d : δ)
    (entry : Option StoredValue) : Result (CasAction R) :=
  (modify d entry).bind (checked fo)

theorem overLimit_parse {entry : StoredValue} {e : RustyAntError} (h : overLimit fo entry = some e) :
    ∃ msg, e = .parse msg := by
  unfold overLimit at h
  split at h
  · exact ⟨_, (Option.some.inj h).symm⟩
  · cases h

theorem putOver_resolve (key : String) (entry : StoredValue) (cond : WriteCondition) (r : R) :
    (orContention r (KV.save key entry cond)).resolve (tooLarge fo) =
      (overLimit fo entry).elim (orContention r (KV.save key entry cond))
        fun e => .done (.error e) := by
  cases hover : overLimit fo entry with
  | none =>
      exact Prog.resolve_of_requests (orContention_obeys
        ⟨tooLarge_of_fits hover key cond, fun _ _ => trivial⟩)
  | some e =>
      obtain ⟨msg, rfl⟩ := overLimit_parse hover
      exact Prog.resolve_call_known (tooLarge_of_over hover key cond)

theorem casCommit_resolve (key : String) (loaded : Option (StoredValue × String))
    (action : CasAction R) :
    (casCommit key loaded action).resolve (tooLarge fo) =
      (Prog.ofExcept (checked fo action)).bind (casCommit key loaded) := by
  cases action with
  | noOp r => rfl
  | delete r =>
      cases loaded with
      | none => rfl
      | some p =>
          exact Prog.resolve_of_requests (orContention_obeys ⟨rfl, fun _ _ => trivial⟩)
  | write entry r =>
      have hwrite : ∀ cond, (orContention r (KV.save key entry cond)).resolve (tooLarge fo) =
          (Prog.ofExcept (checked fo (.write entry r))).bind fun _ =>
            orContention r (KV.save key entry cond) := by
        intro cond
        rw [putOver_resolve, checked]
        cases overLimit fo entry <;> rfl
      have hsame : (Prog.ofExcept (checked fo (.write entry r))).bind (casCommit key loaded) =
          (Prog.ofExcept (checked fo (.write entry r))).bind fun _ =>
            casCommit key loaded (.write entry r) := by
        rw [checked]
        cases overLimit fo entry <;> rfl
      rw [hsame]
      cases loaded with
      | none => exact hwrite .createOnly
      | some p => exact hwrite (.ifMatch p.2)

theorem clock_resolve {draw : KV δ} (h : RustyAnt.ReadsClock draw) : draw.resolve (tooLarge fo) = draw := by
  refine Prog.resolve_of_requests (h.mono fun op hop => ?_)
  rcases hop with rfl | rfl <;> rfl

/-- `cas` on the tables is `cas` with a closure that looks at the size. -/
theorem casFrom_resolve (key : String) {draw : KV δ} (hclock : RustyAnt.ReadsClock draw)
    (modify : δ → Option StoredValue → Result (CasAction R)) (left : Nat)
    (seen : List (δ × Option StoredValue)) :
    (casFrom key draw (fun _ => modify) left seen).resolve (tooLarge fo) =
      casFrom key draw (fun _ => limited fo modify) left seen := by
  induction left generalizing seen with
  | zero => rfl
  | succ left ih =>
      rw [casFrom_succ, casFrom_succ, Prog.resolve_call rfl]
      refine congrArg (Prog.call _) (funext fun answer => ?_)
      cases answer with
      | error e => rfl
      | ok loaded =>
          rw [Prog.done_ok_bind, Prog.done_ok_bind]
          unfold attemptOf
          rw [Prog.resolve_bind, clock_resolve hclock]
          refine congrArg (Prog.bind draw) (funext fun d => ?_)
          unfold limited
          cases modify d (loaded.map Prod.fst) with
          | error e => rfl
          | ok action =>
              show ((casCommit key loaded action).bind fun res =>
                res.elim (casFrom key draw (fun _ => modify) left (seen ++ [(d, loaded.map Prod.fst)]))
                  fun r => Prog.done (.ok r)).resolve (tooLarge fo) =
                (Prog.ofExcept (checked fo action)).bind fun action =>
                  (casCommit key loaded action).bind fun res => res.elim
                    (casFrom key draw (fun _ => limited fo modify) left
                      (seen ++ [(d, loaded.map Prod.fst)])) fun r => Prog.done (.ok r)
              rw [Prog.resolve_bind, show (casCommit key loaded action).resolve (tooLarge fo) = _ from
                casCommit_resolve key loaded action, Prog.bind_assoc]
              refine congrArg _ (funext fun action => congrArg _ (funext fun res => ?_))
              cases res with
              | none => exact ih _
              | some r => rfl

theorem resolve_oneStep {p : KV β} (hp : OneStep p) :
    OneStep (p.resolve (tooLarge fo)) ∨ ∃ e, p.resolve (tooLarge fo) = .done (.error e) := by
  cases hp with
  | reads h =>
      obtain ⟨k, rfl, herror, hclock⟩ := h
      refine .inl (.reads ⟨fun r => (k r).resolve (tooLarge fo), Prog.resolve_call rfl,
        fun e => ?_, fun loaded => ?_⟩)
      · show (k (.error e)).resolve (tooLarge fo) = _
        rw [herror]
        rfl
      · show RustyAnt.ReadsClock ((k (.ok loaded)).resolve (tooLarge fo))
        rw [clock_resolve (hclock loaded)]
        exact hclock loaded
  | cas key draw hclock modify =>
      rw [casWith, casMut, casFrom_resolve key hclock]
      exact .inl (.cas key draw hclock (limited fo modify))
  | save key entry =>
      cases hover : overLimit fo entry with
      | none =>
          have hsave : (KV.save key entry .any).resolve (tooLarge fo) = KV.save key entry .any :=
            Prog.resolve_of_requests ⟨tooLarge_of_fits hover key .any, fun _ _ => trivial⟩
          rw [hsave]
          exact .inl (.save key entry)
      | some e => exact .inr ⟨e, Prog.resolve_call_known (tooLarge_of_over hover key .any)⟩
  | create key value exp =>
      refine .inl ?_
      cases hover : overLimit fo ⟨exp, .string value⟩ with
      | none =>
          have hcreate : (Storage.setStringNx key value exp).resolve (tooLarge fo) =
              Storage.setStringNx key value exp := by
            rw [setStringNx_eq]
            refine Prog.resolve_of_requests ⟨rfl, fun answer _ => ?_⟩
            cases answer with
            | error e => trivial
            | ok loaded =>
                refine ⟨tooLarge_of_fits hover key .createOnly, fun saved _ => ?_⟩
                rcases created_done saved with ⟨b, hb, -⟩ | ⟨e, -, he⟩
                · rw [hb]
                  trivial
                · rw [he]
                  trivial
          rw [hcreate]
          exact .create key value exp
      | some e =>
          obtain ⟨msg, rfl⟩ := overLimit_parse hover
          rw [setStringNx_eq, Prog.resolve_call rfl]
          refine .reads ⟨_, rfl, fun e => rfl, fun loaded => ?_⟩
          have hrefused : Prog.resolve (tooLarge fo)
              (.call (.save key ⟨exp, .string value⟩ .createOnly) created : KV Bool) =
                .done (.error (.parse msg)) :=
            Prog.resolve_call_known (tooLarge_of_over hover key .createOnly)
          show RustyAnt.ReadsClock (Prog.resolve (tooLarge fo)
            (.call (.save key ⟨exp, .string value⟩ .createOnly) created))
          rw [hrefused]
          trivial
  | timed key draw hclock modify =>
      have htimed : (KV.nowMs.bind fun now => casWith key draw (modify now)).resolve (tooLarge fo) =
          KV.nowMs.bind fun now => casWith key draw (limited fo (modify now)) := by
        rw [Prog.resolve_bind]
        exact congrArg _ (funext fun now => casFrom_resolve key hclock (modify now) _ _)
      rw [htimed]
      exact .inl (.timed key draw hclock _)

theorem resolve_oneCall {p : KV β} (hp : OneCall p) : OneCall (p.resolve (tooLarge fo)) := by
  induction hp with
  | done r => exact .done r
  | answers h f =>
      rw [Prog.resolve_bind]
      rcases resolve_oneStep h with hstep | ⟨e, he⟩
      · exact .answers hstep f
      · rw [he]
        exact .done _
  | clock hop _ ih =>
      rw [Prog.resolve_bind, clock_resolve (.perform hop)]
      exact .clock hop ih

end OneStep

/-! ## Tables that stay settled -/

section Settling

variable {ι : Type} {content : String → StoredValue} {kinds : String → ValueKind}

/-- The action puts only what its version stands for, and shows a key with its kind. -/
def marks (kinds : String → ValueKind) (content : String → StoredValue) : TransactItem → Bool
  | .putData kind _ row _ => decide ((Codec.storedValue.dec row.data).toOption =
      some (content (encodeToken kind row.version)))
  | .putIndex key row _ => decide (row.kind = (kinds key).asStr)
  | .deleteData _ _ _ => true
  | .deleteIndex _ _ => true

theorem settled_apply {t : Tables} (ht : Settled kinds content t) {item : TransactItem}
    (hitem : marks kinds content item = true) : Settled kinds content (item.apply t) := by
  refine ⟨fun key row hrow => ?_, fun key k row hrow => ?_⟩
  · cases item with
    | putIndex key' row' cond =>
        simp only [TransactItem.apply, Std.ExtTreeMap.getElem?_insert] at hrow
        split at hrow
        · rename_i hkey
          rw [Std.LawfulEqCmp.compare_eq_iff_eq] at hkey
          rw [← hkey, ← Option.some.inj hrow]
          exact of_decide_eq_true hitem
        · exact ht.kind key row hrow
    | deleteIndex key' kind =>
        simp only [TransactItem.apply, Std.ExtTreeMap.getElem?_erase] at hrow
        split at hrow
        · cases hrow
        · exact ht.kind key row hrow
    | putData _ _ _ _ => exact ht.kind key row hrow
    | deleteData _ _ _ => exact ht.kind key row hrow
  · rcases data_apply hrow with hold | ⟨old, rfl⟩
    · exact ht.tagged key k row hold
    · have hmarked := of_decide_eq_true hitem
      cases hdec : Codec.storedValue.dec row.data with
      | error e =>
          rw [hdec] at hmarked
          cases hmarked
      | ok entry =>
          rw [hdec] at hmarked
          rw [Option.some.inj hmarked]

theorem settled_applyAll {t : Tables} (ht : Settled kinds content t) {items : List TransactItem}
    (hitems : ∀ item ∈ items, marks kinds content item = true) :
    Settled kinds content (t.applyAll items) := by
  induction items generalizing t with
  | nil => exact ht
  | cons item items ih =>
      rw [List.forall_mem_cons] at hitems
      exact ih (settled_apply ht hitems.1) hitems.2

/-- DynamoDB that commits only what the versions given stand for, at fixed clocks. -/
def settling (kinds : String → ValueKind) (content : String → StoredValue) (nanos : UInt64) :
    (op : DdbOp) → Tables → Result op.Res × Tables
  | .transact items, t =>
      if items.all (marks kinds content) then Tables.serve 0 nanos (.transact items) t
      else (.error (.io "not marked"), t)
  | .getIndex key, t => Tables.serve 0 nanos (.getIndex key) t
  | .getData kind key, t => Tables.serve 0 nanos (.getData kind key) t
  | .scan start limit, t => Tables.serve 0 nanos (.scan start limit) t
  | .scanAll, t => Tables.serve 0 nanos .scanAll t
  | .nowMs, t => Tables.serve 0 nanos .nowMs t
  | .nanos, t => Tables.serve 0 nanos .nanos t

/-- DynamoDB, as long as it keeps the tables settled. -/
def settledService (kinds : String → ValueKind) (content : String → StoredValue) :
    Service DdbOp DdbOp.Res RustyAntError Tables := fun t op answer t' =>
  ddbService t op answer t' ∧ (Settled kinds content t → Settled kinds content t')

theorem settling_service (nanos : UInt64) (op : DdbOp) (t : Tables) :
    settledService kinds content t op (settling kinds content nanos op t).1
      (settling kinds content nanos op t).2 := by
  cases op with
  | transact items =>
      unfold settling
      dsimp only
      by_cases hmarks : items.all (marks kinds content) = true
      · rw [if_pos hmarks]
        refine ⟨Tables.serve_service 0 nanos (.transact items) t, fun ht => ?_⟩
        show Settled kinds content (t.transact items).2
        unfold Tables.transact
        split
        · exact settled_applyAll ht (List.all_eq_true.mp hmarks)
        · exact ht
      · rw [if_neg hmarks]
        exact ⟨.fault t _ _, id⟩
  | getIndex key => exact ⟨.getIndex t key, id⟩
  | getData kind key => exact ⟨.getData t kind key, id⟩
  | scan start limit => exact ⟨.scan t start limit _, id⟩
  | scanAll => exact ⟨.scanAll t _, id⟩
  | nowMs => exact ⟨.nowMs t 0, id⟩
  | nanos => exact ⟨.nanos t nanos, id⟩

theorem settled_run [DecidableEq ι] {α : ι → Type} {c d : Pool DdbOp DdbOp.Res RustyAntError Tables α}
    {evs : List (DdbEvent ι)} (hc : Settled kinds content c.state)
    (hrun : Pool.Run (settledService kinds content) c evs d) :
    Pool.Run ddbService c evs d ∧
      ∀ ev ∈ evs, Settled kinds content ev.before ∧ Settled kinds content ev.after :=
  ⟨hrun.mono fun h => h.1, (hrun.state_invariant (Settled kinds content) hc fun ht h => h.2 ht).2⟩

theorem settled_empty : Settled kinds content Tables.empty where
  kind _ _ hrow := by simp [Tables.empty] at hrow
  tagged _ _ _ hrow := by simp [Tables.empty] at hrow

end Settling

/-! ## The theorems -/

section Theorems

variable {ι : Type} [DecidableEq ι] {α : ι → Type}

/-- A run on the tables is a run of the atomic store: of the same programs, less the saves of
entries over the limit, with the same results, and with their operations in an order in which
requests of theirs come up.  No key changes its kind and no deadline passes during the run. -/
theorem ddb_refines_store (fo : FloatOps) (kinds : String → ValueKind)
    (content : String → StoredValue) (gone : String → Bool)
    (hgone : ∀ token, gone token = false → ∃ k v, token = encodeToken k v)
    (p : (i : ι) → KV (α i)) (hp : ∀ i, KeepsTokens content gone (p i)) (t : Tables) (ht : t.Agree)
    (evs : List (DdbEvent ι)) (d : Pool DdbOp DdbOp.Res RustyAntError Tables α)
    (hrun : Pool.Run ddbService (compiled fo p t) evs d)
    (hsettled : ∀ ev ∈ evs, Settled kinds content ev.before ∧ Settled kinds content ev.after)
    (htimely : Timely content gone evs) :
    ∃ above q, Pool.Run (lapsingService content gone)
        ⟨view content gone t, fun i => (p i).resolve (tooLarge fo)⟩ above
        ⟨view content gone d.state, q⟩ ∧
      (above.map Event.who).Sublist (evs.map Event.who) ∧
      ∀ i r, d.prog i = .done r ↔ q i = .done r :=
  run_above hgone hp ht hrun hsettled htimely

/-- Programs of one call that run at the same time on the tables, request by request, have the
results and leave the entries of the same programs run one after the other on the atomic store. -/
theorem calls_serial (fo : FloatOps) (kinds : String → ValueKind)
    (content : String → StoredValue) (gone : String → Bool)
    (hgone : ∀ token, gone token = false → ∃ k v, token = encodeToken k v)
    (p : (i : ι) → KV (α i)) (hp : ∀ i, OneCall (p i)) (t : Tables) (ht : t.Agree)
    (evs : List (DdbEvent ι)) (d : Pool DdbOp DdbOp.Res RustyAntError Tables α)
    (hrun : Pool.Run ddbService (compiled fo p t) evs d)
    (hsettled : ∀ ev ∈ evs, Settled kinds content ev.before ∧ Settled kinds content ev.after)
    (htimely : Timely content gone evs) :
    ∃ order e, Pool.Serial (lapsingService content gone)
        ⟨view content gone t, fun i => (p i).resolve (tooLarge fo)⟩ order e ∧
      e.state = view content gone d.state ∧ order.Sublist (evs.map Event.who) ∧
      (∀ i ∈ order, ∀ r, d.prog i = .done r ↔ e.prog i = .done r) ∧
      ∀ i, i ∉ order → ∀ r, d.prog i = .done r →
        (∃ err, r = .error err) ∨ (p i).resolve (tooLarge fo) = .done r := by
  obtain ⟨above, q, habove, hwho, hend⟩ :=
    run_above hgone (fun i => (hp i).keepsTokens) ht hrun hsettled htimely
  obtain ⟨order, e, hserial, hstate, hsub, hin, hout⟩ :=
    RustyAnt.calls_serial (steadfast_lapsing content gone) (view_standing t).versioned habove
      fun i => resolve_oneCall (hp i)
  refine ⟨order, e, hserial, hstate, hsub.trans hwho, fun i hi r => ?_, fun i hi r hr => ?_⟩
  · rw [hin i hi]
    exact hend i r
  · refine ((hout i hi).2 r ((hend i r).mp hr)).imp_left ?_
    rintro ⟨err, herr, -⟩
    exact ⟨err, herr⟩

end Theorems

/-! ## Two increments -/

namespace TwoIncrementsOnTables

open TwoIncrements (methods)

/-- The first row is put at `0` on the clock and the second one at `1`. -/
def content (token : String) : StoredValue :=
  if token = encodeToken .string (versionAt 0) then ⟨none, .string [49]⟩ else ⟨none, .string [51]⟩

def kinds (_ : String) : ValueKind := .string

/-- None of their entries has a deadline. -/
def gone (token : String) : Bool := (parseToken token).toOption.isNone

theorem lasting (token : String) (t : Int) : (content token).isExpired t = false := by
  unfold content
  split <;> rfl

theorem gone_encodeToken (k : ValueKind) (version : String) :
    gone (encodeToken k version) = false := by
  unfold gone
  rw [parseToken_encodeToken]
  rfl

theorem token_of_not_gone (token : String) (h : gone token = false) :
    ∃ k v, token = encodeToken k v := by
  unfold gone at h
  cases hparse : parseToken token with
  | error e =>
      rw [hparse] at h
      cases h
  | ok p => exact ⟨p.1, p.2, encodeToken_of_parseToken hparse⟩

/-- Some steps with the random part of versions `0`, then some with `1`. -/
def twoPhases {α : Fin 2 → Type} (p : (i : Fin 2) → KV (α i)) (first later : List (Fin 2)) :
    Pool DdbOp DdbOp.Res RustyAntError Tables α :=
  Pool.exec (settling kinds content 1) later
    (Pool.exec (settling kinds content 0) first (compiled .integral p Tables.empty))

theorem settled_start {α : Fin 2 → Type} (p : (i : Fin 2) → KV (α i)) (first later : List (Fin 2)) :
    ∃ evs, Pool.Run ddbService (compiled .integral p Tables.empty) evs (twoPhases p first later) ∧
      (∀ ev ∈ evs, Settled kinds content ev.before ∧ Settled kinds content ev.after) ∧
      Timely content gone evs := by
  obtain ⟨evs, hfirst⟩ := Pool.exec_run (@settling_service content kinds 0) first
    (compiled .integral p Tables.empty)
  obtain ⟨evs', hlater⟩ := Pool.exec_run (@settling_service content kinds 1) later
    (Pool.exec (settling kinds content 0) first (compiled .integral p Tables.empty))
  obtain ⟨hrun, hsettled⟩ := settled_run settled_empty (hfirst.trans hlater)
  refine ⟨evs ++ evs', hrun, hsettled, ?_⟩
  rintro x - key k row - ev - who t before after -
  rw [lasting, gone_encodeToken]

def start : Pool DdbOp DdbOp.Res RustyAntError Tables (fun _ : Fin 2 => Int) :=
  compiled .integral (fun i => (methods i).prog ⟨.integral, fun _ _ => false⟩) Tables.empty

/-- Both read no index row and the first one's create wins; the second one's create is refused,
and it reads again. -/
def finish : Pool DdbOp DdbOp.Res RustyAntError Tables (fun _ : Fin 2 => Int) :=
  twoPhases (fun i => (methods i).prog ⟨.integral, fun _ _ => false⟩) [0, 1, 0, 0, 0]
    [1, 1, 1, 1, 1, 1, 1]

theorem ddb_refines_store_on_twoIncrements :
    ∃ evs, Pool.Run ddbService start evs finish ∧ (finish.prog 1).returned = some 3 ∧
      ∃ above q, Pool.Run (lapsingService content gone)
          ⟨view content gone Tables.empty, fun i =>
            ((methods i).prog ⟨.integral, fun _ _ => false⟩).resolve (tooLarge .integral)⟩ above
          ⟨view content gone finish.state, q⟩ ∧
        (above.map Event.who).Sublist (evs.map Event.who) ∧
        ∀ i r, finish.prog i = .done r ↔ q i = .done r := by
  obtain ⟨evs, hrun, hsettled, htimely⟩ := settled_start _ [0, 1, 0, 0, 0] [1, 1, 1, 1, 1, 1, 1]
  have habove := ddb_refines_store .integral kinds content gone token_of_not_gone _
    (fun i => ((methods i).oneStep (x := ⟨.integral, fun _ _ => false⟩) rfl).keepsTokens)
    Tables.empty Tables.agree_empty evs finish hrun hsettled htimely
  exact ⟨evs, hrun, by decide +kernel, habove⟩

end TwoIncrementsOnTables

end DynamoDb

end RustyAnt
