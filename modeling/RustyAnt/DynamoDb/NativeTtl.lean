import RustyAnt.DynamoDb.Alone
import RustyAnt.DynamoDb.Loads
import RustyAnt.Storage.Strings
import Mathlib.Logic.Relation

/-!
# Native TTL

DynamoDB deletes a row some time after its `ttl` attribute has passed, the data
row and the index row of a key independently of each other.  A key whose data row
has gone first cannot be created again: `load` reports it missing while the index
row still refuses a create.
-/

namespace RustyAnt

open Lib

structure TimedTables where
  tables : Tables
  now : Int

namespace DynamoDb

/-- A `ttl` attribute, in seconds, that is in the past. -/
def TtlPassed (ttl : Option Int) (now : Int) : Prop := ∃ t, ttl = some t ∧ t * 1000 < now

/-- What happens without any request: time passes and native TTL deletes a row. -/
inductive Reap : TimedTables → TimedTables → Prop
  | tick (s : TimedTables) (now : Int) (hnow : s.now ≤ now) : Reap s ⟨s.tables, now⟩
  | dataRow (s : TimedTables) (kind : ValueKind) (key : String) (row : DataRow)
      (hrow : (s.tables.data kind)[key]? = some row) (hpassed : TtlPassed row.ttl s.now) :
      Reap s ⟨s.tables.applyAll [.deleteData kind key none], s.now⟩
  | indexRow (s : TimedTables) (key : String) (row : IndexRow)
      (hrow : s.tables.index[key]? = some row) (hpassed : TtlPassed row.ttl s.now) :
      Reap s ⟨s.tables.applyAll [.deleteIndex key none], s.now⟩

/-- DynamoDB without faults and with native TTL: before each request time may
have passed and rows may have been deleted. -/
inductive ttlService : Service DdbOp DdbOp.Res RustyAntError TimedTables
  | clock (s s₁ : TimedTables) (hreap : Relation.ReflTransGen Reap s s₁) :
      ttlService s .nowMs (.ok s₁.now) s₁
  | serve (s s₁ : TimedTables) (op : DdbOp) (answer : Result op.Res) (t : Tables)
      (hreap : Relation.ReflTransGen Reap s s₁) (hop : op ≠ .nowMs)
      (hserve : atomicService s₁.tables op answer t) : ttlService s op answer ⟨t, s₁.now⟩

/-! ## What stays true -/

/-- Every index row names a kind. -/
def Named (t : Tables) : Prop :=
  ∀ (key : String) (row : IndexRow), t.index[key]? = some row →
    ∃ k : ValueKind, row.kind = k.asStr

theorem named_empty : Named Tables.empty := by
  intro key row hrow
  simp [Tables.empty] at hrow

theorem named_step {t t' : Tables} (h : ∀ key, KeyStep t t' key) (ht : Named t) : Named t' := by
  intro key row hrow
  rcases h key with hsame | ⟨entry, row', observed, hobs, hindex, hdata⟩ | ⟨kind, hindex, hdata⟩
  · rw [hsame.1] at hrow
    exact ht key row hrow
  · rw [hindex] at hrow
    cases hrow
    exact ⟨entry.kind, rfl⟩
  · rw [hindex] at hrow
    cases hrow

theorem reap_named {s s' : TimedTables} (h : Reap s s') (hs : Named s.tables) :
    Named s'.tables := by
  intro key row hrow
  cases h with
  | tick now hnow => exact hs key row hrow
  | dataRow kind key' old hold hpassed => exact hs key row hrow
  | indexRow key' old hold hpassed =>
      by_cases hk : key' = key
      · subst hk
        simp [Tables.applyAll, TransactItem.apply] at hrow
      · have hsame : s.tables.SameAt (s.tables.applyAll [.deleteIndex key' none]) key :=
          sameAt_applyAll (by simpa [TransactItem.key] using hk)
        rw [hsame.1] at hrow
        exact hs key row hrow

theorem reap_now_le {s s' : TimedTables} (h : Reap s s') : s.now ≤ s'.now := by
  cases h with
  | tick now hnow => exact hnow
  | dataRow kind key row hrow hpassed => exact le_refl s.now
  | indexRow key row hrow hpassed => exact le_refl s.now

theorem reaped_named {s s' : TimedTables} (h : Relation.ReflTransGen Reap s s')
    (hs : Named s.tables) : Named s'.tables := by
  induction h with
  | refl => exact hs
  | tail _ hstep ih => exact reap_named hstep ih

theorem reaped_now_le {s s' : TimedTables} (h : Relation.ReflTransGen Reap s s') :
    s.now ≤ s'.now := by
  induction h with
  | refl => exact le_refl s.now
  | tail _ hstep ih => exact le_trans ih (reap_now_le hstep)

theorem ttlService_named {s s' : TimedTables} {op : DdbOp} {answer : Result op.Res}
    (h : ttlService s op answer s') (hsends : Sends op) (hs : Named s.tables) :
    Named s'.tables := by
  cases h with
  | clock _ _ hreap => exact reaped_named hreap hs
  | serve _ s₁ _ _ t hreap hop hserve =>
      exact named_step (keyStep_of_serve hserve hsends) (reaped_named hreap hs)

theorem ttlService_now_le {s s' : TimedTables} {op : DdbOp} {answer : Result op.Res}
    (h : ttlService s op answer s') : s.now ≤ s'.now := by
  cases h with
  | clock _ _ hreap => exact reaped_now_le hreap
  | serve _ s₁ _ _ t hreap hop hserve =>
      have hle : s.now ≤ s₁.now := reaped_now_le hreap
      exact hle

/-! ## What a load returns is not expired -/

section Fresh

variable {ι σ : Type}

/-- An entry is returned only after a clock reading at which it is not expired. -/
theorem getOne_fresh {k : ValueKind} {key token : String} {entry : StoredValue}
    {evs : List (Event DdbOp DdbOp.Res RustyAntError σ ι)}
    (h : Pool.Follows (getOne k key) evs (.done (.ok (some (entry, token))))) :
    ∃ who now s s', (⟨who, .nowMs, .ok now, s, s'⟩ : Event DdbOp DdbOp.Res RustyAntError σ ι) ∈ evs ∧
      entry.isExpired now = false := by
  rcases Pool.Follows.call_inv h with ⟨-, hq⟩ | ⟨who, answer, s, s', rest, rfl, hrest⟩
  · cases hq
  cases answer with
  | error e =>
      obtain ⟨-, hq⟩ := Pool.Follows.done_inv hrest
      cases hq
  | ok found =>
      cases found with
      | none =>
          obtain ⟨-, hq⟩ := Pool.Follows.done_inv hrest
          cases hq
      | some row =>
          have hdone : Pool.Follows ((Prog.done (Codec.storedValue.dec row.data) :
            Ddb StoredValue).bind _) rest (.done (.ok (some (entry, token)))) := hrest
          cases hdec : Codec.storedValue.dec row.data with
          | error e =>
              rw [hdec] at hdone
              obtain ⟨-, hq⟩ := Pool.Follows.done_inv hdone
              cases hq
          | ok found =>
              rw [hdec] at hdone
              rcases Pool.Follows.call_inv hdone with
                ⟨-, hq⟩ | ⟨who', answer, t, t', rest', rfl, hclock⟩
              · cases hq
              cases answer with
              | error e =>
                  obtain ⟨-, hq⟩ := Pool.Follows.done_inv hclock
                  cases hq
              | ok now =>
                  have hnext : Pool.Follows
                      (if found.isExpired now then
                        (delete key (.ifMatch (encodeToken k row.version))).attempt.bind
                          fun _ => Prog.done (.ok none)
                      else Prog.done (.ok (some (found, encodeToken k row.version))))
                      rest' (.done (.ok (some (entry, token)))) := hclock
                  cases hexpired : found.isExpired now with
                  | false =>
                      rw [hexpired, if_neg Bool.false_ne_true] at hnext
                      obtain ⟨rfl, hq⟩ := hnext.done_inv
                      cases hq
                      exact ⟨who', now, t, t', by simp, hexpired⟩
                  | true =>
                      rw [hexpired, if_pos rfl] at hnext
                      rcases hnext.bind_inv with ⟨_, _, -, hq⟩ | ⟨_, _, out, -, -, hlast⟩
                      · cases hq
                      · cases out <;> cases (Pool.Follows.done_inv hlast).2

theorem load_fresh {key token : String} {entry : StoredValue}
    {evs : List (Event DdbOp DdbOp.Res RustyAntError σ ι)}
    (h : Pool.Follows (load key) evs (.done (.ok (some (entry, token))))) :
    ∃ who now s s', (⟨who, .nowMs, .ok now, s, s'⟩ : Event DdbOp DdbOp.Res RustyAntError σ ι) ∈ evs ∧
      entry.isExpired now = false := by
  rcases Pool.Follows.bind_inv (p := readIndexKind key) h with
    ⟨_, _, -, hq⟩ | ⟨reads, evs₂, out, rfl, -, hnext⟩
  · cases hq
  cases out with
  | error e => cases (Pool.Follows.done_inv hnext).2
  | ok observed =>
      cases observed with
      | none => cases (Pool.Follows.done_inv hnext).2
      | some k =>
          obtain ⟨who, now, s, s', hmem, hfresh⟩ := getOne_fresh hnext
          exact ⟨who, now, s, s', List.mem_append_right _ hmem, hfresh⟩

end Fresh

/-! ## Creating a key that is reported missing -/

section Alone

variable (fo : FloatOps) (order : ScanOrder) (clock : Clock) {key : String}

/-- The rows of the key belong together: there is no index row, or its data row is
there as well. -/
def Whole (t : Tables) (key : String) : Prop :=
  t.index[key]? = none ∨ ∃ k, Observes t key (some k) ∧ (t.data k)[key]? ≠ none

omit fo order clock in
theorem broken_of_not_whole {t : Tables} (ht : Named t) (h : ¬ Whole t key) :
    ∃ k, Observes t key (some k) ∧ (t.data k)[key]? = none := by
  cases hidx : t.index[key]? with
  | none => exact absurd (.inl hidx) h
  | some row =>
      obtain ⟨k, hk⟩ := ht key row hidx
      have hobs : Observes t key (some k) := ⟨row.ttl, by rw [hidx, ← hk]⟩
      refine ⟨k, hobs, ?_⟩
      by_contra hrow
      exact h (.inr ⟨k, hobs, hrow⟩)

/-- A `KVStorage` operation run alone on the tables. -/
def runAlone {α : Type} (p : KV α)
    (w : DdbWorld) : Result α × DdbWorld :=
  (p.interp (impl fo)).run (DdbWorld.serve order clock) w

theorem load_missing_clears {w w' : DdbWorld} (hwhole : Whole w.tables key)
    (h : (load key).run (DdbWorld.serve order clock) w = (.ok none, w')) :
    w'.tables.index[key]? = none := by
  unfold load at h
  rw [Prog.bind_eq, Prog.run_bind] at h
  rcases hwhole with hnone | ⟨k, hobs, hfound⟩
  · have hobs : Observes w.tables key none := hnone
    rw [run_readIndexKind_of_observes order clock hobs] at h
    cases h
    exact hnone
  · rw [run_readIndexKind_of_observes order clock hobs] at h
    obtain ⟨row, hrow⟩ := Option.ne_none_iff_exists'.mp hfound
    have hone : (getOne k key).run (DdbWorld.serve order clock) w = (.ok none, w') := h
    rw [run_getOne, hrow] at hone
    dsimp only at hone
    cases hdec : Codec.storedValue.dec row.data with
    | error e =>
        rw [hdec] at hone
        cases hone
    | ok entry =>
        rw [hdec] at hone
        dsimp only at hone
        split at hone
        · rename_i hexpired
          have hall : (deleteIfMatchItems key k row.version).all
              (TransactItem.holds w.tables) = true := by
            obtain ⟨ttl, hidx⟩ := hobs
            simp [deleteIfMatchItems, TransactItem.holds, TransactItem.versionIs,
              TransactItem.kindIs, hrow, hidx]
          rw [run_sendTransact, if_pos hall] at hone
          cases hone
          exact (Tables.applyAll_deleteAnyItems w.tables key k).1
        · cases hone

/-- A closure's clock readings, which do not fail. -/
def ReadsTime {δ : Type} (draw : KV δ) : Prop :=
  draw.Obeys (fun _ answer => ∃ v, answer = .ok v) (fun op => op = .nowMs ∨ op = .nanos)
    fun out => ∃ d, out = .ok d

/-- The closure writes an entry within the item limit when the key is missing. -/
def WritesMissing {δ R : Type} (fo : FloatOps)
    (modify : List (δ × Option StoredValue) → δ → Option StoredValue → Result (CasAction R)) :
    Prop :=
  ∀ seen d, ∃ entry r, modify seen d none = .ok (.write entry r) ∧
    (Codec.storedValue.enc entry).len fo ≤ maxItemBytes

theorem runAlone_eq {α : Type} (p : KV α) (w : DdbWorld) :
    runAlone fo order clock p w =
      p.run (fun op => (impl fo op).run (DdbWorld.serve order clock)) w :=
  Prog.run_interp (impl fo) (DdbWorld.serve order clock) p w

theorem runAlone_draw {δ : Type} {draw : KV δ} (hdraw : ReadsTime draw) (w : DdbWorld) :
    ∃ d w', runAlone fo order clock draw w = (.ok d, w') ∧ w'.tables = w.tables := by
  let inv (s : DdbWorld) : Prop := s.tables = w.tables
  have hserve : ∀ (op : KVOp) (s : DdbWorld), inv s → op = .nowMs ∨ op = .nanos →
      (∃ v, ((impl fo op).run (DdbWorld.serve order clock) s).1 = .ok v) ∧
        inv ((impl fo op).run (DdbWorld.serve order clock) s).2 := by
    intro op s hs hop
    rcases hop with rfl | rfl
    · exact ⟨⟨_, rfl⟩, hs⟩
    · exact ⟨⟨_, rfl⟩, hs⟩
  have hw : inv w := rfl
  have hrun := hdraw.run hserve hw
  rw [← runAlone_eq] at hrun
  obtain ⟨⟨d, hd⟩, hsame⟩ := hrun
  exact ⟨d, _, Prod.ext hd rfl, hsame⟩

theorem runAlone_create {entry : StoredValue} {w : DdbWorld}
    (hfit : (Codec.storedValue.enc entry).len fo ≤ maxItemBytes)
    (hnone : w.tables.index[key]? = none) :
    ∃ w', runAlone fo order clock (KV.save key entry .createOnly) w = (.ok (), w') ∧
      StoresAt w'.tables key entry := by
  have hobs : Observes w.tables key none := hnone
  have hcond : ∀ token, WriteCondition.createOnly ≠ .ifMatch token := nofun
  have hsave := run_save_observing fo order clock hcond hfit hobs
  rw [if_neg (by simp)] at hsave
  refine ⟨_, (runAlone_eq fo order clock _ w).trans hsave, ?_, hex16 (pseudoRandU64 clock.nanos), ?_⟩
  · exact Tables.applyAll_saveItems_index w.tables key entry _ _ none none
  · dsimp only
    rw [Tables.applyAll_saveItems_data, if_pos rfl]

/-- `cas` run alone on a missing key makes one attempt. -/
theorem runAlone_casMut_missing {δ R : Type} {draw : KV δ} (hdraw : ReadsTime draw)
    {modify : List (δ × Option StoredValue) → δ → Option StoredValue → Result (CasAction R)}
    (hmodify : WritesMissing fo modify) {w w₁ : DdbWorld}
    (hload : runAlone fo order clock (KV.load key) w = (.ok none, w₁))
    (hnone : w₁.tables.index[key]? = none) :
    ∃ seen d entry r w', modify seen d none = .ok (.write entry r) ∧
      runAlone fo order clock (casMut key draw modify) w = (.ok r, w') ∧
      StoresAt w'.tables key entry := by
  obtain ⟨d, w₂, hrun, htables⟩ := runAlone_draw fo order clock hdraw w₁
  obtain ⟨entry, r, hwrite, hfit⟩ := hmodify [] d
  rw [← htables] at hnone
  obtain ⟨w₃, hsave, hstores⟩ := runAlone_create fo order clock hfit hnone
  refine ⟨[], d, entry, r, w₃, hwrite, ?_, hstores⟩
  rw [runAlone_eq] at hload hrun hsave ⊢
  unfold casMut maxCasRetries casFrom
  rw [Prog.bind_eq, Prog.run_bind, hload]
  dsimp only
  rw [Prog.bind_eq, Prog.run_bind, hrun]
  dsimp only
  rw [Prog.bind_eq, Prog.run_bind, Prog.run_ofExcept, Option.map_none, hwrite]
  dsimp only
  rw [Prog.bind_eq, Prog.run_bind]
  unfold casCommit orContention
  dsimp only
  rw [Prog.bind_eq, Prog.run_bind, Prog.run_attempt, hsave]
  rfl

theorem runAlone_setStringNx_missing {value : Bytes} {exp : Option Int} {w w₁ : DdbWorld}
    (hfit : (Codec.storedValue.enc ⟨exp, .string value⟩).len fo ≤ maxItemBytes)
    (hload : runAlone fo order clock (KV.load key) w = (.ok none, w₁))
    (hnone : w₁.tables.index[key]? = none) :
    ∃ w', runAlone fo order clock (Storage.setStringNx key value exp) w = (.ok true, w') ∧
      StoresAt w'.tables key ⟨exp, .string value⟩ := by
  obtain ⟨w₂, hsave, hstores⟩ := runAlone_create fo order clock hfit hnone
  refine ⟨w₂, ?_, hstores⟩
  rw [runAlone_eq] at hload hsave ⊢
  unfold Storage.setStringNx
  rw [Prog.bind_eq, Prog.run_bind, hload]
  dsimp only
  rw [Prog.bind_eq, Prog.run_bind, Prog.run_attempt, hsave]
  rfl

/-- An index row without its data row is reported as missing. -/
theorem runAlone_load_broken {w : DdbWorld} {k : ValueKind} (hobs : Observes w.tables key (some k))
    (hrow : (w.tables.data k)[key]? = none) :
    runAlone fo order clock (KV.load key) w = (.ok none, w) := by
  rw [runAlone_eq]
  show (load key).run (DdbWorld.serve order clock) w = _
  unfold load
  rw [Prog.bind_eq, Prog.run_bind, run_readIndexKind_of_observes order clock hobs]
  show (getOne k key).run (DdbWorld.serve order clock) w = _
  rw [run_getOne, hrow]

theorem runAlone_setStringNx_refused {value : Bytes} {exp : Option Int} {w : DdbWorld}
    {k : ValueKind} (hobs : Observes w.tables key (some k)) (hrow : (w.tables.data k)[key]? = none)
    (hfit : (Codec.storedValue.enc ⟨exp, .string value⟩).len fo ≤ maxItemBytes) :
    (runAlone fo order clock (Storage.setStringNx key value exp) w).1 = .ok false := by
  have hload := runAlone_load_broken fo order clock hobs hrow
  rw [runAlone_eq] at hload
  have hcond : ∀ token, WriteCondition.createOnly ≠ .ifMatch token := nofun
  have hsave : (KV.save key ⟨exp, .string value⟩ .createOnly).run
      (fun op => (impl fo op).run (DdbWorld.serve order clock)) w = (.error .contention, w) := by
    have hrun := run_save_observing fo order clock hcond hfit hobs
    rw [if_pos ⟨rfl, rfl⟩] at hrun
    exact hrun
  rw [runAlone_eq]
  unfold Storage.setStringNx
  rw [Prog.bind_eq, Prog.run_bind, hload]
  dsimp only
  rw [Prog.bind_eq, Prog.run_bind, Prog.run_attempt, hsave]
  rfl

end Alone

/-! ## Reachable states -/

section Runs

variable {ι : Type} [DecidableEq ι]

/-- A reachable state: some run of clients' calls from empty tables, and then
whatever time and native TTL have done. -/
def ReachableAt (fo : FloatOps) (s : TimedTables) : Prop :=
  ∃ (n : Nat) (calls : Fin n → Call) (now : Int)
    (evs : List (Event DdbOp DdbOp.Res RustyAntError TimedTables (Fin n)))
    (d : Pool DdbOp DdbOp.Res RustyAntError TimedTables fun _ : Fin n => Unit),
    Pool.Run ttlService ⟨⟨Tables.empty, now⟩, fun i => (calls i).prog fo⟩ evs d ∧
      Relation.ReflTransGen Reap d.state s

theorem ReachableAt.named {fo : FloatOps} {s : TimedTables} (h : ReachableAt fo s) :
    Named s.tables := by
  obtain ⟨n, calls, now, evs, d, hrun, hreap⟩ := h
  refine reaped_named hreap ?_
  have hrestrict := hrun.restrict fun i => call_requests fo (calls i)
  exact (hrestrict.state_invariant (fun s => Named s.tables) named_empty fun hs hserve =>
    ttlService_named hserve.1 hserve.2 hs).1

/-- A load that starts at a point in time returns nothing that had expired by then. -/
def NothingStale (key : String) (s : TimedTables) : Prop :=
  ∀ (n : Nat) (c d : Pool DdbOp DdbOp.Res RustyAntError TimedTables
      fun _ : Fin n => Option (StoredValue × String))
    (evs : List (Event DdbOp DdbOp.Res RustyAntError TimedTables (Fin n))) (i : Fin n)
    (entry : StoredValue) (token : String), c.state = s → c.prog i = load key →
    Pool.Run ttlService c evs d → d.prog i = .done (.ok (some (entry, token))) →
      entry.isExpired s.now = false

theorem nothingStale (key : String) (s : TimedTables) : NothingStale key s := by
  intro n c d evs i entry token hstate hprog hrun hdone
  have hfollows := hrun.follows i
  rw [hprog, hdone] at hfollows
  obtain ⟨who, now, t, t', hmem, hfresh⟩ := load_fresh hfollows
  have hev := (List.mem_filter.mp hmem).1
  have hstart : s.now ≤ c.state.now := le_of_eq (by rw [hstate])
  have hlater := ((hrun.state_invariant (fun t => s.now ≤ t.now) hstart fun ht hserve =>
    le_trans ht (ttlService_now_le hserve)).2 _ hev).2
  have hclock := hrun.serve _ hev
  dsimp only at hclock hlater
  have hnow : now = t'.now := by
    cases hclock with
    | clock _ _ hreap => rfl
    | serve _ s₁ _ _ _ hreap hop hserve => exact absurd rfl hop
  have hle : s.now ≤ now := by
    rw [hnow]
    exact hlater
  apply Bool.eq_false_iff.mpr
  intro hexp
  rw [StoredValue.isExpired_mono hexp hle] at hfresh
  cases hfresh

/-- A key that a load reports as missing can be created: any `cas` whose closure
then writes, and `set_string_nx`, run alone, succeed and leave their entry. -/
def Creatable (fo : FloatOps) (key : String) (t : Tables) : Prop :=
  ∀ (order : ScanOrder) (clock : Clock) (w : DdbWorld) (w₁ : DdbWorld), w.tables = t →
    runAlone fo order clock (KV.load key) w = (.ok none, w₁) →
    (∀ (δ R : Type) (draw : KV δ)
      (modify : List (δ × Option StoredValue) → δ → Option StoredValue → Result (CasAction R)),
      ReadsTime draw → WritesMissing fo modify →
        ∃ seen d entry r w', modify seen d none = .ok (.write entry r) ∧
          runAlone fo order clock (casMut key draw modify) w = (.ok r, w') ∧
          StoresAt w'.tables key entry) ∧
    ∀ (value : Bytes) (exp : Option Int),
      (Codec.storedValue.enc ⟨exp, .string value⟩).len fo ≤ maxItemBytes →
        ∃ w', runAlone fo order clock (Storage.setStringNx key value exp) w = (.ok true, w') ∧
          StoresAt w'.tables key ⟨exp, .string value⟩

theorem not_creatable_of_broken {fo : FloatOps} {key : String} {t : Tables} {k : ValueKind}
    (hobs : Observes t key (some k)) (hrow : (t.data k)[key]? = none) :
    ¬ Creatable fo key t := by
  intro hcreatable
  -- the order of a scan and the clock do not matter here
  let order : ScanOrder := ⟨id, List.Perm.refl⟩
  let clock : Clock := ⟨fun _ => 0, 0⟩
  let w : DdbWorld := ⟨t, 0⟩
  have hload := runAlone_load_broken fo order clock (w := w) hobs hrow
  have hfit : (Codec.storedValue.enc ⟨none, .string []⟩).len fo ≤ maxItemBytes :=
    Nat.le_of_ble_eq_true rfl
  obtain ⟨w', hcreated, -⟩ := (hcreatable order clock w w rfl hload).2 [] none hfit
  have hrefused := runAlone_setStringNx_refused fo order clock (w := w) hobs hrow hfit
  rw [hcreated] at hrefused
  cases hrefused

/-- In every state that calls and native TTL can lead to, a key that is reported
missing can be created and nothing stale is returned, if and only if the key is not
left with an index row whose data row is gone. -/
theorem nativeTtl_creatable_iff (fo : FloatOps) (s : TimedTables) (hs : ReachableAt fo s)
    (key : String) : (Creatable fo key s.tables ∧ NothingStale key s) ↔ Whole s.tables key := by
  constructor
  · rintro ⟨hcreatable, -⟩
    by_contra hbroken
    obtain ⟨k, hobs, hrow⟩ := broken_of_not_whole hs.named hbroken
    exact not_creatable_of_broken hobs hrow hcreatable
  · intro hwhole
    refine ⟨fun order clock w w₁ hw hload => ?_, nothingStale key s⟩
    have hnone : w₁.tables.index[key]? = none := by
      rw [← hw] at hwhole
      rw [runAlone_eq] at hload
      exact load_missing_clears order clock hwhole hload
    exact ⟨fun δ R draw modify hdraw hmodify =>
        runAlone_casMut_missing fo order clock hdraw hmodify hload hnone,
      fun value exp hfit => runAlone_setStringNx_missing fo order clock hfit hload hnone⟩

end Runs

/-! ## A string that expires -/

/-- DynamoDB at a fixed time, with native TTL idle. -/
def serveTimed (op : DdbOp) (s : TimedTables) : Result op.Res × TimedTables :=
  ((s.tables.serve s.now 0 op).1, ⟨(s.tables.serve s.now 0 op).2, s.now⟩)

theorem serveTimed_service (op : DdbOp) (s : TimedTables) :
    ttlService s op (serveTimed op s).1 (serveTimed op s).2 := by
  by_cases hop : op = .nowMs
  · subst hop
    exact .clock s s .refl
  · exact .serve s s op _ _ .refl hop (Tables.serve_atomic s.now 0 op s.tables)

/-- `SET k a PXAT 5000`, at time 0. -/
def expiringSet : Fin 1 → Call := fun _ => .save "k" ⟨some 5000, .string [97]⟩ .any

def expiringStart : Pool DdbOp DdbOp.Res RustyAntError TimedTables fun _ : Fin 1 => Unit :=
  ⟨⟨Tables.empty, 0⟩, fun i => (expiringSet i).prog .integral⟩

def expiringStored : TimedTables := (Pool.exec serveTimed [0, 0, 0] expiringStart).state

theorem expiringStored_reachable : ReachableAt .integral expiringStored :=
  ⟨1, expiringSet, 0, _, _, Pool.exec_trace serveTimed_service [0, 0, 0] expiringStart, .refl⟩

/-- A second after it has expired its data row is deleted. -/
def dataRowDeleted : TimedTables :=
  ⟨expiringStored.tables.applyAll [.deleteData .string "k" none], 6000⟩

theorem dataRowDeleted_reachable : ReachableAt .integral dataRowDeleted := by
  have htick : Reap expiringStored ⟨expiringStored.tables, 6000⟩ := .tick _ 6000 (by decide)
  have httl : ((expiringStored.tables.data .string)["k"]?).bind DataRow.ttl = some 5 := by decide
  obtain ⟨row, hrow, hpassed⟩ := Option.bind_eq_some_iff.mp httl
  have hdelete : Reap ⟨expiringStored.tables, 6000⟩ dataRowDeleted :=
    .dataRow _ .string "k" row hrow ⟨5, hpassed, by decide⟩
  exact ⟨1, expiringSet, 0, _, _, Pool.exec_trace serveTimed_service [0, 0, 0] expiringStart,
    .tail (.single htick) hdelete⟩

theorem nativeTtl_wedges_key :
    ReachableAt .integral dataRowDeleted ∧ ¬ Creatable .integral "k" dataRowDeleted.tables := by
  refine ⟨dataRowDeleted_reachable, not_creatable_of_broken (k := .string) ⟨some 5, ?_⟩ ?_⟩
  · decide
  · simp [dataRowDeleted, Tables.applyAll, TransactItem.apply]

theorem nativeTtl_creatable_iff_on_expiringStored :
    expiringStored.tables.index["k"]? = some ⟨"string", some 5⟩ ∧
      ((Creatable .integral "k" expiringStored.tables ∧ NothingStale "k" expiringStored) ↔
        Whole expiringStored.tables "k") :=
  ⟨by decide, nativeTtl_creatable_iff .integral expiringStored expiringStored_reachable "k"⟩

end DynamoDb

end RustyAnt
