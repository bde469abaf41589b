import RustyAnt.DynamoDb.NativeTtl
import RustyAnt.Mirror.Requests
import RustyAnt.Storage.Keys

/-!
# What a command leaves in place

The tables of a keyspace before and after a command that runs alone: the entry at
each key, the entries that expire while it runs aside.  What loads, deletes and
compare-and-swaps do to a keyspace is said once, for every command made of them.
-/

namespace RustyAnt

open Lib

/-- The tables hold a keyspace: each key is absent or has its entry in both tables. -/
def Tables.IsKeyspace (t : Tables) : Prop :=
  ∀ key, t.index[key]? = none ∨ ∃ e, DynamoDb.StoresAt t key e

namespace DynamoDb

/-- The serialized entry is within the item limit. -/
def FitsItem (fo : FloatOps) (e : StoredValue) : Prop :=
  (Codec.storedValue.enc e).len fo ≤ maxItemBytes

instance (fo : FloatOps) (e : StoredValue) : Decidable (FitsItem fo e) :=
  inferInstanceAs (Decidable (_ ≤ _))

/-- The entry is not expired at any time the clock is read between the two states. -/
def Outlives (clock : Clock) (d d' : DdbWorld) (e : StoredValue) : Prop :=
  ∀ n, d.readings ≤ n → n < d'.readings → e.isExpired (clock.now n) = false

/-- Each key holds the same value and expiry in both states, where entries that
expire in between do not count. -/
structure Kept (clock : Clock) (d d' : DdbWorld) : Prop where
  later : d.readings ≤ d'.readings
  same : ∀ key e, Outlives clock d d' e → (StoresAt d.tables key e ↔ StoresAt d'.tables key e)

/-- Only this key has changed: nothing is stored there any more. -/
def Erased (key : String) (d d' : DdbWorld) : Prop :=
  d'.readings = d.readings ∧ d'.tables.index[key]? = none ∧
    ∀ key', key' ≠ key → d.tables.SameAt d'.tables key'

/-- Only this key has changed: the entry is stored there. -/
def Written (key : String) (e : StoredValue) (d d' : DdbWorld) : Prop :=
  d'.readings = d.readings ∧ StoresAt d'.tables key e ∧
    ∀ key', key' ≠ key → d.tables.SameAt d'.tables key'

section Kept

variable {clock : Clock} {d d' d'' : DdbWorld} {key : String} {e : StoredValue}

theorem Outlives.left (h : Outlives clock d d'' e) (hle : d'.readings ≤ d''.readings) :
    Outlives clock d d' e := fun n h₁ h₂ => h n h₁ (by omega)

theorem Outlives.right (h : Outlives clock d d'' e) (hle : d.readings ≤ d'.readings) :
    Outlives clock d' d'' e := fun n h₁ h₂ => h n (by omega) h₂

/-- Entries that expire at the same time outlive the same commands. -/
theorem Outlives.congr {e' : StoredValue} (h : Outlives clock d d' e)
    (hexp : e'.expiresAtMs = e.expiresAtMs) : Outlives clock d d' e' := by
  intro n h₁ h₂
  have hn := h n h₁ h₂
  unfold StoredValue.isExpired at hn ⊢
  rw [hexp]
  exact hn

theorem Kept.refl (d : DdbWorld) : Kept clock d d := ⟨le_refl _, fun _ _ _ => .rfl⟩

theorem Kept.trans (h : Kept clock d d') (h' : Kept clock d' d'') : Kept clock d d'' where
  later := h.later.trans h'.later
  same key e hout := (h.same key e (hout.left h'.later)).trans (h'.same key e (hout.right h.later))

theorem storesAt_congr {t t' : Tables} (h : t.SameAt t' key) :
    StoresAt t key e ↔ StoresAt t' key e :=
  ⟨fun hs => hs.of_same h, fun hs => hs.of_same ⟨h.1.symm, fun k => (h.2 k).symm⟩⟩

theorem sameAt_trans {t t' t'' : Tables} (h : t.SameAt t' key) (h' : t'.SameAt t'' key) :
    t.SameAt t'' key := ⟨h'.1.trans h.1, fun k => (h'.2 k).trans (h.2 k)⟩

theorem not_storesAt_of_absent {t : Tables} (h : t.index[key]? = none) : ¬ StoresAt t key e := by
  intro hs
  rw [hs.1] at h
  cases h

theorem StoresAt.unique {t : Tables} {e' : StoredValue} (h : StoresAt t key e)
    (h' : StoresAt t key e') (hdec : e.value.scoresFinite = true) : e' = e := by
  obtain ⟨hidx, version, hrow⟩ := h
  obtain ⟨hidx', version', hrow'⟩ := h'
  have hkind : e'.kind = e.kind := by
    rw [hidx] at hidx'
    exact ValueKind.asStr_injective (congrArg IndexRow.kind (Option.some.inj hidx')).symm
  rw [hkind, hrow] at hrow'
  have hbody := congrArg DataRow.data (Option.some.inj hrow')
  have hread := (Codec.storedValue_dec_enc e).mpr hdec
  dsimp only at hbody
  rw [hbody] at hread
  exact (Codec.storedValue_dec_ok hread).symm

theorem lookup_stored {t : Tables} (h : StoresAt t key e) (hfinite : e.value.scoresFinite = true)
    (now : Int) : ddbLookup t now key = .ok (if e.isExpired now then none else some e) := by
  obtain ⟨hidx, version, hrow⟩ := h
  have hdec := (Codec.storedValue_dec_enc e).mpr hfinite
  unfold ddbLookup
  simp [hidx, parseKind_asStr, hrow, liveEntry, hdec]

theorem Erased.isKeyspace (h : Erased key d d') (hd : d.tables.IsKeyspace) :
    d'.tables.IsKeyspace := by
  intro key'
  by_cases hk : key' = key
  · rw [hk]
    exact .inl h.2.1
  · have hsame := h.2.2 key' hk
    refine (hd key').imp (fun hnone => ?_) fun ⟨e, he⟩ => ⟨e, he.of_same hsame⟩
    rw [hsame.1]
    exact hnone

theorem Written.isKeyspace (h : Written key e d d') (hd : d.tables.IsKeyspace) :
    d'.tables.IsKeyspace := by
  intro key'
  by_cases hk : key' = key
  · rw [hk]
    exact .inr ⟨e, h.2.1⟩
  · have hsame := h.2.2 key' hk
    refine (hd key').imp (fun hnone => ?_) fun ⟨e, he⟩ => ⟨e, he.of_same hsame⟩
    rw [hsame.1]
    exact hnone

theorem erased_deleteAnyItems (d : DdbWorld) (key : String) (kind : ValueKind) :
    Erased key d { d with tables := d.tables.applyAll (deleteAnyItems key kind) } := by
  refine ⟨rfl, (Tables.applyAll_deleteAnyItems d.tables key kind).1, fun key' hne => ?_⟩
  refine sameAt_applyAll fun item hitem => ?_
  simp only [deleteAnyItems, List.mem_cons, List.not_mem_nil, or_false] at hitem
  rcases hitem with rfl | rfl <;> exact Ne.symm hne

end Kept

/-! ## Loads -/

/-- What a load finds at a key, and the state it leaves: an expired entry is collected. -/
inductive Reads (clock : Clock) (key : String) (d : DdbWorld) :
    Option StoredValue → DdbWorld → Prop
  | absent (habsent : d.tables.index[key]? = none) : Reads clock key d none d
  | expired (e : StoredValue) (d' : DdbWorld) (hstored : StoresAt d.tables key e)
      (hfinite : e.value.scoresFinite = true) (hexpired : e.isExpired (clock.now d.readings) = true)
      (herased : Erased key d.tick d') : Reads clock key d none d'
  | live (e : StoredValue) (hstored : StoresAt d.tables key e)
      (hfinite : e.value.scoresFinite = true)
      (hlive : e.isExpired (clock.now d.readings) = false) : Reads clock key d (some e) d.tick

section Reads

variable {clock : Clock} {d d' : DdbWorld} {key : String} {found : Option StoredValue}

theorem Reads.readings_le (h : Reads clock key d found d') : d.readings ≤ d'.readings := by
  cases h with
  | absent habsent => exact le_refl _
  | expired e _ hstored hfinite hexpired herased =>
      rw [herased.1]
      exact Nat.le_succ _
  | live e hstored hfinite hlive => exact Nat.le_succ _

theorem Reads.readings_some {e : StoredValue} (h : Reads clock key d (some e) d') :
    d'.readings = d.readings + 1 := by
  cases h with
  | live _ hstored hfinite hlive => rfl

theorem Reads.isKeyspace (h : Reads clock key d found d') (hd : d.tables.IsKeyspace) :
    d'.tables.IsKeyspace := by
  cases h with
  | absent habsent => exact hd
  | expired e _ hstored hfinite hexpired herased => exact herased.isKeyspace hd
  | live e hstored hfinite hlive => exact hd

theorem Reads.same (h : Reads clock key d found d') {key' : String} (hne : key' ≠ key) :
    d.tables.SameAt d'.tables key' := by
  cases h with
  | absent habsent => exact sameAt_refl _ _
  | expired e _ hstored hfinite hexpired herased => exact herased.2.2 key' hne
  | live e hstored hfinite hlive => exact sameAt_refl _ _

theorem Reads.kept (h : Reads clock key d found d') : Kept clock d d' := by
  refine ⟨h.readings_le, fun key' e' hout => ?_⟩
  cases h with
  | absent habsent => exact .rfl
  | live e hstored hfinite hlive => exact .rfl
  | expired e _ hstored hfinite hexpired herased =>
      by_cases hk : key' = key
      · subst hk
        refine iff_of_false (fun hs => ?_) (not_storesAt_of_absent herased.2.1)
        have hlive := hout d.readings (le_refl _) (by rw [herased.1]; exact Nat.lt_succ_self _)
        rw [hstored.unique hs hfinite, hexpired] at hlive
        cases hlive
      · exact storesAt_congr (herased.2.2 key' hk)

theorem Reads.stored (h : Reads clock key d found d') {e : StoredValue} (hfound : found = some e) :
    StoresAt d.tables key e ∧ StoresAt d'.tables key e ∧ e.value.scoresFinite = true := by
  cases h with
  | absent habsent => cases hfound
  | expired e _ hstored hfinite hexpired herased => cases hfound
  | live e hstored hfinite hlive =>
      cases hfound
      exact ⟨hstored, hstored, hfinite⟩

theorem Reads.missing (h : Reads clock key d none d') : d'.tables.index[key]? = none := by
  cases h with
  | absent habsent => exact habsent
  | expired e _ hstored hfinite hexpired herased => exact herased.2.1

theorem Reads.of_absent (h : Reads clock key d found d') (habsent : d.tables.index[key]? = none) :
    found = none := by
  cases h with
  | absent _ => rfl
  | expired e _ hstored hfinite hexpired herased => rfl
  | live e hstored hfinite hlive => exact absurd hstored (not_storesAt_of_absent habsent)

theorem Reads.of_stored (h : Reads clock key d found d') {e : StoredValue}
    (hstored : StoresAt d.tables key e) (hfinite : e.value.scoresFinite = true) :
    found = if e.isExpired (clock.now d.readings) then none else some e := by
  cases h with
  | absent habsent => exact absurd hstored (not_storesAt_of_absent habsent)
  | expired e' _ hstored' _ hexpired herased =>
      rw [hstored.unique hstored' hfinite] at hexpired
      rw [if_pos hexpired]
  | live e' hstored' _ hlive =>
      have he : e' = e := hstored.unique hstored' hfinite
      rw [he] at hlive ⊢
      rw [if_neg (by rw [hlive]; decide)]

theorem Reads.finds (h : Reads clock key d found d') {e : StoredValue}
    (hstored : StoresAt d.tables key e) (hout : Outlives clock d d' e) : found = some e := by
  have hkeep := (h.kept.same key e hout).mp hstored
  cases h with
  | absent habsent => exact absurd hstored (not_storesAt_of_absent habsent)
  | expired e' _ _ _ _ herased => exact absurd hkeep (not_storesAt_of_absent herased.2.1)
  | live e' hstored' hfinite hlive => rw [hstored'.unique hstored hfinite]

theorem Reads.lookup_eq (h : Reads clock key d found d') :
    ddbLookup d.tables (clock.now d.readings) key = .ok found := by
  cases h with
  | absent habsent =>
      unfold ddbLookup
      rw [habsent]
  | expired e _ hstored hfinite hexpired herased =>
      rw [lookup_stored hstored hfinite, if_pos hexpired]
  | live e hstored hfinite hlive =>
      rw [lookup_stored hstored hfinite, if_neg (by rw [hlive]; decide)]

end Reads

section Alone

variable (fo : FloatOps) (order : ScanOrder) (clock : Clock)

variable {fo order clock} {d : DdbWorld} {key : String}

theorem runAlone_bind {α β : Type} (p : KV α) (f : α → KV β) (d : DdbWorld) :
    runAlone fo order clock (p.bind f) d =
      match runAlone fo order clock p d with
      | (.ok a, d') => runAlone fo order clock (f a) d'
      | (.error e, d') => (.error e, d') := by
  simp only [runAlone_eq, Prog.run_bind]
  generalize p.run _ d = out
  obtain ⟨r, d'⟩ := out
  cases r <;> rfl

theorem runAlone_perform (op : KVOp) (d : DdbWorld) :
    runAlone fo order clock (Prog.perform op) d = (impl fo op).run (DdbWorld.serve order clock) d := by
  rw [runAlone_eq]
  rfl

variable (fo order clock) in
theorem runAlone_readings_le {α : Type} (p : KV α) (d : DdbWorld) :
    d.readings ≤ (runAlone fo order clock p d).2.readings := by
  unfold runAlone
  generalize p.interp (impl fo) = q
  induction q generalizing d with
  | done r => exact le_refl _
  | call op k ih =>
      have hstep : d.readings ≤ (DdbWorld.serve order clock op d).2.readings := by
        cases op with
        | nowMs => exact Nat.le_succ _
        | _ => exact le_refl _
      exact hstep.trans (ih _ _)

theorem runAlone_load (key : String) (d : DdbWorld) :
    runAlone fo order clock (KV.load key) d = (load key).run (DdbWorld.serve order clock) d :=
  runAlone_perform (.load key) d

theorem runAlone_save (key : String) (e : StoredValue) (cond : WriteCondition) (d : DdbWorld) :
    runAlone fo order clock (KV.save key e cond) d =
      (save fo key e cond).run (DdbWorld.serve order clock) d :=
  runAlone_perform (.save key e cond) d

theorem runAlone_delete (key : String) (cond : DeleteCondition) (d : DdbWorld) :
    runAlone fo order clock (KV.delete key cond) d =
      (delete key cond).run (DdbWorld.serve order clock) d :=
  runAlone_perform (.delete key cond) d

theorem runAlone_attempt {α : Type} (p : KV α) (d : DdbWorld) :
    runAlone fo order clock p.attempt d =
      (.ok (runAlone fo order clock p d).1, (runAlone fo order clock p d).2) := by
  simp only [runAlone_eq]
  exact Prog.run_attempt _ p d

/-- The token of what has been loaded is the current one. -/
def Current (key : String) (d : DdbWorld) (loaded : Option (StoredValue × String)) : Prop :=
  ∀ e token, loaded = some (e, token) → ∃ version, token = encodeToken e.kind version ∧
    ∃ row, (d.tables.data e.kind)[key]? = some row ∧ row.version = version

variable (fo order clock) in
/-- A load of a keyspace: it fails on an entry that cannot be read, and only there. -/
theorem load_outcome (hd : d.tables.IsKeyspace) (key : String) :
    (∃ err e, runAlone fo order clock (KV.load key) d = (.error err, d) ∧
      StoresAt d.tables key e ∧ e.value.scoresFinite = false) ∨
    ∃ loaded d', runAlone fo order clock (KV.load key) d = (.ok loaded, d') ∧
      Reads clock key d (loaded.map Prod.fst) d' ∧ Current key d' loaded := by
  rw [runAlone_load]
  unfold load
  rw [Prog.bind_eq, Prog.run_bind]
  rcases hd key with hnone | ⟨e, hstored⟩
  · have hobs : Observes d.tables key none := hnone
    rw [run_readIndexKind_of_observes order clock hobs]
    exact .inr ⟨none, d, rfl, .absent hnone, nofun⟩
  · obtain ⟨hidx, version, hrow⟩ := hstored
    have hobs : Observes d.tables key (some e.kind) := ⟨_, hidx⟩
    rw [run_readIndexKind_of_observes order clock hobs]
    dsimp only
    rw [run_getOne, hrow]
    dsimp only
    cases hdec : Codec.storedValue.dec (Codec.storedValue.enc e) with
    | error err =>
        refine .inl ⟨err, e, rfl, ⟨hidx, version, hrow⟩, Bool.eq_false_iff.mpr fun hfin => ?_⟩
        rw [(Codec.storedValue_dec_enc e).mpr hfin] at hdec
        cases hdec
    | ok e' =>
        have he : e' = e := Codec.storedValue_dec_ok hdec
        subst he
        have hfinite := (Codec.storedValue_dec_enc e').mp hdec
        refine .inr ?_
        dsimp only
        split
        · rename_i hexpired
          have hall : (deleteIfMatchItems key e'.kind version).all
              (TransactItem.holds d.tables) = true := by
            simp [deleteIfMatchItems, TransactItem.holds, TransactItem.versionIs,
              TransactItem.kindIs, hrow, hidx]
          rw [run_sendTransact, if_pos hall]
          exact ⟨none, _, rfl, .expired e' _ ⟨hidx, version, hrow⟩ hfinite hexpired
            (erased_deleteAnyItems d.tick key e'.kind), nofun⟩
        · rename_i hlive
          refine ⟨_, _, rfl, .live e' ⟨hidx, version, hrow⟩ hfinite (Bool.eq_false_iff.mpr hlive), ?_⟩
          rintro _ _ ⟨⟩
          exact ⟨version, rfl, _, hrow, rfl⟩

variable (fo order clock) in
theorem loadEntry_outcome (hd : d.tables.IsKeyspace) (key : String) :
    (∃ err e, runAlone fo order clock (KV.loadEntry key) d = (.error err, d) ∧
      StoresAt d.tables key e ∧ e.value.scoresFinite = false) ∨
    ∃ found d', runAlone fo order clock (KV.loadEntry key) d = (.ok found, d') ∧
      Reads clock key d found d' := by
  unfold KV.loadEntry
  rw [Prog.bind_eq, runAlone_bind]
  rcases load_outcome fo order clock hd key with
    ⟨err, e, hrun, hstored, hfinite⟩ | ⟨loaded, d', hrun, hreads, -⟩
  · rw [hrun]
    exact .inl ⟨err, e, rfl, hstored, hfinite⟩
  · rw [hrun]
    exact .inr ⟨_, d', rfl, hreads⟩

omit fo order in
theorem lookup_unreadable {e : StoredValue} (hstored : StoresAt d.tables key e)
    (hfinite : e.value.scoresFinite = false) (now : Int) :
    ∃ err, ddbLookup d.tables now key = .error err := by
  obtain ⟨hidx, version, hrow⟩ := hstored
  have hread : (ddbLookup d.tables now key) = liveEntry now (Codec.storedValue.enc e) := by
    unfold ddbLookup
    simp [hidx, parseKind_asStr, hrow]
  rw [hread]
  unfold liveEntry
  cases hdec : Codec.storedValue.dec (Codec.storedValue.enc e) with
  | error err => exact ⟨err, rfl⟩
  | ok e' =>
      have he : e' = e := Codec.storedValue_dec_ok hdec
      rw [he] at hdec
      rw [(Codec.storedValue_dec_enc e).mp hdec] at hfinite
      cases hfinite

/-! ## Writes -/

theorem written_saveItems (d : DdbWorld) (key : String) (e : StoredValue) (version : String)
    (old : Option String) (observed : Option ValueKind) :
    Written key e d { d with tables := d.tables.applyAll (saveItems key e
      (Codec.storedValue.enc e) version old observed) } := by
  refine ⟨rfl, ⟨Tables.applyAll_saveItems_index _ _ _ _ _ _ _, version, ?_⟩, fun key' hne => ?_⟩
  · rw [Tables.applyAll_saveItems_data, if_pos rfl]
  · refine sameAt_applyAll fun item hitem => ?_
    rw [saveItems_key _ _ _ _ _ _ item hitem]
    exact Ne.symm hne

/-- What comes of a save under the condition that goes with what has been loaded. -/
def Saves (fo : FloatOps) (key : String) (found : Option StoredValue) (e : StoredValue)
    (d : DdbWorld) (out : Result Unit × DdbWorld) : Prop :=
  if FitsItem fo e then
    if ∀ e₀ ∈ found, e.kind = e₀.kind then out.1 = .ok () ∧ Written key e d out.2
    else out = (.error .contention, d)
  else ∃ msg, out = (.error (.parse msg), d)

omit order clock in
theorem Saves.cases {found : Option StoredValue} {e : StoredValue} {out : Result Unit × DdbWorld}
    (h : Saves fo key found e d out) :
    (∃ err, out = (.error err, d)) ∨ out.1 = .ok () ∧ Written key e d out.2 := by
  unfold Saves at h
  by_cases hfit : FitsItem fo e
  · rw [if_pos hfit] at h
    by_cases hkind : ∀ e₀ ∈ found, e.kind = e₀.kind
    · rw [if_pos hkind] at h
      exact .inr h
    · rw [if_neg hkind] at h
      exact .inl ⟨_, h⟩
  · rw [if_neg hfit] at h
    obtain ⟨msg, hrefused⟩ := h
    exact .inl ⟨_, hrefused⟩

variable (fo order clock) in
theorem save_outcome {loaded : Option (StoredValue × String)}
    (hmissing : loaded = none → d.tables.index[key]? = none)
    (hstored : ∀ e₀ token, loaded = some (e₀, token) → StoresAt d.tables key e₀)
    (hcurrent : Current key d loaded) (e : StoredValue) :
    Saves fo key (loaded.map Prod.fst) e d
      (runAlone fo order clock (KV.save key e (Storage.destCond loaded)) d) := by
  unfold Saves
  rw [runAlone_save]
  by_cases hfit : FitsItem fo e
  · rw [if_pos hfit]
    cases loaded with
    | none =>
        have hobs : Observes d.tables key none := hmissing rfl
        rw [if_pos (by simp)]
        have hcond : ∀ token, WriteCondition.createOnly ≠ .ifMatch token := nofun
        unfold Storage.destCond
        dsimp only
        rw [run_save_observing fo order clock hcond hfit hobs, if_neg (by simp)]
        exact ⟨rfl, written_saveItems d key e _ _ _⟩
    | some p =>
        obtain ⟨e₀, token⟩ := p
        obtain ⟨version, rfl, row, hrow, hversion⟩ := hcurrent e₀ token rfl
        obtain ⟨hidx, -⟩ := hstored e₀ _ rfl
        unfold Storage.destCond
        dsimp only
        by_cases hkind : e.kind = e₀.kind
        · rw [if_pos (by simpa using hkind)]
          have hobs : (observedKind key e.kind (.ifMatch (encodeToken e₀.kind version))).run
              (DdbWorld.serve order clock) d = (.ok (some e₀.kind), d) := by
            simp [observedKind, parseToken_encodeToken, Prog.bind_eq, Prog.ofExcept, hkind,
              Prog.pure_eq]
          have hold : oldVersion (.ifMatch (encodeToken e₀.kind version)) = .ok (some version) := by
            simp [oldVersion, parseToken_encodeToken]
          have hshows : Observes d.tables key (some e₀.kind) := ⟨_, hidx⟩
          have hrows : ∀ v, some version = some v →
              ∃ row, (d.tables.data e.kind)[key]? = some row ∧ row.version = v := by
            rintro v ⟨rfl⟩
            exact ⟨row, hkind ▸ hrow, hversion⟩
          rw [run_save fo order clock hfit hobs hold, if_neg (by simp), run_sendTransact,
            if_pos (saveItems_hold hrows hshows)]
          exact ⟨rfl, written_saveItems d key e _ _ _⟩
        · rw [if_neg (by simpa using hkind)]
          unfold save
          rw [if_neg (Nat.not_lt.mpr hfit)]
          simp [observedKind, parseToken_encodeToken, Prog.bind_eq, Prog.ofExcept, Ne.symm hkind,
            Prog.perform, Prog.fail, DdbWorld.serve]
          rfl
  · rw [if_neg hfit]
    unfold save
    rw [if_pos (Nat.lt_of_not_le hfit)]
    exact ⟨_, rfl⟩

variable (fo order clock) in
theorem delete_outcome {e : StoredValue} (hstored : StoresAt d.tables key e) :
    ∃ d', runAlone fo order clock (KV.delete key .any) d = (.ok (), d') ∧ Erased key d d' := by
  have hobs : Observes d.tables key (some e.kind) := ⟨_, hstored.1⟩
  rw [runAlone_delete]
  unfold delete
  dsimp only
  rw [Prog.bind_eq, Prog.run_bind, run_readIndexKind_of_observes order clock hobs]
  dsimp only
  rw [run_sendTransact, if_pos (by simp [deleteAnyItems, TransactItem.holds,
    TransactItem.versionIs, TransactItem.kindIs])]
  exact ⟨_, rfl, erased_deleteAnyItems d key e.kind⟩

variable (fo order clock) in
theorem delete_current_outcome {e : StoredValue} {token : String}
    (hstored : StoresAt d.tables key e) (hcurrent : Current key d (some (e, token))) :
    ∃ d', runAlone fo order clock (KV.delete key (.ifMatch token)) d = (.ok (), d') ∧
      Erased key d d' := by
  obtain ⟨version, rfl, row, hrow, hversion⟩ := hcurrent e token rfl
  rw [runAlone_delete, run_deleteIfMatch, run_sendTransact, if_pos (by
    simp [deleteIfMatchItems, TransactItem.holds, TransactItem.versionIs, TransactItem.kindIs,
      hrow, hversion, hstored.1])]
  exact ⟨_, rfl, erased_deleteAnyItems d key e.kind⟩

/-! ## Compare-and-swap -/

/-- What comes of a closure's decision when nothing interferes. -/
def Settles {R : Type} (fo : FloatOps) (key : String) (d : DdbWorld) (out : Result R × DdbWorld) :
    Result (CasAction R) → Prop
  | .error err => out = (.error err, d)
  | .ok (.noOp r) => out = (.ok r, d)
  | .ok (.delete r) => out.1 = .ok r ∧ Erased key d out.2
  | .ok (.write e r) =>
      if FitsItem fo e then out.1 = .ok r ∧ Written key e d out.2
      else ∃ msg, out = (.error (.parse msg), d)

/-- A decision that comes to nothing is an error of the closure or a write refused for
its size. -/
theorem Settles.of_error {R : Type} {out : Result R × DdbWorld} {decision : Result (CasAction R)}
    (h : Settles fo key d out decision) {err : RustyAntError} (herr : out.1 = .error err) :
    out.2 = d ∧ ((∃ e, decision = .error e) ∨
      ∃ e r, decision = .ok (.write e r) ∧ ¬ FitsItem fo e) := by
  obtain ⟨answer, d'⟩ := out
  cases herr
  cases decision with
  | error e => exact ⟨congrArg Prod.snd h, .inl ⟨e, rfl⟩⟩
  | ok action =>
      cases action with
      | noOp r => cases h
      | delete r => cases h.1
      | write e r =>
          have hwrite : if FitsItem fo e then _ else _ := h
          by_cases hfit : FitsItem fo e
          · rw [if_pos hfit] at hwrite
            cases hwrite.1
          · rw [if_neg hfit] at hwrite
            obtain ⟨msg, hrefused⟩ := hwrite
            exact ⟨congrArg Prod.snd hrefused, .inr ⟨e, r, rfl, hfit⟩⟩

theorem runAlone_orContention {R : Type} (r : R) (p : KV Unit) (d : DdbWorld) :
    runAlone fo order clock (orContention r p) d =
      match runAlone fo order clock p d with
      | (.ok (), d') => (.ok (some r), d')
      | (.error .contention, d') => (.ok none, d')
      | (.error e, d') => (.error e, d') := by
  unfold orContention
  rw [Prog.bind_eq, runAlone_bind, runAlone_attempt]
  generalize runAlone fo order clock p d = out
  obtain ⟨r, d'⟩ := out
  cases r with
  | ok u => rfl
  | error e => cases e <;> rfl

variable (fo order clock) in
/-- The first attempt of a compare-and-swap decides it. -/
theorem cas_outcome {R : Type} {modify : Option StoredValue → Result (CasAction R)}
    (hkeep : KeepsKind modify) (hd : d.tables.IsKeyspace) (key : String) :
    (∃ err e, runAlone fo order clock (cas key modify) d = (.error err, d) ∧
      StoresAt d.tables key e ∧ e.value.scoresFinite = false) ∨
    ∃ found d', Reads clock key d found d' ∧
      Settles fo key d' (runAlone fo order clock (cas key modify) d) (modify found) := by
  unfold cas casWith casMut maxCasRetries casFrom
  rw [Prog.bind_eq, runAlone_bind]
  rcases load_outcome fo order clock hd key with
    ⟨err, e, hrun, hstored, hfinite⟩ | ⟨loaded, d', hrun, hreads, hcurrent⟩
  · rw [hrun]
    exact .inl ⟨err, e, rfl, hstored, hfinite⟩
  · refine .inr ⟨loaded.map Prod.fst, d', hreads, ?_⟩
    rw [hrun]
    dsimp only
    rw [Prog.bind_eq, show (pure () : KV Unit) = .done (.ok ()) from rfl, Prog.done_ok_bind,
      Prog.bind_eq, show ∀ x, (Prog.ofExcept x : KV (CasAction R)) = .done x from fun _ => rfl]
    cases hmod : modify (loaded.map Prod.fst) with
    | error err => rfl
    | ok action =>
        rw [Prog.done_ok_bind, Prog.bind_eq, runAlone_bind]
        cases action with
        | noOp r => rfl
        | delete r =>
            cases loaded with
            | none => exact ⟨rfl, rfl, hreads.missing, fun _ _ => sameAt_refl _ _⟩
            | some p =>
                obtain ⟨d'', hdel, herased⟩ := delete_current_outcome fo order clock
                  (hreads.stored rfl).2.1 hcurrent
                unfold casCommit
                rw [runAlone_orContention, hdel]
                exact ⟨rfl, herased⟩
        | write e r =>
            have hsave := save_outcome fo order clock
              (fun h => by rw [h] at hreads; exact hreads.missing)
              (fun e₀ token h => (hreads.stored (by rw [h]; rfl)).2.1) hcurrent e
            have hcommit : casCommit key loaded (.write e r) =
                orContention r (KV.save key e (Storage.destCond loaded)) := by
              cases loaded <;> rfl
            have hkind : ∀ e₀ ∈ loaded.map Prod.fst, e.kind = e₀.kind := by
              intro e₀ he₀
              rw [Option.mem_def] at he₀
              rw [he₀] at hmod
              exact hkeep e₀ e r hmod
            rw [hcommit, runAlone_orContention]
            unfold Saves at hsave
            show if FitsItem fo e then _ else _
            by_cases hfit : FitsItem fo e
            · rw [if_pos hfit, if_pos hkind] at hsave
              rw [if_pos hfit]
              obtain ⟨hok, hwritten⟩ := hsave
              rw [← Prod.eta (runAlone fo order clock (KV.save key e (Storage.destCond loaded)) d'),
                hok]
              exact ⟨rfl, hwritten⟩
            · rw [if_neg hfit] at hsave ⊢
              obtain ⟨msg, hrefused⟩ := hsave
              rw [hrefused]
              exact ⟨msg, rfl⟩

theorem cas_error_kept {R : Type} {modify : Option StoredValue → Result (CasAction R)}
    (hkeep : KeepsKind modify) (hd : d.tables.IsKeyspace) {err : RustyAntError} {d' : DdbWorld}
    (hrun : runAlone fo order clock (cas key modify) d = (.error err, d')) : Kept clock d d' := by
  rcases cas_outcome fo order clock hkeep hd key with
    ⟨err', e, hfail, -⟩ | ⟨found, d₁, hreads, hsettles⟩
  · rw [hfail] at hrun
    cases hrun
    exact .refl d
  · rw [hrun] at hsettles
    rw [← (hsettles.of_error rfl).1] at hreads
    exact hreads.kept

variable (fo order clock) in
theorem onlyLoads_kept {α : Type} {p : KV α} (hp : OnlyLoads p) (hd : d.tables.IsKeyspace) :
    Kept clock d (runAlone fo order clock p d).2 ∧
      (runAlone fo order clock p d).2.tables.IsKeyspace := by
  induction p generalizing d with
  | done r => exact ⟨.refl d, hd⟩
  | call op k ih =>
      obtain ⟨⟨key, rfl⟩, hrest⟩ := hp
      have hstep : runAlone fo order clock (.call (.load key) k) d =
          runAlone fo order clock (k (runAlone fo order clock (KV.load key) d).1)
            (runAlone fo order clock (KV.load key) d).2 := by
        simp only [runAlone_eq]
        rfl
      rw [hstep]
      rcases load_outcome fo order clock hd key with
        ⟨err, e, hrun, -⟩ | ⟨loaded, d', hrun, hreads, -⟩
      · rw [hrun]
        exact ih _ (hrest _ trivial) hd
      · rw [hrun]
        obtain ⟨hkept, hkeyspace⟩ := ih _ (hrest _ trivial) (hreads.isKeyspace hd)
        exact ⟨hreads.kept.trans hkept, hkeyspace⟩

/-! ## What is taken away -/

/-- The entry of a key has been replaced by another with the same expiry, or by none. -/
structure Taken (key : String) (e : StoredValue) (d d' : DdbWorld) : Prop where
  readings : d'.readings = d.readings
  gone : ¬ StoresAt d'.tables key e
  expiry : ∀ e', StoresAt d'.tables key e' → e'.expiresAtMs = e.expiresAtMs
  same : ∀ key', key' ≠ key → d.tables.SameAt d'.tables key'

theorem Erased.taken {d' : DdbWorld} (h : Erased key d d') (e : StoredValue) : Taken key e d d' where
  readings := h.1
  gone := not_storesAt_of_absent h.2.1
  expiry _ hs := absurd hs (not_storesAt_of_absent h.2.1)
  same := h.2.2

theorem Written.taken {d' : DdbWorld} {e e' : StoredValue} (h : Written key e' d d')
    (hfinite : e'.value.scoresFinite = true) (hne : e ≠ e')
    (hexp : e'.expiresAtMs = e.expiresAtMs) : Taken key e d d' where
  readings := h.1
  gone hs := hne (h.2.1.unique hs hfinite)
  expiry _ hs := by rw [h.2.1.unique hs hfinite, hexp]
  same := h.2.2

/-- A command that takes an entry away and only loads afterwards keeps everything in
place if and only if the entry has expired by itself meanwhile. -/
theorem kept_iff_of_taken {d₀ d₁ d₂ d₃ : DdbWorld} {e : StoredValue} (h₀ : Kept clock d₀ d)
    (hreads : Reads clock key d (some e) d₁) (htaken : Taken key e d₁ d₂)
    (h₃ : Kept clock d₂ d₃) : Kept clock d₀ d₃ ↔ ¬ Outlives clock d₀ d₃ e := by
  obtain ⟨hstored, -, hfinite⟩ := hreads.stored rfl
  have hle₁ := hreads.readings_le
  have hle₃ := h₃.later
  have hle₂ := htaken.readings
  have hle₀ := h₀.later
  constructor
  · intro hkept hout
    have hleft : Outlives clock d₀ d e := hout.left (by omega)
    have hright : Outlives clock d₂ d₃ e := hout.right (by omega)
    have h := (hkept.same key e hout).mp ((h₀.same key e hleft).mpr hstored)
    exact htaken.gone ((h₃.same key e hright).mpr h)
  · intro hdies
    refine ⟨by omega, fun key' x hout => ?_⟩
    have hleft : Outlives clock d₀ d x := hout.left (by omega)
    have hmid : Outlives clock d d₁ x := (hout.right h₀.later).left (by omega)
    have hright : Outlives clock d₂ d₃ x := hout.right (by omega)
    rw [h₀.same key' x hleft, ← h₃.same key' x hright]
    by_cases hk : key' = key
    · subst hk
      refine iff_of_false (fun hs => hdies ?_) fun hs => hdies ?_
      · rw [← hstored.unique hs hfinite]
        exact hout
      · exact hout.congr (htaken.expiry x hs).symm
    · rw [hreads.kept.same key' x hmid]
      exact storesAt_congr (htaken.same key' hk)

end Alone

end DynamoDb

end RustyAnt
