import RustyAnt.Mirror.Backend

/-!
# The same requests on both backends

What `KVStorage` asks of its backend: loads, conditional and unconditional writes
and deletes, the walks over the keyspace and the clocks.  On layouts that mirror
each other both backends give the same answers up to the version tokens, and a
compare-and-swap whose closure keeps the kind of the entry cannot tell them
apart.
-/

namespace RustyAnt

open Lib

/-- The serialized entry of a save is within the item limit of DynamoDB. -/
def Fits (fo : FloatOps) : KVOp → Prop
  | .save _ entry _ => (Codec.storedValue.enc entry).len fo ≤ DynamoDb.maxItemBytes
  | _ => True

instance (fo : FloatOps) : DecidablePred (Fits fo)
  | .save _ _ _ => inferInstanceAs (Decidable (_ ≤ _))
  | .load _ | .delete _ _ | .listPage _ _ | .walk | .countKeys | .flushAll | .nowMs | .nanos =>
      .isTrue trivial

/-- What the two backends and their services leave open. -/
structure Setup where
  fo : FloatOps
  etagOf : Json → String
  order : ScanOrder

namespace Setup

/-- `KVStorage` over `S3Storage` and over `DynamoDbBackend`, at the same clock. -/
def twin (S : Setup) (clock : Clock) : Twin KVOp KVOp.Res RustyAntError S3World DdbWorld where
  serve₁ op := (S3Storage.impl op).run (S3World.serve S.etagOf clock)
  serve₂ op := (DynamoDb.impl S.fo op).run (DdbWorld.serve S.order clock)
  rel := Mirrors
  allow := Fits S.fo

end Setup

section Requests

variable {S : Setup} {clock : Clock} {w : S3World} {d : DdbWorld} {key : String}

/-! ## Loads -/

/-- The entry in a document, `none` if it has expired. -/
def liveEntry (now : Int) (body : Json) : Result (Option StoredValue) := do
  let entry ← Codec.storedValue.dec body
  return if entry.isExpired now then none else some entry

/-- What the bucket holds at a key, at time `now`. -/
def s3Lookup (objects : BTreeMap String S3Object) (now : Int) (key : String) :
    Result (Option StoredValue) :=
  match objects[key]? with
  | none => .ok none
  | some obj => liveEntry now obj.body

/-- What the tables hold at a key, at time `now`. -/
def ddbLookup (t : Tables) (now : Int) (key : String) : Result (Option StoredValue) :=
  match t.index[key]? with
  | none => .ok none
  | some row => do
      let kind ← DynamoDb.parseKind row.kind
      match (t.data kind)[key]? with
      | none => .ok none
      | some data => liveEntry now data.data

/-- Layouts that mirror each other hold the same logical keyspace. -/
theorem Mirrors.lookup_eq (h : Mirrors w d) (now : Int) (key : String) :
    s3Lookup w.objects now key = ddbLookup d.tables now key := by
  unfold s3Lookup ddbLookup
  rcases h.2 key with ⟨hobj, hidx, -⟩ | ⟨e, etag, version, hobj, ⟨ttl, hidx⟩, ⟨ttl', hrow⟩, -⟩
  · rw [hobj, hidx]
  · rw [hobj, hidx]
    simp [DynamoDb.parseKind_asStr, hrow]

/-- The clock has been read once more. -/
def S3World.tick (w : S3World) : S3World := { w with readings := w.readings + 1 }

def DdbWorld.tick (d : DdbWorld) : DdbWorld := { d with readings := d.readings + 1 }

/-- A load on both sides: the same error, or nothing there, or the same live entry
under each side's token. -/
theorem load_cases (S : Setup) (clock : Clock) (h : Mirrors w d) (key : String) :
    (∃ e, (KV.load key).run (S.twin clock).serve₁ w = (.error e, w) ∧
      (KV.load key).run (S.twin clock).serve₂ d = (.error e, d) ∧
      s3Lookup w.objects (clock.now w.readings) key = .error e) ∨
    (∃ w' d', (KV.load key).run (S.twin clock).serve₁ w = (.ok none, w') ∧
      (KV.load key).run (S.twin clock).serve₂ d = (.ok none, d') ∧ Mirrors w' d' ∧
      AbsentAt w' d' key ∧ s3Lookup w.objects (clock.now w.readings) key = .ok none) ∨
    ∃ e etag version, (KV.load key).run (S.twin clock).serve₁ w = (.ok (some (e, etag)), w.tick) ∧
      (KV.load key).run (S.twin clock).serve₂ d =
        (.ok (some (e, DynamoDb.encodeToken e.kind version)), d.tick) ∧
      StoredAt w d key e etag version ∧
      s3Lookup w.objects (clock.now w.readings) key = .ok (some e) := by
  have h₁ : (KV.load key).run (S.twin clock).serve₁ w =
      (S3Storage.load key).run (S3World.serve S.etagOf clock) w := rfl
  have h₂ : (KV.load key).run (S.twin clock).serve₂ d =
      (DynamoDb.load key).run (DdbWorld.serve S.order clock) d := rfl
  rw [h₁, h₂, S3Storage.run_load]
  unfold DynamoDb.load s3Lookup
  rw [Prog.bind_eq, Prog.run_bind]
  rcases h.2 key with habsent | ⟨e, etag, version, hobj, ⟨ttl, hidx⟩, ⟨ttl', hrow⟩, hother⟩
  · have hobs : DynamoDb.Observes d.tables key none := habsent.2.1
    rw [DynamoDb.run_readIndexKind_of_observes S.order clock hobs, habsent.1]
    exact .inr (.inl ⟨w, d, rfl, rfl, h, habsent, rfl⟩)
  · have hobs : DynamoDb.Observes d.tables key (some e.kind) := ⟨ttl, hidx⟩
    rw [DynamoDb.run_readIndexKind_of_observes S.order clock hobs, hobj]
    dsimp only
    rw [DynamoDb.run_getOne, hrow]
    unfold liveEntry
    dsimp only
    cases hdec : Codec.storedValue.dec (Codec.storedValue.enc e) with
    | error err => exact .inl ⟨err, rfl, rfl, rfl⟩
    | ok e' =>
        have he' : e' = e := Codec.storedValue_dec_ok hdec
        subst he'
        have hclock : clock.now d.readings = clock.now w.readings := by rw [h.1]
        dsimp only
        rw [hclock, Result.ok_bind]
        by_cases hexp : e'.isExpired (clock.now w.readings)
        · -- both collect the expired entry
          have hall : (DynamoDb.deleteIfMatchItems key e'.kind version).all
              (TransactItem.holds d.tables) = true := by
            simp [DynamoDb.deleteIfMatchItems, TransactItem.holds, TransactItem.versionIs,
              TransactItem.kindIs, hrow, hidx]
          rw [if_pos hexp, if_pos hexp, if_pos hexp, DynamoDb.run_sendTransact, if_pos hall]
          obtain ⟨hidx', hdata'⟩ := Tables.applyAll_deleteAnyItems d.tables key e'.kind
          refine .inr (.inl ⟨_, _, rfl, rfl, h.tick.delete key e'.kind hother, ?_, rfl⟩)
          refine ⟨Std.ExtTreeMap.getElem?_erase_self, hidx', fun k => (hdata' k).trans ?_⟩
          split
          · rfl
          · exact hother k ‹_›
        · rw [if_neg hexp, if_neg hexp, if_neg hexp]
          exact .inr (.inr ⟨e', etag, version, rfl, rfl,
            ⟨hobj, ⟨ttl, hidx⟩, ⟨ttl', hrow⟩, hother⟩, rfl⟩)

/-- Outcomes of a load on both sides, with the states they are in. -/
def SameLoad (key : String) (r₁ r₂ : Result (Option (StoredValue × String))) (w : S3World)
    (d : DdbWorld) : Prop :=
  (∃ e, r₁ = .error e ∧ r₂ = .error e) ∨
  (r₁ = .ok none ∧ r₂ = .ok none ∧ AbsentAt w d key) ∨
  ∃ e etag version, r₁ = .ok (some (e, etag)) ∧
    r₂ = .ok (some (e, DynamoDb.encodeToken e.kind version)) ∧ StoredAt w d key e etag version

theorem load_mirrors (h : Mirrors w d) (key : String) :
    (S.twin clock).Ends (SameLoad key) (KV.load key) (KV.load key) w d := by
  intro _
  rcases load_cases S clock h key with ⟨e, h₁, h₂, -⟩ |
    ⟨w', d', h₁, h₂, h', habsent, -⟩ | ⟨e, etag, version, h₁, h₂, hstored, -⟩
  · rw [h₁, h₂]
    exact ⟨h, .inl ⟨e, rfl, rfl⟩⟩
  · rw [h₁, h₂]
    exact ⟨h', .inr (.inl ⟨rfl, rfl, habsent⟩)⟩
  · rw [h₁, h₂]
    exact ⟨h.tick, .inr (.inr ⟨e, etag, version, rfl, rfl, hstored⟩)⟩

/-! ## Writes -/

theorem MirrorsAt.observes (h : MirrorsAt w d key) :
    (AbsentAt w d key ∧ DynamoDb.Observes d.tables key none) ∨
      ∃ e etag version, StoredAt w d key e etag version ∧
        DynamoDb.Observes d.tables key (some e.kind) := by
  rcases h with habsent | ⟨e, etag, version, hstored⟩
  · exact .inl ⟨habsent, habsent.2.1⟩
  · exact .inr ⟨e, etag, version, hstored, hstored.2.1⟩

theorem save_any_mirrors (h : Mirrors w d) (key : String) (e : StoredValue) :
    (S.twin clock).Agree (KV.save key e .any) (KV.save key e .any) w d := by
  rintro ⟨hfit, -⟩
  show Mirrors ((S3Storage.save key e .any).run _ w).2 ((DynamoDb.save S.fo key e .any).run _ d).2 ∧
    ((S3Storage.save key e .any).run _ w).1 = ((DynamoDb.save S.fo key e .any).run _ d).1
  rw [S3Storage.run_save]
  rcases (h.2 key).observes with ⟨habsent, hobs⟩ | ⟨e₀, etag, version, hstored, hobs⟩
  · rw [DynamoDb.run_save_observing S.fo S.order clock (by simp) hfit hobs, if_neg (by simp)]
    exact ⟨h.save key e _ _ _ _ fun k _ _ => habsent.2.2 k, rfl⟩
  · rw [DynamoDb.run_save_observing S.fo S.order clock (by simp) hfit hobs, if_neg (by simp)]
    refine ⟨h.save key e _ _ _ _ fun k _ hk => ?_, rfl⟩
    exact hstored.2.2.2 k fun heq => hk (heq ▸ rfl)

/-- A create on an absent key goes through on both sides. -/
theorem save_createOnly_absent (h : Mirrors w d) (habsent : AbsentAt w d key) (e : StoredValue) :
    (S.twin clock).Ends (fun r₁ r₂ _ _ => r₁ = .ok () ∧ r₂ = .ok ())
      (KV.save key e .createOnly) (KV.save key e .createOnly) w d := by
  rintro ⟨hfit, -⟩
  have hobs : DynamoDb.Observes d.tables key none := habsent.2.1
  show Mirrors ((S3Storage.save key e .createOnly).run _ w).2
      ((DynamoDb.save S.fo key e .createOnly).run _ d).2 ∧
    ((S3Storage.save key e .createOnly).run _ w).1 = .ok () ∧
    ((DynamoDb.save S.fo key e .createOnly).run _ d).1 = .ok ()
  rw [S3Storage.run_save, DynamoDb.run_save_observing S.fo S.order clock (by simp) hfit hobs,
    if_neg (by simp)]
  simp only [S3World.serve, habsent.1, and_self, and_true]
  exact h.save key e _ _ _ _ fun k _ _ => habsent.2.2 k

theorem save_createOnly_stored (h : Mirrors w d) {e₀ : StoredValue} {etag version : String}
    (hstored : StoredAt w d key e₀ etag version) (e : StoredValue) :
    (S.twin clock).Agree (KV.save key e .createOnly) (KV.save key e .createOnly) w d := by
  rintro ⟨hfit, -⟩
  have hobs : DynamoDb.Observes d.tables key (some e₀.kind) := hstored.2.1
  show Mirrors ((S3Storage.save key e .createOnly).run _ w).2
      ((DynamoDb.save S.fo key e .createOnly).run _ d).2 ∧
    ((S3Storage.save key e .createOnly).run _ w).1 =
      ((DynamoDb.save S.fo key e .createOnly).run _ d).1
  rw [S3Storage.run_save, DynamoDb.run_save_observing S.fo S.order clock (by simp) hfit hobs,
    if_pos (by simp)]
  simp only [S3World.serve, hstored.1, and_true]
  exact h

/-- A write under the current tokens goes through on both sides if it keeps the
kind. -/
theorem save_ifMatch_mirrors (h : Mirrors w d) {e₀ : StoredValue} {etag version : String}
    (hstored : StoredAt w d key e₀ etag version) {e : StoredValue} (hkind : e.kind = e₀.kind) :
    (S.twin clock).Ends (fun r₁ r₂ _ _ => r₁ = .ok () ∧ r₂ = .ok ())
      (KV.save key e (.ifMatch etag))
      (KV.save key e (.ifMatch (DynamoDb.encodeToken e₀.kind version))) w d := by
  rintro ⟨hfit, -⟩
  obtain ⟨hobj, hidx, ⟨ttl, hrow⟩, hother⟩ := hstored
  have hobs : (DynamoDb.observedKind key e.kind
      (.ifMatch (DynamoDb.encodeToken e₀.kind version))).run (DdbWorld.serve S.order clock) d =
        (.ok (some e₀.kind), d) := by
    simp [DynamoDb.observedKind, DynamoDb.parseToken_encodeToken, Prog.bind_eq, Prog.ofExcept,
      hkind, Prog.pure_eq]
  have hold : DynamoDb.oldVersion (.ifMatch (DynamoDb.encodeToken e₀.kind version)) =
      .ok (some version) := by
    simp [DynamoDb.oldVersion, DynamoDb.parseToken_encodeToken]
  have hshows : DynamoDb.Observes d.tables key (some e₀.kind) := hidx
  have hversion : ∀ v, some version = some v →
      ∃ row, (d.tables.data e.kind)[key]? = some row ∧ row.version = v := by
    rintro v ⟨rfl⟩
    exact ⟨_, hkind ▸ hrow, rfl⟩
  show Mirrors ((S3Storage.save key e (.ifMatch etag)).run _ w).2
      ((DynamoDb.save S.fo key e (.ifMatch _)).run _ d).2 ∧
    ((S3Storage.save key e (.ifMatch etag)).run _ w).1 = .ok () ∧
    ((DynamoDb.save S.fo key e (.ifMatch _)).run _ d).1 = .ok ()
  rw [S3Storage.run_save, DynamoDb.run_save S.fo S.order clock hfit hobs hold,
    if_neg (by simp), DynamoDb.run_sendTransact,
    if_pos (DynamoDb.saveItems_hold hversion hshows)]
  simp only [S3World.serve, hobj, if_true, and_self, and_true]
  refine h.save key e _ _ _ _ fun k hk _ => ?_
  exact hother k (hkind ▸ hk)

/-- A write under the current tokens that changes the kind goes through on S3 only. -/
theorem save_ifMatch_crosses (clock : Clock) {e₀ : StoredValue} {etag version : String}
    (hstored : StoredAt w d key e₀ etag version) {e : StoredValue} (hkind : e.kind ≠ e₀.kind)
    (hfit : Fits S.fo (.save key e (.ifMatch etag))) :
    ((KV.save key e (.ifMatch etag)).run (S.twin clock).serve₁ w).1 = .ok () ∧
    (KV.save key e (.ifMatch (DynamoDb.encodeToken e₀.kind version))).run
      (S.twin clock).serve₂ d = (.error .contention, d) := by
  have hfit' : ¬ DynamoDb.maxItemBytes < (Codec.storedValue.enc e).len S.fo := Nat.not_lt.mpr hfit
  constructor
  · show ((S3Storage.save key e (.ifMatch etag)).run _ w).1 = .ok ()
    rw [S3Storage.run_save]
    simp only [S3World.serve, hstored.1, if_true]
  · show (DynamoDb.save S.fo key e (.ifMatch _)).run _ d = _
    unfold DynamoDb.save
    rw [if_neg hfit']
    show Prog.run _ (Prog.bind (DynamoDb.observedKind key e.kind _) _) d = _
    simp [DynamoDb.observedKind, DynamoDb.parseToken_encodeToken, Prog.bind_eq, Prog.ofExcept,
      Ne.symm hkind, Prog.fail]

/-! ## Deletes -/

theorem delete_any_mirrors (h : Mirrors w d) (key : String) :
    (S.twin clock).Agree (KV.delete key .any) (KV.delete key .any) w d := by
  intro _
  show Mirrors ⟨w.objects.erase key, w.readings⟩ ((DynamoDb.delete key .any).run _ d).2 ∧
    .ok () = ((DynamoDb.delete key .any).run _ d).1
  unfold DynamoDb.delete
  dsimp only
  rw [Prog.bind_eq, Prog.run_bind]
  rcases (h.2 key).observes with ⟨habsent, hobs⟩ | ⟨e, etag, version, hstored, hobs⟩
  · rw [DynamoDb.run_readIndexKind_of_observes S.order clock hobs]
    refine ⟨h.of_write key h.1 ?_ (fun _ _ => rfl) (fun _ _ _ => rfl) (.inl ⟨?_, habsent.2⟩), rfl⟩
    · intro key' hk
      simp [Std.ExtTreeMap.getElem?_erase, Ne.symm hk]
    · exact Std.ExtTreeMap.getElem?_erase_self
  · rw [DynamoDb.run_readIndexKind_of_observes S.order clock hobs]
    dsimp only
    have hall : (DynamoDb.deleteAnyItems key e.kind).all (TransactItem.holds d.tables) = true := rfl
    rw [DynamoDb.run_sendTransact, if_pos hall]
    exact ⟨h.delete key e.kind hstored.2.2.2, rfl⟩

/-- A delete under the current tokens goes through on both sides. -/
theorem delete_ifMatch_mirrors (h : Mirrors w d) {e : StoredValue} {etag version : String}
    (hstored : StoredAt w d key e etag version) :
    (S.twin clock).Ends (fun r₁ r₂ _ _ => r₁ = .ok () ∧ r₂ = .ok ())
      (KV.delete key (.ifMatch etag))
      (KV.delete key (.ifMatch (DynamoDb.encodeToken e.kind version))) w d := by
  intro _
  obtain ⟨hobj, ⟨ttl, hidx⟩, ⟨ttl', hrow⟩, hother⟩ := hstored
  show Mirrors ((S3Storage.delete key (.ifMatch etag)).run _ w).2
      ((DynamoDb.delete key (.ifMatch _)).run _ d).2 ∧
    ((S3Storage.delete key (.ifMatch etag)).run _ w).1 = .ok () ∧
    ((DynamoDb.delete key (.ifMatch _)).run _ d).1 = .ok ()
  have hs3 : (S3Storage.delete key (.ifMatch etag)).run (S3World.serve S.etagOf clock) w =
      (.ok (), { w with objects := w.objects.erase key }) := by
    unfold S3Storage.delete
    simp only [Prog.perform, Prog.bind_eq, Prog.call_bind, Prog.run_call, S3World.serve, hobj,
      if_true]
    rfl
  have hall : (DynamoDb.deleteIfMatchItems key e.kind version).all
      (TransactItem.holds d.tables) = true := by
    simp [DynamoDb.deleteIfMatchItems, TransactItem.holds, TransactItem.versionIs,
      TransactItem.kindIs, hrow, hidx]
  rw [hs3, DynamoDb.run_deleteIfMatch, DynamoDb.run_sendTransact, if_pos hall]
  exact ⟨h.delete key e.kind hother, rfl, rfl⟩

/-! ## Programs that cannot tell the backends apart -/

theorem uniform_loadEntry (key : String) : (S.twin clock).Uniform (KV.loadEntry key) := by
  intro w d h
  refine Twin.Ends.bind (load_mirrors h key) ?_ ?_
  · rintro r₁ r₂ w' d' (⟨e, rfl, rfl⟩ | ⟨rfl, rfl, -⟩ | ⟨e, etag, version, rfl, rfl, -⟩)
    · exact .inl ⟨e, rfl, rfl, rfl⟩
    · exact .inr ⟨none, none, rfl, rfl⟩
    · exact .inr ⟨_, _, rfl, rfl⟩
  · rintro a b w' d' h' (⟨e, ha, -⟩ | ⟨ha, hb, -⟩ | ⟨e, etag, version, ha, hb, -⟩)
    · cases ha
    · cases ha
      cases hb
      exact Twin.Agree.done h' _
    · cases ha
      cases hb
      exact Twin.Agree.done h' _

theorem load_bind_const {α : Type} (key : String) (p : KV α) :
    ((KV.load key).bind fun _ => p) = (KV.loadEntry key).bind fun _ => p := by
  show Prog.call _ _ = Prog.call _ _
  congr 1
  funext r
  cases r <;> rfl

theorem uniform_save_any (key : String) (e : StoredValue) :
    (S.twin clock).Uniform (KV.save key e .any) := fun _ _ h => save_any_mirrors h key e

theorem uniform_save_createOnly (key : String) (e : StoredValue) :
    (S.twin clock).Uniform (KV.save key e .createOnly) := by
  intro w d h
  rcases h.2 key with habsent | ⟨e₀, etag, version, hstored⟩
  · intro halong
    obtain ⟨hrel, h₁, h₂⟩ := save_createOnly_absent h habsent e halong
    exact ⟨hrel, h₁.trans h₂.symm⟩
  · exact save_createOnly_stored h hstored e

theorem uniform_delete_any (key : String) : (S.twin clock).Uniform (KV.delete key .any) :=
  fun _ _ h => delete_any_mirrors h key

theorem uniform_nowMs : (S.twin clock).Uniform KV.nowMs := by
  intro w d h _
  exact ⟨h.tick, congrArg (fun n => Except.ok (clock.now n)) h.1⟩

theorem uniform_nanos : (S.twin clock).Uniform KV.nanos := fun _ _ h _ => ⟨h, rfl⟩

/-! ## Walks over the keyspace -/

theorem Mirrors.keys_perm (h : Mirrors w d) : w.objects.keys.Perm d.tables.index.keys := by
  rw [List.perm_ext_iff_of_nodup Std.ExtTreeMap.nodup_keys Std.ExtTreeMap.nodup_keys]
  intro key
  rw [Std.ExtTreeMap.mem_keys, Std.ExtTreeMap.mem_keys, Std.ExtTreeMap.mem_iff_isSome_getElem?,
    Std.ExtTreeMap.mem_iff_isSome_getElem?]
  rcases h.2 key with ⟨hobj, hidx, -⟩ | ⟨e, etag, version, hobj, ⟨ttl, hidx⟩, -⟩
  · rw [hobj, hidx]
    rfl
  · rw [hobj, hidx]
    rfl

/-- The walks list the same keys, each in its backend's order. -/
theorem walk_mirrors (h : Mirrors w d) :
    (S.twin clock).Ends (fun r₁ r₂ _ _ => ∃ ks ks', r₁ = .ok ks ∧ r₂ = .ok ks' ∧ ks.Perm ks')
      KV.walk KV.walk w d :=
  fun _ => ⟨h, _, _, rfl, rfl, h.keys_perm.trans (S.order.perm _).symm⟩

theorem uniform_countKeys : (S.twin clock).Uniform KV.countKeys := by
  intro w d h _
  refine ⟨h, ?_⟩
  have hlen : w.objects.keys.length = (S.order.arrange d.tables.index.keys).length :=
    (h.keys_perm.trans (S.order.perm _).symm).length_eq
  exact congrArg (fun n => Except.ok (toI64 n)) hlen

theorem deleteEach_mirrors (S : Setup) (clock : Clock) (keys : List String) (h : Mirrors w d) :
    ((DynamoDb.deleteEach keys).run (DdbWorld.serve S.order clock) d).1 = .ok () ∧
    Mirrors ⟨keys.foldl (fun objects k => objects.erase k) w.objects, w.readings⟩
      ((DynamoDb.deleteEach keys).run (DdbWorld.serve S.order clock) d).2 := by
  induction keys generalizing w d with
  | nil => exact ⟨rfl, h⟩
  | cons k keys ih =>
      have hdel : Mirrors ⟨w.objects.erase k, w.readings⟩
          ((DynamoDb.delete k .any).run (DdbWorld.serve S.order clock) d).2 := by
        have huniform : (S.twin clock).Uniform (KV.delete k .any) := uniform_delete_any k
        exact (huniform w d h ⟨trivial, trivial⟩).1
      unfold DynamoDb.deleteEach
      rw [Prog.bind_eq, Prog.run_bind, Prog.run_attempt]
      exact ih hdel

theorem foldl_erase_getElem? {β : Type} (keys : List String) (m : BTreeMap String β) (key : String) :
    (keys.foldl (fun m k => m.erase k) m)[key]? = if key ∈ keys then none else m[key]? := by
  induction keys generalizing m with
  | nil => simp
  | cons k keys ih =>
      rw [List.foldl_cons, ih]
      by_cases hk : k = key
      · simp [hk]
      · simp [Std.ExtTreeMap.getElem?_erase, hk, Ne.symm hk]

theorem uniform_flushAll : (S.twin clock).Uniform KV.flushAll := by
  intro w d h _
  obtain ⟨hout, hrel⟩ := deleteEach_mirrors S clock (S.order.arrange d.tables.index.keys) h
  have hgone : (S.order.arrange d.tables.index.keys).foldl (fun objects k => objects.erase k)
      w.objects = ∅ := by
    refine Std.ExtTreeMap.ext_getElem? fun key => ?_
    rw [foldl_erase_getElem?, Std.ExtTreeMap.getElem?_empty]
    split
    · rfl
    · have hperm := h.keys_perm.trans (S.order.perm d.tables.index.keys).symm
      have hmem : key ∉ w.objects := by
        rw [← Std.ExtTreeMap.mem_keys]
        exact fun hkey => ‹key ∉ _› (hperm.mem_iff.mp hkey)
      exact Std.ExtTreeMap.getElem?_eq_none hmem
  rw [hgone] at hrel
  exact ⟨hrel, hout.symm⟩

/-! ## Compare-and-swap -/

/-- A decision of a closure only writes entries with `P`. -/
def Emits {R : Type} (P : StoredValue → Prop) (x : Result (CasAction R)) : Prop :=
  ∀ e r, x = .ok (.write e r) → P e

/-- A closure keeps the kind of the entry it finds. -/
def KeepsKind {R : Type} (modify : Option StoredValue → Result (CasAction R)) : Prop :=
  ∀ e, Emits (fun e' => e'.kind = e.kind) (modify (some e))

/-- The commit of a decision on what has just been loaded, on both sides. -/
theorem casCommit_mirrors {R : Type} (h : Mirrors w d) {r₁ r₂ : Option (StoredValue × String)}
    (hloaded : SameLoad key (.ok r₁) (.ok r₂) w d) {action : CasAction R}
    (hkind : ∀ e e' r, r₁.map Prod.fst = some e → action = .write e' r → e'.kind = e.kind) :
    (S.twin clock).Ends (fun a b _ _ => a = .ok (some action.result) ∧ b = .ok (some action.result))
      (casCommit key r₁ action) (casCommit key r₂ action) w d := by
  have hcommit : ∀ {p q : KV Unit} (r : R),
      (S.twin clock).Ends (fun r₁ r₂ _ _ => r₁ = .ok () ∧ r₂ = .ok ()) p q w d →
      (S.twin clock).Ends (fun a b _ _ => a = .ok (some r) ∧ b = .ok (some r))
        (orContention r p) (orContention r q) w d := by
    intro p q r hpq halong
    obtain ⟨hrel, hp, hq⟩ := hpq (halong.bind_left.attempt)
    unfold orContention
    rw [Prog.bind_eq, Prog.run_bind, Prog.run_attempt, hp, Prog.bind_eq, Prog.run_bind,
      Prog.run_attempt, hq]
    exact ⟨hrel, rfl, rfl⟩
  rcases hloaded with ⟨e, he, -⟩ | ⟨he₁, he₂, habsent⟩ | ⟨e, etag, version, he₁, he₂, hstored⟩
  · cases he
  · cases he₁
    cases he₂
    cases action with
    | noOp r => exact fun _ => ⟨h, rfl, rfl⟩
    | delete r => exact fun _ => ⟨h, rfl, rfl⟩
    | write e' r => exact hcommit r (save_createOnly_absent h habsent e')
  · cases he₁
    cases he₂
    cases action with
    | noOp r => exact fun _ => ⟨h, rfl, rfl⟩
    | delete r => exact hcommit r (delete_ifMatch_mirrors h hstored)
    | write e' r => exact hcommit r (save_ifMatch_mirrors h hstored (hkind e e' r rfl rfl))

/-- A draw from the clock leaves both keyspaces alone. -/
def Draws {δ : Type} (S : Setup) (clock : Clock) (draw : KV δ) : Prop :=
  ∀ w d, Mirrors w d → ∃ x : δ, draw.run (S.twin clock).serve₁ w = (.ok x, w) ∧
    draw.run (S.twin clock).serve₂ d = (.ok x, d)

theorem draws_pure : Draws S clock (pure () : KV Unit) := fun _ _ _ => ⟨(), rfl, rfl⟩

theorem draws_nanos : Draws S clock KV.nanos := fun _ _ _ => ⟨clock.nanos, rfl, rfl⟩

/-- A compare-and-swap is decided by its first attempt on both sides. -/
theorem uniform_casWith {δ R : Type} (key : String) {draw : KV δ} (hdraw : Draws S clock draw)
    {modify : δ → Option StoredValue → Result (CasAction R)} (hkind : ∀ x, KeepsKind (modify x)) :
    (S.twin clock).Uniform (casWith key draw modify) := by
  intro w d h
  unfold casWith casMut maxCasRetries casFrom
  refine Twin.Ends.bind (load_mirrors h key) ?_ ?_
  · rintro r₁ r₂ w' d' (⟨e, rfl, rfl⟩ | ⟨rfl, rfl, -⟩ | ⟨e, etag, version, rfl, rfl, -⟩)
    · exact .inl ⟨e, rfl, rfl, rfl⟩
    · exact .inr ⟨none, none, rfl, rfl⟩
    · exact .inr ⟨_, _, rfl, rfl⟩
  · intro r₁ r₂ w' d' h' hloaded halong
    have hsame : r₁.map Prod.fst = r₂.map Prod.fst := by
      rcases hloaded with ⟨e, he, -⟩ | ⟨he₁, he₂, -⟩ | ⟨e, etag, version, he₁, he₂, -⟩
      · cases he
      · cases he₁
        cases he₂
        rfl
      · cases he₁
        cases he₂
        rfl
    obtain ⟨x, hx₁, hx₂⟩ := hdraw w' d' h'
    have hrest := halong.bind_right (congrArg Prod.fst hx₁)
    rw [hx₁] at hrest
    rw [Prog.bind_eq, Prog.run_bind, hx₁, Prog.bind_eq, Prog.run_bind, hx₂]
    dsimp only
    rw [← hsame]
    cases hmod : modify x (r₁.map Prod.fst) with
    | error e => exact ⟨h', rfl⟩
    | ok action =>
        rw [hmod] at hrest
        have hwrites : ∀ e e' r, r₁.map Prod.fst = some e → action = .write e' r →
            e'.kind = e.kind := by
          intro e e' r he haction
          rw [he, haction] at hmod
          exact hkind x e e' r hmod
        obtain ⟨hrel, ha, hb⟩ := casCommit_mirrors h' hloaded hwrites (Prog.Along.bind_left hrest)
        show Mirrors (Prog.run _ (Prog.bind (casCommit key r₁ action) _) w').2
            (Prog.run _ (Prog.bind (casCommit key r₂ action) _) d').2 ∧
          (Prog.run _ (Prog.bind (casCommit key r₁ action) _) w').1 =
            (Prog.run _ (Prog.bind (casCommit key r₂ action) _) d').1
        rw [Prog.run_bind, Prog.run_bind]
        rw [← Prod.eta (Prog.run (S.twin clock).serve₁ (casCommit key r₁ action) w'),
          ← Prod.eta (Prog.run (S.twin clock).serve₂ (casCommit key r₂ action) d'), ha, hb]
        exact ⟨hrel, rfl⟩

theorem uniform_cas {R : Type} (key : String) {modify : Option StoredValue → Result (CasAction R)}
    (hkind : KeepsKind modify) : (S.twin clock).Uniform (cas key modify) :=
  uniform_casWith key draws_pure fun _ => hkind

end Requests

end RustyAnt
