import RustyAnt.DynamoDb.Kept
import RustyAnt.Storage.OneClient

/-!
# Both backends as a store with one client

The S3 bucket and the DynamoDB tables, at a clock that stands still: each obeys the laws of
`OneClient`.  A bucket is valid when each body is the document of an entry, the tables when
they hold a keyspace.
-/

namespace RustyAnt

open Lib

/-! ## The bucket -/

namespace S3World

def entries (w : S3World) : Entries := fun key =>
  w.objects[key]?.map fun obj => Codec.storedValue.dec obj.body

/-- Each body is the document of an entry. -/
def HoldsDocuments (w : S3World) : Prop :=
  ∀ (key : String) (obj : S3Object), w.objects[key]? = some obj → ∃ e, obj.body = Codec.storedValue.enc e

variable {w : S3World} {key : String}

theorem entries_absent (h : w.objects[key]? = none) : w.entries key = none := by
  unfold entries
  rw [h]
  rfl

theorem entries_stored {obj : S3Object} (h : w.objects[key]? = some obj) :
    w.entries key = some (Codec.storedValue.dec obj.body) := by
  unfold entries
  rw [h]
  rfl

theorem entries_insert (key : String) (obj : S3Object) (n : Nat) :
    entries ⟨w.objects.insert key obj, n⟩ =
      Function.update w.entries key (some (Codec.storedValue.dec obj.body)) := by
  funext key'
  by_cases hk : key' = key
  · rw [hk, Function.update_self]
    exact entries_stored Std.ExtTreeMap.getElem?_insert_self
  · rw [Function.update_of_ne hk]
    unfold entries
    simp [Std.ExtTreeMap.getElem?_insert, Ne.symm hk]

theorem entries_erase (key : String) (n : Nat) :
    entries ⟨w.objects.erase key, n⟩ = Function.update w.entries key none := by
  funext key'
  by_cases hk : key' = key
  · rw [hk, Function.update_self]
    exact entries_absent Std.ExtTreeMap.getElem?_erase_self
  · rw [Function.update_of_ne hk]
    unfold entries
    simp [Std.ExtTreeMap.getElem?_erase, Ne.symm hk]

theorem HoldsDocuments.insert (h : w.HoldsDocuments) (key : String) (e : StoredValue)
    (etag : String) (n : Nat) :
    HoldsDocuments ⟨w.objects.insert key ⟨Codec.storedValue.enc e, etag⟩, n⟩ := by
  intro key' obj hobj
  by_cases hk : key = key'
  · rw [hk, Std.ExtTreeMap.getElem?_insert_self] at hobj
    rw [← Option.some.inj hobj]
    exact ⟨e, rfl⟩
  · simp [Std.ExtTreeMap.getElem?_insert, hk] at hobj
    exact h key' obj hobj

theorem HoldsDocuments.erase (h : w.HoldsDocuments) (key : String) (n : Nat) :
    HoldsDocuments ⟨w.objects.erase key, n⟩ := by
  intro key' obj hobj
  by_cases hk : key = key'
  · rw [hk, Std.ExtTreeMap.getElem?_erase_self] at hobj
    cases hobj
  · simp [Std.ExtTreeMap.getElem?_erase, hk] at hobj
    exact h key' obj hobj

end S3World

section Bucket

variable {etagOf : Json → String} {clock : Clock} {w : S3World}

theorem S3Storage.run_load_view (hw : w.HoldsDocuments) (key : String) {now : Int}
    (hnow : clock.now w.readings = now) :
    ∃ answer w', (S3Storage.load key).run (S3World.serve etagOf clock) w = (answer, w') ∧
      answer.map (Option.map Prod.fst) = w.entries.view now key ∧
      w'.HoldsDocuments ∧ w'.entries = w.entries.swept now key ∧
      (∀ e, w.entries key = some (.ok e) → w.readings < w'.readings) := by
  rw [S3Storage.run_load]
  cases hobj : w.objects[key]? with
  | none =>
      have hnone := S3World.entries_absent hobj
      refine ⟨_, _, rfl, (Entries.view_none hnone).symm, hw, ?_, ?_⟩
      · unfold Entries.swept
        rw [hnone]
      · intro e he
        rw [hnone] at he
        cases he
  | some obj =>
      have hsome := S3World.entries_stored hobj
      dsimp only
      rw [hnow]
      cases hdec : Codec.storedValue.dec obj.body with
      | error err =>
          rw [hdec] at hsome
          refine ⟨_, _, rfl, ?_, hw, ?_, ?_⟩
          · unfold Entries.view
            rw [hsome]
            rfl
          · unfold Entries.swept
            rw [hsome]
          · intro e he
            rw [hsome] at he
            cases he
      | ok e =>
          rw [hdec] at hsome
          rw [Entries.view_ok hsome]
          unfold Entries.swept
          rw [hsome]
          dsimp only
          split
          · exact ⟨_, _, rfl, rfl, hw.erase key _, S3World.entries_erase key _,
              fun _ _ => Nat.lt_succ_self _⟩
          · exact ⟨_, _, rfl, rfl, hw, rfl, fun _ _ => Nat.lt_succ_self _⟩

/-- The bucket with one client. -/
def S3Storage.client (etagOf : Json → String) (now : Int) : OneClient now where
  State := S3World
  serve nanos op := (S3Storage.impl op).run (S3World.serve etagOf ⟨fun _ => now, nanos⟩)
  Valid := S3World.HoldsDocuments
  entries := S3World.entries
  listing w := w.objects.keys
  Fits _ := True
  readable := by
    intro w key e hw hkey
    unfold S3World.entries at hkey
    obtain ⟨obj, hobj, hdec⟩ := Option.map_eq_some_iff.mp hkey
    obtain ⟨e', hbody⟩ := hw key obj hobj
    rw [hbody] at hdec
    unfold readBack
    rw [Codec.storedValue_dec_ok hdec, hdec, Codec.storedValue_dec_ok hdec]
  load nanos key hw := by
    obtain ⟨answer, w', hrun, hview, hvalid, hentries, -⟩ := S3Storage.run_load_view hw key rfl
    exact ⟨answer, w', hrun, hview, hvalid, hentries⟩
  put := by
    intro w e cond nanos key hw _ hcond
    refine ⟨⟨w.objects.insert key ⟨Codec.storedValue.enc e, etagOf (Codec.storedValue.enc e)⟩,
      w.readings⟩, ?_, hw.insert key e _ _, S3World.entries_insert key _ _⟩
    show (S3Storage.save key e cond).run _ w = _
    rw [S3Storage.run_save]
    rcases hcond with rfl | ⟨rfl, hnone⟩
    · rfl
    · have hobj : w.objects[key]? = none := Option.map_eq_none_iff.mp hnone
      unfold S3World.serve
      dsimp only
      rw [hobj]
      rfl
  refuse := by
    intro w e nanos key hw _ hkey
    show (S3Storage.save key e .createOnly).run _ w = _
    rw [S3Storage.run_save]
    have hobj : w.objects[key]? ≠ none := fun hnone => hkey (S3World.entries_absent hnone)
    obtain ⟨obj, hobj⟩ := Option.ne_none_iff_exists'.mp hobj
    unfold S3World.serve
    dsimp only
    rw [hobj]
    rfl
  remove nanos key hw := ⟨_, rfl, hw.erase key _, S3World.entries_erase key _⟩
  clock nanos hw := ⟨_, rfl, hw, rfl⟩
  draw _ _ := rfl
  walk _ _ := rfl
  page := by
    intro w n nanos cursor hw hn hcursor
    have hbehind : (w.objects.keys.filter fun k => cursor.all fun c => decide (c < k)) =
        behind w.objects.keys cursor := by
      cases cursor with
      | none => exact List.filter_eq_self.mpr fun _ _ => rfl
      | some c =>
          have hordered : w.objects.keys.Pairwise fun a b => compare a b = .lt :=
            Std.ExtTreeMap.ordered_keys
          symm
          apply behind_of_ordered (fun a b hab => String.lt_asymm hab)
            (hordered.imp fun h => compareOfLessAndEq_eq_lt.mp h)
          exact hcursor c rfl
    refine ⟨_, rfl, ?_⟩
    rw [hbehind]
    exact isPage_take (by omega) (Nat.min_le_left n 1000) cursor
  nodup _ := Std.ExtTreeMap.nodup_keys
  listed := by
    intro w key hw
    rw [Std.ExtTreeMap.mem_keys, Std.ExtTreeMap.mem_iff_isSome_getElem?]
    unfold S3World.entries
    rw [Option.isSome_iff_ne_none, ne_eq, ne_eq, Option.map_eq_none_iff]

end Bucket

/-! ## The tables -/

namespace Tables

def entries (t : Tables) : Entries := fun key =>
  match t.index[key]? with
  | none => none
  | some row =>
      match DynamoDb.parseKind row.kind with
      | .error _ => none
      | .ok kind => ((t.data kind)[key]?).map fun row => Codec.storedValue.dec row.data

variable {t : Tables} {key : String}

theorem entries_absent (h : t.index[key]? = none) : t.entries key = none := by
  unfold entries
  rw [h]

theorem entries_stored {e : StoredValue} (h : DynamoDb.StoresAt t key e) :
    t.entries key = some (readBack e) := by
  obtain ⟨hidx, version, hrow⟩ := h
  unfold entries
  rw [hidx]
  dsimp only
  rw [DynamoDb.parseKind_asStr]
  dsimp only
  rw [hrow]
  rfl

theorem entries_same {t' : Tables} (h : t.SameAt t' key) : t'.entries key = t.entries key := by
  unfold entries
  simp only [h.1, h.2]

theorem IsKeyspace.absent (h : t.IsKeyspace) (hkey : t.entries key = none) :
    t.index[key]? = none := by
  rcases h key with hnone | ⟨e, he⟩
  · exact hnone
  · rw [entries_stored he] at hkey
    cases hkey

theorem IsKeyspace.stored (h : t.IsKeyspace) (hkey : t.entries key ≠ none) :
    ∃ e, DynamoDb.StoresAt t key e := by
  rcases h key with hnone | he
  · exact absurd (entries_absent hnone) hkey
  · exact he

end Tables

namespace DynamoDb

variable {fo : FloatOps} {order : ScanOrder} {clock : Clock} {d d' : DdbWorld} {key : String}

theorem Erased.entries_eq (h : Erased key d d') :
    d'.tables.entries = Function.update d.tables.entries key none := by
  funext key'
  by_cases hk : key' = key
  · rw [hk, Function.update_self]
    exact Tables.entries_absent h.2.1
  · rw [Function.update_of_ne hk]
    exact Tables.entries_same (h.2.2 key' hk)

theorem Written.entries_eq {e : StoredValue} (h : Written key e d d') :
    d'.tables.entries = Function.update d.tables.entries key (some (readBack e)) := by
  funext key'
  by_cases hk : key' = key
  · rw [hk, Function.update_self]
    exact Tables.entries_stored h.2.1
  · rw [Function.update_of_ne hk]
    exact Tables.entries_same (h.2.2 key' hk)

theorem run_load_view (hd : d.tables.IsKeyspace) (key : String) {now : Int}
    (hnow : clock.now d.readings = now) :
    ∃ answer d', (load key).run (DdbWorld.serve order clock) d = (answer, d') ∧
      answer.map (Option.map Prod.fst) = d.tables.entries.view now key ∧
      d'.tables.IsKeyspace ∧ d'.tables.entries = d.tables.entries.swept now key ∧
      (∀ e, d.tables.entries key = some (.ok e) → d.readings < d'.readings) := by
  unfold load
  rw [Prog.bind_eq, Prog.run_bind]
  rcases hd key with hnone | ⟨e, hstored⟩
  · have hobs : Observes d.tables key none := hnone
    have hkey := Tables.entries_absent hnone
    rw [run_readIndexKind_of_observes order clock hobs]
    refine ⟨_, _, rfl, (Entries.view_none hkey).symm, hd, ?_, ?_⟩
    · unfold Entries.swept
      rw [hkey]
    · intro e he
      rw [hkey] at he
      cases he
  · have hkey := Tables.entries_stored hstored
    obtain ⟨hidx, version, hrow⟩ := hstored
    have hobs : Observes d.tables key (some e.kind) := ⟨_, hidx⟩
    rw [run_readIndexKind_of_observes order clock hobs]
    dsimp only
    rw [run_getOne, hrow]
    dsimp only
    unfold readBack at hkey
    rw [hnow]
    cases hdec : Codec.storedValue.dec (Codec.storedValue.enc e) with
    | error err =>
        rw [hdec] at hkey
        refine ⟨_, _, rfl, ?_, hd, ?_, ?_⟩
        · unfold Entries.view
          rw [hkey]
          rfl
        · unfold Entries.swept
          rw [hkey]
        · intro e he
          rw [hkey] at he
          cases he
    | ok e' =>
        have he : e' = e := Codec.storedValue_dec_ok hdec
        rw [hdec] at hkey
        subst he
        rw [Entries.view_ok hkey]
        unfold Entries.swept
        rw [hkey]
        dsimp only
        split
        · have hall : (deleteIfMatchItems key e'.kind version).all
              (TransactItem.holds d.tables) = true := by
            simp [deleteIfMatchItems, TransactItem.holds, TransactItem.versionIs,
              TransactItem.kindIs, hrow, hidx]
          have herased := erased_deleteAnyItems d.tick key e'.kind
          rw [run_sendTransact, if_pos hall]
          exact ⟨_, _, rfl, rfl, herased.isKeyspace hd, herased.entries_eq,
            fun _ _ => Nat.lt_succ_self _⟩
        · exact ⟨_, _, rfl, rfl, hd, rfl, fun _ _ => Nat.lt_succ_self _⟩

theorem run_delete_any (fo : FloatOps) (hd : d.tables.IsKeyspace) (key : String) :
    ∃ d', (delete key .any).run (DdbWorld.serve order clock) d = (.ok (), d') ∧
      d'.tables.IsKeyspace ∧
      d'.tables.entries = Function.update d.tables.entries key none := by
  rcases hd key with hnone | ⟨e, hstored⟩
  · have hobs : Observes d.tables key none := hnone
    refine ⟨d, ?_, hd, ?_⟩
    · unfold delete
      dsimp only
      rw [Prog.bind_eq, Prog.run_bind, run_readIndexKind_of_observes order clock hobs]
      rfl
    · rw [← Tables.entries_absent hnone, Function.update_eq_self]
  · obtain ⟨d', hrun, herased⟩ := delete_outcome fo order clock hstored
    rw [runAlone_delete] at hrun
    exact ⟨d', hrun, herased.isKeyspace hd, herased.entries_eq⟩

theorem run_save_put (hd : d.tables.IsKeyspace) {e : StoredValue} (hfits : FitsItem fo e)
    {cond : WriteCondition}
    (hcond : cond = .any ∨ cond = .createOnly ∧ d.tables.entries key = none) :
    ∃ d', (save fo key e cond).run (DdbWorld.serve order clock) d = (.ok (), d') ∧
      d'.tables.IsKeyspace ∧
      d'.tables.entries = Function.update d.tables.entries key (some (readBack e)) := by
  have htoken : ∀ token, cond ≠ .ifMatch token := by
    rcases hcond with rfl | ⟨rfl, -⟩ <;> nofun
  obtain ⟨observed, hobs, hallowed⟩ : ∃ observed, Observes d.tables key observed ∧
      ¬ (cond = .createOnly ∧ observed.isSome = true) := by
    rcases hd key with hnone | ⟨e₀, hstored⟩
    · exact ⟨none, hnone, by simp⟩
    · refine ⟨some e₀.kind, ⟨_, hstored.1⟩, fun hcreate => ?_⟩
      rcases hcond with rfl | ⟨-, hkey⟩
      · cases hcreate.1
      · rw [Tables.entries_stored hstored] at hkey
        cases hkey
  have hwritten := written_saveItems d key e (hex16 (pseudoRandU64 clock.nanos)) none observed
  rw [run_save_observing fo order clock htoken hfits hobs, if_neg hallowed]
  exact ⟨_, rfl, hwritten.isKeyspace hd, hwritten.entries_eq⟩

/-- The tables with one client. -/
def client (fo : FloatOps) (order : ScanOrder) (now : Int) : OneClient now where
  State := DdbWorld
  serve nanos op := (impl fo op).run (DdbWorld.serve order ⟨fun _ => now, nanos⟩)
  Valid d := d.tables.IsKeyspace
  entries d := d.tables.entries
  listing d := order.arrange d.tables.index.keys
  Fits := FitsItem fo
  readable := by
    intro d key e hd hkey
    obtain ⟨e', he'⟩ := hd.stored (by rw [hkey]; exact Option.some_ne_none _)
    rw [Tables.entries_stored he'] at hkey
    have hdec := Option.some.inj hkey
    have heq : e = e' := Codec.storedValue_dec_ok hdec
    rwa [← heq] at hdec
  load nanos key hd := by
    obtain ⟨answer, d', hrun, hview, hvalid, hentries, -⟩ := run_load_view hd key rfl
    exact ⟨answer, d', hrun, hview, hvalid, hentries⟩
  put nanos key hd hfits hcond := run_save_put hd hfits hcond
  refuse := by
    intro d e nanos key hd hfits hkey
    obtain ⟨e', he'⟩ := hd.stored hkey
    have hobs : Observes d.tables key (some e'.kind) := ⟨_, he'.1⟩
    have htoken : ∀ token, WriteCondition.createOnly ≠ .ifMatch token := nofun
    show (save fo key e .createOnly).run _ d = _
    rw [run_save_observing fo order _ htoken hfits hobs, if_pos ⟨rfl, rfl⟩]
    rfl
  remove nanos key hd := run_delete_any fo hd key
  clock nanos hd := ⟨_, rfl, hd, rfl⟩
  draw _ _ := rfl
  walk _ _ := rfl
  page := by
    intro d n nanos cursor hd hn _
    refine ⟨_, rfl, ?_⟩
    cases cursor with
    | none => exact isPage_take hn (le_refl n) none
    | some c => exact isPage_take hn (le_refl n) (some c)
  nodup d := (order.perm _).nodup_iff.mpr Std.ExtTreeMap.nodup_keys
  listed := by
    intro d key hd
    rw [(order.perm _).mem_iff, Std.ExtTreeMap.mem_keys, Std.ExtTreeMap.mem_iff_isSome_getElem?,
      Option.isSome_iff_ne_none]
    exact not_congr ⟨Tables.entries_absent, hd.absent⟩

end DynamoDb

/-! ## Either backend -/

inductive BackendName where
  | s3
  | dynamoDb

namespace Setup

/-- `KVStorage` with one client, while the clock stands at `now`. -/
def client (S : Setup) (now : Int) : BackendName → OneClient now
  | .s3 => S3Storage.client S.etagOf now
  | .dynamoDb => DynamoDb.client S.fo S.order now

end Setup

end RustyAnt
