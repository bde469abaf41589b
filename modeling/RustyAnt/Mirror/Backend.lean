import RustyAnt.DynamoDb.Alone
import RustyAnt.Lib.Twin
import RustyAnt.S3.Backend
import RustyAnt.Storage.RoundTrip

/-!
# Two layouts of one keyspace

The S3 bucket holds one object for each key, the DynamoDB tables an index row and
a data row in the table of the entry's kind.  `Mirrors` relates the two, and for
every request of `KVBackend` that `KVStorage` makes of a key this module shows
that both backends give the same answer and stay related.
-/

namespace RustyAnt

open Lib

/-! ## The relation -/

/-- The key is in neither layout. -/
def AbsentAt (w : S3World) (d : DdbWorld) (key : String) : Prop :=
  w.objects[key]? = none ∧ d.tables.index[key]? = none ∧ ∀ k, (d.tables.data k)[key]? = none

/-- Both layouts hold the document of `e` at the key, under these versions. -/
def StoredAt (w : S3World) (d : DdbWorld) (key : String) (e : StoredValue)
    (etag version : String) : Prop :=
  w.objects[key]? = some ⟨Codec.storedValue.enc e, etag⟩ ∧
  (∃ ttl, d.tables.index[key]? = some ⟨e.kind.asStr, ttl⟩) ∧
  (∃ ttl, (d.tables.data e.kind)[key]? = some ⟨Codec.storedValue.enc e, version, ttl⟩) ∧
  ∀ k, k ≠ e.kind → (d.tables.data k)[key]? = none

/-- The two layouts agree at the key. -/
def MirrorsAt (w : S3World) (d : DdbWorld) (key : String) : Prop :=
  AbsentAt w d key ∨ ∃ e etag version, StoredAt w d key e etag version

/-- The two layouts hold the same keyspace, and the clock has been read equally
often. -/
def Mirrors (w : S3World) (d : DdbWorld) : Prop :=
  w.readings = d.readings ∧ ∀ key, MirrorsAt w d key

theorem mirrors_empty (n : Nat) : Mirrors ⟨∅, n⟩ ⟨Tables.empty, n⟩ := by
  refine ⟨rfl, fun key => .inl ⟨?_, ?_, fun k => ?_⟩⟩ <;> simp [Tables.empty]

theorem Mirrors.of_write {w w' : S3World} {d d' : DdbWorld} (h : Mirrors w d) (key : String)
    (hread : w'.readings = d'.readings)
    (hobj : ∀ key', key' ≠ key → w'.objects[key']? = w.objects[key']?)
    (hidx : ∀ key', key' ≠ key → d'.tables.index[key']? = d.tables.index[key']?)
    (hdata : ∀ key', key' ≠ key → ∀ k, (d'.tables.data k)[key']? = (d.tables.data k)[key']?)
    (hkey : MirrorsAt w' d' key) : Mirrors w' d' := by
  refine ⟨hread, fun key' => ?_⟩
  by_cases hk : key' = key
  · rw [hk]
    exact hkey
  · have hold := h.2 key'
    unfold MirrorsAt AbsentAt StoredAt at hold ⊢
    simpa only [hobj key' hk, hidx key' hk, hdata key' hk] using hold

section Writes

variable {w : S3World} {d : DdbWorld}

/-- A put of the entry on one side and its transaction on the other. -/
theorem Mirrors.save (h : Mirrors w d) (key : String) (e : StoredValue) (etag version : String)
    (old : Option String) (observed : Option ValueKind)
    (hobs : ∀ k, k ≠ e.kind → observed ≠ some k → (d.tables.data k)[key]? = none) :
    Mirrors { w with objects := w.objects.insert key ⟨Codec.storedValue.enc e, etag⟩ }
      { d with tables := d.tables.applyAll (DynamoDb.saveItems key e (Codec.storedValue.enc e)
        version old observed) } := by
  have hitems := DynamoDb.saveItems_key key e (Codec.storedValue.enc e) version old observed
  have hne : ∀ key', key' ≠ key → ∀ item ∈ DynamoDb.saveItems key e (Codec.storedValue.enc e)
      version old observed, item.key ≠ key' := by
    intro key' hk item hitem heq
    exact hk (heq.symm.trans (hitems item hitem))
  refine h.of_write key h.1 ?_ ?_ ?_ (.inr ⟨e, etag, version, ?_, ?_, ?_, ?_⟩)
  · intro key' hk
    simp [Std.ExtTreeMap.getElem?_insert, Ne.symm hk]
  · intro key' hk
    exact Tables.applyAll_index_of_ne _ _ (hne key' hk)
  · intro key' hk k
    exact Tables.applyAll_data_of_ne _ _ (hne key' hk) k
  · exact Std.ExtTreeMap.getElem?_insert_self
  · exact ⟨_, Tables.applyAll_saveItems_index d.tables key e _ version old observed⟩
  · refine ⟨DynamoDb.ttlOf e, ?_⟩
    rw [Tables.applyAll_saveItems_data, if_pos rfl]
  · intro k hk
    rw [Tables.applyAll_saveItems_data, if_neg hk]
    split
    · rfl
    · exact hobs k hk ‹_›

/-- A delete on one side and its transaction on the other. -/
theorem Mirrors.delete (h : Mirrors w d) (key : String) (kind : ValueKind)
    (hobs : ∀ k, k ≠ kind → (d.tables.data k)[key]? = none) :
    Mirrors { w with objects := w.objects.erase key }
      { d with tables := d.tables.applyAll (DynamoDb.deleteAnyItems key kind) } := by
  have hne : ∀ key', key' ≠ key → ∀ item ∈ DynamoDb.deleteAnyItems key kind, item.key ≠ key' := by
    intro key' hk item hitem heq
    simp only [DynamoDb.deleteAnyItems, List.mem_cons, List.not_mem_nil, or_false] at hitem
    rcases hitem with rfl | rfl <;> exact hk heq.symm
  obtain ⟨hidx, hdata⟩ := Tables.applyAll_deleteAnyItems d.tables key kind
  refine h.of_write key h.1 ?_ ?_ ?_ (.inl ⟨?_, hidx, ?_⟩)
  · intro key' hk
    simp [Std.ExtTreeMap.getElem?_erase, Ne.symm hk]
  · intro key' hk
    exact Tables.applyAll_index_of_ne _ _ (hne key' hk)
  · intro key' hk k
    exact Tables.applyAll_data_of_ne _ _ (hne key' hk) k
  · exact Std.ExtTreeMap.getElem?_erase_self
  · intro k
    rw [hdata k]
    split
    · rfl
    · exact hobs k ‹_›

theorem Mirrors.tick (h : Mirrors w d) :
    Mirrors { w with readings := w.readings + 1 } { d with readings := d.readings + 1 } :=
  ⟨congrArg (· + 1) h.1, h.2⟩

end Writes

/-! ## The requests of the bucket, run alone -/

section Requests

variable (etagOf : Json → String) (clock : Clock)

namespace S3Storage

theorem run_load (key : String) (w : S3World) :
    (load key).run (S3World.serve etagOf clock) w =
      match w.objects[key]? with
      | none => (.ok none, w)
      | some obj =>
          match Codec.storedValue.dec obj.body with
          | .error e => (.error e, w)
          | .ok entry =>
              if entry.isExpired (clock.now w.readings) then
                (.ok none, ⟨w.objects.erase key, w.readings + 1⟩)
              else (.ok (some (entry, obj.etag)), { w with readings := w.readings + 1 }) := by
  unfold load
  simp only [Prog.perform, Prog.bind_eq, Prog.call_bind, Prog.run_call, S3World.serve]
  cases w.objects[key]? with
  | none => rfl
  | some obj =>
      show (decodeObject key obj).run _ w = _
      unfold decodeObject
      dsimp only
      cases Codec.storedValue.dec obj.body with
      | error e => rfl
      | ok entry =>
          show Prog.run _ (if entry.isExpired (clock.now w.readings) then _ else _) _ = _
          dsimp only
          split <;> rfl

theorem run_save (key : String) (e : StoredValue) (cond : WriteCondition) (w : S3World) :
    (save key e cond).run (S3World.serve etagOf clock) w =
      let put := S3World.serve etagOf clock (.putObject key (Codec.storedValue.enc e) cond) w
      (match put.1 with
        | .ok S3Outcome.done => .ok ()
        | .ok S3Outcome.preconditionFailed => .error .contention
        | .error err => .error err, put.2) := by
  unfold save
  simp only [Prog.perform, Prog.bind_eq, Prog.call_bind, Prog.run_call]
  generalize S3World.serve etagOf clock _ w = put
  obtain ⟨answer, w'⟩ := put
  cases answer with
  | error err => rfl
  | ok out => cases out <;> rfl

end S3Storage

end Requests

end RustyAnt
