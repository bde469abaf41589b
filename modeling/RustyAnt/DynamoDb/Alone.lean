import RustyAnt.DynamoDb.Transactions

/-!
# The backend run alone

What each method of the DynamoDB backend does when no other client is served in
between.
-/

namespace RustyAnt

open Lib

namespace DynamoDb

section Alone

variable (fo : FloatOps) (order : ScanOrder) (clock : Clock)

theorem run_readIndexKind (key : String) (d : DdbWorld) :
    (readIndexKind key).run (DdbWorld.serve order clock) d =
      match d.tables.index[key]? with
      | none => (.ok none, d)
      | some row => ((parseKind row.kind).map some, d) := by
  unfold readIndexKind
  simp only [Prog.perform, Prog.bind_eq, Prog.call_bind, Prog.run_call, DdbWorld.serve]
  cases d.tables.index[key]? with
  | none => rfl
  | some row =>
      show Prog.run _ (Prog.bind (Prog.done (parseKind row.kind)) _) d = _
      dsimp only
      cases parseKind row.kind <;> rfl

theorem run_sendTransact (items : List TransactItem) (d : DdbWorld) :
    (sendTransact items).run (DdbWorld.serve order clock) d =
      if items.all (TransactItem.holds d.tables) then
        (.ok (), { d with tables := d.tables.applyAll items })
      else (.error .contention, d) := by
  unfold sendTransact
  simp only [Prog.perform, Prog.bind_eq, Prog.call_bind, Prog.run_call, DdbWorld.serve,
    Tables.transact]
  split <;> rfl

theorem run_deleteIfMatch (key : String) (kind : ValueKind) (version : String) (d : DdbWorld) :
    (delete key (.ifMatch (encodeToken kind version))).run (DdbWorld.serve order clock) d =
      (sendTransact (deleteIfMatchItems key kind version)).run (DdbWorld.serve order clock) d := by
  unfold delete
  simp only [parseToken_encodeToken]
  rfl

theorem run_getOne (kind : ValueKind) (key : String) (d : DdbWorld) :
    (getOne kind key).run (DdbWorld.serve order clock) d =
      match (d.tables.data kind)[key]? with
      | none => (.ok none, d)
      | some row =>
          match Codec.storedValue.dec row.data with
          | .error e => (.error e, d)
          | .ok entry =>
              let read := { d with readings := d.readings + 1 }
              if entry.isExpired (clock.now d.readings) then
                (.ok none, ((sendTransact (deleteIfMatchItems key kind row.version)).run
                  (DdbWorld.serve order clock) read).2)
              else (.ok (some (entry, encodeToken kind row.version)), read) := by
  unfold getOne
  simp only [Prog.perform, Prog.bind_eq, Prog.call_bind, Prog.run_call, DdbWorld.serve]
  cases (d.tables.data kind)[key]? with
  | none => rfl
  | some row =>
      show Prog.run _ (Prog.bind (Prog.done (Codec.storedValue.dec row.data)) _) d = _
      dsimp only
      cases Codec.storedValue.dec row.data with
      | error e => rfl
      | ok entry =>
          show Prog.run _ (if entry.isExpired (clock.now d.readings) then _ else _) _ = _
          dsimp only
          split
          · rw [← run_deleteIfMatch, Prog.run_bind, Prog.run_attempt]
            rfl
          · rfl

theorem run_readIndexKind_of_observes {d : DdbWorld} {key : String} {observed : Option ValueKind}
    (h : Observes d.tables key observed) :
    (readIndexKind key).run (DdbWorld.serve order clock) d = (.ok observed, d) := by
  rw [run_readIndexKind]
  cases observed with
  | none => rw [show d.tables.index[key]? = none from h]
  | some k =>
      obtain ⟨ttl, hidx⟩ := h
      rw [hidx]
      simp [parseKind_asStr, Except.map]

/-- `save` of an entry within the item limit, on the kind it observes. -/
theorem run_save {key : String} {e : StoredValue} {cond : WriteCondition} {d : DdbWorld}
    (hfit : (Codec.storedValue.enc e).len fo ≤ maxItemBytes) {observed : Option ValueKind}
    (hobs : (observedKind key e.kind cond).run (DdbWorld.serve order clock) d =
      (.ok observed, d))
    {old : Option String} (hold : oldVersion cond = .ok old) :
    (save fo key e cond).run (DdbWorld.serve order clock) d =
      if cond = .createOnly ∧ observed.isSome then (.error .contention, d)
      else (sendTransact (saveItems key e (Codec.storedValue.enc e)
        (hex16 (pseudoRandU64 clock.nanos)) old observed)).run (DdbWorld.serve order clock) d := by
  unfold save
  rw [if_neg (Nat.not_lt.mpr hfit)]
  show Prog.run _ (Prog.bind (observedKind key e.kind cond) _) d = _
  rw [Prog.run_bind, hobs]
  dsimp only
  split
  · rfl
  · rw [hold]
    rfl

/-- `save` without a token, on the kind that the index shows. -/
theorem run_save_observing {key : String} {e : StoredValue} {cond : WriteCondition} {d : DdbWorld}
    (hcond : ∀ token, cond ≠ .ifMatch token)
    (hfit : (Codec.storedValue.enc e).len fo ≤ maxItemBytes) {observed : Option ValueKind}
    (hobs : Observes d.tables key observed) :
    (save fo key e cond).run (DdbWorld.serve order clock) d =
      if cond = .createOnly ∧ observed.isSome then (.error .contention, d)
      else (.ok (), { d with tables := d.tables.applyAll (saveItems key e
        (Codec.storedValue.enc e) (hex16 (pseudoRandU64 clock.nanos)) none observed) }) := by
  have hread : (observedKind key e.kind cond).run (DdbWorld.serve order clock) d =
      (.ok observed, d) := by
    cases cond with
    | any => exact run_readIndexKind_of_observes order clock hobs
    | createOnly => exact run_readIndexKind_of_observes order clock hobs
    | ifMatch token => exact absurd rfl (hcond token)
  have hold : oldVersion cond = .ok none := by
    cases cond with
    | any => rfl
    | createOnly => rfl
    | ifMatch token => exact absurd rfl (hcond token)
  have hversion : ∀ v, (none : Option String) = some v →
      ∃ row, (d.tables.data e.kind)[key]? = some row ∧ row.version = v := nofun
  rw [run_save fo order clock hfit hread hold, run_sendTransact,
    if_pos (saveItems_hold hversion hobs)]

end Alone

end DynamoDb

end RustyAnt
