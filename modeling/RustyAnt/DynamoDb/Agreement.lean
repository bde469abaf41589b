import RustyAnt.DynamoDb.Backend

/-!
# Index and data tables agree

Every conditional transaction of the backend keeps the index row of a key and
the one data row it points at together, whatever the tables looked like when the
caller read the index.  The unconditional delete carries no condition: it keeps
them together exactly when the index row still shows the kind that was read, and
leaves an orphan data row when another client has changed the kind in between.
-/

namespace RustyAnt

open Lib

/-- DynamoDB as a shared service: reads are strongly consistent, a transaction is
one atomic step, and a canceled or failed request changes nothing. -/
inductive ddbService : Service DdbOp DdbOp.Res RustyAntError Tables
  | getIndex (t : Tables) (key : String) :
      ddbService t (.getIndex key) (.ok (t.index[key]? : Option IndexRow)) t
  | getData (t : Tables) (kind : ValueKind) (key : String) :
      ddbService t (.getData kind key) (.ok ((t.data kind)[key]? : Option DataRow)) t
  | transact (t : Tables) (items : List TransactItem) :
      ddbService t (.transact items) (.ok (t.transact items).1) (t.transact items).2
  | conflict (t : Tables) (items : List TransactItem) :
      ddbService t (.transact items) (.ok TransactOutcome.canceled) t
  | scan (t : Tables) (start : Option String) (limit : Nat)
      (page : List String × Option String) :
      ddbService t (.scan start limit) (.ok page) t
  | scanAll (t : Tables) (keys : List String) : ddbService t .scanAll (.ok keys) t
  | nowMs (t : Tables) (now : Int) : ddbService t .nowMs (.ok now) t
  | nanos (t : Tables) (n : UInt64) : ddbService t .nanos (.ok n) t
  | fault (t : Tables) (op : DdbOp) (e : RustyAntError) : ddbService t op (.error e) t

namespace Tables

/-- DynamoDB without faults, at fixed clock readings. -/
def serve (now : Int) (nanos : UInt64) : (op : DdbOp) → Tables → Result op.Res × Tables
  | .getIndex key, t => (.ok (t.index[key]? : Option IndexRow), t)
  | .getData kind key, t => (.ok ((t.data kind)[key]? : Option DataRow), t)
  | .transact items, t => (.ok (t.transact items).1, (t.transact items).2)
  | .scan _ _, t => (.ok ((t.index.keys, none) : List String × Option String), t)
  | .scanAll, t => (.ok t.index.keys, t)
  | .nowMs, t => (.ok now, t)
  | .nanos, t => (.ok nanos, t)

theorem serve_service (now : Int) (nanos : UInt64) (op : DdbOp) (t : Tables) :
    ddbService t op (serve now nanos op t).1 (serve now nanos op t).2 := by
  cases op with
  | getIndex key => exact .getIndex t key
  | getData kind key => exact .getData t kind key
  | transact items => exact .transact t items
  | scan start limit => exact .scan t start limit _
  | scanAll => exact .scanAll t t.index.keys
  | nowMs => exact .nowMs t now
  | nanos => exact .nanos t nanos

/-- The index row of `key` exists with kind `k` if and only if the data table of
kind `k` holds a row for it, and no other data table does. -/
def AgreeAt (t : Tables) (key : String) : Prop :=
  match t.index[key]? with
  | some row => ∃ k : ValueKind, row.kind = k.asStr ∧ key ∈ t.data k ∧
      ∀ k', k' ≠ k → key ∉ t.data k'
  | none => ∀ k, key ∉ t.data k

/-- No orphan data row and no dangling index row. -/
def Agree (t : Tables) : Prop := ∀ key, t.AgreeAt key

theorem agree_empty : empty.Agree := by
  intro key
  simp [empty, AgreeAt]

end Tables

namespace TransactItem

def key : TransactItem → String
  | putData _ key _ _ => key
  | putIndex key _ _ => key
  | deleteData _ key _ => key
  | deleteIndex key _ => key

theorem apply_index_of_ne (t : Tables) (item : TransactItem) {key : String}
    (h : item.key ≠ key) : (apply t item).index[key]? = t.index[key]? := by
  cases item <;> simp_all [apply, TransactItem.key, Std.ExtTreeMap.getElem?_insert,
    Std.ExtTreeMap.getElem?_erase]

theorem apply_data_of_ne (t : Tables) (item : TransactItem) {key : String}
    (h : item.key ≠ key) (k : ValueKind) :
    ((apply t item).data k)[key]? = (t.data k)[key]? := by
  cases item <;> simp only [apply, TransactItem.key] at h ⊢
  · rename_i kind _ _ _
    by_cases hk : k = kind
    · subst hk
      simp [Std.ExtTreeMap.getElem?_insert, h]
    · rw [Function.update_of_ne hk]
  · rename_i kind _ _
    by_cases hk : k = kind
    · subst hk
      simp [Std.ExtTreeMap.getElem?_erase, h]
    · rw [Function.update_of_ne hk]

end TransactItem

namespace Tables

theorem applyAll_index_of_ne (items : List TransactItem) (t : Tables) {key : String}
    (h : ∀ item ∈ items, item.key ≠ key) :
    (t.applyAll items).index[key]? = t.index[key]? := by
  induction items generalizing t with
  | nil => rfl
  | cons item items ih =>
      have hrest : ∀ x ∈ items, x.key ≠ key := fun x hx => h x (List.mem_cons_of_mem _ hx)
      rw [applyAll, List.foldl_cons]
      exact (ih _ hrest).trans
        (TransactItem.apply_index_of_ne t item (h item List.mem_cons_self))

theorem applyAll_data_of_ne (items : List TransactItem) (t : Tables) {key : String}
    (h : ∀ item ∈ items, item.key ≠ key) (k : ValueKind) :
    ((t.applyAll items).data k)[key]? = (t.data k)[key]? := by
  induction items generalizing t with
  | nil => rfl
  | cons item items ih =>
      have hrest : ∀ x ∈ items, x.key ≠ key := fun x hx => h x (List.mem_cons_of_mem _ hx)
      rw [applyAll, List.foldl_cons]
      exact (ih _ hrest).trans
        (TransactItem.apply_data_of_ne t item (h item List.mem_cons_self) k)

theorem agree_applyAll_iff {t : Tables} (ht : t.Agree) {items : List TransactItem}
    {key : String} (hkey : ∀ item ∈ items, item.key = key) :
    (t.applyAll items).Agree ↔ (t.applyAll items).AgreeAt key := by
  constructor
  · intro h
    exact h key
  · intro h key'
    by_cases hk : key' = key
    · rw [hk]
      exact h
    · have hne : ∀ item ∈ items, item.key ≠ key' := by
        intro item hitem heq
        exact hk (heq.symm.trans (hkey item hitem))
      have hold := ht key'
      unfold AgreeAt at hold ⊢
      rw [applyAll_index_of_ne items t hne]
      simpa only [Std.ExtTreeMap.mem_iff_isSome_getElem?, applyAll_data_of_ne items t hne]
        using hold

/-- Agreement at a key whose index row shows the kind `k`. -/
theorem AgreeAt.of_kind {t : Tables} {key : String} (h : t.AgreeAt key) {row : IndexRow}
    (hrow : t.index[key]? = some row) {k : ValueKind} (hk : row.kind = k.asStr) :
    key ∈ t.data k ∧ ∀ k', k' ≠ k → key ∉ t.data k' := by
  rw [AgreeAt, hrow] at h
  obtain ⟨k₀, hk₀, hmem, hother⟩ := h
  have heq : k₀ = k := ValueKind.asStr_injective (hk₀.symm.trans hk)
  subst heq
  exact ⟨hmem, hother⟩

theorem AgreeAt.of_none {t : Tables} {key : String} (h : t.AgreeAt key)
    (hrow : t.index[key]? = none) (k : ValueKind) : key ∉ t.data k := by
  rw [AgreeAt, hrow] at h
  exact h k

end Tables

namespace DynamoDb

open TransactItem

/-! ## The three transactions -/

theorem saveItems_key (key : String) (entry : StoredValue) (body : Json)
    (newVersion : String) (old : Option String) (observed : Option ValueKind) :
    ∀ item ∈ saveItems key entry body newVersion old observed, item.key = key := by
  intro item hitem
  unfold saveItems at hitem
  cases observed with
  | none =>
      simp only [List.mem_cons, List.not_mem_nil, or_false] at hitem
      rcases hitem with rfl | rfl <;> rfl
  | some k =>
      dsimp only at hitem
      split at hitem <;>
        simp only [List.mem_cons, List.not_mem_nil, or_false] at hitem
      · rcases hitem with rfl | rfl | rfl <;> rfl
      · rcases hitem with rfl | rfl <;> rfl

/-- A committed `save` keeps the tables in agreement: its index condition pins
the kind that the sweep of the old row relies on. -/
theorem agree_saveItems {t : Tables} (ht : t.Agree) (key : String) (entry : StoredValue)
    (body : Json) (newVersion : String) (old : Option String) (observed : Option ValueKind)
    (hholds : (saveItems key entry body newVersion old observed).all (holds t)) :
    (t.applyAll (saveItems key entry body newVersion old observed)).Agree := by
  rw [Tables.agree_applyAll_iff ht (saveItems_key key entry body newVersion old observed)]
  cases observed with
  | none =>
      have hrow : t.index[key]? = none := by
        simp only [saveItems, List.all_cons, holds, Bool.and_eq_true, Bool.not_eq_true'] at hholds
        exact Std.ExtTreeMap.getElem?_eq_none_of_contains_eq_false hholds.2.1
      have hnone := (ht key).of_none hrow
      simp only [Tables.AgreeAt, Tables.applyAll, saveItems, List.foldl_cons, List.foldl_nil,
        TransactItem.apply, Std.ExtTreeMap.getElem?_insert_self]
      refine ⟨entry.kind, rfl, ?_, ?_⟩
      · rw [Function.update_self]
        exact Std.ExtTreeMap.mem_insert_self
      · intro k' hk'
        rw [Function.update_of_ne hk']
        exact hnone k'
  | some k =>
      obtain ⟨row, hrow, hkind⟩ : ∃ row, t.index[key]? = some row ∧ row.kind = k.asStr := by
        cases hidx : t.index[key]? with
        | none =>
            exfalso
            by_cases hk : k = entry.kind <;>
              simp [saveItems, hk, holds, TransactItem.kindIs, hidx] at hholds
        | some row =>
            refine ⟨row, rfl, ?_⟩
            by_cases hk : k = entry.kind <;>
              simp_all [saveItems, holds, TransactItem.kindIs]
      obtain ⟨hmem, hother⟩ := (ht key).of_kind hrow hkind
      by_cases hk : k = entry.kind
      · simp only [Tables.AgreeAt, Tables.applyAll, saveItems, hk, ne_eq, not_true_eq_false,
          if_false, List.foldl_cons, List.foldl_nil, TransactItem.apply,
          Std.ExtTreeMap.getElem?_insert_self]
        refine ⟨entry.kind, rfl, ?_, ?_⟩
        · rw [Function.update_self]
          exact Std.ExtTreeMap.mem_insert_self
        · intro k' hk'
          rw [Function.update_of_ne hk']
          exact hother k' (hk ▸ hk')
      · simp only [Tables.AgreeAt, Tables.applyAll, saveItems, hk, ne_eq, not_false_eq_true,
          if_true, List.foldl_cons, List.foldl_nil, TransactItem.apply,
          Std.ExtTreeMap.getElem?_insert_self]
        refine ⟨entry.kind, rfl, ?_, ?_⟩
        · rw [Function.update_of_ne (Ne.symm hk), Function.update_self]
          exact Std.ExtTreeMap.mem_insert_self
        · intro k' hk'
          by_cases hkk : k' = k
          · subst hkk
            rw [Function.update_self]
            simp
          · rw [Function.update_of_ne hkk, Function.update_of_ne hk']
            exact hother k' hkk

/-- A committed delete under a version token keeps the tables in agreement. -/
theorem agree_deleteIfMatchItems {t : Tables} (ht : t.Agree) (key : String)
    (kind : ValueKind) (old : String)
    (hholds : (deleteIfMatchItems key kind old).all (holds t)) :
    (t.applyAll (deleteIfMatchItems key kind old)).Agree := by
  have hkey : ∀ item ∈ deleteIfMatchItems key kind old, item.key = key := by
    simp [deleteIfMatchItems, TransactItem.key]
  rw [Tables.agree_applyAll_iff ht hkey]
  obtain ⟨row, hrow, hkind⟩ : ∃ row, t.index[key]? = some row ∧ row.kind = kind.asStr := by
    cases hidx : t.index[key]? with
    | none => simp [deleteIfMatchItems, holds, TransactItem.kindIs, hidx] at hholds
    | some row =>
        refine ⟨row, rfl, ?_⟩
        simp_all [deleteIfMatchItems, holds, TransactItem.kindIs]
  obtain ⟨_, hother⟩ := (ht key).of_kind hrow hkind
  simp only [Tables.AgreeAt, Tables.applyAll, deleteIfMatchItems, List.foldl_cons,
    List.foldl_nil, TransactItem.apply, Std.ExtTreeMap.getElem?_erase_self]
  intro k
  by_cases hk : k = kind
  · subst hk
    rw [Function.update_self]
    simp
  · rw [Function.update_of_ne hk]
    exact hother k hk

/-- An unconditional delete keeps the tables in agreement exactly when the index
row is gone or still shows the kind the delete read. -/
theorem agree_deleteAnyItems_iff {t : Tables} (ht : t.Agree) (key : String)
    (kind : ValueKind) :
    (t.applyAll (deleteAnyItems key kind)).Agree ↔
      ∀ row, t.index[key]? = some row → row.kind = kind.asStr := by
  have hkey : ∀ item ∈ deleteAnyItems key kind, item.key = key := by
    simp [deleteAnyItems, TransactItem.key]
  rw [Tables.agree_applyAll_iff ht hkey]
  simp only [Tables.AgreeAt, Tables.applyAll, deleteAnyItems, List.foldl_cons,
    List.foldl_nil, TransactItem.apply, Std.ExtTreeMap.getElem?_erase_self]
  constructor
  · intro h row hrow
    have hold := ht key
    rw [Tables.AgreeAt, hrow] at hold
    obtain ⟨k, hk, hmem, _⟩ := hold
    by_cases hkk : k = kind
    · rw [hk, hkk]
    · have hgone := h k
      rw [Function.update_of_ne hkk] at hgone
      exact absurd hmem hgone
  · intro h k
    by_cases hk : k = kind
    · subst hk
      rw [Function.update_self]
      simp
    · rw [Function.update_of_ne hk]
      cases hrow : t.index[key]? with
      | none => exact (ht key).of_none hrow k
      | some row => exact ((ht key).of_kind hrow (h row hrow)).2 k hk

/-! ## Client calls and what they send -/

inductive Call where
  | load (key : String)
  | save (key : String) (entry : StoredValue) (cond : WriteCondition)
  | delete (key : String) (cond : DeleteCondition)

def Call.prog (fo : FloatOps) : Call → Ddb Unit
  | load key => do
      let _ ← DynamoDb.load key
      return ()
  | save key entry cond => DynamoDb.save fo key entry cond
  | delete key cond => DynamoDb.delete key cond

/-- The transactions of the backend are the three above. -/
def Sends : DdbOp → Prop
  | .transact items =>
      (∃ key entry body newVersion old observed,
        items = saveItems key entry body newVersion old observed) ∨
      (∃ key kind old, items = deleteIfMatchItems key kind old) ∨
      ∃ key kind, items = deleteAnyItems key kind
  | _ => True

/-- What a load or a delete asks: it puts nothing. -/
inductive Removal : DdbOp → Prop
  | getIndex (key : String) : Removal (.getIndex key)
  | getData (kind : ValueKind) (key : String) : Removal (.getData kind key)
  | nowMs : Removal .nowMs
  | deleteAny (key : String) (kind : ValueKind) : Removal (.transact (deleteAnyItems key kind))
  | deleteIfMatch (key : String) (kind : ValueKind) (old : String) :
      Removal (.transact (deleteIfMatchItems key kind old))

theorem Removal.sends {op : DdbOp} (h : Removal op) : Sends op := by
  cases h with
  | getIndex key => trivial
  | getData kind key => trivial
  | nowMs => trivial
  | deleteAny key kind => exact .inr (.inr ⟨key, kind, rfl⟩)
  | deleteIfMatch key kind old => exact .inr (.inl ⟨key, kind, old, rfl⟩)

section Asks

variable {guar : DdbOp → Prop}

theorem sendTransact_requests {items : List TransactItem} (h : guar (.transact items)) :
    (sendTransact items).Requests guar := by
  refine Prog.Requests.bind (Prog.Requests.perform h) fun out => ?_
  cases out <;> exact Prog.Requests.done _

theorem readIndexKind_requests {key : String} (h : guar (.getIndex key)) :
    (readIndexKind key).Requests guar := by
  refine Prog.Requests.bind (Prog.Requests.perform h) fun row => ?_
  cases row with
  | none => exact Prog.Requests.done _
  | some row => exact Prog.Requests.bind (Prog.Requests.done _) fun _ => Prog.Requests.done _

theorem observedKind_requests {key : String} (h : guar (.getIndex key)) (newKind : ValueKind)
    (cond : WriteCondition) : (observedKind key newKind cond).Requests guar := by
  cases cond with
  | any => exact readIndexKind_requests h
  | createOnly => exact readIndexKind_requests h
  | ifMatch token =>
      refine Prog.Requests.bind (Prog.Requests.done _) fun p => ?_
      dsimp only
      split <;> exact Prog.Requests.done _

theorem saveUnder_requests {key : String} {entry : StoredValue} {body : Json} {version : String}
    {cond : WriteCondition} (hindex : guar (.getIndex key))
    (hput : ∀ old observed,
      guar (.transact (saveItems key entry body version old observed))) :
    (do
      let observed ← observedKind key entry.kind cond
      if cond = .createOnly ∧ observed.isSome then
        Prog.fail .contention
      else
        let old ← Prog.ofExcept (oldVersion cond)
        sendTransact (saveItems key entry body version old observed) : Ddb Unit).Requests guar := by
  refine Prog.Requests.bind (observedKind_requests hindex entry.kind cond) fun observed => ?_
  split
  · exact Prog.Requests.done _
  · refine Prog.Requests.bind (Prog.Requests.done _) fun old => ?_
    exact sendTransact_requests (hput old observed)

end Asks

theorem delete_removes (key : String) (cond : DeleteCondition) :
    (delete key cond).Requests Removal := by
  cases cond with
  | any =>
      refine Prog.Requests.bind (readIndexKind_requests (.getIndex key)) fun kind => ?_
      cases kind with
      | none => exact Prog.Requests.done _
      | some kind => exact sendTransact_requests (.deleteAny key kind)
  | ifMatch token =>
      refine Prog.Requests.bind (Prog.Requests.done _) fun p => ?_
      exact sendTransact_requests (.deleteIfMatch key p.1 p.2)

theorem load_removes (key : String) : (load key).Requests Removal := by
  refine Prog.Requests.bind (readIndexKind_requests (.getIndex key)) fun kind => ?_
  cases kind with
  | none => exact Prog.Requests.done _
  | some kind =>
      refine Prog.Requests.bind (Prog.Requests.perform (.getData kind key)) fun row => ?_
      cases row with
      | none => exact Prog.Requests.done _
      | some row =>
          refine Prog.Requests.bind (Prog.Requests.done _) fun entry => ?_
          refine Prog.Requests.bind (Prog.Requests.perform .nowMs) fun now => ?_
          split
          · refine Prog.Requests.bind ?_ fun _ => Prog.Requests.done _
            exact (delete_removes key _).attempt
          · exact Prog.Requests.done _

theorem delete_requests (key : String) (cond : DeleteCondition) :
    (delete key cond).Requests Sends := (delete_removes key cond).mono fun _ => Removal.sends

theorem save_requests (fo : FloatOps) (key : String) (entry : StoredValue)
    (cond : WriteCondition) : (save fo key entry cond).Requests Sends := by
  unfold save
  dsimp only
  split
  · exact Prog.Requests.done _
  · refine Prog.Requests.bind (Prog.Requests.perform trivial) fun nanos => ?_
    exact saveUnder_requests trivial fun _ _ => .inl ⟨_, _, _, _, _, _, rfl⟩

theorem load_requests (key : String) : (load key).Requests Sends :=
  (load_removes key).mono fun _ => Removal.sends

theorem call_requests (fo : FloatOps) (c : Call) : (c.prog fo).Requests Sends := by
  cases c with
  | load key => exact Prog.Requests.bind (load_requests key) fun _ => Prog.Requests.done _
  | save key entry cond => exact save_requests fo key entry cond
  | delete key cond => exact delete_requests key cond

/-! ## Whole runs -/

/-- The kind of `key` is still the one an unconditional delete has read when its
transaction commits, unless the key is gone. -/
def KindHeld (before : Tables) : (op : DdbOp) → Result op.Res → Prop
  | .transact items, .ok TransactOutcome.committed =>
      ∀ key kind, items = deleteAnyItems key kind →
        ∀ row, before.index[key]? = some row → row.kind = kind.asStr
  | _, _ => True

theorem agree_step_iff {t t' : Tables} (ht : t.Agree) {op : DdbOp} (hop : Sends op)
    {answer : Result op.Res} (hserve : ddbService t op answer t') :
    t'.Agree ↔ KindHeld t op answer := by
  cases hserve with
  | getIndex key => simp [KindHeld, ht]
  | getData kind key => simp [KindHeld, ht]
  | scan start limit page => simp [KindHeld, ht]
  | scanAll keys => simp [KindHeld, ht]
  | nowMs now => simp [KindHeld, ht]
  | nanos n => simp [KindHeld, ht]
  | conflict items => simp [KindHeld, ht]
  | fault e => cases op <;> simp [KindHeld, ht]
  | transact items =>
      unfold Tables.transact
      split
      case isFalse => simp [KindHeld, ht]
      case isTrue hall =>
        simp only [KindHeld]
        rcases hop with ⟨key, entry, body, version, old, observed, rfl⟩ |
          ⟨key, kind, old, rfl⟩ | ⟨key, kind, rfl⟩
        · refine iff_of_true (agree_saveItems ht _ _ _ _ _ _ hall) ?_
          intro key' kind' heq
          simp only [saveItems, deleteAnyItems] at heq
          split at heq
          · split at heq <;> simp at heq
          · simp at heq
        · refine iff_of_true (agree_deleteIfMatchItems ht _ _ _ hall) ?_
          intro key' kind' heq
          simp [deleteIfMatchItems, deleteAnyItems] at heq
        · rw [agree_deleteAnyItems_iff ht]
          constructor
          · intro h key' kind' heq
            simp only [deleteAnyItems, List.cons.injEq, TransactItem.deleteData.injEq,
              and_true] at heq
            obtain ⟨⟨rfl, rfl⟩, -⟩ := heq
            exact h
          · intro h
            exact h key kind rfl

section Runs

variable {ι : Type} [DecidableEq ι]

/-- Tables empty, every call yet to be made. -/
def start (fo : FloatOps) (calls : ι → Call) :
    Pool DdbOp DdbOp.Res RustyAntError Tables (fun _ : ι => Unit) :=
  ⟨Tables.empty, fun i => (calls i).prog fo⟩

/-- In every interleaving of any calls, the index and the data tables agree in
all states reached if and only if no unconditional delete commits on a key whose
kind has changed since the delete read it. -/
theorem agree_run_iff (fo : FloatOps) (calls : ι → Call)
    (evs : List (Event DdbOp DdbOp.Res RustyAntError Tables ι))
    (d : Pool DdbOp DdbOp.Res RustyAntError Tables (fun _ : ι => Unit))
    (hrun : Pool.Run ddbService (start fo calls) evs d) :
    (d.state.Agree ∧ ∀ ev ∈ evs, ev.after.Agree) ↔
      ∀ ev ∈ evs, KindHeld ev.before ev.op ev.answer := by
  have hsends : ∀ ev ∈ evs, Sends ev.op := by
    have hobeys : ∀ i, ((start fo calls).prog i).Requests Sends :=
      fun i => call_requests fo (calls i)
    exact (hrun.obeys hobeys fun _ _ => trivial).1
  induction hrun with
  | nil => simpa [start] using Tables.agree_empty
  | @snoc evs ev d e hrun hstep ih =>
      have hprev := ih fun x hx => hsends x (List.mem_append_left _ hx)
      have hlast : Sends ev.op := hsends ev (by simp)
      simp only [List.forall_mem_append, List.forall_mem_singleton]
      rw [← hstep.after_eq]
      constructor
      · rintro ⟨-, hevs, hev⟩
        have hd : d.state.Agree := by
          rcases hrun.state_mem with hd | ⟨x, hx, hd⟩
          · rw [hd]
            exact Tables.agree_empty
          · rw [← hd]
            exact hevs x hx
        refine ⟨hprev.mp ⟨hd, hevs⟩, ?_⟩
        rw [← hstep.before_eq] at hd
        exact (agree_step_iff hd hlast hstep.serve).mp hev
      · rintro ⟨hheld, hlastHeld⟩
        obtain ⟨hd, hevs⟩ := hprev.mpr hheld
        rw [← hstep.before_eq] at hd
        have hev := (agree_step_iff hd hlast hstep.serve).mpr hlastHeld
        exact ⟨hev, hevs, hev⟩

end Runs

/-- A hash is saved, one client starts to delete the key and reads its kind,
another overwrites the key with a string, then the delete goes through. -/
def kindFlipCalls : Fin 3 → Call
  | 0 => .save "k" ⟨none, .hash ({("f", [])})⟩ .any
  | 1 => .delete "k" .any
  | 2 => .save "k" ⟨none, .string []⟩ .any

def kindFlipSchedule : List (Fin 3) := [0, 0, 0, 1, 2, 2, 2, 1]

/-- The string row of `kindFlipCalls` is left without an index row. -/
theorem agree_fails_on_kindFlip :
    ∃ (evs : List (Event DdbOp DdbOp.Res RustyAntError Tables (Fin 3)))
      (d : Pool DdbOp DdbOp.Res RustyAntError Tables (fun _ : Fin 3 => Unit)),
      Pool.Run ddbService (start .integral kindFlipCalls) evs d ∧ ¬ d.state.Agree := by
  obtain ⟨evs, hrun⟩ := Pool.exec_run (Tables.serve_service 0 0) kindFlipSchedule
    (start .integral kindFlipCalls)
  refine ⟨evs, _, hrun, ?_⟩
  intro hagree
  have hidx : (Pool.exec (Tables.serve 0 0) kindFlipSchedule
      (start .integral kindFlipCalls)).state.index["k"]? = none := by decide
  have hdata : "k" ∈ (Pool.exec (Tables.serve 0 0) kindFlipSchedule
      (start .integral kindFlipCalls)).state.data .string := by decide
  exact (hagree "k").of_none hidx .string hdata

/-- The same three calls with the delete run to its end before the overwrite. -/
theorem agree_run_iff_on_kindFlip :
    ∃ (evs : List (Event DdbOp DdbOp.Res RustyAntError Tables (Fin 3)))
      (d : Pool DdbOp DdbOp.Res RustyAntError Tables (fun _ : Fin 3 => Unit)),
      Pool.Run ddbService (start .integral kindFlipCalls) evs d ∧
        "k" ∈ d.state.data .string ∧
        ((d.state.Agree ∧ ∀ ev ∈ evs, ev.after.Agree) ↔
          ∀ ev ∈ evs, KindHeld ev.before ev.op ev.answer) := by
  obtain ⟨evs, hrun⟩ := Pool.exec_run (Tables.serve_service 0 0) [0, 0, 0, 1, 1, 2, 2, 2]
    (start .integral kindFlipCalls)
  exact ⟨evs, _, hrun, by decide, agree_run_iff .integral kindFlipCalls evs _ hrun⟩

end DynamoDb

end RustyAnt
