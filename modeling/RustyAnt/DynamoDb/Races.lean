import RustyAnt.DynamoDb.Transactions

/-!
# Requests that race

`save` reads the index before its transaction and `load` reads it before the data
table it points at.  Other clients may commit in between.  On a DynamoDB without
faults this module says exactly when the second request still fits the first.
-/

namespace RustyAnt

open Lib

/-- DynamoDB without faults and without native TTL: reads are strongly consistent
and a transaction is refused only when one of its conditions is false. -/
inductive atomicService : Service DdbOp DdbOp.Res RustyAntError Tables
  | getIndex (t : Tables) (key : String) :
      atomicService t (.getIndex key) (.ok (t.index[key]? : Option IndexRow)) t
  | getData (t : Tables) (kind : ValueKind) (key : String) :
      atomicService t (.getData kind key) (.ok ((t.data kind)[key]? : Option DataRow)) t
  | transact (t : Tables) (items : List TransactItem) :
      atomicService t (.transact items) (.ok (t.transact items).1) (t.transact items).2
  | scan (t : Tables) (start : Option String) (limit : Nat)
      (page : List String × Option String) :
      atomicService t (.scan start limit) (.ok page) t
  | scanAll (t : Tables) (keys : List String) : atomicService t .scanAll (.ok keys) t
  | nowMs (t : Tables) (now : Int) : atomicService t .nowMs (.ok now) t
  | nanos (t : Tables) (n : UInt64) : atomicService t .nanos (.ok n) t

namespace Tables

theorem serve_atomic (now : Int) (nanos : UInt64) (op : DdbOp) (t : Tables) :
    atomicService t op (serve now nanos op t).1 (serve now nanos op t).2 := by
  cases op with
  | getIndex key => exact .getIndex t key
  | getData kind key => exact .getData t kind key
  | transact items => exact .transact t items
  | scan start limit => exact .scan t start limit _
  | scanAll => exact .scanAll t t.index.keys
  | nowMs => exact .nowMs t now
  | nanos => exact .nanos t nanos

/-- The rows of the key are the same in both tables. -/
def SameAt (t t' : Tables) (key : String) : Prop :=
  t'.index[key]? = t.index[key]? ∧ ∀ k, (t'.data k)[key]? = (t.data k)[key]?

/-- Every index row names a kind, and the data table of that kind has the row. -/
def Linked (t : Tables) : Prop :=
  ∀ key row, t.index[key]? = some row → ∃ k : ValueKind, row.kind = k.asStr ∧ key ∈ t.data k

theorem linked_empty : empty.Linked := by
  intro key row hrow
  simp [empty] at hrow

theorem Agree.linked {t : Tables} (h : t.Agree) : t.Linked := by
  intro key row hrow
  have hkey := h key
  rw [AgreeAt, hrow] at hkey
  obtain ⟨k, hk, hmem, -⟩ := hkey
  exact ⟨k, hk, hmem⟩

end Tables

namespace DynamoDb

/-- What a request does at a key: nothing, a save on the kind that the index
shows, or a delete of the index row and of one data row. -/
inductive KeyStep (t t' : Tables) (key : String) : Prop
  | same (h : t.SameAt t' key)
  | saved (entry : StoredValue) (row : DataRow) (observed : Option ValueKind)
      (hobs : Observes t key observed)
      (hindex : t'.index[key]? = some ⟨entry.kind.asStr, ttlOf entry⟩)
      (hdata : ∀ k, (t'.data k)[key]? =
        if k = entry.kind then some row
        else if observed = some k then none else (t.data k)[key]?)
  | deleted (kind : ValueKind) (hindex : t'.index[key]? = none)
      (hdata : ∀ k, (t'.data k)[key]? = if k = kind then none else (t.data k)[key]?)

theorem sameAt_refl (t : Tables) (key : String) : t.SameAt t key := ⟨rfl, fun _ => rfl⟩

theorem sameAt_applyAll {t : Tables} {items : List TransactItem} {key : String}
    (h : ∀ item ∈ items, item.key ≠ key) : t.SameAt (t.applyAll items) key :=
  ⟨Tables.applyAll_index_of_ne items t h, Tables.applyAll_data_of_ne items t h⟩

/-- The condition on the index row holds only on the kind it names. -/
theorem observes_of_hold {t : Tables} {key : String} {e : StoredValue} {body : Json}
    {version : String} {old : Option String} {observed : Option ValueKind}
    (h : (saveItems key e body version old observed).all (TransactItem.holds t)) :
    Observes t key observed := by
  cases observed with
  | none =>
      simp only [saveItems, List.all_cons, TransactItem.holds, Bool.and_eq_true,
        Bool.not_eq_true'] at h
      exact Std.ExtTreeMap.getElem?_eq_none_of_contains_eq_false h.2.1
  | some k =>
      cases hidx : t.index[key]? with
      | none =>
          exfalso
          by_cases hk : k = e.kind <;>
            simp [saveItems, hk, TransactItem.holds, TransactItem.kindIs, hidx] at h
      | some row =>
          refine ⟨row.ttl, ?_⟩
          have hkind : row.kind = k.asStr := by
            by_cases hk : k = e.kind <;>
              simp_all [saveItems, TransactItem.holds, TransactItem.kindIs]
          rw [hidx, ← hkind]

/-- A save that does not name an old version commits exactly on the kind it has
observed. -/
theorem saveItems_hold_iff {t : Tables} {key : String} {e : StoredValue} {body : Json}
    {version : String} {observed : Option ValueKind} :
    (saveItems key e body version none observed).all (TransactItem.holds t) ↔
      Observes t key observed :=
  ⟨observes_of_hold, saveItems_hold nofun⟩

theorem keyStep_of_sends {t : Tables} {items : List TransactItem}
    (hsends : Sends (.transact items)) (key : String) :
    KeyStep t (t.transact items).2 key := by
  unfold Tables.transact
  split
  case isFalse => exact .same (sameAt_refl t key)
  case isTrue hall =>
    rcases hsends with ⟨key', entry, body, version, old, observed, rfl⟩ |
      ⟨key', kind, old, rfl⟩ | ⟨key', kind, rfl⟩
    · by_cases hk : key' = key
      · subst hk
        refine .saved entry ⟨body, version, ttlOf entry⟩ observed (observes_of_hold hall)
          (Tables.applyAll_saveItems_index t key' entry body version old observed) ?_
        exact Tables.applyAll_saveItems_data t key' entry body version old observed
      · refine .same (sameAt_applyAll fun item hitem heq => hk ?_)
        rw [← saveItems_key key' entry body version old observed item hitem, heq]
    · by_cases hk : key' = key
      · subst hk
        obtain ⟨hindex, hdata⟩ := Tables.applyAll_deleteAnyItems t key' kind
        exact .deleted kind hindex hdata
      · refine .same (sameAt_applyAll fun item hitem heq => hk ?_)
        rw [← heq]
        simp only [deleteIfMatchItems, List.mem_cons, List.not_mem_nil, or_false] at hitem
        rcases hitem with rfl | rfl <;> rfl
    · by_cases hk : key' = key
      · subst hk
        obtain ⟨hindex, hdata⟩ := Tables.applyAll_deleteAnyItems t key' kind
        exact .deleted kind hindex hdata
      · refine .same (sameAt_applyAll fun item hitem heq => hk ?_)
        rw [← heq]
        simp only [deleteAnyItems, List.mem_cons, List.not_mem_nil, or_false] at hitem
        rcases hitem with rfl | rfl <;> rfl

theorem keyStep_of_serve {t t' : Tables} {op : DdbOp} {answer : Result op.Res}
    (h : atomicService t op answer t') (hsends : Sends op) (key : String) :
    KeyStep t t' key := by
  cases h with
  | transact items => exact keyStep_of_sends hsends key
  | getIndex key' => exact .same (sameAt_refl t key)
  | getData kind key' => exact .same (sameAt_refl t key)
  | scan start limit page => exact .same (sameAt_refl t key)
  | scanAll keys => exact .same (sameAt_refl t key)
  | nowMs now => exact .same (sameAt_refl t key)
  | nanos n => exact .same (sameAt_refl t key)

theorem KeyStep.linked {t t' : Tables} (h : ∀ key, KeyStep t t' key) (ht : t.Linked) :
    t'.Linked := by
  intro key row hrow
  rcases h key with hsame | ⟨entry, row', observed, hobs, hindex, hdata⟩ | ⟨kind, hindex, hdata⟩
  · rw [hsame.1] at hrow
    obtain ⟨k, hk, hmem⟩ := ht key row hrow
    refine ⟨k, hk, ?_⟩
    rw [Std.ExtTreeMap.mem_iff_isSome_getElem?] at hmem ⊢
    rw [hsame.2 k]
    exact hmem
  · rw [hindex] at hrow
    cases hrow
    refine ⟨entry.kind, rfl, ?_⟩
    rw [Std.ExtTreeMap.mem_iff_isSome_getElem?, hdata entry.kind, if_pos rfl]
    rfl
  · rw [hindex] at hrow
    cases hrow

/-! ## The two requests -/

abbrev DdbEvent (ι : Type) := Event DdbOp DdbOp.Res RustyAntError Tables ι

section Requests

variable {ι : Type} {key : String}

theorem readIndexKind_follows {evs : List (DdbEvent ι)} {q : Ddb (Option ValueKind)}
    (h : Pool.Follows (readIndexKind key) evs q)
    (hserve : ∀ ev ∈ evs, atomicService ev.before ev.op ev.answer ev.after)
    (hlinked : ∀ ev ∈ evs, ev.before.Linked) :
    (evs = [] ∧ ∀ r, q ≠ .done r) ∨
      ∃ (read : DdbEvent ι) (observed : Option ValueKind), evs = [read] ∧
        read.op = .getIndex key ∧ read.after = read.before ∧ Observes read.before key observed ∧
        q = .done (.ok observed) := by
  rcases Pool.Follows.call_inv h with ⟨rfl, rfl⟩ | ⟨who, answer, before, after, evs, rfl, hrest⟩
  · exact .inl ⟨rfl, nofun⟩
  rw [List.forall_mem_cons] at hserve hlinked
  obtain ⟨hread, -⟩ := hserve
  dsimp only at hread
  cases hread with
  | getIndex _ _ =>
      refine .inr ?_
      cases hidx : before.index[key]? with
      | none =>
          rw [hidx] at hrest
          obtain ⟨rfl, rfl⟩ := Pool.Follows.done_inv hrest
          exact ⟨_, none, rfl, rfl, rfl, hidx, rfl⟩
      | some row =>
          rw [hidx] at hrest
          obtain ⟨k, hk, -⟩ := hlinked.1 key row hidx
          have heq : (some <$> Prog.ofExcept (parseKind row.kind) : Ddb (Option ValueKind)) =
              .done (.ok (some k)) := by
            rw [hk, parseKind_asStr]
            rfl
          have hdone : Pool.Follows
            (some <$> Prog.ofExcept (parseKind row.kind) : Ddb (Option ValueKind)) evs q := hrest
          rw [heq] at hdone
          obtain ⟨rfl, rfl⟩ := hdone.done_inv
          refine ⟨_, some k, rfl, rfl, rfl, ⟨row.ttl, ?_⟩, rfl⟩
          rw [hidx, ← hk]

/-- A transaction is served once; it is refused when a condition is false. -/
theorem sendTransact_follows {items : List TransactItem} {evs : List (DdbEvent ι)} {q : Ddb Unit}
    (h : Pool.Follows (sendTransact items) evs q)
    (hserve : ∀ ev ∈ evs, atomicService ev.before ev.op ev.answer ev.after) :
    (∀ r, q ≠ .done r) ∨
      ∃ write : DdbEvent ι, evs = [write] ∧ write.op = .transact items ∧
        write.after = (write.before.transact items).2 ∧
        q = .done (if items.all (TransactItem.holds write.before) then .ok ()
          else .error .contention) := by
  rcases Pool.Follows.call_inv h with ⟨rfl, rfl⟩ | ⟨who, answer, before, after, evs, rfl, hrest⟩
  · exact .inl nofun
  rw [List.forall_mem_cons] at hserve
  obtain ⟨hwrite, -⟩ := hserve
  dsimp only at hwrite
  cases hwrite with
  | transact _ _ =>
      refine .inr ⟨⟨who, .transact items, .ok (before.transact items).1, before,
        (before.transact items).2⟩, ?_⟩
      by_cases hall : items.all (TransactItem.holds before)
      · have hout : (before.transact items).1 = .committed := by rw [Tables.transact, if_pos hall]
        rw [hout] at hrest
        obtain ⟨rfl, rfl⟩ := Pool.Follows.done_inv hrest
        exact ⟨rfl, rfl, rfl, by rw [if_pos hall]⟩
      · have hout : (before.transact items).1 = .canceled := by rw [Tables.transact, if_neg hall]
        rw [hout] at hrest
        obtain ⟨rfl, rfl⟩ := Pool.Follows.done_inv hrest
        exact ⟨rfl, rfl, rfl, by rw [if_neg hall]⟩

theorem saveAny_follows {fo : FloatOps} {entry : StoredValue}
    (hfit : (Codec.storedValue.enc entry).len fo ≤ maxItemBytes) {evs : List (DdbEvent ι)}
    {q : Ddb Unit} (h : Pool.Follows (save fo key entry .any) evs q)
    (hserve : ∀ ev ∈ evs, atomicService ev.before ev.op ev.answer ev.after)
    (hlinked : ∀ ev ∈ evs, ev.before.Linked) :
    (∀ r, q ≠ .done r) ∨
      ∃ (nanos read write : DdbEvent ι) (version : String) (observed : Option ValueKind),
        evs = [nanos, read, write] ∧ nanos.op = .nanos ∧ read.op = .getIndex key ∧
        Observes read.before key observed ∧
        write.op = .transact (saveItems key entry (Codec.storedValue.enc entry) version none
          observed) ∧
        ∃ r, q = .done r ∧ (r = .ok () ↔ Observes write.before key observed) ∧
          (r = .ok () → write.after = write.before.applyAll
            (saveItems key entry (Codec.storedValue.enc entry) version none observed)) := by
  unfold save at h
  rw [if_neg (Nat.not_lt.mpr hfit)] at h
  rcases Pool.Follows.call_inv h with ⟨rfl, rfl⟩ | ⟨who, answer, before, after, evs, rfl, hrest⟩
  · exact .inl nofun
  rw [List.forall_mem_cons] at hserve hlinked
  obtain ⟨hnanos, hserve⟩ := hserve
  dsimp only at hnanos
  cases hnanos with
  | nanos _ n =>
      rcases Pool.Follows.bind_inv (p := readIndexKind key) hrest with
        ⟨op, k, -, rfl⟩ | ⟨reads, writes, outcome, rfl, hread, hwrite⟩
      · exact .inl nofun
      rw [List.forall_mem_append] at hserve hlinked
      rcases readIndexKind_follows hread hserve.1 hlinked.2.1 with
        ⟨-, hq⟩ | ⟨read, observed, rfl, hop, -, hobs, hq⟩
      · exact absurd rfl (hq _)
      · cases hq
        rcases sendTransact_follows hwrite hserve.2 with hq | ⟨write, rfl, hop', hafter, hq⟩
        · exact .inl hq
        · refine .inr ⟨_, read, write, _, observed, rfl, rfl, hop, hobs, hop', _, hq, ?_, ?_⟩
          · rw [← saveItems_hold_iff]
            split
            case isTrue hall => exact iff_of_true rfl hall
            case isFalse hall => exact iff_of_false nofun hall
          · intro hok
            rw [hafter, Tables.transact, if_pos]
            by_contra hall
            rw [if_neg hall] at hok
            cases hok

end Requests

/-! ## Unconditional saves -/

section SaveAny

variable {ι : Type} {key : String} {entry : StoredValue}

def kindAt (t : Tables) (key : String) : Option String := t.index[key]?.map IndexRow.kind

theorem observes_iff {t : Tables} {observed : Option ValueKind} :
    Observes t key observed ↔ kindAt t key = observed.map ValueKind.asStr := by
  cases observed with
  | none => simp [Observes, kindAt]
  | some k =>
      simp only [Observes, kindAt, Option.map_some, Option.map_eq_some_iff]
      constructor
      · rintro ⟨ttl, hidx⟩
        exact ⟨_, hidx, rfl⟩
      · rintro ⟨row, hidx, hkind⟩
        exact ⟨row.ttl, by rw [hidx, ← hkind]⟩

/-- When program `i` sends its transaction, the index shows for the key what it
showed when `i` read it. -/
def KindSteady (i : ι) (key : String) (evs : List (DdbEvent ι)) : Prop :=
  ∀ read ∈ evs, ∀ write ∈ evs, read.who = i → write.who = i → read.op = .getIndex key →
    (∃ items, write.op = .transact items) → kindAt write.before key = kindAt read.before key

def StoresAt (t : Tables) (key : String) (entry : StoredValue) : Prop :=
  t.index[key]? = some ⟨entry.kind.asStr, ttlOf entry⟩ ∧
    ∃ version, (t.data entry.kind)[key]? =
      some ⟨Codec.storedValue.enc entry, version, ttlOf entry⟩

/-- The event is a transaction that takes effect on the key. -/
def WritesAt (key : String) (ev : DdbEvent ι) : Prop :=
  ∃ items, ev.op = .transact items ∧ items.all (TransactItem.holds ev.before) ∧
    ∃ item ∈ items, item.key = key

/-- The key holds the entry, at this point and after each of the events until one
that takes effect on it. -/
def StoredUntilWritten (key : String) (entry : StoredValue) : Tables → List (DdbEvent ι) → Prop
  | t, [] => StoresAt t key entry
  | t, ev :: evs => StoresAt t key entry ∧
      (WritesAt key ev ∨ StoredUntilWritten key entry ev.after evs)

theorem StoresAt.of_same {t t' : Tables} (h : StoresAt t key entry) (hsame : t.SameAt t' key) :
    StoresAt t' key entry := by
  obtain ⟨hindex, version, hdata⟩ := h
  refine ⟨?_, version, ?_⟩
  · rw [hsame.1]
    exact hindex
  · rw [hsame.2]
    exact hdata

/-- A request that does not take effect on the key leaves it alone. -/
theorem same_or_writes {ev : DdbEvent ι}
    (h : atomicService ev.before ev.op ev.answer ev.after) (key : String) :
    WritesAt key ev ∨ ev.before.SameAt ev.after key := by
  obtain ⟨who, op, answer, before, after⟩ := ev
  dsimp only at h
  cases h with
  | transact _ items =>
      by_cases hall : items.all (TransactItem.holds before)
      · by_cases hkey : ∃ item ∈ items, item.key = key
        · exact .inl ⟨items, rfl, hall, hkey⟩
        · refine .inr ?_
          dsimp only [Tables.transact]
          rw [if_pos hall]
          exact sameAt_applyAll fun item hitem heq => hkey ⟨item, hitem, heq⟩
      · refine .inr ?_
        dsimp only [Tables.transact]
        rw [if_neg hall]
        exact sameAt_refl before key
  | getIndex key' => exact .inr (sameAt_refl before key)
  | getData kind key' => exact .inr (sameAt_refl before key)
  | scan start limit page => exact .inr (sameAt_refl before key)
  | scanAll keys => exact .inr (sameAt_refl before key)
  | nowMs now => exact .inr (sameAt_refl before key)
  | nanos n => exact .inr (sameAt_refl before key)

theorem storedUntilWritten_run [DecidableEq ι] {α : ι → Type}
    {c d : Pool DdbOp DdbOp.Res RustyAntError Tables α} {evs : List (DdbEvent ι)}
    (hrun : Pool.Run atomicService c evs d) (h : StoresAt c.state key entry) :
    StoredUntilWritten key entry c.state evs := by
  induction evs generalizing c with
  | nil => exact h
  | cons ev evs ih =>
      refine ⟨h, ?_⟩
      rw [← List.singleton_append] at hrun
      obtain ⟨m, hm, hrest⟩ := hrun.split
      rw [← List.nil_append [ev]] at hm
      obtain ⟨c', hc', hs⟩ := hm.snoc_inv
      rcases same_or_writes hs.serve key with hwrites | hsame
      · exact .inl hwrites
      · rw [hs.after_eq]
        refine .inr (ih hrest ?_)
        rw [hs.before_eq, hs.after_eq, hc'.nil_inv] at hsame
        exact h.of_same hsame

end SaveAny

section Runs

variable {ι : Type} [DecidableEq ι]

/-- No client can leave an index row without the data row it names. -/
theorem linked_run {α : ι → Type} {c d : Pool DdbOp DdbOp.Res RustyAntError Tables α}
    {evs : List (DdbEvent ι)} (hrun : Pool.Run atomicService c evs d)
    (hsends : ∀ i, (c.prog i).Requests Sends) (hc : c.state.Linked) :
    d.state.Linked ∧ ∀ ev ∈ evs, ev.before.Linked ∧ ev.after.Linked := by
  refine (hrun.restrict hsends).state_invariant _ hc fun hs hserve => ?_
  exact KeyStep.linked (keyStep_of_serve hserve.1 hserve.2) hs

/-- An unconditional save within the item limit returns `Ok`, and leaves its entry
in place until another request takes effect on the key, if and only if no other
client has created the key, removed it or changed its kind between the save's
index read and its transaction. -/
theorem saveAny_lands_iff (fo : FloatOps) (calls : ι → Call) (t : Tables) (ht : t.Linked)
    (evs : List (DdbEvent ι)) (d : Pool DdbOp DdbOp.Res RustyAntError Tables fun _ : ι => Unit)
    (hrun : Pool.Run atomicService ⟨t, fun i => (calls i).prog fo⟩ evs d) (i : ι) (key : String)
    (entry : StoredValue) (hcall : calls i = .save key entry .any)
    (hfit : (Codec.storedValue.enc entry).len fo ≤ maxItemBytes) (r : Result Unit)
    (hdone : d.prog i = .done r) :
    (r = .ok () ∧ ∃ pre ev post, evs = pre ++ ev :: post ∧ ev.who = i ∧
        StoredUntilWritten key entry ev.after post) ↔ KindSteady i key evs := by
  have hlinked := (linked_run hrun (fun j => call_requests fo (calls j)) ht).2
  have hfollows := hrun.follows i
  simp only [hcall, hdone] at hfollows
  have hown : ∀ ev, ev ∈ evs.filter (fun ev => ev.who = i) ↔ ev ∈ evs ∧ ev.who = i := by simp
  rcases saveAny_follows hfit hfollows (fun ev hev => hrun.serve ev ((hown ev).mp hev).1)
      (fun ev hev => (hlinked ev ((hown ev).mp hev).1).1) with
    hq | ⟨nanos, read, write, version, observed, hevs, hnanos, hread, hobs, hwrite, r', hq, hr,
      hafter⟩
  · exact absurd rfl (hq r)
  cases hq
  have hmem : ∀ ev, ev ∈ evs ∧ ev.who = i ↔ ev = nanos ∨ ev = read ∨ ev = write := by
    intro ev
    rw [← hown, hevs]
    simp
  have hkind : kindAt read.before key = observed.map ValueKind.asStr := observes_iff.mp hobs
  have hsteady : KindSteady i key evs ↔ r = .ok () := by
    rw [hr, observes_iff, ← hkind]
    constructor
    · intro hall
      have hread' := (hmem read).mpr (.inr (.inl rfl))
      have hwrite' := (hmem write).mpr (.inr (.inr rfl))
      exact hall read hread'.1 write hwrite'.1 hread'.2 hwrite'.2 hread ⟨_, hwrite⟩
    · intro hsame x hx y hy hxi hyi hxop hyop
      obtain ⟨items, hyop⟩ := hyop
      have hxr : x = read := by
        rcases (hmem x).mp ⟨hx, hxi⟩ with rfl | rfl | rfl
        · rw [hnanos] at hxop
          cases hxop
        · rfl
        · rw [hwrite] at hxop
          cases hxop
      have hyw : y = write := by
        rcases (hmem y).mp ⟨hy, hyi⟩ with rfl | rfl | rfl
        · rw [hnanos] at hyop
          cases hyop
        · rw [hread] at hyop
          cases hyop
        · rfl
      rw [hxr, hyw]
      exact hsame
  rw [hsteady]
  refine ⟨And.left, fun hok => ⟨hok, ?_⟩⟩
  obtain ⟨hwmem, hwwho⟩ := (hmem write).mpr (.inr (.inr rfl))
  obtain ⟨pre, post, rfl⟩ := List.append_of_mem hwmem
  refine ⟨pre, write, post, rfl, hwwho, ?_⟩
  have hassoc : pre ++ write :: post = (pre ++ [write]) ++ post := by simp
  rw [hassoc] at hrun
  obtain ⟨m, hm, hpost⟩ := hrun.split
  obtain ⟨_, -, hs⟩ := hm.snoc_inv
  rw [hs.after_eq]
  refine storedUntilWritten_run hpost ?_
  rw [← hs.after_eq, hafter hok]
  refine ⟨Tables.applyAll_saveItems_index _ _ _ _ _ _ _, version, ?_⟩
  rw [Tables.applyAll_saveItems_data, if_pos rfl]

end Runs

/-- Two clients set the same new key. -/
def twoSets : Fin 2 → Call
  | 0 => .save "k" ⟨none, .string [97]⟩ .any
  | 1 => .save "k" ⟨none, .string [98]⟩ .any

def twoSetsStart : Pool DdbOp DdbOp.Res RustyAntError Tables fun _ : Fin 2 => Unit :=
  ⟨Tables.empty, fun i => (twoSets i).prog .integral⟩

/-- The second one commits between the first one's index read and its
transaction. -/
theorem saveAny_refused_on_twoSets :
    (Codec.storedValue.enc ⟨none, .string [97]⟩).len .integral ≤ maxItemBytes ∧
      ∃ evs d, Pool.Run atomicService twoSetsStart evs d ∧
        d.prog 0 = .done (.error .contention) := by
  obtain ⟨evs, hrun⟩ := Pool.exec_run (Tables.serve_atomic 0 0) [0, 0, 1, 1, 1, 0] twoSetsStart
  exact ⟨by decide +kernel, evs, _, hrun, rfl⟩

/-- One after the other. -/
theorem saveAny_lands_iff_on_twoSets :
    ∃ evs d, Pool.Run atomicService twoSetsStart evs d ∧ d.prog 1 = .done (.ok ()) ∧
      ((Except.ok () = (.ok () : Result Unit) ∧ ∃ pre ev post, evs = pre ++ ev :: post ∧
        ev.who = 1 ∧ StoredUntilWritten "k" ⟨none, .string [98]⟩ ev.after post) ↔
          KindSteady 1 "k" evs) := by
  obtain ⟨evs, hrun⟩ := Pool.exec_run (Tables.serve_atomic 0 0) [0, 0, 0, 1, 1, 1] twoSetsStart
  refine ⟨evs, _, hrun, rfl, ?_⟩
  exact saveAny_lands_iff .integral twoSets Tables.empty Tables.linked_empty evs _ hrun 1 "k"
    ⟨none, .string [98]⟩ rfl (by decide +kernel) (.ok ()) rfl

end DynamoDb

end RustyAnt
