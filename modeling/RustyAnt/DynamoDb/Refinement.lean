import RustyAnt.DynamoDb.Versions
import RustyAnt.Storage.Lapsing
import RustyAnt.Storage.RoundTrip

/-!
# DynamoDB implements the atomic store

Seen from its clients, the tables are the rows that the index points at, under their tokens.  A
load reads the index and a data table in turn, and a save reads the index before it writes.  As
long as no key changes its kind and no deadline passes, every method of `DynamoDbBackend` takes
effect on that view at one of its requests all the same.
-/

namespace RustyAnt

open Lib

namespace DynamoDb

variable {ι : Type} {content : String → StoredValue} {gone : String → Bool}
variable {kinds : String → ValueKind} {key : String}

/-! ## The rows the index points at -/

/-- The token of the row that the index points at. -/
def rowToken (t : Tables) (key : String) : Option String :=
  t.index[key]?.bind fun row => (parseKind row.kind).toOption.bind fun k =>
    (t.data k)[key]?.map fun r => encodeToken k r.version

theorem rowToken_eq_some {t : Tables} {token : String} :
    rowToken t key = some token ↔ TokenAt t key token := by
  unfold rowToken
  constructor
  · intro h
    obtain ⟨⟨name, ttl⟩, hindex, hrest⟩ := Option.bind_eq_some_iff.mp h
    obtain ⟨k, hkind, hrest⟩ := Option.bind_eq_some_iff.mp hrest
    obtain ⟨row, hdata, rfl⟩ := Option.map_eq_some_iff.mp hrest
    cases hparse : parseKind name with
    | error e =>
        rw [hparse] at hkind
        cases hkind
    | ok k' =>
        rw [hparse] at hkind
        cases hkind
        rw [parseKind_ok hparse] at hindex
        exact ⟨k, ttl, row, hindex, hdata, rfl⟩
  · rintro ⟨k, ttl, row, hindex, hdata, rfl⟩
    rw [hindex, Option.bind_some, parseKind_asStr]
    show (t.data k)[key]?.map _ = _
    rw [hdata, Option.map_some]

theorem rowToken_of_absent {t : Tables} (h : t.index[key]? = none) : rowToken t key = none := by
  unfold rowToken
  rw [h]
  rfl

theorem rowToken_same {t t' : Tables} (h : t.SameAt t' key) : rowToken t' key = rowToken t key := by
  unfold rowToken
  rw [h.1]
  refine congrArg _ (funext fun row => congrArg _ (funext fun k => ?_))
  rw [h.2 k]

/-- What a client sees of the tables. -/
def view (content : String → StoredValue) (gone : String → Bool) (t : Tables) : Keyspace :=
  fun key => (rowToken t key).bind (standing content gone)

theorem view_of_token {t : Tables} {token : String} (h : rowToken t key = some token) :
    view content gone t key = standing content gone token := by
  unfold view
  rw [h]
  rfl

theorem view_of_none {t : Tables} (h : rowToken t key = none) : view content gone t key = none := by
  unfold view
  rw [h]
  rfl

theorem view_standing (t : Tables) : (view content gone t).Standing content gone := by
  intro key p hkey
  obtain ⟨token, -, htoken⟩ := Option.bind_eq_some_iff.mp hkey
  obtain ⟨hgone, rfl⟩ := standing_eq_some.mp htoken
  exact htoken

theorem view_saved (t : Tables) (key : String) (entry : StoredValue) (body : Json) (version : String)
    (old : Option String) (observed : Option ValueKind) :
    view content gone (t.applyAll (saveItems key entry body version old observed)) =
      Function.update (view content gone t) key
        (standing content gone (encodeToken entry.kind version)) := by
  funext key'
  by_cases hk : key' = key
  · subst hk
    rw [Function.update_self]
    refine view_of_token (rowToken_eq_some.mpr ⟨entry.kind, ttlOf entry, ⟨body, version, ttlOf entry⟩,
      Tables.applyAll_saveItems_index t key' entry body version old observed, ?_, rfl⟩)
    rw [Tables.applyAll_saveItems_data, if_pos rfl]
  · rw [Function.update_of_ne hk]
    unfold view
    rw [rowToken_same (sameAt_applyAll fun item hitem heq => hk ?_)]
    rw [← heq, saveItems_key key entry body version old observed item hitem]

theorem view_deleted (t : Tables) (key : String) (kind : ValueKind) :
    view content gone (t.applyAll (deleteAnyItems key kind)) =
      Function.update (view content gone t) key none := by
  funext key'
  by_cases hk : key' = key
  · subst hk
    rw [Function.update_self]
    exact view_of_none (rowToken_of_absent (Tables.applyAll_deleteAnyItems t key' kind).1)
  · rw [Function.update_of_ne hk]
    unfold view
    rw [rowToken_same (sameAt_applyAll fun item hitem heq => hk ?_)]
    simp only [deleteAnyItems, List.mem_cons, List.not_mem_nil, or_false] at hitem
    rcases hitem with rfl | rfl <;> exact heq.symm

/-! ## Tables whose keys keep their kinds -/

/-- The index shows each key with its kind, if at all, and every row decodes to the entry its
token stands for. -/
structure Settled (kinds : String → ValueKind) (content : String → StoredValue) (t : Tables) : Prop where
  kind : ∀ (key : String) (row : IndexRow), t.index[key]? = some row → row.kind = (kinds key).asStr
  tagged : ∀ (key : String) (k : ValueKind) (row : DataRow), (t.data k)[key]? = some row →
    Codec.storedValue.dec row.data = .ok (content (encodeToken k row.version))

theorem tokenAt_of_row {t : Tables} (ht : t.Agree) {k : ValueKind} {row : DataRow}
    (hrow : (t.data k)[key]? = some row) : TokenAt t key (encodeToken k row.version) := by
  have hmem : key ∈ t.data k := by
    rw [Std.ExtTreeMap.mem_iff_isSome_getElem?, hrow]
    rfl
  cases hindex : t.index[key]? with
  | none => exact absurd hmem ((ht key).of_none hindex k)
  | some irow =>
      obtain ⟨k', hk', -⟩ := ht.linked key irow hindex
      have hother := ((ht key).of_kind hindex hk').2
      obtain rfl : k = k' := by
        by_contra hne
        exact hother k hne hmem
      exact ⟨k, irow.ttl, row, by rw [hindex, ← hk'], hrow, rfl⟩

theorem rowToken_of_no_row {t : Tables} (ht : Settled kinds content t)
    (hrow : (t.data (kinds key))[key]? = none) : rowToken t key = none := by
  rw [Option.eq_none_iff_forall_ne_some]
  intro token htoken
  obtain ⟨k, ttl, row, hindex, hdata, -⟩ := rowToken_eq_some.mp htoken
  obtain rfl := ValueKind.asStr_injective (ht.kind key _ hindex)
  rw [hrow] at hdata
  cases hdata


theorem view_of_row {t : Tables} (ht : t.Agree) {k : ValueKind} {row : DataRow}
    (hrow : (t.data k)[key]? = some row) :
    view content gone t key = standing content gone (encodeToken k row.version) :=
  view_of_token (rowToken_eq_some.mpr (tokenAt_of_row ht hrow))

theorem view_of_no_row {t : Tables} (ht : Settled kinds content t)
    (hrow : (t.data (kinds key))[key]? = none) : view content gone t key = none :=
  view_of_none (rowToken_of_no_row ht hrow)

/-- Whenever the clock is read, a row that was there is expired if and only if it is gone. -/
def Timely (content : String → StoredValue) (gone : String → Bool) (evs : List (DdbEvent ι)) :
    Prop :=
  ∀ x ∈ evs, ∀ (key : String) (k : ValueKind) (row : DataRow),
    (x.before.data k)[key]? = some row → ∀ ev ∈ evs, ∀ (who : ι) (t : Int) (before after : Tables),
      ev = ⟨who, .nowMs, .ok t, before, after⟩ →
        (content (encodeToken k row.version)).isExpired t = gone (encodeToken k row.version)

theorem Timely.sublist {evs evs' : List (DdbEvent ι)} (h : Timely content gone evs)
    (hsub : evs' ⊆ evs) : Timely content gone evs' := fun x hx key k row hrow ev hev =>
  h x (hsub hx) key k row hrow ev (hsub hev)

/-- Events of one method, as the tables answered them. -/
structure Orderly (kinds : String → ValueKind) (content : String → StoredValue)
    (gone : String → Bool) (evs : List (DdbEvent ι)) : Prop where
  served : ∀ ev ∈ evs, ddbService ev.before ev.op ev.answer ev.after
  agree : ∀ ev ∈ evs, ev.before.Agree
  settled : ∀ ev ∈ evs, Settled kinds content ev.before ∧ Settled kinds content ev.after
  timely : Timely content gone evs

theorem Orderly.sublist {evs evs' : List (DdbEvent ι)} (h : Orderly kinds content gone evs)
    (hsub : evs' ⊆ evs) : Orderly kinds content gone evs' where
  served ev hev := h.served ev (hsub hev)
  agree ev hev := h.agree ev (hsub hev)
  settled ev hev := h.settled ev (hsub hev)
  timely := h.timely.sublist hsub

theorem Orderly.tail {ev : DdbEvent ι} {evs : List (DdbEvent ι)}
    (h : Orderly kinds content gone (ev :: evs)) : Orderly kinds content gone evs :=
  h.sublist (List.subset_cons_self ev evs)

/-! ## What the requests come to -/

section Requests

variable {β : Type} {evs : List (DdbEvent ι)}

def Writes : DdbOp → Bool
  | .transact _ => true
  | _ => false

theorem still_of_read {t t' : Tables} {op : DdbOp} {answer : Result op.Res}
    (h : ddbService t op answer t') (hop : Writes op = false) : t' = t := by
  cases h with
  | transact items => cases hop
  | _ => rfl

theorem index_found {t t' : Tables} {answer : Result (DdbOp.getIndex key).Res}
    (h : ddbService t (.getIndex key) answer t') (found : Option IndexRow)
    (hfound : answer = .ok found) : t.index[key]? = found := by
  cases h with
  | getIndex _ => exact Except.ok.inj hfound
  | fault _ e => cases hfound

theorem row_found {t t' : Tables} {k : ValueKind} {answer : Result (DdbOp.getData k key).Res}
    (h : ddbService t (.getData k key) answer t') (found : Option DataRow)
    (hfound : answer = .ok found) : (t.data k)[key]? = found := by
  cases h with
  | getData _ _ => exact Except.ok.inj hfound
  | fault _ e => cases hfound

/-- A program that reads the index first. -/
inductive AfterIndex (kinds : String → ValueKind) (key : String) (f : Option ValueKind → Ddb β) :
    List (DdbEvent ι) → Ddb β → Prop
  | asked {op : DdbOp} {k : Result op.Res → Ddb β} : AfterIndex kinds key f [] (.call op k)
  | failed (read : DdbEvent ι) (e : RustyAntError) (hstill : read.after = read.before) :
      AfterIndex kinds key f [read] (.done (.error e))
  | absent (read : DdbEvent ι) (rest : List (DdbEvent ι)) (q : Ddb β)
      (hstill : read.after = read.before) (hnone : read.before.index[key]? = none)
      (hrest : Pool.Follows (f none) rest q) : AfterIndex kinds key f (read :: rest) q
  | found (read : DdbEvent ι) (rest : List (DdbEvent ι)) (q : Ddb β)
      (hstill : read.after = read.before)
      (hrest : Pool.Follows (f (some (kinds key))) rest q) : AfterIndex kinds key f (read :: rest) q

theorem index_follows {f : Option ValueKind → Ddb β} {q : Ddb β}
    (h : Pool.Follows ((readIndexKind key).bind f) evs q) (hevs : Orderly kinds content gone evs) :
    AfterIndex kinds key f evs q := by
  rcases Pool.Follows.call_inv h with ⟨rfl, rfl⟩ | ⟨who, answer, before, after, rest, rfl, hrest⟩
  · exact .asked
  have hread := hevs.served _ List.mem_cons_self
  have hsettled := (hevs.settled _ List.mem_cons_self).1
  dsimp only at hread hsettled
  have hstill : after = before := still_of_read hread rfl
  cases answer with
  | error e =>
      obtain ⟨rfl, rfl⟩ := Pool.Follows.done_inv hrest
      exact .failed _ e hstill
  | ok found =>
      have hfound := index_found hread found rfl
      cases found with
      | none => exact .absent _ rest q hstill hfound hrest
      | some row =>
          have hkind : (some <$> Prog.ofExcept (parseKind row.kind) : Ddb (Option ValueKind)) =
              .done (.ok (some (kinds key))) := by
            rw [hsettled.kind key row hfound, parseKind_asStr]
            rfl
          have hnext : Pool.Follows ((some <$> Prog.ofExcept (parseKind row.kind) :
            Ddb (Option ValueKind)).bind f) rest q := hrest
          rw [hkind] at hnext
          exact .found _ rest q hstill hnext

/-- A transaction: asked for, refused, or committed. -/
inductive AfterTransact (items : List TransactItem) : List (DdbEvent ι) → Ddb Unit → Prop
  | asked {op : DdbOp} {k : Result op.Res → Ddb Unit} : AfterTransact items [] (.call op k)
  | refused (write : DdbEvent ι) (e : RustyAntError) (hstill : write.after = write.before) :
      AfterTransact items [write] (.done (.error e))
  | committed (write : DdbEvent ι) (hall : items.all (TransactItem.holds write.before) = true)
      (hafter : write.after = write.before.applyAll items) :
      AfterTransact items [write] (.done (.ok ()))

theorem transact_follows {items : List TransactItem} {q : Ddb Unit}
    (h : Pool.Follows (sendTransact items) evs q)
    (hserved : ∀ ev ∈ evs, ddbService ev.before ev.op ev.answer ev.after) :
    AfterTransact items evs q := by
  rcases Pool.Follows.call_inv h with ⟨rfl, rfl⟩ | ⟨who, answer, before, after, rest, rfl, hrest⟩
  · exact .asked
  have hwrite := hserved _ List.mem_cons_self
  dsimp only at hwrite
  cases hwrite with
  | transact _ =>
      by_cases hall : items.all (TransactItem.holds before) = true
      · have hout : before.transact items = (.committed, before.applyAll items) := if_pos hall
        rw [hout] at hrest ⊢
        obtain ⟨rfl, rfl⟩ := Pool.Follows.done_inv hrest
        exact .committed _ hall rfl
      · have hout : before.transact items = (.canceled, before) := if_neg hall
        rw [hout] at hrest ⊢
        obtain ⟨rfl, rfl⟩ := Pool.Follows.done_inv hrest
        exact .refused _ _ rfl
  | conflict _ =>
      obtain ⟨rfl, rfl⟩ := Pool.Follows.done_inv hrest
      exact .refused _ _ rfl
  | fault _ e =>
      obtain ⟨rfl, rfl⟩ := Pool.Follows.done_inv hrest
      exact .refused _ _ rfl

end Requests

/-! ## Loads -/

section Methods

variable {evs : List (DdbEvent ι)}

abbrev Hidden (content : String → StoredValue) (gone : String → Bool) (ev : DdbEvent ι) : Prop :=
  Pool.Hidden (view content gone) ev

theorem hidden_of_still {ev : DdbEvent ι} (h : ev.after = ev.before) : Hidden content gone ev :=
  congrArg _ h

theorem collected_hidden {k : ValueKind} {version : String} {q : Ddb Unit}
    (hgone : gone (encodeToken k version) = true)
    (h : AfterTransact (deleteIfMatchItems key k version) evs q) :
    ∀ ev ∈ evs, Hidden content gone ev := by
  cases h with
  | asked => simp
  | refused write e hstill => exact List.forall_mem_singleton.mpr (hidden_of_still hstill)
  | committed write hall hafter =>
      have htoken := (Under.delete k version (parseToken_encodeToken k version)).holds_iff.mp hall
      have hnone : view content gone write.before key = none :=
        (view_of_token (rowToken_eq_some.mpr htoken)).trans (standing_of_gone hgone)
      rw [List.forall_mem_singleton]
      show view content gone write.after = view content gone write.before
      rw [hafter, Tables.applyAll_deleteIfMatchItems, view_deleted, ← hnone, Function.update_eq_self]

theorem delete_token (key : String) (k : ValueKind) (version : String) :
    delete key (.ifMatch (encodeToken k version)) =
      sendTransact (deleteIfMatchItems key k version) := by
  unfold delete
  dsimp only
  rw [parseToken_encodeToken]
  rfl

theorem collect_follows {k : ValueKind} {version : String} {q : Ddb (Option (StoredValue × String))}
    (hgone : gone (encodeToken k version) = true)
    (h : Pool.Follows ((delete key (.ifMatch (encodeToken k version))).attempt.bind
      fun _ => Prog.done (.ok none)) evs q)
    (hserved : ∀ ev ∈ evs, ddbService ev.before ev.op ev.answer ev.after) :
    (∀ ev ∈ evs, Hidden content gone ev) ∧ ((∃ op k, q = .call op k) ∨ q = .done (.ok none)) := by
  rw [delete_token] at h
  rcases h.bind_inv with ⟨op, k', hdelete, rfl⟩ | ⟨gc, rest, r, rfl, hdelete, hrest⟩
  · obtain ⟨q', hq', -⟩ := hdelete.attempt_inv
    exact ⟨collected_hidden hgone (transact_follows hq' hserved), .inl ⟨_, _, rfl⟩⟩
  · obtain ⟨q', hq', hattempt⟩ := hdelete.attempt_inv
    cases q' with
    | call op k' => cases hattempt
    | done out =>
        cases hattempt
        obtain ⟨rfl, rfl⟩ := Pool.Follows.done_inv hrest
        rw [List.append_nil] at hserved ⊢
        exact ⟨collected_hidden hgone (transact_follows hq' hserved), .inr rfl⟩

theorem getOne_linearizes {q : Ddb (Option (StoredValue × String))}
    (h : Pool.Follows (getOne (kinds key) key) evs q) (hevs : Orderly kinds content gone evs) :
    Pool.Linearizes (lapsingService content gone) (view content gone) (.load key) evs q := by
  rcases Pool.Follows.call_inv h with ⟨rfl, rfl⟩ | ⟨who, answer, before, after, rest, rfl, hrest⟩
  · exact .of_call (by simp)
  have hdata := hevs.served _ List.mem_cons_self
  have hagree := hevs.agree _ List.mem_cons_self
  have hsettled := (hevs.settled _ List.mem_cons_self).1
  dsimp only at hdata hagree hsettled
  have hsame : view content gone after = view content gone before :=
    congrArg _ (still_of_read hdata rfl)
  cases answer with
  | error e =>
      obtain ⟨rfl, rfl⟩ := Pool.Follows.done_inv hrest
      exact .of_done (.first (by simp) (fault_above _ e hsame))
  | ok found =>
      have hfound := row_found hdata found rfl
      cases found with
      | none =>
          obtain ⟨rfl, rfl⟩ := Pool.Follows.done_inv hrest
          exact .of_done (.first (by simp) (load_above hsame (view_of_no_row hsettled hfound)))
      | some row =>
          have hstored := @view_of_row content gone key before hagree (kinds key) row hfound
          have hnext : Pool.Follows ((Prog.done (Codec.storedValue.dec row.data) :
            Ddb StoredValue).bind _) rest q := hrest
          have hread : Hidden content gone
            (⟨who, .getData (kinds key) key, .ok (some row), before, after⟩ : DdbEvent ι) := hsame
          rw [hsettled.tagged key (kinds key) row hfound] at hnext
          rcases Pool.Follows.call_inv hnext with
            ⟨rfl, rfl⟩ | ⟨who', reading, before', after', last, rfl, hlast⟩
          · exact .of_call (List.forall_mem_singleton.mpr hsame)
          have hclock := hevs.tail.served _ List.mem_cons_self
          dsimp only at hclock
          have hnow : view content gone after' = view content gone before' :=
            congrArg _ (still_of_read hclock rfl)
          cases reading with
          | error e =>
              obtain ⟨rfl, rfl⟩ := Pool.Follows.done_inv hlast
              exact .of_done (.last (List.forall_mem_singleton.mpr hread) (fault_above _ e hnow))
          | ok t =>
              have hexpired := hevs.timely _ List.mem_cons_self key (kinds key) row hfound _
                (List.mem_cons_of_mem _ List.mem_cons_self) who' t before' after' rfl
              have hend : Pool.Follows
                  (if (content (encodeToken (kinds key) row.version)).isExpired t then
                    (delete key (.ifMatch (encodeToken (kinds key) row.version))).attempt.bind
                      fun _ => Prog.done (.ok none)
                  else Prog.done (.ok (some (content (encodeToken (kinds key) row.version),
                    encodeToken (kinds key) row.version)))) last q := hlast
              rw [hexpired] at hend
              cases hgone : gone (encodeToken (kinds key) row.version) with
              | false =>
                  rw [hgone, if_neg Bool.false_ne_true] at hend
                  obtain ⟨rfl, rfl⟩ := hend.done_inv
                  rw [standing_of_not_gone hgone] at hstored
                  exact .of_done (.first (List.forall_mem_singleton.mpr hnow)
                    (load_above hsame hstored))
              | true =>
                  rw [hgone, if_pos rfl] at hend
                  rw [standing_of_gone hgone] at hstored
                  obtain ⟨hgc, hq⟩ := collect_follows hgone hend hevs.tail.tail.served
                  rcases hq with ⟨op, k, rfl⟩ | rfl
                  · exact .of_call (List.forall_mem_cons.mpr
                      ⟨hsame, List.forall_mem_cons.mpr ⟨hnow, hgc⟩⟩)
                  · exact .of_done (.first (List.forall_mem_cons.mpr ⟨hnow, hgc⟩)
                      (load_above hsame hstored))

theorem load_linearizes {q : Ddb (Option (StoredValue × String))}
    (h : Pool.Follows (load key) evs q) (hevs : Orderly kinds content gone evs) :
    Pool.Linearizes (lapsingService content gone) (view content gone) (.load key) evs q := by
  cases index_follows h hevs with
  | asked => exact .of_call (by simp)
  | failed read e hstill =>
      exact .of_done (.first (by simp) (fault_above _ e (hidden_of_still hstill)))
  | absent read rest _ hstill hnone hrest =>
      obtain ⟨rfl, rfl⟩ := Pool.Follows.done_inv hrest
      exact .of_done (.first (by simp) (load_above (hidden_of_still hstill)
        (view_of_none (rowToken_of_absent hnone))))
  | found read rest _ hstill hrest =>
      exact .hidden_append (List.forall_mem_singleton.mpr (hidden_of_still hstill))
        (getOne_linearizes hrest hevs.tail)

/-! ## Writes -/

theorem put_linearizes {entry : StoredValue} {cond : WriteCondition} {version : String}
    {old : Option String} {observed : Option ValueKind} {q : Ddb Unit}
    (h : Pool.Follows (sendTransact (saveItems key entry (Codec.storedValue.enc entry) version old
      observed)) evs q) (hevs : Orderly kinds content gone evs)
    (hmet : ∀ t : Tables, (saveItems key entry (Codec.storedValue.enc entry) version old
      observed).all (TransactItem.holds t) = true → cond.Met (view content gone t key)) :
    Pool.Linearizes (lapsingService content gone) (view content gone) (.save key entry cond) evs q := by
  cases transact_follows h hevs.served with
  | asked => exact .of_call (by simp)
  | refused write e hstill =>
      exact .of_done (.first (by simp) (fault_above _ e (hidden_of_still hstill)))
  | committed write hall hafter =>
      have hsettled := (hevs.settled _ List.mem_cons_self).2
      have hrow := Tables.applyAll_saveItems_data write.before key entry
        (Codec.storedValue.enc entry) version old observed entry.kind
      rw [if_pos rfl, ← hafter] at hrow
      have hcontent : content (encodeToken entry.kind version) = entry :=
        Codec.storedValue_dec_ok (hsettled.tagged key entry.kind _ hrow)
      have hsave := @lapsingService.save content gone _ key cond
        (encodeToken entry.kind version) (hmet write.before hall)
      rw [hcontent] at hsave
      refine .of_done (.first (by simp) ?_)
      rw [hafter, view_saved]
      exact hsave

/-- What a save does under the version it has drawn. -/
def saveUnder (key : String) (entry : StoredValue) (cond : WriteCondition) (version : String) :
    Ddb Unit :=
  (observedKind key entry.kind cond).bind fun observed =>
    if cond = .createOnly ∧ observed.isSome then Prog.fail .contention
    else (Prog.ofExcept (oldVersion cond)).bind fun old =>
      sendTransact (saveItems key entry (Codec.storedValue.enc entry) version old observed)

theorem saveUnder_any (key : String) (entry : StoredValue) (version : String) :
    saveUnder key entry .any version = (readIndexKind key).bind fun observed =>
      sendTransact (saveItems key entry (Codec.storedValue.enc entry) version none observed) := by
  unfold saveUnder
  refine congrArg _ (funext fun observed => ?_)
  rw [if_neg (fun h => nomatch h.1)]
  rfl

theorem saveUnder_createOnly (key : String) (entry : StoredValue) (version : String) :
    saveUnder key entry .createOnly version = (readIndexKind key).bind fun observed =>
      if observed.isSome then Prog.fail .contention
      else sendTransact (saveItems key entry (Codec.storedValue.enc entry) version none observed) := by
  unfold saveUnder
  refine congrArg _ (funext fun observed => ?_)
  cases observed with
  | none =>
      rw [if_neg (fun h => nomatch h.2)]
      rfl
  | some k =>
      rw [if_pos ⟨rfl, rfl⟩]
      rfl

theorem saveUnder_token (key : String) (entry : StoredValue) (k : ValueKind) (old version : String) :
    saveUnder key entry (.ifMatch (encodeToken k old)) version =
      if k = entry.kind then sendTransact (saveItems key entry (Codec.storedValue.enc entry) version
        (some old) (some k))
      else Prog.fail .contention := by
  have hold : oldVersion (.ifMatch (encodeToken k old)) = .ok (some old) := by
    unfold oldVersion
    dsimp only
    rw [parseToken_encodeToken]
    rfl
  have hobserved : observedKind key entry.kind (.ifMatch (encodeToken k old)) =
      if k ≠ entry.kind then Prog.fail .contention else .done (.ok (some k)) := by
    unfold observedKind
    dsimp only
    rw [parseToken_encodeToken]
    rfl
  unfold saveUnder
  rw [hobserved, hold]
  by_cases hk : k = entry.kind
  · rw [if_neg (not_not.mpr hk), if_pos hk, Prog.done_ok_bind, if_neg (fun h => nomatch h.1)]
    rfl
  · rw [if_pos hk, if_neg hk]
    rfl

theorem saveUnder_linearizes {entry : StoredValue} {cond : WriteCondition} {version : String}
    {q : Ddb Unit} (hnames : NamesStanding gone (.save key entry cond))
    (hgone : ∀ token, gone token = false → ∃ k v, token = encodeToken k v)
    {nanos : DdbEvent ι} (hstill : nanos.after = nanos.before)
    (h : Pool.Follows (saveUnder key entry cond version) evs q)
    (hevs : Orderly kinds content gone evs) :
    Pool.Linearizes (lapsingService content gone) (view content gone) (.save key entry cond)
      (nanos :: evs) q := by
  have hdrawn : ∀ ev ∈ [nanos], Hidden content gone ev :=
    List.forall_mem_singleton.mpr (hidden_of_still hstill)
  cases cond with
  | any =>
      rw [saveUnder_any] at h
      refine .hidden_append hdrawn ?_
      cases index_follows h hevs with
      | asked => exact .of_call (by simp)
      | failed read e hread =>
          exact .of_done (.first (by simp) (fault_above _ e (hidden_of_still hread)))
      | absent read rest _ hread hnone hrest =>
          exact .hidden_append (List.forall_mem_singleton.mpr (hidden_of_still hread))
            (put_linearizes hrest hevs.tail fun _ _ => trivial)
      | found read rest _ hread hrest =>
          exact .hidden_append (List.forall_mem_singleton.mpr (hidden_of_still hread))
            (put_linearizes hrest hevs.tail fun _ _ => trivial)
  | createOnly =>
      rw [saveUnder_createOnly] at h
      refine .hidden_append hdrawn ?_
      cases index_follows h hevs with
      | asked => exact .of_call (by simp)
      | failed read e hread =>
          exact .of_done (.first (by simp) (fault_above _ e (hidden_of_still hread)))
      | absent read rest _ hread hnone hrest =>
          refine .hidden_append (List.forall_mem_singleton.mpr (hidden_of_still hread))
            (put_linearizes hrest hevs.tail fun t hall => ?_)
          exact view_of_none (rowToken_of_absent (observes_of_hold hall))
      | found read rest _ hread hrest =>
          obtain ⟨rfl, rfl⟩ := Pool.Follows.done_inv hrest
          exact .of_done (.first (by simp) (fault_above _ .contention (hidden_of_still hread)))
  | ifMatch token =>
      obtain ⟨k, old, rfl⟩ := hgone token hnames
      rw [saveUnder_token] at h
      by_cases hk : k = entry.kind
      · rw [if_pos hk, hk] at h
        refine .hidden_append hdrawn (put_linearizes h hevs fun t hall => ?_)
        have hparse : parseToken (encodeToken k old) = .ok (entry.kind, old) := by
          rw [parseToken_encodeToken, hk]
        have htoken := (Under.save entry _ version old hparse).holds_iff.mp hall
        have hview := @view_of_token content gone key t _ (rowToken_eq_some.mpr htoken)
        rw [standing_of_not_gone hnames] at hview
        exact ⟨_, hview⟩
      · rw [if_neg hk] at h
        obtain ⟨rfl, rfl⟩ := Pool.Follows.done_inv h
        exact .of_done (.first (by simp) (fault_above _ .contention (hidden_of_still hstill)))

theorem save_linearizes {fo : FloatOps} {entry : StoredValue} {cond : WriteCondition} {q : Ddb Unit}
    (hsize : ¬ maxItemBytes < (Codec.storedValue.enc entry).len fo)
    (hnames : NamesStanding gone (.save key entry cond))
    (hgone : ∀ token, gone token = false → ∃ k v, token = encodeToken k v)
    (h : Pool.Follows (save fo key entry cond) evs q) (hevs : Orderly kinds content gone evs) :
    Pool.Linearizes (lapsingService content gone) (view content gone) (.save key entry cond) evs q := by
  unfold save at h
  dsimp only at h
  rw [if_neg hsize] at h
  rcases Pool.Follows.call_inv h with ⟨rfl, rfl⟩ | ⟨who, answer, before, after, rest, rfl, hrest⟩
  · exact .of_call (by simp)
  have hnanos := hevs.served _ List.mem_cons_self
  dsimp only at hnanos
  have hstill : after = before := still_of_read hnanos rfl
  cases answer with
  | error e =>
      obtain ⟨rfl, rfl⟩ := Pool.Follows.done_inv hrest
      exact .of_done (.first (by simp) (fault_above _ e (congrArg _ hstill)))
  | ok n => exact saveUnder_linearizes hnames hgone hstill hrest hevs.tail

theorem delete_linearizes {cond : DeleteCondition} {q : Ddb Unit}
    (hnames : NamesStanding gone (.delete key cond))
    (hgone : ∀ token, gone token = false → ∃ k v, token = encodeToken k v)
    (h : Pool.Follows (delete key cond) evs q) (hevs : Orderly kinds content gone evs) :
    Pool.Linearizes (lapsingService content gone) (view content gone) (.delete key cond) evs q := by
  cases cond with
  | any =>
      cases index_follows h hevs with
      | asked => exact .of_call (by simp)
      | failed read e hread =>
          exact .of_done (.first (by simp) (fault_above _ e (hidden_of_still hread)))
      | absent read rest _ hread hnone hrest =>
          obtain ⟨rfl, rfl⟩ := Pool.Follows.done_inv hrest
          have hview := @view_of_none content gone key read.before (rowToken_of_absent hnone)
          have hdelete := @lapsingService.delete content gone (view content gone read.before) key
            .any trivial
          rw [← hview, Function.update_eq_self] at hdelete
          refine .of_done (.first (by simp) ?_)
          rw [hread]
          exact hdelete
      | found read rest _ hread hrest =>
          refine .hidden_append (List.forall_mem_singleton.mpr (hidden_of_still hread)) ?_
          cases transact_follows hrest hevs.tail.served with
          | asked => exact .of_call (by simp)
          | refused write e hstill =>
              exact .of_done (.first (by simp) (fault_above _ e (hidden_of_still hstill)))
          | committed write hall hafter =>
              refine .of_done (.first (by simp) ?_)
              rw [hafter, view_deleted]
              exact .delete _ key .any trivial
  | ifMatch token =>
      obtain ⟨k, old, rfl⟩ := hgone token hnames
      rw [delete_token] at h
      cases transact_follows h hevs.served with
      | asked => exact .of_call (by simp)
      | refused write e hstill =>
          exact .of_done (.first (by simp) (fault_above _ e (hidden_of_still hstill)))
      | committed write hall hafter =>
          have htoken := (Under.delete k old (parseToken_encodeToken k old)).holds_iff.mp hall
          have hview := @view_of_token content gone key write.before _ (rowToken_eq_some.mpr htoken)
          rw [standing_of_not_gone hnames] at hview
          refine .of_done (.first (by simp) ?_)
          rw [hafter, Tables.applyAll_deleteIfMatchItems, view_deleted]
          exact .delete _ key _ ⟨_, hview⟩

/-! ## The backend -/

/-- The error of a save whose entry is over the item limit. -/
def overLimit (fo : FloatOps) (entry : StoredValue) : Option RustyAntError :=
  if maxItemBytes < (Codec.storedValue.enc entry).len fo then
    some (.parse ("value exceeds DynamoDB per-item limit (" ++
      toString ((Codec.storedValue.enc entry).len fo) ++ " bytes > 380000)"))
  else none

/-- Such a save fails before it sends anything. -/
def tooLarge (fo : FloatOps) : (op : KVOp) → Option (Result op.Res)
  | .save _ entry _ => (overLimit fo entry).map .error
  | _ => none

theorem impl_tooLarge {fo : FloatOps} (op : KVOp) (r : Result op.Res) (h : tooLarge fo op = some r) :
    impl fo op = .done r := by
  cases op with
  | save key entry cond =>
      obtain ⟨e, he, rfl⟩ := Option.map_eq_some_iff.mp h
      unfold overLimit at he
      by_cases hsize : maxItemBytes < (Codec.storedValue.enc entry).len fo
      · rw [if_pos hsize, Option.some.injEq] at he
        rw [← he]
        exact if_pos hsize
      · rw [if_neg hsize] at he
        cases he
  | _ => cases h

theorem not_tooLarge {fo : FloatOps} {entry : StoredValue} {cond : WriteCondition}
    (h : tooLarge fo (.save key entry cond) = none) :
    ¬ maxItemBytes < (Codec.storedValue.enc entry).len fo := by
  intro hsize
  rw [tooLarge, overLimit, if_pos hsize] at h
  cases h

theorem tooLarge_of_fits {fo : FloatOps} {entry : StoredValue} (h : overLimit fo entry = none)
    (key : String) (cond : WriteCondition) : tooLarge fo (.save key entry cond) = none :=
  congrArg (Option.map Except.error) h

theorem tooLarge_of_over {fo : FloatOps} {entry : StoredValue} {e : RustyAntError}
    (h : overLimit fo entry = some e) (key : String) (cond : WriteCondition) :
    tooLarge fo (.save key entry cond) = some (.error e) :=
  congrArg (Option.map Except.error) h

theorem shown_tooLarge {fo : FloatOps} (op : KVOp) (r : Result op.Res)
    (h : tooLarge fo op = some r) : Shown content gone op r := by
  cases op with
  | load key => cases h
  | _ => trivial

theorem impl_linearizes {fo : FloatOps}
    (hgone : ∀ token, gone token = false → ∃ k v, token = encodeToken k v) (op : KVOp)
    (hop : NamesStanding gone op ∧ tooLarge fo op = none) (evs : List (DdbEvent ι)) (q : Ddb op.Res)
    (h : Pool.Follows (impl fo op) evs q) (hevs : Orderly kinds content gone evs) :
    Pool.Linearizes (lapsingService content gone) (view content gone) op evs q := by
  have hread : ∀ op', Writes op' = false → ∀ ev ∈ evs, ev.op = op' → Hidden content gone ev :=
    fun op' hop' ev hev heq =>
      hidden_of_still (still_of_read (hevs.served ev hev) (by rw [heq, hop']))
  cases op with
  | load key => exact load_linearizes h hevs
  | save key entry cond => exact save_linearizes (not_tooLarge hop.2) hop.1 hgone h hevs
  | delete key cond => exact delete_linearizes hop.1 hgone h hevs
  | listPage cursor maxKeys =>
      exact read_linearizes (.listPage cursor maxKeys) h rfl (fun _ => rfl)
        (fun s page => ⟨.ok ⟨Prod.fst page, Prod.snd page⟩, rfl, .listPage s cursor maxKeys _⟩)
        (hread _ rfl)
  | walk =>
      exact read_linearizes .walk h rfl (fun _ => rfl) (fun s keys => ⟨.ok keys, rfl, .walk s keys⟩)
        (hread _ rfl)
  | countKeys =>
      exact read_linearizes .countKeys h rfl (fun _ => rfl)
        (fun s keys => ⟨.ok (toI64 (List.length keys)), rfl, .countKeys s _⟩) (hread _ rfl)
  | flushAll => exact hop.1.elim
  | nowMs =>
      exact read_linearizes .nowMs h rfl (fun _ => rfl) (fun s now => ⟨.ok now, rfl, .nowMs s now⟩)
        (hread _ rfl)
  | nanos =>
      exact read_linearizes .nanos h rfl (fun _ => rfl) (fun s n => ⟨.ok n, rfl, .nanos s n⟩)
        (hread _ rfl)

end Methods

/-! ## Agreement in whole runs -/

def IndexShows (kinds : String → ValueKind) : (op : DdbOp) → Result op.Res → Prop
  | .getIndex key, answer => ∀ row : IndexRow, answer = .ok (some row) →
      row.kind = (kinds key).asStr
  | _, _ => True

/-- The transactions of the backend, each unconditional delete on the kind of its key. -/
def SendsKinds (kinds : String → ValueKind) (op : DdbOp) : Prop :=
  Sends op ∧ ∀ key kind, op = .transact (deleteAnyItems key kind) → kind = kinds key

theorem SendsKinds.of_read {op : DdbOp} (h : Writes op = false) : SendsKinds kinds op := by
  cases op with
  | transact items => cases h
  | _ => exact ⟨trivial, nofun⟩

theorem SendsKinds.save (key : String) (entry : StoredValue) (body : Json) (version : String)
    (old : Option String) (observed : Option ValueKind) :
    SendsKinds kinds (.transact (saveItems key entry body version old observed)) := by
  refine ⟨.inl ⟨_, _, _, _, _, _, rfl⟩, fun key' kind heq => ?_⟩
  have hput : TransactItem.putData entry.kind key ⟨body, version, ttlOf entry⟩ old ∈
      deleteAnyItems key' kind := by
    rw [← DdbOp.transact.inj heq]
    unfold saveItems
    cases observed with
    | none => exact List.mem_cons_self
    | some k =>
        dsimp only
        split <;> exact List.mem_cons_self
  simp [deleteAnyItems] at hput

theorem SendsKinds.deleteIfMatch (key : String) (k : ValueKind) (old : String) :
    SendsKinds kinds (.transact (deleteIfMatchItems key k old)) := by
  refine ⟨.inr (.inl ⟨_, _, _, rfl⟩), fun key' kind heq => ?_⟩
  have hitems := DdbOp.transact.inj heq
  simp [deleteIfMatchItems, deleteAnyItems] at hitems

theorem SendsKinds.deleteAny (key : String) :
    SendsKinds kinds (.transact (deleteAnyItems key (kinds key))) := by
  refine ⟨.inr (.inr ⟨_, _, rfl⟩), fun key' kind heq => ?_⟩
  have hitems := DdbOp.transact.inj heq
  simp only [deleteAnyItems, List.cons.injEq, TransactItem.deleteData.injEq, and_true] at hitems
  obtain ⟨⟨rfl, rfl⟩, -⟩ := hitems
  rfl

section Asks

variable {β : Type}

abbrev KeepsKinds (kinds : String → ValueKind) (p : Ddb β) : Prop :=
  p.Obeys (IndexShows kinds) (SendsKinds kinds) fun _ => True

theorem KeepsKinds.of_requests {p : Ddb β} (h : p.Requests (SendsKinds kinds)) :
    KeepsKinds kinds p := by
  induction p with
  | done r => trivial
  | call op k ih => exact ⟨h.1, fun r _ => ih r (h.2 r trivial)⟩

theorem deleteIfMatch_keepsKinds (key token : String) :
    (delete key (.ifMatch token)).Requests (SendsKinds kinds) := by
  unfold delete
  dsimp only
  cases parseToken token with
  | error e => exact Prog.Requests.done _
  | ok p => exact sendTransact_requests (.deleteIfMatch key p.1 p.2)

theorem load_keepsKinds (key : String) : (load key).Requests (SendsKinds kinds) := by
  refine Prog.Requests.bind (readIndexKind_requests (.of_read rfl)) fun observed => ?_
  cases observed with
  | none => exact Prog.Requests.done _
  | some k =>
      refine Prog.Requests.bind (Prog.Requests.perform (.of_read rfl)) fun row => ?_
      cases row with
      | none => exact Prog.Requests.done _
      | some row =>
          refine Prog.Requests.bind (Prog.Requests.done _) fun entry => ?_
          refine Prog.Requests.bind (Prog.Requests.perform (.of_read rfl)) fun now => ?_
          split
          · exact Prog.Requests.bind (deleteIfMatch_keepsKinds key _).attempt
              fun _ => Prog.Requests.done _
          · exact Prog.Requests.done _

theorem save_keepsKinds (fo : FloatOps) (key : String) (entry : StoredValue)
    (cond : WriteCondition) : (save fo key entry cond).Requests (SendsKinds kinds) := by
  unfold save
  dsimp only
  split
  · exact Prog.Requests.done _
  · refine Prog.Requests.bind (Prog.Requests.perform (.of_read rfl)) fun nanos => ?_
    exact saveUnder_requests (.of_read rfl) fun _ _ => .save _ _ _ _ _ _

theorem deleteAny_keepsKinds (key : String) : KeepsKinds kinds (delete key .any) := by
  refine ⟨.of_read rfl, fun answer hshows => ?_⟩
  cases answer with
  | error e => trivial
  | ok found =>
      cases found with
      | none => trivial
      | some row =>
          have hkind := hshows row rfl
          show KeepsKinds kinds (((some <$> Prog.ofExcept (parseKind row.kind) :
            Ddb (Option ValueKind))).bind _)
          rw [hkind, parseKind_asStr]
          exact .of_requests (sendTransact_requests (.deleteAny key))

theorem deleteEach_keepsKinds (keys : List String) : KeepsKinds kinds (deleteEach keys) := by
  induction keys with
  | nil => trivial
  | cons key keys ih =>
      exact Prog.Obeys.bind (Prog.Obeys.attempt (deleteAny_keepsKinds key)) (fun _ _ => ih)
        fun _ _ => trivial

theorem impl_keepsKinds (fo : FloatOps) (op : KVOp) : KeepsKinds kinds (impl fo op) := by
  cases op with
  | load key => exact .of_requests (load_keepsKinds key)
  | save key entry cond => exact .of_requests (save_keepsKinds fo key entry cond)
  | delete key cond =>
      cases cond with
      | any => exact deleteAny_keepsKinds key
      | ifMatch token => exact .of_requests (deleteIfMatch_keepsKinds key token)
  | flushAll =>
      refine Prog.Obeys.bind (Prog.Obeys.perform (.of_read rfl) fun _ _ => trivial)
        (fun keys _ => deleteEach_keepsKinds keys) fun _ _ => trivial
  | listPage cursor maxKeys =>
      exact .of_requests (Prog.Requests.bind (Prog.Requests.perform (.of_read rfl))
        fun _ => Prog.Requests.done _)
  | countKeys =>
      exact .of_requests (Prog.Requests.bind (Prog.Requests.perform (.of_read rfl))
        fun _ => Prog.Requests.done _)
  | walk => exact .of_requests (Prog.Requests.perform (.of_read rfl))
  | nowMs => exact .of_requests (Prog.Requests.perform (.of_read rfl))
  | nanos => exact .of_requests (Prog.Requests.perform (.of_read rfl))

end Asks

theorem indexShows_of_settled {t t' : Tables} (ht : Settled kinds content t) {op : DdbOp}
    {answer : Result op.Res} (h : ddbService t op answer t') : IndexShows kinds op answer := by
  cases op with
  | getIndex key => exact fun row hrow => ht.kind key row (index_found h _ hrow)
  | _ => trivial

theorem agree_step {t t' : Tables} (ht : t.Agree) (hsettled : Settled kinds content t) {op : DdbOp}
    {answer : Result op.Res} (hsends : SendsKinds kinds op) (h : ddbService t op answer t') :
    t'.Agree := by
  rw [agree_step_iff ht hsends.1 h]
  cases op with
  | transact items =>
      cases answer with
      | error e => trivial
      | ok out =>
          cases out with
          | canceled => trivial
          | committed =>
              rintro key kind rfl row hrow
              rw [hsends.2 key kind rfl]
              exact hsettled.kind key row hrow
  | _ => trivial

/-! ## Whole runs -/

section Runs

variable [DecidableEq ι] {α : ι → Type}

/-- Programs of the store, compiled to requests to the tables. -/
def compiled (fo : FloatOps) (p : (i : ι) → KV (α i)) (t : Tables) :
    Pool DdbOp DdbOp.Res RustyAntError Tables α :=
  ⟨t, fun i => (p i).interp (impl fo)⟩

theorem agree_run {c d : Pool DdbOp DdbOp.Res RustyAntError Tables α} {evs : List (DdbEvent ι)}
    (hrun : Pool.Run ddbService c evs d) (hc : c.state.Agree)
    (hsettled : ∀ ev ∈ evs, Settled kinds content ev.before)
    (hsends : ∀ ev ∈ evs, SendsKinds kinds ev.op) : d.state.Agree ∧ ∀ ev ∈ evs, ev.before.Agree := by
  induction hrun with
  | nil => exact ⟨hc, by simp⟩
  | snoc _ hs ih =>
      rw [List.forall_mem_append, List.forall_mem_singleton] at hsettled hsends
      obtain ⟨hd, hevs⟩ := ih hsettled.1 hsends.1
      rw [← hs.before_eq] at hd
      rw [← hs.after_eq, List.forall_mem_append, List.forall_mem_singleton]
      exact ⟨agree_step hd hsettled.2 hsends.2 hs.serve, hevs, hd⟩

theorem orderly_of_run {fo : FloatOps} {p : (i : ι) → KV (α i)} {t : Tables} (ht : t.Agree)
    {evs : List (DdbEvent ι)} {d : Pool DdbOp DdbOp.Res RustyAntError Tables α}
    (hrun : Pool.Run ddbService (compiled fo p t) evs d)
    (hsettled : ∀ ev ∈ evs, Settled kinds content ev.before ∧ Settled kinds content ev.after)
    (htimely : Timely content gone evs) : Orderly kinds content gone evs := by
  have hkeeps : ∀ i, KeepsKinds kinds ((compiled fo p t).prog i) := fun i =>
    Prog.Obeys.interp (impl_keepsKinds fo) (p i)
  have hshows : ∀ ev ∈ evs, IndexShows kinds ev.op ev.answer := fun ev hev =>
    indexShows_of_settled (hsettled ev hev).1 (hrun.serve ev hev)
  have hagree := agree_run hrun ht (fun ev hev => (hsettled ev hev).1) (hrun.obeys hkeeps hshows).1
  exact ⟨hrun.serve, hagree.2, hsettled, htimely⟩

theorem run_above {fo : FloatOps}
    (hgone : ∀ token, gone token = false → ∃ k v, token = encodeToken k v)
    {p : (i : ι) → KV (α i)} (hp : ∀ i, KeepsTokens content gone (p i)) {t : Tables} (ht : t.Agree)
    {evs : List (DdbEvent ι)} {d : Pool DdbOp DdbOp.Res RustyAntError Tables α}
    (hrun : Pool.Run ddbService (compiled fo p t) evs d)
    (hsettled : ∀ ev ∈ evs, Settled kinds content ev.before ∧ Settled kinds content ev.after)
    (htimely : Timely content gone evs) :
    ∃ above q, Pool.Run (lapsingService content gone)
        ⟨view content gone t, fun i => (p i).resolve (tooLarge fo)⟩ above
        ⟨view content gone d.state, q⟩ ∧
      (above.map Event.who).Sublist (evs.map Event.who) ∧
      ∀ i r, d.prog i = .done r ↔ q i = .done r := by
  have horderly := orderly_of_run ht hrun hsettled htimely
  have hresolve : compiled fo p t =
      ⟨t, fun i => ((p i).resolve (tooLarge fo)).interp (impl fo)⟩ := by
    unfold compiled
    exact congrArg _ (funext fun i => (Prog.interp_resolve impl_tooLarge (p i)).symm)
  rw [hresolve] at hrun
  exact Pool.Run.interp hrun (fun i => (hp i).resolve shown_tooLarge)
    (fun t _ _ _ h => shown_of_standing (view_standing t) h) (impl_linearizes hgone)
    fun i block hblock => horderly.sublist fun ev hev =>
      (List.mem_filter.mp (hblock.subset hev)).1

end Runs

end DynamoDb

end RustyAnt
