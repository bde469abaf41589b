import RustyAnt.DynamoDb.Races
import RustyAnt.Lib.Radix
import RustyAnt.Storage.Mixing

/-!
# Version tokens

A save puts its row under a version that it draws from the clock.  Of two rows that were put
after different readings the tokens differ, and a request under the one is refused where the
other stands.
-/

namespace RustyAnt

open Lib

namespace DynamoDb

/-! ## The text of a version -/

theorem hex16_eq (n : UInt64) : hex16 n = String.ofList (Radix.padded 16 16 n.toNat) := rfl

theorem hex16_injective : Function.Injective hex16 := by
  intro a b h
  rw [hex16_eq, hex16_eq] at h
  exact UInt64.toNat_inj.mp
    (Radix.padded_injective (by decide) (by decide) 16 (String.ofList_injective h))

theorem length_hex16 (n : UInt64) : (hex16 n).length = 16 := by
  rw [hex16_eq, String.length_ofList]
  exact Radix.length_padded (by decide) (by decide) n.toNat_lt

/-- The version that is drawn at a reading of the clock. -/
def versionAt (nanos : UInt64) : String := hex16 (pseudoRandU64 nanos)

theorem versionAt_injective : Function.Injective versionAt :=
  hex16_injective.comp pseudoRandU64_injective

/-! ## Tokens -/

theorem encodeToken_injective {k k' : ValueKind} {v v' : String}
    (h : encodeToken k v = encodeToken k' v') : k = k' ∧ v = v' := by
  have hparse := parseToken_encodeToken k v
  rw [h, parseToken_encodeToken] at hparse
  cases hparse
  exact ⟨rfl, rfl⟩

theorem splitOnce_eq_some {s pre post : String} (h : splitOnce s = some (pre, post)) :
    s = pre ++ ":" ++ post := by
  unfold splitOnce at h
  rw [List.span_eq_takeWhile_dropWhile] at h
  cases hrest : s.toList.dropWhile fun c => decide (c ≠ ':') with
  | nil =>
      rw [hrest] at h
      cases h
  | cons c rest =>
      rw [hrest] at h
      cases h
      have hcolon : c = ':' := by
        have hhead := List.head?_dropWhile_not (fun c => decide (c ≠ ':')) s.toList
        rw [hrest] at hhead
        exact not_not.mp (of_decide_eq_false hhead)
      have hwhole : s.toList.takeWhile (fun c => decide (c ≠ ':')) ++
          s.toList.dropWhile (fun c => decide (c ≠ ':')) = s.toList :=
        List.takeWhile_append_dropWhile
      rw [hrest, hcolon] at hwhole
      apply String.toList_inj.mp
      simp only [String.toList_append, String.toList_ofList, List.append_assoc]
      exact hwhole.symm

theorem parseKind_ok {s : String} {k : ValueKind} (h : parseKind s = .ok k) : s = k.asStr := by
  unfold parseKind at h
  split at h <;> cases h <;> rfl

theorem encodeToken_of_parseToken {token v : String} {k : ValueKind}
    (h : parseToken token = .ok (k, v)) : token = encodeToken k v := by
  unfold parseToken at h
  cases hsplit : splitOnce token with
  | none =>
      rw [hsplit] at h
      cases h
  | some p =>
      rw [hsplit] at h
      obtain ⟨kind, hkind, hpair⟩ := Result.bind_eq_ok.mp h
      cases hpair
      rw [splitOnce_eq_some hsplit, parseKind_ok hkind]
      rfl

/-- The token of the entry at the key, as a load returns it. -/
def TokenAt (t : Tables) (key token : String) : Prop :=
  ∃ (k : ValueKind) (ttl : Option Int) (row : DataRow), t.index[key]? = some ⟨k.asStr, ttl⟩ ∧
    (t.data k)[key]? = some row ∧ token = encodeToken k row.version

theorem TokenAt.unique {t : Tables} {key token token' : String} (h : TokenAt t key token)
    (h' : TokenAt t key token') : token = token' := by
  obtain ⟨k, ttl, row, hindex, hdata, rfl⟩ := h
  obtain ⟨k', ttl', row', hindex', hdata', rfl⟩ := h'
  rw [hindex] at hindex'
  obtain rfl := ValueKind.asStr_injective (congrArg IndexRow.kind (Option.some.inj hindex'))
  rw [hdata] at hdata'
  rw [Option.some.inj hdata']

/-- The transactions of a request under a token. -/
inductive Under (key token : String) : List TransactItem → Prop
  | save (entry : StoredValue) (body : Json) (version old : String)
      (h : parseToken token = .ok (entry.kind, old)) :
      Under key token (saveItems key entry body version (some old) (some entry.kind))
  | delete (kind : ValueKind) (old : String) (h : parseToken token = .ok (kind, old)) :
      Under key token (deleteIfMatchItems key kind old)

section Conditions

variable {t : Tables} {key token : String} {items : List TransactItem}

theorem versionIs_some {row : Option DataRow} {old : String} :
    TransactItem.versionIs row (some old) = true ↔ ∃ r, row = some r ∧ r.version = old := by
  cases row with
  | none => exact iff_of_false Bool.false_ne_true nofun
  | some r => exact ⟨fun h => ⟨r, rfl, of_decide_eq_true h⟩, fun ⟨_, hr, h⟩ => by
      cases hr
      exact decide_eq_true h⟩

theorem kindIs_some {row : Option IndexRow} {k : String} :
    TransactItem.kindIs row (some k) = true ↔ ∃ ttl, row = some ⟨k, ttl⟩ := by
  cases row with
  | none => exact iff_of_false Bool.false_ne_true nofun
  | some r =>
      refine ⟨fun h => ⟨r.ttl, ?_⟩, fun ⟨_, hr⟩ => ?_⟩
      · have hkind : r.kind = k := of_decide_eq_true h
        rw [← hkind]
      · cases hr
        exact decide_eq_true rfl

/-- The conditions of such a request hold where the entry has the token, and nowhere else. -/
theorem Under.holds_iff (h : Under key token items) :
    items.all (TransactItem.holds t) = true ↔ TokenAt t key token := by
  cases h with
  | save entry body version old h =>
      rw [encodeToken_of_parseToken h]
      constructor
      · intro hall
        obtain ⟨ttl, hindex⟩ := observes_of_hold hall
        have hdata : TransactItem.holds t (.putData entry.kind key ⟨body, version, ttlOf entry⟩
            (some old)) = true := by
          apply List.all_eq_true.mp hall
          unfold saveItems
          simp
        obtain ⟨row, hrow, rfl⟩ := versionIs_some.mp hdata
        exact ⟨entry.kind, ttl, row, hindex, hrow, rfl⟩
      · rintro ⟨k, ttl, row, hindex, hrow, htoken⟩
        obtain ⟨rfl, rfl⟩ := encodeToken_injective htoken
        exact saveItems_hold (fun _ hv => ⟨row, hrow, Option.some.inj hv⟩) ⟨ttl, hindex⟩
  | delete kind old h =>
      rw [encodeToken_of_parseToken h, deleteIfMatchItems, List.all_cons, List.all_cons,
        List.all_nil, Bool.and_true, Bool.and_eq_true, TransactItem.holds, TransactItem.holds,
        versionIs_some, kindIs_some]
      constructor
      · rintro ⟨⟨row, hrow, rfl⟩, ttl, hindex⟩
        exact ⟨kind, ttl, row, hindex, hrow, rfl⟩
      · rintro ⟨k, ttl, row, hindex, hrow, htoken⟩
        obtain ⟨rfl, rfl⟩ := encodeToken_injective htoken
        exact ⟨⟨row, hrow, rfl⟩, ttl, hindex⟩

end Conditions

/-! ## Readings and versions in a run -/

/-- The request puts a row of this kind and version. -/
def Puts (op : DdbOp) (key : String) (k : ValueKind) (version : String) : Prop :=
  ∃ items row old, op = .transact items ∧ .putData k key row old ∈ items ∧ row.version = version

/-- What is asked behind a reading of the clock: no other reading, and no row that is put under
another version. -/
def Mints (n : UInt64) (op : DdbOp) : Prop :=
  op ≠ .nanos ∧ ∀ key k version, Puts op key k version → version = versionAt n

theorem mem_saveItems {key key' : String} {entry : StoredValue} {body : Json} {version : String}
    {old old' : Option String} {observed : Option ValueKind} {k : ValueKind} {row : DataRow}
    (h : .putData k key' row old' ∈ saveItems key entry body version old observed) :
    row = ⟨body, version, ttlOf entry⟩ := by
  unfold saveItems at h
  cases observed with
  | none => simp_all
  | some oldKind => by_cases hkind : oldKind = entry.kind <;> simp_all

theorem Removal.puts_nothing {op : DdbOp} (h : Removal op) :
    op ≠ .nanos ∧ ∀ key k version, ¬ Puts op key k version := by
  refine ⟨?_, ?_⟩
  · rintro rfl
    cases h
  · rintro key k version ⟨items, row, old, rfl, hitem, -⟩
    cases h with
    | deleteAny key' kind => simp [deleteAnyItems] at hitem
    | deleteIfMatch key' kind old' => simp [deleteIfMatchItems] at hitem

section Programs

variable {ι : Type}

def Draws (ev : DdbEvent ι) (n : UInt64) : Prop :=
  ev = ⟨ev.who, .nanos, .ok n, ev.before, ev.after⟩

theorem not_draws_of_ne {ev : DdbEvent ι} (h : ev.op ≠ .nanos) (n : UInt64) : ¬ Draws ev n := by
  intro hdraws
  rw [hdraws] at h
  exact h rfl

/-- What one call does about the clock and its versions. -/
inductive OneReading (evs : List (DdbEvent ι)) : Prop
  | quiet (h : ∀ ev ∈ evs, (∀ n, ¬ Draws ev n) ∧ ∀ key k version, ¬ Puts ev.op key k version)
  | drawn (n : UInt64) (ev : DdbEvent ι) (rest : List (DdbEvent ι)) (hevs : evs = ev :: rest)
      (hdraws : Draws ev n) (hrest : ∀ ev ∈ rest, Mints n ev.op)

theorem OneReading.of_removal {evs : List (DdbEvent ι)} (h : ∀ ev ∈ evs, Removal ev.op) :
    OneReading evs :=
  .quiet fun ev hev => ⟨not_draws_of_ne (h ev hev).puts_nothing.1, (h ev hev).puts_nothing.2⟩

theorem save_follows {fo : FloatOps} {key : String} {entry : StoredValue} {cond : WriteCondition}
    {evs : List (DdbEvent ι)} {q : Ddb Unit}
    (h : Pool.Follows (save fo key entry cond) evs q) : OneReading evs := by
  unfold save at h
  dsimp only at h
  by_cases hsize : maxItemBytes < (Codec.storedValue.enc entry).len fo
  · rw [if_pos hsize] at h
    obtain ⟨rfl, -⟩ := Pool.Follows.done_inv h
    exact .quiet fun _ hev => absurd hev List.not_mem_nil
  · rw [if_neg hsize] at h
    rcases Pool.Follows.call_inv h with ⟨rfl, -⟩ | ⟨who, answer, before, after, rest, rfl, hrest⟩
    · exact .quiet fun _ hev => absurd hev List.not_mem_nil
    · cases answer with
      | error e =>
          obtain ⟨rfl, -⟩ := Pool.Follows.done_inv hrest
          refine .quiet fun ev hev => ?_
          rw [List.mem_singleton.mp hev]
          refine ⟨fun n hdraws => (by cases hdraws), ?_⟩
          rintro key' k version ⟨items, row, old, hop, -⟩
          cases hop
      | ok n =>
          refine .drawn n _ rest rfl rfl fun ev hev => ?_
          have hmints : ∀ old observed, Mints n (.transact (saveItems key entry
              (Codec.storedValue.enc entry) (versionAt n) old observed)) := by
            intro old observed
            refine ⟨nofun, ?_⟩
            rintro key' k version ⟨items, row, old', hitems, hitem, rfl⟩
            cases hitems
            rw [mem_saveItems hitem]
          have hindex : Mints n (.getIndex key) := ⟨nofun, fun _ _ _ ⟨_, _, _, h, _⟩ => nomatch h⟩
          exact Pool.Follows.obeys hrest (saveUnder_requests hindex hmints)
            (fun _ _ => trivial) ev hev

theorem call_follows {fo : FloatOps} (c : Call) {evs : List (DdbEvent ι)} {q : Ddb Unit}
    (h : Pool.Follows (c.prog fo) evs q) : OneReading evs := by
  cases c with
  | load key =>
      have hremoves : ((Call.load key).prog fo).Requests Removal :=
        Prog.Requests.bind (load_removes key) fun _ => Prog.Requests.done _
      exact .of_removal (h.obeys hremoves fun _ _ => trivial)
  | save key entry cond => exact save_follows h
  | delete key cond => exact .of_removal (h.obeys (delete_removes key cond) fun _ _ => trivial)

theorem OneReading.unique {evs : List (DdbEvent ι)} (h : OneReading evs) {ev ev' : DdbEvent ι}
    {n n' : UInt64} (hev : ev ∈ evs) (hev' : ev' ∈ evs) (hdraws : Draws ev n)
    (hdraws' : Draws ev' n') : n = n' := by
  cases h with
  | quiet h => exact absurd hdraws ((h ev hev).1 n)
  | drawn m first rest hevs hfirst hrest =>
      subst hevs
      have hall : ∀ ev n, ev ∈ first :: rest → Draws ev n → n = m := by
        intro ev n hev hdraws
        rcases List.mem_cons.mp hev with rfl | hlater
        · rw [hdraws] at hfirst
          cases hfirst
          rfl
        · exact absurd hdraws (not_draws_of_ne (hrest ev hlater).1 n)
      rw [hall ev n hev hdraws, hall ev' n' hev' hdraws']

theorem OneReading.minted {evs : List (DdbEvent ι)} (h : OneReading evs) {ev : DdbEvent ι}
    {key version : String} {k : ValueKind} (hev : ev ∈ evs) (hputs : Puts ev.op key k version) :
    ∃ read ∈ evs, ∃ n, Draws read n ∧ version = versionAt n := by
  cases h with
  | quiet h => exact absurd hputs ((h ev hev).2 key k version)
  | drawn m first rest hevs hfirst hrest =>
      subst hevs
      refine ⟨first, List.mem_cons_self, m, hfirst, ?_⟩
      rcases List.mem_cons.mp hev with rfl | hlater
      · rw [hfirst] at hputs
        obtain ⟨items, row, old, hop, -⟩ := hputs
        cases hop
      · exact (hrest ev hlater).2 key k version hputs

end Programs

/-! ## The rows that are there -/

section Rows

variable {ι : Type} {t : Tables} {key : String} {k : ValueKind} {row : DataRow}

def Commits (ev : DdbEvent ι) (items : List TransactItem) : Prop :=
  ev = ⟨ev.who, .transact items, .ok TransactOutcome.committed, ev.before, ev.after⟩

theorem data_apply {item : TransactItem} (h : ((item.apply t).data k)[key]? = some row) :
    (t.data k)[key]? = some row ∨ ∃ old, item = .putData k key row old := by
  cases item with
  | putIndex key' row' cond => exact .inl h
  | deleteIndex key' kind => exact .inl h
  | putData k' key' row' old =>
      unfold TransactItem.apply at h
      dsimp only at h
      by_cases hk : k = k'
      · subst hk
        rw [Function.update_self, Std.ExtTreeMap.getElem?_insert] at h
        by_cases hkey : compare key' key = .eq
        · rw [if_pos hkey] at h
          obtain rfl := Std.LawfulEqCmp.compare_eq_iff_eq.mp hkey
          cases h
          exact .inr ⟨old, rfl⟩
        · rw [if_neg hkey] at h
          exact .inl h
      · rw [Function.update_of_ne hk] at h
        exact .inl h
  | deleteData k' key' old =>
      unfold TransactItem.apply at h
      dsimp only at h
      by_cases hk : k = k'
      · subst hk
        rw [Function.update_self, Std.ExtTreeMap.getElem?_erase] at h
        by_cases hkey : compare key' key = .eq
        · rw [if_pos hkey] at h
          cases h
        · rw [if_neg hkey] at h
          exact .inl h
      · rw [Function.update_of_ne hk] at h
        exact .inl h

theorem data_applyAll {items : List TransactItem}
    (h : ((t.applyAll items).data k)[key]? = some row) :
    (t.data k)[key]? = some row ∨ ∃ old, .putData k key row old ∈ items := by
  induction items generalizing t with
  | nil => exact .inl h
  | cons item items ih =>
      rcases ih (t := item.apply t) h with hbefore | ⟨old, hitem⟩
      · rcases data_apply hbefore with hthere | ⟨old, rfl⟩
        · exact .inl hthere
        · exact .inr ⟨old, List.mem_cons_self⟩
      · exact .inr ⟨old, List.mem_cons_of_mem _ hitem⟩

theorem data_serve {ev : DdbEvent ι} (h : ddbService ev.before ev.op ev.answer ev.after)
    (hrow : (ev.after.data k)[key]? = some row) :
    (ev.before.data k)[key]? = some row ∨
      ∃ items old, Commits ev items ∧ .putData k key row old ∈ items := by
  obtain ⟨who, op, answer, before, after⟩ := ev
  dsimp only at h hrow ⊢
  cases h with
  | transact _ items =>
      unfold Tables.transact at hrow
      by_cases hall : items.all (TransactItem.holds before) = true
      · rw [if_pos hall] at hrow
        rcases data_applyAll hrow with hthere | ⟨old, hitem⟩
        · exact .inl hthere
        · refine .inr ⟨items, old, ?_, hitem⟩
          have hout : (before.transact items).1 = .committed := by rw [Tables.transact, if_pos hall]
          rw [Commits, hout]
      · rw [if_neg hall] at hrow
        exact .inl hrow
  | getIndex => exact .inl hrow
  | getData => exact .inl hrow
  | conflict => exact .inl hrow
  | scan => exact .inl hrow
  | scanAll => exact .inl hrow
  | nowMs => exact .inl hrow
  | nanos => exact .inl hrow
  | fault => exact .inl hrow

theorem row_origin [DecidableEq ι] {α : ι → Type}
    {c d : Pool DdbOp DdbOp.Res RustyAntError Tables α} {evs : List (DdbEvent ι)}
    (hrun : Pool.Run ddbService c evs d) (hrow : (d.state.data k)[key]? = some row) :
    (c.state.data k)[key]? = some row ∨
      ∃ w ∈ evs, ∃ items old, Commits w items ∧ .putData k key row old ∈ items := by
  induction hrun with
  | nil => exact .inl hrow
  | @snoc evs ev d e _ hs ih =>
      rw [← hs.after_eq] at hrow
      rcases data_serve hs.serve hrow with hbefore | hput
      · rw [hs.before_eq] at hbefore
        rcases ih hbefore with hstart | ⟨w, hw, hput⟩
        · exact .inl hstart
        · exact .inr ⟨w, List.mem_append_left _ hw, hput⟩
      · exact .inr ⟨ev, List.mem_append_right _ (List.mem_singleton_self ev), hput⟩

theorem holds_of_committed {t' : Tables} {items : List TransactItem}
    {answer : Result TransactOutcome} (h : ddbService t (.transact items) answer t')
    (hok : answer = .ok .committed) : items.all (TransactItem.holds t) = true := by
  cases h with
  | transact _ _ =>
      by_contra hall
      rw [Tables.transact, if_neg hall] at hok
      cases hok
  | conflict _ _ => cases hok
  | fault _ _ e => cases hok

theorem Under.tokenAt {ev : DdbEvent ι} {items : List TransactItem} {token : String}
    (h : Under key token items) (hserve : ddbService ev.before ev.op ev.answer ev.after)
    (hcommits : Commits ev items) : TokenAt ev.before key token := by
  rw [← h.holds_iff]
  obtain ⟨who, op, answer, before, after⟩ := ev
  cases hcommits
  exact holds_of_committed hserve rfl

theorem Under.refused {ev : DdbEvent ι} {items : List TransactItem} {token : String}
    (h : Under key token items) (hserve : ddbService ev.before ev.op ev.answer ev.after)
    (hop : ev.op = .transact items) (hother : ¬ TokenAt ev.before key token) :
    ¬ Commits ev items ∧ ev.after = ev.before := by
  refine ⟨fun hcommits => hother (h.tokenAt hserve hcommits), ?_⟩
  rw [← h.holds_iff] at hother
  obtain ⟨who, op, answer, before, after⟩ := ev
  dsimp only at hserve hop hother ⊢
  subst hop
  cases hserve with
  | transact _ _ => rw [Tables.transact, if_neg hother]
  | conflict _ _ => rfl
  | fault _ _ e => rfl

end Rows

/-! ## Requests under a token -/

section Requests

variable {key token : String}

/-- What a call under a token sends. -/
def Guarded (key token : String) (op : DdbOp) : Prop :=
  ∀ items, op = .transact items → Under key token items

theorem delete_guarded : (delete key (.ifMatch token)).Requests (Guarded key token) := by
  unfold delete
  dsimp only
  cases hparse : parseToken token with
  | error e => exact Prog.Requests.done _
  | ok p =>
      show (sendTransact (deleteIfMatchItems key p.1 p.2)).Requests (Guarded key token)
      apply sendTransact_requests
      rintro items ⟨⟩
      exact .delete p.1 p.2 hparse

theorem save_guarded {fo : FloatOps} {entry : StoredValue} :
    (save fo key entry (.ifMatch token)).Requests (Guarded key token) := by
  unfold save
  dsimp only
  split
  · exact Prog.Requests.done _
  · refine Prog.Requests.bind (Prog.Requests.perform nofun) fun nanos => ?_
    have hobserved : observedKind key entry.kind (.ifMatch token) =
        (Prog.ofExcept (parseToken token)).bind fun p =>
          if p.1 ≠ entry.kind then Prog.fail .contention else .done (.ok (some p.1)) := rfl
    rw [hobserved]
    cases hparse : parseToken token with
    | error e => exact Prog.Requests.done _
    | ok p =>
        have hold : oldVersion (.ifMatch token) = .ok (some p.2) := by
          unfold oldVersion
          dsimp only
          rw [hparse]
          rfl
        by_cases hkind : p.1 = entry.kind
        · have hsame : (Prog.ofExcept (.ok p) : Ddb (ValueKind × String)).bind (fun p =>
              if p.1 ≠ entry.kind then Prog.fail .contention else .done (.ok (some p.1))) =
                .done (.ok (some p.1)) := if_neg (not_not.mpr hkind)
          have hnew : ¬ (WriteCondition.ifMatch token = .createOnly ∧ (some p.1).isSome = true) :=
            nofun
          rw [hsame, hold, Prog.bind_eq, Prog.done_ok_bind, if_neg hnew]
          apply sendTransact_requests
          rintro items ⟨⟩
          rw [hkind]
          exact .save entry _ _ p.2 (by rw [hparse, ← hkind])
        · have hother : (Prog.ofExcept (.ok p) : Ddb (ValueKind × String)).bind (fun p =>
              if p.1 ≠ entry.kind then Prog.fail .contention else .done (.ok (some p.1))) =
                .done (.error .contention) := if_pos hkind
          rw [hother]
          exact Prog.Requests.done _

def Call.Names (key token : String) : Call → Prop
  | load _ => False
  | save key' _ cond => key' = key ∧ cond = .ifMatch token
  | delete key' cond => key' = key ∧ cond = .ifMatch token

theorem Call.Names.guarded {fo : FloatOps} {c : Call} (h : c.Names key token) :
    (c.prog fo).Requests (Guarded key token) := by
  cases c with
  | load key' => exact h.elim
  | save key' entry cond =>
      obtain ⟨rfl, rfl⟩ := h
      exact save_guarded
  | delete key' cond =>
      obtain ⟨rfl, rfl⟩ := h
      exact delete_guarded

end Requests

/-! ## Whole runs -/

section Runs

variable {ι : Type} [DecidableEq ι]

def ReadsClock (evs : List (DdbEvent ι)) (i : ι) (n : UInt64) : Prop :=
  ∃ ev ∈ evs, ev.who = i ∧ Draws ev n

theorem mem_own {evs : List (DdbEvent ι)} {ev : DdbEvent ι} {i : ι} (hev : ev ∈ evs)
    (hwho : ev.who = i) : ev ∈ evs.filter fun ev => ev.who = i :=
  List.mem_filter.mpr ⟨hev, decide_eq_true hwho⟩

variable {fo : FloatOps} {calls : ι → Call} {t : Tables} {evs : List (DdbEvent ι)}
  {d : Pool DdbOp DdbOp.Res RustyAntError Tables fun _ : ι => Unit}
  (hrun : Pool.Run ddbService ⟨t, fun i => (calls i).prog fo⟩ evs d)

include hrun

theorem oneReading_run (i : ι) : OneReading (evs.filter fun ev => ev.who = i) :=
  call_follows (calls i) (hrun.follows i)

theorem reads_unique {i : ι} {n n' : UInt64} (h : ReadsClock evs i n) (h' : ReadsClock evs i n') :
    n = n' := by
  obtain ⟨ev, hev, hwho, hdraws⟩ := h
  obtain ⟨ev', hev', hwho', hdraws'⟩ := h'
  exact (oneReading_run hrun i).unique (mem_own hev hwho) (mem_own hev' hwho') hdraws hdraws'

theorem minted_run {w : DdbEvent ι} (hw : w ∈ evs) {key version : String} {k : ValueKind}
    (hputs : Puts w.op key k version) : ∃ n, ReadsClock evs w.who n ∧ version = versionAt n := by
  obtain ⟨read, hread, n, hdraws, hversion⟩ :=
    (oneReading_run hrun w.who).minted (mem_own hw rfl) hputs
  obtain ⟨hin, hwho⟩ := List.mem_filter.mp hread
  exact ⟨n, ⟨read, hin, of_decide_eq_true hwho, hdraws⟩, hversion⟩

theorem tokens_eq_iff {w w' : DdbEvent ι} (hw : w ∈ evs) (hw' : w' ∈ evs) {key key' v v' : String}
    {k k' : ValueKind} (hputs : Puts w.op key k v) (hputs' : Puts w'.op key' k' v') :
    encodeToken k v = encodeToken k' v' ↔
      k = k' ∧ ∃ n, ReadsClock evs w.who n ∧ ReadsClock evs w'.who n := by
  obtain ⟨n, hreads, rfl⟩ := minted_run hrun hw hputs
  obtain ⟨n', hreads', rfl⟩ := minted_run hrun hw' hputs'
  constructor
  · intro htoken
    obtain ⟨hkind, hversion⟩ := encodeToken_injective htoken
    obtain rfl := versionAt_injective hversion
    exact ⟨hkind, n, hreads, hreads'⟩
  · rintro ⟨rfl, m, hm, hm'⟩
    rw [reads_unique hrun hreads hm, reads_unique hrun hreads' hm']

/-- What a request under a token commits on was there at the start, or was put by a save that has
committed before. -/
theorem token_origin {pre post : List (DdbEvent ι)} {ev : DdbEvent ι}
    (hevs : evs = pre ++ ev :: post) {key token : String} {items : List TransactItem}
    (hunder : Under key token items) (hcommits : Commits ev items) :
    ∃ k row, token = encodeToken k row.version ∧ ((t.data k)[key]? = some row ∨
      ∃ w ∈ pre, ∃ items old, Commits w items ∧ .putData k key row old ∈ items) := by
  have hev : ev ∈ evs := by
    rw [hevs]
    exact List.mem_append_right _ List.mem_cons_self
  obtain ⟨k, ttl, row, -, hrow, htoken⟩ := hunder.tokenAt (hrun.serve ev hev) hcommits
  rw [hevs] at hrun
  obtain ⟨m, hm, hstate⟩ := hrun.until
  rw [← hstate] at hrow
  exact ⟨k, row, htoken, row_origin hm hrow⟩

/-- A token that was put at one reading is refused where the entry was put at another. -/
theorem stale_refused {ev w w' : DdbEvent ι} (hev : ev ∈ evs) (hw : w ∈ evs) (hw' : w' ∈ evs)
    {key v v' : String} {k k' : ValueKind} {n n' : UInt64} {items : List TransactItem}
    (hop : ev.op = .transact items) (hunder : Under key (encodeToken k v) items)
    (hputs : Puts w.op key k v) (hreads : ReadsClock evs w.who n) (hputs' : Puts w'.op key k' v')
    (hreads' : ReadsClock evs w'.who n') (hthere : TokenAt ev.before key (encodeToken k' v'))
    (hne : n ≠ n') : ¬ Commits ev items ∧ ev.after = ev.before := by
  refine hunder.refused (hrun.serve ev hev) hop fun htoken => hne ?_
  obtain ⟨-, m, hm, hm'⟩ := (tokens_eq_iff hrun hw hw' hputs hputs').mp (htoken.unique hthere)
  rw [reads_unique hrun hreads hm, reads_unique hrun hreads' hm']

omit hrun in
/-- In every interleaving of any calls on any tables, each call reads the clock once at most and
puts its row under a version that is made of the reading and of nothing else; a request under a
token commits only on the row that was put under it. -/
theorem tokens_distinct (fo : FloatOps) (calls : ι → Call) (t : Tables) (evs : List (DdbEvent ι))
    (d : Pool DdbOp DdbOp.Res RustyAntError Tables fun _ : ι => Unit)
    (hrun : Pool.Run ddbService ⟨t, fun i => (calls i).prog fo⟩ evs d) :
    Function.Injective pseudoRandU64 ∧
    (Function.Injective hex16 ∧ ∀ n, (hex16 n).length = 16) ∧
    (∀ k version, parseToken (encodeToken k version) = .ok (k, version)) ∧
    (∀ i n n', ReadsClock evs i n → ReadsClock evs i n' → n = n') ∧
    (∀ w ∈ evs, ∀ key k v, Puts w.op key k v →
      ∃ n, ReadsClock evs w.who n ∧ v = hex16 (pseudoRandU64 n)) ∧
    (∀ w ∈ evs, ∀ w' ∈ evs, ∀ key k v k' v', Puts w.op key k v → Puts w'.op key k' v' →
      (encodeToken k v = encodeToken k' v' ↔
        k = k' ∧ ∃ n, ReadsClock evs w.who n ∧ ReadsClock evs w'.who n)) ∧
    (∀ ev ∈ evs, ∀ key token items, (calls ev.who).Names key token → ev.op = .transact items →
      Under key token items) ∧
    (∀ ev ∈ evs, ∀ w ∈ evs, ∀ w' ∈ evs, ∀ key k v n k' v' n' items, ev.op = .transact items →
      Under key (encodeToken k v) items → Puts w.op key k v → ReadsClock evs w.who n →
      Puts w'.op key k' v' → ReadsClock evs w'.who n' → TokenAt ev.before key (encodeToken k' v') →
      n ≠ n' → ¬ Commits ev items ∧ ev.after = ev.before) ∧
    ∀ pre ev post, evs = pre ++ ev :: post → ∀ key token items, Under key token items →
      Commits ev items → ∃ k row, token = encodeToken k row.version ∧
        ((t.data k)[key]? = some row ∨
          ∃ w ∈ pre, ∃ items old, Commits w items ∧ .putData k key row old ∈ items) := by
  refine ⟨pseudoRandU64_injective, ⟨hex16_injective, length_hex16⟩, parseToken_encodeToken,
    fun i n n' => reads_unique hrun, fun w hw key k v => minted_run hrun hw,
    fun w hw w' hw' key k v k' v' => tokens_eq_iff hrun hw hw', ?_, ?_, ?_⟩
  · intro ev hev key token items hnames hop
    have hguarded := (hrun.follows ev.who).obeys hnames.guarded fun _ _ => trivial
    exact hguarded ev (mem_own hev rfl) items hop
  · intro ev hev w hw w' hw' key k v n k' v' n' items hop hunder hputs hreads hputs' hreads' hthere
    exact stale_refused hrun hev hw hw' hop hunder hputs hreads hputs' hreads' hthere
  · intro pre ev post hevs key token items hunder hcommits
    exact token_origin hrun hevs hunder hcommits

end Runs

/-- Two overwrites, and a save under the token of the first of them. -/
def staleCalls : Fin 3 → Call
  | 0 => .save "k" ⟨none, .string [97]⟩ .any
  | 1 => .save "k" ⟨none, .string [98]⟩ .any
  | 2 => .save "k" ⟨none, .string [99]⟩ (.ifMatch (encodeToken .string (versionAt 0)))

/-- The overwrites read the clock at `0` and at `1`. -/
theorem tokens_distinct_on_staleCalls :
    ∃ (evs : List (DdbEvent (Fin 3)))
      (d : Pool DdbOp DdbOp.Res RustyAntError Tables fun _ : Fin 3 => Unit),
      Pool.Run ddbService (start .integral staleCalls) evs d ∧
        d.prog 0 = .done (.ok ()) ∧ d.prog 1 = .done (.ok ()) ∧
        d.prog 2 = .done (.error .contention) ∧
        ∀ w ∈ evs, ∀ w' ∈ evs, ∀ key k v k' v', Puts w.op key k v → Puts w'.op key k' v' →
          (encodeToken k v = encodeToken k' v' ↔
            k = k' ∧ ∃ n, ReadsClock evs w.who n ∧ ReadsClock evs w'.who n) := by
  obtain ⟨evs, hfirst⟩ := Pool.exec_run (Tables.serve_service 0 0) [0, 0, 0]
    (start .integral staleCalls)
  obtain ⟨evs', hlater⟩ := Pool.exec_run (Tables.serve_service 0 1) [1, 1, 1, 2, 2, 2]
    (Pool.exec (Tables.serve 0 0) [0, 0, 0] (start .integral staleCalls))
  have hrun := hfirst.trans hlater
  refine ⟨evs ++ evs', _, hrun, rfl, rfl, rfl, ?_⟩
  exact (tokens_distinct .integral staleCalls Tables.empty _ _ hrun).2.2.2.2.2.1

end DynamoDb

end RustyAnt
