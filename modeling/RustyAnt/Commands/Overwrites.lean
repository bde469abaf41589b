import RustyAnt.Commands.Stores
import RustyAnt.Storage.Attempts

/-!
# Overwriting a destination that others write

A `*STORE` command deletes the destination and then adds its result to whatever is
there by then.  What another client puts there in between refuses the result,
merges with it, or hands its expiry on.
-/

namespace RustyAnt

open Lib

namespace Commands

namespace Computed

/-- The additive write does not refuse the entry. -/
def Accepts (result : Computed) : Option StoredValue → Prop
  | none => True
  | some e => e.kind = result.kind

/-- Adding the result to the entry leaves the result, and counts it. -/
def Harmless : Computed → Option StoredValue → Prop
  | _, none => True
  | members _, some e => e = ⟨none, .set ∅⟩
  | pairs _, some e => e = ⟨none, .zset ∅⟩
  | found ps, some e => ∃ m, e = ⟨none, .zset m⟩ ∧ ∀ k, k ∈ m → k ∈ pairMap ps

theorem size_pairMap {ps : List (F64 × String)} (h : (ps.map Prod.snd).Nodup) :
    (pairMap ps).size = ps.length := by
  unfold pairMap
  rw [Std.ExtTreeMap.size_ofList, List.length_map]
  rw [List.pairwise_map]
  have hne := List.pairwise_map.mp h
  refine hne.imp fun {a b} hab => ?_
  rw [Std.LawfulEqCmp.compare_eq_iff_eq]
  exact hab

theorem members_write (ms : List String) (exp : Option Int) (s : BTreeSet String) :
    ((⟨exp, .set (s.insertMany ms)⟩ : StoredValue) = ⟨none, (members ms).value⟩ ∧
        ((s.insertMany ms).size - s.size : Int) = (members ms).count) ↔
      (members ms).Harmless (some ⟨exp, .set s⟩) := by
  constructor
  · rintro ⟨hentry, hcount⟩
    simp only [value, count, StoredValue.mk.injEq, Value.set.injEq] at hentry hcount
    rw [hentry.2] at hcount
    have hzero : s.size = 0 := by omega
    have hempty : s = ∅ := Std.ExtTreeSet.eq_empty_iff_size_eq_zero.mpr hzero
    rw [Harmless, hentry.1, hempty]
  · intro h
    simp only [Harmless, StoredValue.mk.injEq, Value.set.injEq] at h
    rw [h.1, h.2, ← Std.ExtTreeSet.ofList_eq_insertMany_empty]
    simp [value, count]

theorem pairs_write (ps : List (F64 × String)) (exp : Option Int) (m : Storage.ZMap) :
    ((⟨exp, .zset (m.insertMany (ps.map Prod.swap))⟩ : StoredValue) = ⟨none, (pairs ps).value⟩ ∧
        ((m.insertMany (ps.map Prod.swap)).size - m.size : Int) = (pairs ps).count) ↔
      (pairs ps).Harmless (some ⟨exp, .zset m⟩) := by
  constructor
  · rintro ⟨hentry, hcount⟩
    simp only [value, count, StoredValue.mk.injEq, Value.zset.injEq] at hentry hcount
    rw [hentry.2] at hcount
    have hzero : m.size = 0 := by omega
    have hempty : m = ∅ := Std.ExtTreeMap.eq_empty_iff_size_eq_zero.mpr hzero
    rw [Harmless, hentry.1, hempty]
  · intro h
    simp only [Harmless, StoredValue.mk.injEq, Value.zset.injEq] at h
    rw [h.1, h.2, ← Std.ExtTreeMap.ofList_eq_insertMany_empty]
    simp [value, count, pairMap]

/-- Adding pairs to a map leaves the pairs alone if they cover it. -/
theorem insertMany_eq_iff (m : Storage.ZMap) (l : List (String × F64)) :
    m.insertMany l = Std.ExtTreeMap.ofList l compare ↔
      ∀ k, k ∈ m → k ∈ Std.ExtTreeMap.ofList l compare := by
  constructor
  · intro h k hk
    rw [← h]
    exact Std.ExtTreeMap.mem_insertMany_list.mpr (.inl hk)
  · intro h
    refine Std.ExtTreeMap.ext_getElem? fun k => ?_
    have hlist := Std.ExtTreeMap.getElem?_insertMany_list (t := (∅ : Storage.ZMap)) (l := l) (k := k)
    rw [← Std.ExtTreeMap.ofList_eq_insertMany_empty, Std.ExtTreeMap.getElem?_empty,
      Option.or_none] at hlist
    rw [Std.ExtTreeMap.getElem?_insertMany_list, ← hlist]
    cases hk : (Std.ExtTreeMap.ofList l compare)[k]? with
    | some v => rfl
    | none =>
        rw [Option.none_or, Std.ExtTreeMap.getElem?_eq_none]
        intro hmem
        have hin := h k hmem
        rw [Std.ExtTreeMap.mem_iff_isSome_getElem?, hk] at hin
        cases hin

theorem found_write {ps : List (F64 × String)} (hdistinct : (ps.map Prod.snd).Nodup)
    (exp : Option Int) (m : Storage.ZMap) :
    ((⟨exp, .zset (m.insertMany (ps.map Prod.swap))⟩ : StoredValue) = ⟨none, (found ps).value⟩ ∧
        toI64 ps.length = (found ps).count) ↔
      (found ps).Harmless (some ⟨exp, .zset m⟩) := by
  have hcount : toI64 ps.length = (found ps).count := by
    rw [count, size_pairMap hdistinct]
  rw [and_iff_left hcount]
  simp only [value, Harmless, pairMap, StoredValue.mk.injEq, Value.zset.injEq, insertMany_eq_iff]
  constructor
  · rintro ⟨hexp, hmem⟩
    exact ⟨m, ⟨hexp, rfl⟩, hmem⟩
  · rintro ⟨_, ⟨hexp, rfl⟩, hmem⟩
    exact ⟨hexp, hmem⟩

theorem modify_ok {result : Computed} (hdistinct : result.Distinct) {dest : String}
    {entry : Option StoredValue} {action : CasAction Int}
    (h : result.modify dest entry = .ok action) :
    result.Accepts entry ∧ ∃ stored n, action = .write stored n ∧
      ((stored = ⟨none, result.value⟩ ∧ result.reply n = result.count) ↔
        result.Harmless entry) := by
  cases result with
  | members ms =>
      cases entry with
      | none =>
          dsimp only [modify] at h
          rw [Storage.saddModify_none] at h
          cases h
          exact ⟨trivial, _, _, rfl, fun _ => trivial, fun _ => ⟨rfl, rfl⟩⟩
      | some e =>
          by_cases hkind : e.kind = .set
          · obtain ⟨exp, s, rfl⟩ := StoredValue.set_of_kind hkind
            dsimp only [modify] at h
            rw [Storage.saddModify_set] at h
            cases h
            exact ⟨rfl, _, _, rfl, members_write ms exp s⟩
          · dsimp only [modify] at h
            rw [Storage.saddModify_other hkind] at h
            cases h
  | pairs ps =>
      cases entry with
      | none =>
          dsimp only [modify] at h
          rw [Storage.zaddModify_none] at h
          cases h
          exact ⟨trivial, _, _, rfl, fun _ => trivial, fun _ => ⟨rfl, rfl⟩⟩
      | some e =>
          by_cases hkind : e.kind = .zset
          · obtain ⟨exp, m, rfl⟩ := StoredValue.zset_of_kind hkind
            dsimp only [modify] at h
            rw [Storage.zaddModify_zset] at h
            cases h
            exact ⟨rfl, _, _, rfl, pairs_write ps exp m⟩
          · dsimp only [modify] at h
            rw [Storage.zaddModify_other hkind] at h
            cases h
  | found ps =>
      cases entry with
      | none =>
          dsimp only [modify] at h
          rw [Storage.zaddModify_none] at h
          cases h
          refine ⟨trivial, _, _, rfl, fun _ => trivial, fun _ => ⟨rfl, ?_⟩⟩
          rw [reply, count, size_pairMap hdistinct]
      | some e =>
          by_cases hkind : e.kind = .zset
          · obtain ⟨exp, m, rfl⟩ := StoredValue.zset_of_kind hkind
            dsimp only [modify] at h
            rw [Storage.zaddModify_zset] at h
            cases h
            exact ⟨rfl, _, _, rfl, found_write hdistinct exp m⟩
          · dsimp only [modify] at h
            rw [Storage.zaddModify_other hkind] at h
            cases h

theorem modify_error {result : Computed} {dest : String} {entry : Option StoredValue}
    {e : RustyAntError} (h : result.modify dest entry = .error e) : ¬ result.Accepts entry := by
  cases entry with
  | none =>
      cases result with
      | members ms => cases (Storage.saddModify_none dest ms).symm.trans h
      | pairs ps => cases (Storage.zaddModify_none dest ps).symm.trans h
      | found ps => cases (Storage.zaddModify_none dest ps).symm.trans h
  | some e =>
      intro hkind
      cases result with
      | members ms =>
          obtain ⟨exp, s, rfl⟩ := StoredValue.set_of_kind hkind
          cases (Storage.saddModify_set dest ms exp s).symm.trans h
      | pairs ps =>
          obtain ⟨exp, m, rfl⟩ := StoredValue.zset_of_kind hkind
          cases (Storage.zaddModify_zset dest ps exp m).symm.trans h
      | found ps =>
          obtain ⟨exp, m, rfl⟩ := StoredValue.zset_of_kind hkind
          cases (Storage.zaddModify_zset dest ps exp m).symm.trans h

end Computed

/-! ## The requests after the computation -/

/-- The backend may refuse the request: it is a conditional write whose condition is
false. -/
def Refusable : KVOp → Keyspace → Prop
  | .save key _ cond, s => ¬ cond.Met (s key)
  | .delete key cond, s => ¬ cond.Met (s key)
  | _, _ => False

/-- The request is a write to the key whose condition is true. -/
def Landing (key : String) : KVOp → Keyspace → Prop
  | .save key' _ cond, s => key' = key ∧ cond.Met (s key)
  | _, _ => False

instance (key : String) : (op : KVOp) → (s : Keyspace) → Decidable (Landing key op s)
  | .save key' _ cond, s => inferInstanceAs (Decidable (key' = key ∧ cond.Met (s key)))
  | .load _, _ => .isFalse id
  | .delete _ _, _ => .isFalse id
  | .listPage _ _, _ => .isFalse id
  | .walk, _ => .isFalse id
  | .countKeys, _ => .isFalse id
  | .flushAll, _ => .isFalse id
  | .nowMs, _ => .isFalse id
  | .nanos, _ => .isFalse id

section Events

variable {ι : Type} {content : String → StoredValue} {dest : String} {result : Computed}

/-- The request fails only because its condition is false. -/
def NoFault (ev : KVEvent ι) : Prop :=
  ∀ e, ev.answer = .error e → e = .contention ∧ Refusable ev.op ev.before

def Lands (key : String) (ev : KVEvent ι) : Prop := Landing key ev.op ev.before

instance (key : String) (ev : KVEvent ι) : Decidable (Lands key ev) :=
  inferInstanceAs (Decidable (Landing key ev.op ev.before))

/-- Every load by the additive write finds nothing or the result's kind, one of its
writes lands, and where it lands there is nothing to merge with. -/
structure Undisturbed (dest : String) (result : Computed) (evs : List (KVEvent ι)) : Prop where
  accepted : ∀ ev ∈ evs, ev.op = .load dest → result.Accepts (ev.before.entryAt dest)
  lands : ∃ ev ∈ evs, Lands dest ev
  harmless : ∀ ev ∈ evs, Lands dest ev → result.Harmless (ev.before.entryAt dest)

/-- The command replies the cardinality of its result, and after its last request the
destination holds the result, without expiry, or nothing if it is empty. -/
def Overwritten (dest : String) (result : Computed) (evs : List (KVEvent ι))
    (r : Result RespReply) : Prop :=
  r = .ok (.integer result.count) ∧ ∃ init last, evs = init ++ [last] ∧
    last.after.entryAt dest = if result.isEmpty then none else some ⟨none, result.value⟩

theorem lands_iff {ev : KVEvent ι} (hserved : Served content ev) (hfault : NoFault ev)
    {entry : StoredValue} {cond : WriteCondition} (hop : ev.op = .save dest entry cond) :
    Lands dest ev ↔ ∀ e, ev.answer ≠ .error e := by
  obtain ⟨who, op, answer, before, after⟩ := ev
  dsimp only at hop
  subst hop
  constructor
  · rintro ⟨-, hmet⟩ e hanswer
    exact (hfault e hanswer).2 hmet
  · intro hanswer
    refine ⟨rfl, ?_⟩
    have hserve := hserved.1
    dsimp only at hserve
    cases hserve with
    | save _ _ _ token hcond => exact hcond
    | fault _ _ e hop => exact absurd rfl (hanswer e)

theorem not_lands_of_load {ev : KVEvent ι} {key : String} (hop : ev.op = .load key) :
    ¬ Lands dest ev := by
  rw [Lands, hop]
  exact id

theorem NoFault.load {ev : KVEvent ι} {key : String} (h : NoFault ev) (hop : ev.op = .load key)
    (e : RustyAntError) : ev.answer ≠ .error e := by
  intro hanswer
  have hrefusable := (h e hanswer).2
  rw [hop] at hrefusable
  exact hrefusable

/-- An additive write that returns has landed once, at its last request. -/
theorem addition_lands {evs : List (KVEvent ι)} {r : Result Int}
    (h : CasTrace dest (result.modify dest) evs r) (hdistinct : result.Distinct)
    (hserved : ∀ ev ∈ evs, Served content ev) (hfault : ∀ ev ∈ evs, NoFault ev) {n : Int}
    (hr : r = .ok n) :
    (∀ ev ∈ evs, ev.op = .load dest → result.Accepts (ev.before.entryAt dest)) ∧
      ∃ init last stored, evs = init ++ [last] ∧ (∀ x ∈ init, ¬ Lands dest x) ∧
        Lands dest last ∧ last.after.entryAt dest = some stored ∧
        ((stored = ⟨none, result.value⟩ ∧ result.reply n = result.count) ↔
          result.Harmless (last.before.entryAt dest)) := by
  induction h with
  | exhausted => cases hr
  | unread who s e => cases hr
  | rejected who s e hmodify => cases hr
  | failed who s action write e hmodify hop hsilent hanswer => cases hr
  | settled who s action hmodify hkeeps hsame =>
      obtain ⟨-, stored, m, rfl, -⟩ := Computed.modify_ok hdistinct hmodify
      exact absurd rfl (hkeeps stored m)
  | committed who s action write hmodify hop hanswer hcarry =>
      obtain ⟨haccepts, stored, m, rfl, hstored⟩ := Computed.modify_ok hdistinct hmodify
      obtain ⟨cond, hsave⟩ := hop
      obtain ⟨hbefore, hafter, -⟩ := hcarry
      rw [List.forall_mem_cons, List.forall_mem_singleton] at hserved hfault
      cases hr
      refine ⟨?_, [reading who dest s], write, stored, rfl, ?_,
        (lands_iff hserved.2 hfault.2 hsave).mpr hanswer, hafter, ?_⟩
      · rw [List.forall_mem_cons, List.forall_mem_singleton, hsave]
        exact ⟨fun _ => haccepts, nofun⟩
      · rw [List.forall_mem_singleton]
        exact not_lands_of_load rfl
      · rw [hbefore]
        exact hstored
  | retried who s action write evs r hmodify hop hsilent hanswer hrest ih =>
      obtain ⟨haccepts, stored, m, rfl, -⟩ := Computed.modify_ok hdistinct hmodify
      obtain ⟨cond, hsave⟩ := hop
      simp only [List.forall_mem_cons] at hserved hfault
      obtain ⟨hloads, init, last, stored', rfl, hinit, hlast⟩ := ih hserved.2.2 hfault.2.2 hr
      refine ⟨?_, reading who dest s :: write :: init, last, stored', rfl, ?_, hlast⟩
      · rw [List.forall_mem_cons, List.forall_mem_cons, hsave]
        exact ⟨fun _ => haccepts, nofun, hloads⟩
      · rw [List.forall_mem_cons, List.forall_mem_cons, lands_iff hserved.2.1 hfault.2.1 hsave]
        exact ⟨not_lands_of_load rfl, fun hok => hok _ hanswer, hinit⟩

theorem addition_returns {evs : List (KVEvent ι)} {r : Result Int}
    (h : CasTrace dest (result.modify dest) evs r) (hdistinct : result.Distinct)
    (hserved : ∀ ev ∈ evs, Served content ev) (hfault : ∀ ev ∈ evs, NoFault ev)
    (haccepted : ∀ ev ∈ evs, ev.op = .load dest → result.Accepts (ev.before.entryAt dest))
    (hlands : ∃ ev ∈ evs, Lands dest ev) : ∃ n, r = .ok n := by
  -- a write that is answered with an error has not landed
  have hrefused : ∀ {action : CasAction Int} {s : Keyspace} {write : KVEvent ι}
      {e : RustyAntError}, result.modify dest (s.entryAt dest) = .ok action →
      WriteOf dest action write.op → write.answer = .error e → Served content write →
      NoFault write → ¬ Lands dest write := by
    intro action s write e hmodify hop hanswer hwrite hnofault
    obtain ⟨-, stored, m, rfl, -⟩ := Computed.modify_ok hdistinct hmodify
    obtain ⟨cond, hsave⟩ := hop
    rw [lands_iff hwrite hnofault hsave]
    exact fun hok => hok e hanswer
  induction h with
  | exhausted =>
      obtain ⟨ev, hev, -⟩ := hlands
      cases hev
  | unread who s e =>
      rw [List.forall_mem_singleton] at hfault
      exact absurd rfl (hfault.load rfl e)
  | rejected who s e hmodify =>
      rw [List.forall_mem_singleton] at haccepted
      exact absurd (haccepted rfl) (Computed.modify_error hmodify)
  | settled who s action hmodify hkeeps hsame => exact ⟨_, rfl⟩
  | committed who s action write hmodify hop hanswer hcarry => exact ⟨_, rfl⟩
  | failed who s action write e hmodify hop hsilent hanswer =>
      rw [List.forall_mem_cons, List.forall_mem_singleton] at hserved hfault
      obtain ⟨ev, hev, hland⟩ := hlands
      rw [List.mem_cons, List.mem_singleton] at hev
      rcases hev with rfl | rfl
      · exact absurd hland (not_lands_of_load rfl)
      · exact absurd hland (hrefused hmodify hop hanswer hserved.2 hfault.2)
  | retried who s action write evs r hmodify hop hsilent hanswer hrest ih =>
      simp only [List.forall_mem_cons] at hserved hfault haccepted
      refine ih hserved.2.2 hfault.2.2 haccepted.2.2 ?_
      obtain ⟨ev, hev, hland⟩ := hlands
      rw [List.mem_cons, List.mem_cons] at hev
      rcases hev with rfl | rfl | hev
      · exact absurd hland (not_lands_of_load rfl)
      · exact absurd hland (hrefused hmodify hop hanswer hserved.2.1 hfault.2.1)
      · exact ⟨ev, hev, hland⟩

theorem addition_iff {evs : List (KVEvent ι)} {r : Result Int}
    (h : CasTrace dest (result.modify dest) evs r) (hdistinct : result.Distinct)
    (hserved : ∀ ev ∈ evs, Served content ev) (hfault : ∀ ev ∈ evs, NoFault ev) :
    ((∃ n, r = .ok n ∧ result.reply n = result.count) ∧ ∃ init last, evs = init ++ [last] ∧
        last.after.entryAt dest = some ⟨none, result.value⟩) ↔
      Undisturbed dest result evs := by
  constructor
  · rintro ⟨⟨n, hr, hcount⟩, init, last, hevs, hafter⟩
    obtain ⟨haccepted, init', last', stored, rfl, hinit, hlands, hstored, hiff⟩ :=
      addition_lands h hdistinct hserved hfault hr
    obtain ⟨rfl, hlast⟩ := List.append_inj' hevs rfl
    cases hlast
    rw [hstored, Option.some.injEq] at hafter
    refine ⟨haccepted, ⟨last, by simp, hlands⟩, ?_⟩
    rw [List.forall_mem_append, List.forall_mem_singleton]
    exact ⟨fun x hx hland => absurd hland (hinit x hx), fun _ => hiff.mp ⟨hafter, hcount⟩⟩
  · intro hundisturbed
    obtain ⟨n, rfl⟩ := addition_returns h hdistinct hserved hfault hundisturbed.accepted
      hundisturbed.lands
    obtain ⟨-, init, last, stored, rfl, -, hlands, hstored, hiff⟩ :=
      addition_lands h hdistinct hserved hfault rfl
    obtain ⟨hvalue, hcount⟩ := hiff.mpr (hundisturbed.harmless last (by simp) hlands)
    refine ⟨⟨n, rfl, hcount⟩, init, last, rfl, ?_⟩
    rw [hstored, hvalue]

/-- The type-blind delete: a load, and an unconditional delete if there is an entry. -/
theorem delete_trace {evs : List (KVEvent ι)} {r : Result Bool}
    (h : Pool.Follows (Storage.delete dest) evs (.done r))
    (hserved : ∀ ev ∈ evs, Served content ev) (hfault : ∀ ev ∈ evs, NoFault ev) :
    ∃ b first rest, r = .ok b ∧ evs = first :: rest ∧ (∀ ev ∈ rest, ev.op = .delete dest .any) ∧
      ∃ init last, evs = init ++ [last] ∧ last.after.entryAt dest = none := by
  obtain ⟨who, s, rest, ⟨rfl, hrest⟩ | ⟨e, rfl, -⟩⟩ := load_trace h hserved
  · rw [List.forall_mem_cons] at hserved hfault
    cases hdest : s dest with
    | none =>
        rw [hdest] at hrest
        obtain ⟨rfl, hr⟩ := Pool.Follows.done_inv hrest
        cases hr
        refine ⟨false, _, [], rfl, rfl, by simp, [], _, rfl, ?_⟩
        show (s dest).map Prod.fst = none
        rw [hdest]
        rfl
    | some p =>
        rw [hdest] at hrest
        rcases Pool.Follows.call_inv hrest with ⟨-, hq⟩ | ⟨who', answer, before, after, evs, rfl, hdone⟩
        · cases hq
        rw [List.forall_mem_cons] at hserved hfault
        have hserve := hserved.2.1.1
        dsimp only at hserve
        cases hserve with
        | fault _ _ e hop => exact absurd trivial (hfault.2.1 e rfl).2
        | delete _ _ _ hcond =>
            obtain ⟨rfl, hr⟩ := Pool.Follows.done_inv hdone
            cases hr
            refine ⟨true, _, _, rfl, rfl, by simp, [reading who dest s], _, rfl, ?_⟩
            exact entryAt_update before dest none
  · rw [List.forall_mem_cons] at hfault
    exact absurd rfl (hfault.1.load rfl e)

theorem isEmpty_count {result : Computed} (h : result.isEmpty = true) : result.count = 0 := by
  cases result with
  | members ms =>
      rw [List.isEmpty_iff.mp h]
      rfl
  | pairs ps =>
      rw [List.isEmpty_iff.mp h]
      rfl
  | found ps =>
      rw [List.isEmpty_iff.mp h]
      rfl

/-- Only the additive write matters for whether the overwrite is disturbed. -/
theorem undisturbed_append {before after : List (KVEvent ι)}
    (h : ∀ ev ∈ before, ev.op = .delete dest .any) :
    Undisturbed dest result (before ++ after) ↔ Undisturbed dest result after := by
  have hnot : ∀ ev ∈ before, ¬ Lands dest ev := by
    intro ev hev
    rw [Lands, h ev hev]
    exact id
  constructor
  · rintro ⟨haccepted, ⟨ev, hev, hland⟩, hharmless⟩
    rw [List.forall_mem_append] at haccepted hharmless
    rw [List.mem_append] at hev
    exact ⟨haccepted.2, ⟨ev, hev.resolve_left fun hbefore => hnot ev hbefore hland, hland⟩,
      hharmless.2⟩
  · rintro ⟨haccepted, ⟨ev, hev, hland⟩, hharmless⟩
    refine ⟨?_, ⟨ev, List.mem_append_right _ hev, hland⟩, ?_⟩
    · rw [List.forall_mem_append]
      refine ⟨fun x hx hload => ?_, haccepted⟩
      rw [h x hx] at hload
      cases hload
    · rw [List.forall_mem_append]
      exact ⟨fun x hx hland' => absurd hland' (hnot x hx), hharmless⟩

theorem overwrite_iff {evs : List (KVEvent ι)} {r : Result RespReply}
    (h : Pool.Follows (result.overwrite dest) evs (.done r)) (hdistinct : result.Distinct)
    (hserved : ∀ ev ∈ evs, Served content ev) (hfault : ∀ ev ∈ evs, NoFault ev) :
    Overwritten dest result evs r ↔
      result.isEmpty = true ∨ Undisturbed dest result (evs.drop 1) := by
  rcases h.bind_inv with ⟨_, _, -, hq⟩ | ⟨deletion, addition, out, rfl, hdelete, hrest⟩
  · cases hq
  rw [List.forall_mem_append] at hserved hfault
  obtain ⟨b, first, rest, rfl, rfl, hrestops, init, last, hlast, hgone⟩ :=
    delete_trace hdelete hserved.1 hfault.1
  rw [Prog.done_ok_bind] at hrest
  cases hempty : result.isEmpty with
  | true =>
      rw [if_pos hempty] at hrest
      obtain ⟨rfl, hr⟩ := hrest.done_inv
      cases hr
      refine iff_of_true ⟨?_, init, last, ?_, ?_⟩ (.inl rfl)
      · rw [isEmpty_count hempty]
      · rw [List.append_nil, hlast]
      · rw [if_pos hempty, hgone]
  | false =>
      rw [if_neg (by rw [hempty]; nofun)] at hrest
      rcases hrest.bind_inv with ⟨_, _, -, hq⟩ | ⟨adding, nothing, out, rfl, hadd, hdone⟩
      · cases hq
      rw [List.forall_mem_append] at hserved hfault
      have htrace := cas_trace hadd hserved.2.1
      have hiff := addition_iff htrace hdistinct hserved.2.1 hfault.2.1
      rw [List.cons_append, List.drop_one, List.tail_cons, undisturbed_append hrestops]
      obtain ⟨rfl, rfl⟩ : nothing = [] ∧ r = out.map fun n => .integer (result.reply n) := by
        cases out with
        | ok n =>
            obtain ⟨rfl, hr⟩ := Pool.Follows.done_inv hdone
            cases hr
            exact ⟨rfl, rfl⟩
        | error e =>
            obtain ⟨rfl, hr⟩ := Pool.Follows.done_inv hdone
            cases hr
            exact ⟨rfl, rfl⟩
      rw [List.append_nil, or_iff_right (by nofun), ← hiff, Overwritten, hempty, if_neg (by nofun)]
      cases out with
      | error e =>
          constructor
          · rintro ⟨hreply, -⟩
            cases hreply
          · rintro ⟨⟨n, hn, -⟩, -⟩
            cases hn
      | ok n =>
          obtain ⟨init', last', -, rfl, -⟩ := htrace.last rfl
          have hcount : (Except.ok n : Result Int).map (fun n => RespReply.integer (result.reply n)) =
              .ok (.integer result.count) ↔ ∃ m, (.ok n : Result Int) = .ok m ∧
                result.reply m = result.count := by simp [Except.map]
          refine and_congr hcount ?_
          constructor
          · rintro ⟨init, last, hevs, hafter⟩
            rw [← List.append_assoc, ← List.cons_append] at hevs
            obtain ⟨-, hlast⟩ := List.append_inj' hevs rfl
            cases hlast
            exact ⟨init', last', rfl, hafter⟩
          · rintro ⟨init, last, hevs, hafter⟩
            obtain ⟨-, hlast⟩ := List.append_inj' hevs rfl
            cases hlast
            exact ⟨first :: (rest ++ init'), last', by simp, hafter⟩

end Events

/-- A run in which client `i` runs the command and has got the reply `r`; its requests
fail only as conditional writes whose condition is false.  The other clients run
whatever they like. -/
structure StoreRun {ι : Type} [DecidableEq ι] (fo : FloatOps) (lm : Libm)
    (content : String → StoredValue) (cmd : StoreCommand) (args : List Bytes) (i : ι)
    (c d : Pool KVOp KVOp.Res RustyAntError Keyspace fun _ : ι => RespReply)
    (evs : List (KVEvent ι)) (r : Result RespReply) : Prop where
  versioned : c.state.Versioned content
  run : Pool.Run (casService content) c evs d
  prog : c.prog i = cmd.handle fo lm args
  done : d.prog i = .done r
  noFault : ∀ ev ∈ evs, ev.who = i → NoFault ev

end Commands

open Commands in
/-- A `*STORE` command among any other clients either ends with an error of its
computation, before it has written anything, or has computed a result and then
overwrites the destination with it, whatever it finds there, if and only if the
result is empty or nobody disturbs the destination: after its delete has looked at
it, every load finds it absent or of the result's kind, one of its writes lands, and
where it lands the destination is absent or holds an empty collection of that kind
without expiry (for `GEOSEARCHSTORE`, one without expiry and without other members
than the result's). -/
theorem store_overwrites_iff {ι : Type} [DecidableEq ι] (fo : FloatOps) (lm : Libm)
    (content : String → StoredValue) (cmd : StoreCommand) (args : List Bytes) (i : ι)
    (c d : Pool KVOp KVOp.Res RustyAntError Keyspace fun _ : ι => RespReply)
    (evs : List (KVEvent ι)) (r : Result RespReply)
    (hrun : StoreRun fo lm content cmd args i c d evs r) :
    (∃ e, r = .error e ∧ Pool.Follows (cmd.compute fo lm args) (evs.filter fun ev => ev.who = i)
        (.done (.error e)) ∧ ∀ ev ∈ evs, ev.who = i → Silent ev) ∨
      ∃ computing tail dest result, (evs.filter fun ev => ev.who = i) = computing ++ tail ∧
        Pool.Follows (cmd.compute fo lm args) computing (.done (.ok (dest, result))) ∧
        (Overwritten dest result tail r ↔
          result.isEmpty = true ∨ Undisturbed dest result (tail.drop 1)) := by
  have hfollows := hrun.run.follows i
  rw [hrun.prog, hrun.done, StoreCommand.handle_eq] at hfollows
  have hserved := run_served hrun.versioned hrun.run i
  have hfault : ∀ ev ∈ evs.filter fun ev => ev.who = i, NoFault ev := by
    intro ev hev
    rw [List.mem_filter, decide_eq_true_eq] at hev
    exact hrun.noFault ev hev.1 hev.2
  rcases hfollows.bind_inv with ⟨_, _, -, hq⟩ | ⟨computing, tail, out, hsplit, hcompute, hrest⟩
  · cases hq
  have hloads := hcompute.obeys (StoreCommand.compute_onlyLoads fo lm cmd args) fun _ _ => trivial
  cases out with
  | error e =>
      obtain ⟨rfl, hr⟩ := Pool.Follows.done_inv hrest
      rw [List.append_nil] at hsplit
      refine .inl ⟨e, (Prog.done.inj hr), ?_, ?_⟩
      · rw [hsplit]
        exact hcompute
      · intro ev hev hwho
        have hown : ev ∈ evs.filter fun ev => ev.who = i :=
          List.mem_filter.mpr ⟨hev, decide_eq_true hwho⟩
        have hev' := hown
        rw [hsplit] at hev'
        obtain ⟨key, hop⟩ := hloads ev hev'
        exact Silent.of_load (hserved ev hown) hop
  | ok p =>
      obtain ⟨dest, result⟩ := p
      rw [hsplit, List.forall_mem_append] at hserved hfault
      have hdistinct := hcompute.obeys_rest (StoreCommand.compute_distinct fo lm cmd args)
        (fun _ _ => trivial) _ rfl
      exact .inr ⟨computing, tail, dest, result, hsplit, hcompute,
        overwrite_iff hrest hdistinct hserved.2 hfault.2⟩

/-! ## A union stored where another client adds -/

namespace UnionOverAdd

open Commands

def content : String → StoredValue
  | "x" => ⟨none, .set {"x"}⟩
  | "z" => ⟨none, .set {"z"}⟩
  | _ => ⟨none, .set {"x", "z"}⟩

def tokenOf (entry : StoredValue) : String :=
  if entry = content "x" then "x" else if entry = content "z" then "z" else "xz"

/-- A library the set commands do not call. -/
def lm : Libm :=
  ⟨fun _ _ _ => .zero, id, id, id, id, id, fun _ => id, fun _ _ => [], fun _ _ => ""⟩

def args : List Bytes := [Rdb.asBytes "d", Rdb.asBytes "a"]

/-- `SUNIONSTORE d a` and `SADD d z`, with `x` in `a`. -/
def start : Pool KVOp KVOp.Res RustyAntError Keyspace fun _ : Fin 2 => RespReply where
  state := Function.update (fun _ => none) "a" (some (content "x", "x"))
  prog
    | 0 => (StoreCommand.set .union).handle .integral lm args
    | 1 => handleSadd [Rdb.asBytes "d", Rdb.asBytes "z"]

/-- The `SADD` runs between the look at `d` and the addition. -/
def raced : List (Fin 2) := [0, 0, 1, 1, 0, 0]

/-- The `SADD` runs before. -/
def inTurn : List (Fin 2) := [1, 1, 0, 0, 0, 0, 0]

def finish (schedule : List (Fin 2)) : Pool KVOp KVOp.Res RustyAntError Keyspace
    fun _ : Fin 2 => RespReply := Pool.exec (faultless content tokenOf) schedule start

def events (schedule : List (Fin 2)) : List (KVEvent (Fin 2)) :=
  Pool.trace (faultless content tokenOf) schedule start

/-- The entry at `d` after the last of the requests. -/
def left (evs : List (KVEvent (Fin 2))) : Option (Option StoredValue) :=
  evs.getLast?.map fun ev => ev.after.entryAt "d"

theorem left_eq {evs init : List (KVEvent (Fin 2))} {last : KVEvent (Fin 2)}
    (h : evs = init ++ [last]) : left evs = some (last.after.entryAt "d") := by
  rw [left, h, List.getLast?_append]
  rfl

theorem start_versioned : start.state.Versioned content := by
  intro key e token hkey
  by_cases hk : key = "a"
  · subst hk
    cases hkey
    rfl
  · dsimp only [start] at hkey
    rw [Function.update_of_ne hk] at hkey
    cases hkey

theorem storeRun (schedule : List (Fin 2)) (r : Result RespReply)
    (hdone : (finish schedule).prog 0 = .done r)
    (hanswered : ∀ ev ∈ events schedule, ev.answer.isOk = true) :
    StoreRun .integral lm content (.set .union) args 0 start (finish schedule) (events schedule)
      r where
  versioned := start_versioned
  run := Pool.exec_trace (faultless_service content tokenOf) schedule start
  prog := rfl
  done := hdone
  noFault ev hev _ e hanswer := by
    have hok := hanswered ev hev
    rw [hanswer] at hok
    cases hok

end UnionOverAdd

open UnionOverAdd Commands in
/-- `SUNIONSTORE d a` replies `1` and leaves two members at `d`. -/
theorem store_merges_concurrent_add :
    StoreRun .integral lm content (.set .union) args 0 start (finish raced) (events raced)
        (.ok (.integer 1)) ∧
      Pool.Follows ((StoreCommand.set .union).compute .integral lm args)
        (((events raced).filter fun ev => ev.who = 0).take 1)
        (.done (.ok ("d", .members ["x"]))) ∧
      ¬ Overwritten "d" (.members ["x"]) (((events raced).filter fun ev => ev.who = 0).drop 1)
        (.ok (.integer 1)) ∧
      (finish raced).state.entryAt "d" = some ⟨none, .set {"x", "z"}⟩ := by
  refine ⟨storeRun raced _ rfl (by decide +kernel), .cons (.nil _), ?_, by decide +kernel⟩
  rintro ⟨-, init, last, hsplit, hafter⟩
  have hleft := left_eq hsplit
  rw [hafter] at hleft
  revert hleft
  decide +kernel

open UnionOverAdd Commands in
theorem store_overwrites_iff_on_inTurn :
    Overwritten "d" (.members ["x"]) (((events inTurn).filter fun ev => ev.who = 0).drop 1)
      (.ok (.integer 1)) := by
  have hrun := storeRun inTurn _ rfl (by decide +kernel)
  have hcompute : Pool.Follows ((StoreCommand.set .union).compute .integral lm args)
      (((events inTurn).filter fun ev => ev.who = 0).take 1)
      (.done (.ok ("d", .members ["x"]))) := .cons (.nil _)
  rcases store_overwrites_iff _ _ _ _ _ _ _ _ _ _ hrun with
    ⟨e, hr, -⟩ | ⟨computing, tail, dest, result, hsplit, hcompute', hiff⟩
  · cases hr
  obtain ⟨rfl, rfl, hresult⟩ := hcompute.unique hcompute' ((List.take_append_drop 1 _).trans hsplit)
  cases hresult
  -- after the delete every request finds `d` absent
  have habsent : ∀ ev ∈ ((events inTurn).filter fun ev => ev.who = 0).drop 3,
      ev.before.entryAt "d" = none := by decide +kernel
  have hlands : ∃ ev ∈ ((events inTurn).filter fun ev => ev.who = 0).drop 3, Lands "d" ev := by
    decide +kernel
  have hdelete : ∀ ev ∈ (((events inTurn).filter fun ev => ev.who = 0).drop 2).take 1,
      ev.op = .delete "d" .any := List.forall_mem_singleton.mpr rfl
  refine hiff.mpr (.inr ?_)
  rw [List.drop_drop, ← List.take_append_drop 1 (List.drop _ _), undisturbed_append hdelete,
    List.drop_drop]
  refine ⟨fun ev hev _ => ?_, hlands, fun ev hev _ => ?_⟩
  · rw [habsent ev hev]
    exact trivial
  · rw [habsent ev hev]
    exact trivial

end RustyAnt
