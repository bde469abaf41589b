import RustyAnt.Commands.Sets
import RustyAnt.Storage.Attempts

/-!
# One member, many movers

`SMOVE` checks that the source has the member, removes it and adds it to the
destination, without looking at what the removal removed.  A removal that comes
after another client's finds nothing, and the member is added all the same.
-/

namespace RustyAnt

open Lib

namespace Storage

def hasMember (member : String) : Option StoredValue → Bool
  | some ⟨_, .set s⟩ => s.contains member
  | _ => false

theorem hasMember_find {key member : String} {entry : Option StoredValue} {s : BTreeSet String}
    {exp : Option Int} (h : View.set.find key entry = .ok (some (s, exp))) :
    hasMember member entry = s.contains member := by
  rw [View.set.find_some h]
  rfl

/-- What `sismember` answers on an entry it accepts. -/
theorem hasMember_answer {key member : String} {entry : Option StoredValue}
    {found : Option (BTreeSet String × Option Int)} (h : View.set.find key entry = .ok found) :
    hasMember member entry = found.elim false fun p => p.1.contains member := by
  cases found with
  | none =>
      rw [View.set.find_none h]
      rfl
  | some p => exact hasMember_find h

theorem hasMember_writeOrDelete (member : String) (exp : Option Int) (s : BTreeSet String) (r : Int)
    (entry : Option StoredValue) :
    hasMember member ((View.set.writeOrDelete exp s r).apply entry) = s.contains member := by
  unfold View.writeOrDelete
  split
  · rename_i hempty
    rw [Std.ExtTreeSet.isEmpty_iff.mp hempty]
    exact Std.ExtTreeSet.contains_empty.symm
  · rfl

/-- An `SREM` that is decided leaves the set without the member. -/
theorem sremModify_member {key member : String} {entry : Option StoredValue}
    {action : CasAction Int} (h : sremModify key [member] entry = .ok action) :
    hasMember member (action.apply entry) = false := by
  unfold sremModify at h
  rw [Result.bind_eq_ok] at h
  obtain ⟨found, hfind, hrest⟩ := h
  cases found with
  | none =>
      cases hrest
      rw [View.set.find_none hfind]
      rfl
  | some p =>
      obtain ⟨s, exp⟩ := p
      cases hrest
      rw [hasMember_writeOrDelete]
      show (sremOne (s, 0) member).1.contains member = false
      unfold sremOne
      split
      · simp
      · rename_i hcontains
        exact Bool.eq_false_iff.mpr hcontains

/-- An `SADD` that is decided leaves the set with the member. -/
theorem saddModify_member {key member : String} {entry : Option StoredValue}
    {action : CasAction Int} (h : saddModify key [member] entry = .ok action) :
    hasMember member (action.apply entry) = true := by
  unfold saddModify at h
  rw [Result.bind_eq_ok] at h
  obtain ⟨⟨s, exp⟩, hfind, hrest⟩ := h
  cases hrest
  show (saddOne (s, 0) member).1.contains member = true
  unfold saddOne
  split
  · rename_i hcontains
    exact hcontains
  · simp

end Storage

def Keyspace.memberAt (s : Keyspace) (member key : String) : Bool :=
  Storage.hasMember member (s.entryAt key)

namespace Commands

section Events

variable {ι : Type} {content : String → StoredValue} {source dest member : String}

def TakesMember (source member : String) (ev : KVEvent ι) : Prop :=
  ev.op.OnKey source ∧ ev.after.memberAt member source = false ∧
    ∀ key, key ≠ source → ev.after key = ev.before key

def PutsMember (dest member : String) (ev : KVEvent ι) : Prop :=
  ev.op.OnKey dest ∧ ev.after.memberAt member dest = true ∧
    ∀ key, key ≠ dest → ev.after key = ev.before key

/-- Every request of an `SMOVE` to the source after its membership check finds the
member there.  The first two requests are the type check and the membership
check. -/
def FindsMember (source member : String) (evs : List (KVEvent ι)) : Prop :=
  ∀ ev ∈ evs.drop 2, ev.op.OnKey source → ev.before.memberAt member source = true

inductive SmoveTrace (source dest member : String) : List (KVEvent ι) → RespReply → Prop
  | absent (first check : KVEvent ι) (hfirst : Silent first) (hcheck : Silent check)
      (habsent : check.before.memberAt member source = false) :
      SmoveTrace source dest member [first, check] (.integer 0)
  | same (first check : KVEvent ι) (hfirst : Silent first) (hcheck : Silent check)
      (hpresent : check.before.memberAt member source = true) (hsame : dest = source) :
      SmoveTrace source dest member [first, check] (.integer 1)
  | moved (first check : KVEvent ι) (pre mid : List (KVEvent ι)) (take put : KVEvent ι)
      (hfirst : Silent first) (hcheck : Silent check)
      (hpresent : check.before.memberAt member source = true) (hne : dest ≠ source)
      (hpre : ∀ ev ∈ pre, Silent ev) (hmid : ∀ ev ∈ mid, Silent ev ∧ ev.op.OnKey dest)
      (htake : TakesMember source member take) (hput : PutsMember dest member put) :
      SmoveTrace source dest member (first :: check :: (pre ++ take :: (mid ++ [put])))
        (.integer 1)

theorem memberAt_frame {ev : KVEvent ι} {key : String}
    (hframe : ∀ key', key' ≠ key → ev.after key' = ev.before key') {key' : String}
    (hne : key' ≠ key) : ev.after.memberAt member key' = ev.before.memberAt member key' := by
  rw [Keyspace.memberAt, Keyspace.memberAt, Keyspace.entryAt, Keyspace.entryAt, hframe key' hne]

theorem srem_trace {evs : List (KVEvent ι)} {n : Int}
    (h : Pool.Follows (Storage.srem source [member]) evs (.done (.ok n)))
    (hserved : ∀ ev ∈ evs, Served content ev) :
    ∃ pre take, evs = pre ++ [take] ∧ (∀ ev ∈ pre, Silent ev) ∧ TakesMember source member take := by
  have htrace := cas_trace h hserved
  have honKey := htrace.onKey
  obtain ⟨pre, take, action, rfl, hpre, -, hmodify, -, happly, hframe⟩ := htrace.last rfl
  refine ⟨pre, take, rfl, hpre, honKey take (by simp), ?_, hframe⟩
  rw [Keyspace.memberAt, happly]
  exact Storage.sremModify_member hmodify

theorem sadd_trace {evs : List (KVEvent ι)} {n : Int}
    (h : Pool.Follows (Storage.sadd dest [member]) evs (.done (.ok n)))
    (hserved : ∀ ev ∈ evs, Served content ev) :
    ∃ mid put, evs = mid ++ [put] ∧ (∀ ev ∈ mid, Silent ev ∧ ev.op.OnKey dest) ∧
      PutsMember dest member put := by
  have htrace := cas_trace h hserved
  have honKey := htrace.onKey
  obtain ⟨mid, put, action, rfl, hmid, -, hmodify, -, happly, hframe⟩ := htrace.last rfl
  refine ⟨mid, put, rfl, fun ev hev => ⟨hmid ev hev, honKey ev (List.mem_append_left _ hev)⟩,
    honKey put (by simp), ?_, hframe⟩
  rw [Keyspace.memberAt, happly]
  exact Storage.saddModify_member hmodify

theorem smoveMember_trace {first : KVEvent ι} (hfirst : Silent first) {evs : List (KVEvent ι)}
    {r : RespReply}
    (h : Pool.Follows (smoveMember source dest member) evs (.done (.ok r)))
    (hserved : ∀ ev ∈ evs, Served content ev) :
    SmoveTrace source dest member (first :: evs) r := by
  obtain ⟨checks, rest, present, rfl, hcheck, hrest⟩ := bind_trace h
  rw [List.forall_mem_append] at hserved
  obtain ⟨who, s, found, rfl, hfind, rfl⟩ := read_trace hcheck hserved.1
  have hsilent : Silent (reading who source s) := rfl
  have hpresent : (reading who source s).before.memberAt member source =
    found.elim false fun p => p.1.contains member := Storage.hasMember_answer hfind
  rw [← hpresent] at hrest
  cases hmember : (reading who source s).before.memberAt member source with
  | false =>
      rw [hmember] at hrest
      obtain ⟨rfl, hq⟩ := Pool.Follows.done_inv hrest
      cases hq
      exact .absent first _ hfirst hsilent hmember
  | true =>
      rw [hmember] at hrest
      by_cases hsame : source = dest
      · have hdone : Pool.Follows (if source = dest then Prog.done (.ok (.integer 1))
          else (Storage.srem source [member]).bind fun _ =>
            (Storage.sadd dest [member]).bind fun _ => Prog.done (.ok (.integer 1))) rest
          (.done (.ok r)) := hrest
        rw [if_pos hsame] at hdone
        obtain ⟨rfl, hq⟩ := hdone.done_inv
        cases hq
        exact .same first _ hfirst hsilent hmember hsame.symm
      · have hmove : Pool.Follows (if source = dest then Prog.done (.ok (.integer 1))
          else (Storage.srem source [member]).bind fun _ =>
            (Storage.sadd dest [member]).bind fun _ => Prog.done (.ok (.integer 1))) rest
          (.done (.ok r)) := hrest
        rw [if_neg hsame] at hmove
        obtain ⟨removal, rest₁, removed, rfl, hrem, hnext⟩ := bind_trace hmove
        obtain ⟨addition, rest₂, added, rfl, hadd, hlast⟩ := bind_trace hnext
        obtain ⟨rfl, hq⟩ := hlast.done_inv
        cases hq
        rw [List.forall_mem_append, List.forall_mem_append] at hserved
        obtain ⟨pre, take, rfl, hpre, htake⟩ := srem_trace hrem hserved.2.1
        obtain ⟨mid, put, rfl, hmid, hput⟩ := sadd_trace hadd hserved.2.2.1
        have hsplit : first :: ([reading who source s] ++ (pre ++ [take] ++ (mid ++ [put] ++ []))) =
            first :: reading who source s :: (pre ++ take :: (mid ++ [put])) := by simp
        rw [hsplit]
        exact .moved first _ pre mid take put hfirst hsilent hmember (Ne.symm hsame) hpre hmid htake
          hput

theorem smove_trace {evs : List (KVEvent ι)} {r : RespReply}
    (h : Pool.Follows (smove source dest member) evs (.done (.ok r)))
    (hserved : ∀ ev ∈ evs, Served content ev) : SmoveTrace source dest member evs r := by
  obtain ⟨reads, rest, kind, rfl, hkind, hrest⟩ := bind_trace h
  rw [List.forall_mem_append] at hserved
  obtain ⟨reads, nothing, entry, rfl, hload, hdone⟩ := bind_trace hkind
  obtain ⟨rfl, -⟩ := Pool.Follows.done_inv hdone
  rw [List.append_nil] at hserved ⊢
  obtain ⟨who, s, rfl, -⟩ := loadEntry_trace hload hserved.1
  have hfirst : Silent (reading who dest s) := rfl
  split at hrest
  · exact smoveMember_trace hfirst hrest hserved.2
  · exact smoveMember_trace hfirst hrest hserved.2
  · cases (Pool.Follows.done_inv hrest).2

/-! ## What a mover's events do -/

/-- Outside of its removal and its addition an `SMOVE` leaves every set as it is. -/
theorem SmoveTrace.event {evs : List (KVEvent ι)} {r : RespReply}
    (h : SmoveTrace source dest member evs r) {ev : KVEvent ι} (hev : ev ∈ evs) :
    Silent ev ∨ (dest ≠ source ∧ r = .integer 1 ∧
      (TakesMember source member ev ∨ PutsMember dest member ev)) := by
  cases h with
  | absent first check hfirst hcheck habsent =>
      simp only [List.mem_cons, List.not_mem_nil, or_false] at hev
      rcases hev with rfl | rfl
      · exact .inl hfirst
      · exact .inl hcheck
  | same first check hfirst hcheck hpresent hsame =>
      simp only [List.mem_cons, List.not_mem_nil, or_false] at hev
      rcases hev with rfl | rfl
      · exact .inl hfirst
      · exact .inl hcheck
  | moved first check pre mid take put hfirst hcheck hpresent hne hpre hmid htake hput =>
      simp only [List.mem_cons, List.mem_append, List.not_mem_nil, or_false] at hev
      rcases hev with rfl | rfl | hev | rfl | hev | rfl
      · exact .inl hfirst
      · exact .inl hcheck
      · exact .inl (hpre ev hev)
      · exact .inr ⟨hne, rfl, .inl htake⟩
      · exact .inl (hmid ev hev).1
      · exact .inr ⟨hne, rfl, .inr hput⟩

/-- A member that is gone from the source is not put back. -/
theorem SmoveTrace.absent_kept {evs : List (KVEvent ι)} {r : RespReply}
    (h : SmoveTrace source dest member evs r) {ev : KVEvent ι} (hev : ev ∈ evs)
    (hbefore : ev.before.memberAt member source = false) :
    ev.after.memberAt member source = false := by
  rcases h.event hev with hsilent | ⟨hne, -, htake | hput⟩
  · rw [show ev.after = ev.before from hsilent]
    exact hbefore
  · exact htake.2.1
  · rw [memberAt_frame hput.2.2 (Ne.symm hne)]
    exact hbefore

theorem SmoveTrace.present_kept {evs : List (KVEvent ι)} {r : RespReply}
    (h : SmoveTrace source dest member evs r) {ev : KVEvent ι} (hev : ev ∈ evs) {key : String}
    (hkey : key ≠ source) (hbefore : ev.before.memberAt member key = true) :
    ev.after.memberAt member key = true := by
  rcases h.event hev with hsilent | ⟨hne, -, htake | hput⟩
  · rw [show ev.after = ev.before from hsilent]
    exact hbefore
  · rw [memberAt_frame htake.2.2 hkey]
    exact hbefore
  · by_cases hdest : key = dest
    · rw [hdest]
      exact hput.2.1
    · rw [memberAt_frame hput.2.2 hdest]
      exact hbefore

/-- A set that loses or gains the member does so at a removal from the source or at
the addition to the destination of an `SMOVE` that replies `1`. -/
theorem SmoveTrace.change {evs : List (KVEvent ι)} {r : RespReply}
    (h : SmoveTrace source dest member evs r) {ev : KVEvent ι} (hev : ev ∈ evs) {key : String}
    (hchange : ev.before.memberAt member key ≠ ev.after.memberAt member key) :
    dest ≠ source ∧ r = .integer 1 ∧ (key = source ∧ TakesMember source member ev ∨
      key = dest ∧ PutsMember dest member ev) := by
  rcases h.event hev with hsilent | ⟨hne, hr, htake | hput⟩
  · rw [show ev.after = ev.before from hsilent] at hchange
    exact absurd rfl hchange
  · refine ⟨hne, hr, .inl ⟨?_, htake⟩⟩
    by_contra hkey
    exact hchange (memberAt_frame htake.2.2 hkey).symm
  · refine ⟨hne, hr, .inr ⟨?_, hput⟩⟩
    by_contra hkey
    exact hchange (memberAt_frame hput.2.2 hkey).symm

/-- An `SMOVE` replies `0` or `1`, and `0` only if it saw the member absent. -/
theorem SmoveTrace.reply {evs : List (KVEvent ι)} {r : RespReply}
    (h : SmoveTrace source dest member evs r) :
    (r = .integer 0 ∧ ∃ ev ∈ evs, ev.before.memberAt member source = false) ∨
      (r = .integer 1 ∧ ∃ ev ∈ evs, ev.before.memberAt member source = true) := by
  cases h with
  | absent first check hfirst hcheck habsent => exact .inl ⟨rfl, check, by simp, habsent⟩
  | same first check hfirst hcheck hpresent hsame => exact .inr ⟨rfl, check, by simp, hpresent⟩
  | moved first check pre mid take put hfirst hcheck hpresent hne hpre hmid htake hput =>
      exact .inr ⟨rfl, check, by simp, hpresent⟩

/-- An `SMOVE` to another key that replies `1` has removed and added. -/
theorem SmoveTrace.moves {evs : List (KVEvent ι)} {r : RespReply}
    (h : SmoveTrace source dest member evs r) (hne : dest ≠ source) (hr : r = .integer 1) :
    ∃ pre take mid put, evs.drop 2 = pre ++ take :: (mid ++ [put]) ∧
      TakesMember source member take ∧ PutsMember dest member put ∧
      ∀ ev ∈ mid, ev.op.OnKey dest := by
  cases h with
  | absent first check hfirst hcheck habsent => cases hr
  | same first check hfirst hcheck hpresent hsame => exact absurd hsame hne
  | moved first check pre mid take put hfirst hcheck hpresent hne' hpre hmid htake hput =>
      exact ⟨pre, take, mid, put, rfl, htake, hput, fun ev hev => (hmid ev hev).2⟩

/-- Until its last request to the source an `SMOVE` changes nothing. -/
theorem SmoveTrace.silent_before {evs : List (KVEvent ι)} {r : RespReply}
    (h : SmoveTrace source dest member evs r) {pre post : List (KVEvent ι)} {ev : KVEvent ι}
    (hsplit : evs = pre ++ ev :: post) (hop : ev.op.OnKey source) : ∀ x ∈ pre, Silent x := by
  have hall : (∀ x ∈ evs, Silent x) → ∀ x ∈ pre, Silent x := by
    intro hall x hx
    refine hall x ?_
    rw [hsplit]
    exact List.mem_append_left _ hx
  cases h with
  | absent first check hfirst hcheck habsent => exact hall (by simp [hfirst, hcheck])
  | same first check hfirst hcheck hpresent hsame => exact hall (by simp [hfirst, hcheck])
  | moved first check before mid take put hfirst hcheck hpresent hne hpre hmid htake hput =>
      have hsilent : ∀ x ∈ first :: check :: before, Silent x := by
        rw [List.forall_mem_cons, List.forall_mem_cons]
        exact ⟨hfirst, hcheck, hpre⟩
      have htail : ev ∉ mid ++ [put] := by
        intro hev
        have hdest : ev.op.OnKey dest := by
          rw [List.mem_append, List.mem_singleton] at hev
          rcases hev with hev | rfl
          · exact (hmid ev hev).2
          · exact hput.1
        exact hne (hdest.unique hop)
      have hlists : (first :: check :: before) ++ take :: (mid ++ [put]) = pre ++ ev :: post :=
        hsplit
      rcases List.append_eq_append_iff.mp hlists with ⟨rest, rfl, hrest⟩ | ⟨rest, hrest, -⟩
      · cases rest with
        | nil =>
            rw [List.append_nil]
            exact hsilent
        | cons x rest =>
            rw [List.cons_append, List.cons.injEq] at hrest
            refine absurd ?_ htail
            rw [hrest.2]
            simp
      · intro x hx
        refine hsilent x ?_
        rw [hrest]
        exact List.mem_append_left _ hx

/-- Only an `SMOVE` that goes on past its membership check makes a third request. -/
theorem SmoveTrace.reply_of_drop {evs : List (KVEvent ι)} {r : RespReply}
    (h : SmoveTrace source dest member evs r) {ev : KVEvent ι} (hev : ev ∈ evs.drop 2) :
    r = .integer 1 := by
  cases h with
  | absent first check hfirst hcheck habsent => cases hev
  | same first check hfirst hcheck hpresent hsame => cases hev
  | moved first check pre mid take put hfirst hcheck hpresent hne hpre hmid htake hput => rfl

end Events

section Runs

variable {ι : Type} [DecidableEq ι]

/-- A run in which the clients with a `dest` run `SMOVE` of `member` from `source` to
it, all of which reply without error, and no other client changes in which sets
`member` is. -/
structure SmoveRun (content : String → StoredValue) (source member : String)
    (dest : ι → Option String)
    (c d : Pool KVOp KVOp.Res RustyAntError Keyspace fun _ : ι => RespReply)
    (evs : List (KVEvent ι)) : Prop where
  versioned : c.state.Versioned content
  run : Pool.Run (casService content) c evs d
  prog : ∀ i k, dest i = some k → c.prog i =
    handleSmove [Rdb.asBytes source, Rdb.asBytes k, Rdb.asBytes member]
  done : ∀ i k, dest i = some k → ∃ r, d.prog i = .done (.ok r)
  others : ∀ ev ∈ evs, dest ev.who = none →
    ∀ key, ev.after.memberAt member key = ev.before.memberAt member key

/-- One `SMOVE` to another key replies `1`, all others reply `0`, and the member is
moved to the destination of that one. -/
def MovedOnce (source member : String) (dest : ι → Option String)
    (c d : Pool KVOp KVOp.Res RustyAntError Keyspace fun _ : ι => RespReply) : Prop :=
  ∃ i k, dest i = some k ∧ k ≠ source ∧ d.prog i = .done (.ok (.integer 1)) ∧
    (∀ j k', dest j = some k' → k' ≠ source → j ≠ i → d.prog j = .done (.ok (.integer 0))) ∧
    d.state.memberAt member k = true ∧ d.state.memberAt member source = false ∧
    ∀ key, key ≠ source → key ≠ k → d.state.memberAt member key = c.state.memberAt member key

variable {content : String → StoredValue} {source member : String} {dest : ι → Option String}
variable {c d : Pool KVOp KVOp.Res RustyAntError Keyspace fun _ : ι => RespReply}
variable {evs : List (KVEvent ι)}

theorem handleSmove_asBytes (source dest member : String) :
    handleSmove [Rdb.asBytes source, Rdb.asBytes dest, Rdb.asBytes member] =
      smove source dest member := by
  simp only [handleSmove, argAsStr_asBytes]
  rfl

theorem SmoveRun.trace (h : SmoveRun content source member dest c d evs) {i : ι} {k : String}
    (hi : dest i = some k) :
    ∃ r, d.prog i = .done (.ok r) ∧
      SmoveTrace source k member (evs.filter fun ev => ev.who = i) r := by
  obtain ⟨r, hr⟩ := h.done i k hi
  have hfollows := h.run.follows i
  rw [h.prog i k hi, handleSmove_asBytes, hr] at hfollows
  exact ⟨r, hr, smove_trace hfollows (run_served h.versioned h.run i)⟩

theorem own_event {ev : KVEvent ι} (hev : ev ∈ evs) :
    ev ∈ evs.filter fun x => x.who = ev.who :=
  List.mem_filter.mpr ⟨hev, by simp⟩

theorem SmoveRun.absent_kept (h : SmoveRun content source member dest c d evs) {ev : KVEvent ι}
    (hev : ev ∈ evs) (hbefore : ev.before.memberAt member source = false) :
    ev.after.memberAt member source = false := by
  cases hwho : dest ev.who with
  | none =>
      rw [h.others ev hev hwho]
      exact hbefore
  | some k =>
      obtain ⟨r, -, htrace⟩ := h.trace hwho
      exact htrace.absent_kept (own_event hev) hbefore

theorem SmoveRun.present_kept (h : SmoveRun content source member dest c d evs) {ev : KVEvent ι}
    (hev : ev ∈ evs) {key : String} (hkey : key ≠ source)
    (hbefore : ev.before.memberAt member key = true) : ev.after.memberAt member key = true := by
  cases hwho : dest ev.who with
  | none =>
      rw [h.others ev hev hwho]
      exact hbefore
  | some k =>
      obtain ⟨r, -, htrace⟩ := h.trace hwho
      exact htrace.present_kept (own_event hev) hkey hbefore

/-- A change of a set is the work of an `SMOVE` that replies `1`. -/
theorem SmoveRun.change (h : SmoveRun content source member dest c d evs) {ev : KVEvent ι}
    (hev : ev ∈ evs) {key : String}
    (hchange : ev.before.memberAt member key ≠ ev.after.memberAt member key) :
    ∃ k, dest ev.who = some k ∧ k ≠ source ∧ d.prog ev.who = .done (.ok (.integer 1)) ∧
      (key = source ∧ TakesMember source member ev ∨ key = k ∧ PutsMember k member ev) := by
  cases hwho : dest ev.who with
  | none => exact absurd (h.others ev hev hwho key).symm hchange
  | some k =>
      obtain ⟨r, hr, htrace⟩ := h.trace hwho
      obtain ⟨hne, rfl, hwhere⟩ := htrace.change (own_event hev) hchange
      exact ⟨k, rfl, hne, hr, hwhere⟩

/-- Before an event that finds the member gone from the source, an `SMOVE` has
removed it. -/
theorem SmoveRun.removed_before (h : SmoveRun content source member dest c d evs)
    (hpresent : c.state.memberAt member source = true) {pre post : List (KVEvent ι)}
    {ev : KVEvent ι} (hsplit : evs = pre ++ ev :: post)
    (hbefore : ev.before.memberAt member source = false) :
    ∃ x ∈ pre, ∃ k, dest x.who = some k ∧ k ≠ source ∧
      d.prog x.who = .done (.ok (.integer 1)) ∧ ¬ Silent x := by
  have hrun := h.run
  rw [hsplit] at hrun
  obtain ⟨m, hpre, hm⟩ := hrun.until
  have hne : c.state.memberAt member source ≠ m.state.memberAt member source := by
    rw [hpresent, hm, hbefore]
    nofun
  obtain ⟨x, hx, hchange⟩ := hpre.exists_change (fun s => Keyspace.memberAt s member source) hne
  have hxevs : x ∈ evs := by
    rw [hsplit]
    exact List.mem_append_left _ hx
  obtain ⟨k, hk, hksource, hreply, -⟩ := h.change hxevs hchange
  refine ⟨x, hx, k, hk, hksource, hreply, fun hsilent => hchange ?_⟩
  rw [show x.after = x.before from hsilent]

/-- After a removal every request finds the member gone. -/
theorem SmoveRun.absent_after (h : SmoveRun content source member dest c d evs)
    {pre mid post : List (KVEvent ι)} {a b : KVEvent ι}
    (hsplit : evs = pre ++ a :: (mid ++ b :: post)) (htake : TakesMember source member a) :
    b.before.memberAt member source = false := by
  have hrun := h.run
  rw [hsplit] at hrun
  obtain ⟨m, m', hmid, hm, hm'⟩ := hrun.between
  rw [← hm']
  refine hmid.persists (P := fun s => s.memberAt member source = false) ?_ ?_
  · intro ev hev
    have hmem : ev ∈ evs := by
      rw [hsplit]
      simp [hev]
    exact h.absent_kept hmem
  · rw [hm]
    exact htake.2.1

/-- The removal and the addition of an `SMOVE` that moved the member. -/
theorem SmoveRun.moves (h : SmoveRun content source member dest c d evs) {i : ι} {k : String}
    (hi : dest i = some k) (hne : k ≠ source) (hreply : d.prog i = .done (.ok (.integer 1))) :
    ∃ take put, take ∈ evs ∧ put ∈ evs ∧ take.who = i ∧
      take ∈ (evs.filter fun ev => ev.who = i).drop 2 ∧
      TakesMember source member take ∧ PutsMember k member put := by
  obtain ⟨r, hr, htrace⟩ := h.trace hi
  have hone : r = .integer 1 := by
    rw [hreply] at hr
    cases hr
    rfl
  obtain ⟨pre, take, mid, put, hdrop, htake, hput, -⟩ := htrace.moves hne hone
  have hmem : ∀ ev, ev ∈ pre ++ take :: (mid ++ [put]) → ev ∈ evs ∧ ev.who = i := by
    intro ev hev
    rw [← hdrop] at hev
    simpa using List.mem_filter.mp (List.mem_of_mem_drop hev)
  refine ⟨take, put, (hmem take (by simp)).1, (hmem put (by simp)).1, (hmem take (by simp)).2, ?_,
    htake, hput⟩
  rw [hdrop]
  simp

/-- If every removal finds the member, only one `SMOVE` moves it. -/
theorem SmoveRun.unique (h : SmoveRun content source member dest c d evs)
    (hfinds : ∀ i k, dest i = some k → k ≠ source →
      FindsMember source member (evs.filter fun ev => ev.who = i))
    {i j : ι} {k k' : String} (hi : dest i = some k) (hne : k ≠ source)
    (hreply : d.prog i = .done (.ok (.integer 1))) (hj : dest j = some k') (hne' : k' ≠ source)
    (hreply' : d.prog j = .done (.ok (.integer 1))) : i = j := by
  by_contra hij
  obtain ⟨a, -, ha, -, hawho, hadrop, hatake, -⟩ := h.moves hi hne hreply
  obtain ⟨b, -, hb, -, hbwho, hbdrop, hbtake, -⟩ := h.moves hj hne' hreply'
  have hab : a ≠ b := by
    rintro rfl
    exact hij (hawho.symm.trans hbwho)
  rcases Pool.two_events ha hb hab with ⟨pre, mid, post, hsplit⟩ | ⟨pre, mid, post, hsplit⟩
  · have hgone := h.absent_after hsplit hatake
    rw [hfinds j k' hj hne' b hbdrop hbtake.1] at hgone
    cases hgone
  · have hgone := h.absent_after hsplit hbtake
    rw [hfinds i k hi hne a hadrop hatake.1] at hgone
    cases hgone

/-- A reading of the final state, from an event that settles it. -/
theorem SmoveRun.final (h : SmoveRun content source member dest c d evs) {P : Keyspace → Prop}
    {ev : KVEvent ι} (hev : ev ∈ evs) (hafter : P ev.after)
    (hkeeps : ∀ x ∈ evs, P x.before → P x.after) : P d.state := by
  obtain ⟨pre, post, rfl⟩ := List.append_of_mem hev
  obtain ⟨m, hrest, hm⟩ := h.run.since
  refine hrest.persists (fun x hx => hkeeps x (by simp [hx])) ?_
  rw [hm]
  exact hafter

theorem SmoveRun.movedOnce (h : SmoveRun content source member dest c d evs)
    (hpresent : c.state.memberAt member source = true)
    (hsome : ∃ i k, dest i = some k ∧ k ≠ source)
    (hfinds : ∀ i k, dest i = some k → k ≠ source →
      FindsMember source member (evs.filter fun ev => ev.who = i)) :
    MovedOnce source member dest c d := by
  obtain ⟨i, k, hi, hne, hreply⟩ :
      ∃ i k, dest i = some k ∧ k ≠ source ∧ d.prog i = .done (.ok (.integer 1)) := by
    obtain ⟨i, k, hi, hne⟩ := hsome
    obtain ⟨r, hr, htrace⟩ := h.trace hi
    rcases htrace.reply with ⟨-, ev, hev, hgone⟩ | ⟨rfl, -⟩
    · obtain ⟨pre, post, hsplit⟩ := List.append_of_mem (List.mem_filter.mp hev).1
      obtain ⟨x, -, k', hk', hne', hreply, -⟩ := h.removed_before hpresent hsplit hgone
      exact ⟨x.who, k', hk', hne', hreply⟩
    · exact ⟨i, k, hi, hne, hr⟩
  obtain ⟨take, put, htakeMem, hputMem, -, -, htake, hput⟩ := h.moves hi hne hreply
  refine ⟨i, k, hi, hne, hreply, ?_, ?_, ?_, ?_⟩
  · intro j k' hj hne' hji
    obtain ⟨r, hr, htrace⟩ := h.trace hj
    rcases htrace.reply with ⟨rfl, -⟩ | ⟨rfl, -⟩
    · exact hr
    · exact absurd (h.unique hfinds hj hne' hr hi hne hreply) hji
  · exact h.final (P := fun s => s.memberAt member k = true) hputMem hput.2.1
      fun x hx => h.present_kept hx hne
  · exact h.final (P := fun s => s.memberAt member source = false) htakeMem htake.2.1
      fun x hx => h.absent_kept hx
  · intro key hsource hkey
    by_contra hchange
    obtain ⟨x, hx, hxchange⟩ :=
      h.run.exists_change (fun s => Keyspace.memberAt s member key) (Ne.symm hchange)
    obtain ⟨k', hk', hne', hreply', ⟨heq, -⟩ | ⟨heq, -⟩⟩ := h.change hx hxchange
    · exact hsource heq
    · have hwho := h.unique hfinds hk' hne' hreply' hi hne hreply
      rw [hwho, hi] at hk'
      cases hk'
      exact hkey heq

/-- If only one `SMOVE` moves the member, every removal found it. -/
theorem SmoveRun.findsMember (h : SmoveRun content source member dest c d evs)
    (hpresent : c.state.memberAt member source = true) (honce : MovedOnce source member dest c d)
    {j : ι} {k : String} (hj : dest j = some k) (hne : k ≠ source) :
    FindsMember source member (evs.filter fun ev => ev.who = j) := by
  obtain ⟨i, ki, -, -, -, hzero, -⟩ := honce
  intro ev hev hop
  by_contra hgone
  rw [Bool.not_eq_true] at hgone
  obtain ⟨r, hr, htrace⟩ := h.trace hj
  have hone := htrace.reply_of_drop hev
  subst hone
  have hji : j = i := by
    by_contra hji
    rw [hzero j k hj hne hji] at hr
    cases hr
  obtain ⟨own, rest, hown⟩ := List.append_of_mem (List.mem_of_mem_drop hev)
  obtain ⟨pre, post₁, hevs, hpre, hcons⟩ := List.filter_eq_append_iff.mp hown
  obtain ⟨mid, post, hpost, hmid, -, -⟩ := List.filter_eq_cons_iff.mp hcons
  have hsplit : evs = (pre ++ mid) ++ ev :: post := by rw [hevs, hpost, List.append_assoc]
  obtain ⟨x, hx, k', hk', hne', hreply', hloud⟩ := h.removed_before hpresent hsplit hgone
  have hxi : x.who = i := by
    by_contra hxi
    rw [hzero x.who k' hk' hne' hxi] at hreply'
    cases hreply'
  -- the mover's own earlier requests have changed nothing
  refine hloud (htrace.silent_before hown hop x ?_)
  rw [← hpre, List.mem_filter]
  rw [List.mem_append] at hx
  rcases hx with hx | hx
  · exact ⟨hx, by simp [hxi, hji]⟩
  · exact absurd (by simp [hxi, hji]) (hmid x hx)

theorem SmoveRun.all_zero (h : SmoveRun content source member dest c d evs)
    (habsent : c.state.memberAt member source = false) {i : ι} {k : String}
    (hi : dest i = some k) : d.prog i = .done (.ok (.integer 0)) := by
  obtain ⟨r, hr, htrace⟩ := h.trace hi
  rcases htrace.reply with ⟨rfl, -⟩ | ⟨-, ev, hev, hseen⟩
  · exact hr
  · obtain ⟨pre, post, hsplit⟩ := List.append_of_mem (List.mem_filter.mp hev).1
    have hrun := h.run
    rw [hsplit] at hrun
    obtain ⟨m, hpre, hm⟩ := hrun.until
    have hgone : m.state.memberAt member source = false := by
      refine hpre.persists (P := fun s => s.memberAt member source = false) ?_ habsent
      intro x hx
      refine h.absent_kept ?_
      rw [hsplit]
      exact List.mem_append_left _ hx
    rw [hm, hseen] at hgone
    cases hgone

end Runs

end Commands

/-- In a run of any number of `SMOVE`s of one member that all reply without error: if
the source does not have the member, all of them reply `0`; if it has it, exactly one
of them moves it, to its own destination, if and only if one of them has another
destination than the source and every one of these, whenever it reads or writes the
source after its membership check, still finds the member there. -/
theorem smove_moves_once_iff {ι : Type} [DecidableEq ι] (content : String → StoredValue)
    (source member : String) (dest : ι → Option String)
    (c d : Pool KVOp KVOp.Res RustyAntError Keyspace fun _ : ι => RespReply)
    (evs : List (KVEvent ι)) (hrun : Commands.SmoveRun content source member dest c d evs) :
    (c.state.memberAt member source = false →
      ∀ i k, dest i = some k → d.prog i = .done (.ok (.integer 0))) ∧
    (c.state.memberAt member source = true →
      (Commands.MovedOnce source member dest c d ↔
        (∃ i k, dest i = some k ∧ k ≠ source) ∧
          ∀ i k, dest i = some k → k ≠ source →
            Commands.FindsMember source member (evs.filter fun ev => ev.who = i))) := by
  refine ⟨fun habsent i k hi => hrun.all_zero habsent hi, fun hpresent => ?_⟩
  constructor
  · intro honce
    refine ⟨?_, fun i k hi hne => hrun.findsMember hpresent honce hi hne⟩
    obtain ⟨i, k, hi, hne, -⟩ := honce
    exact ⟨i, k, hi, hne⟩
  · rintro ⟨hsome, hfinds⟩
    exact hrun.movedOnce hpresent hsome hfinds

/-! ## Two movers -/

namespace TwoMovers

open Commands

def content : String → StoredValue
  | "m" => ⟨none, .set {"m"}⟩
  | _ => ⟨none, .set ∅⟩

def tokenOf (entry : StoredValue) : String := if entry = content "m" then "m" else ""

/-- `SMOVE s a m` and `SMOVE s b m`. -/
def dest : Fin 2 → Option String
  | 0 => some "a"
  | 1 => some "b"

def start : Pool KVOp KVOp.Res RustyAntError Keyspace fun _ : Fin 2 => RespReply where
  state := Function.update (fun _ => none) "s" (some (content "m", "m"))
  prog i := handleSmove
    [Rdb.asBytes "s", Rdb.asBytes ((dest i).getD ""), Rdb.asBytes "m"]

/-- Both check, then the first one moves, then the second one does. -/
def raced : List (Fin 2) := [0, 0, 1, 1, 0, 0, 0, 0, 1, 1, 1]

/-- One after the other. -/
def inTurn : List (Fin 2) := [0, 0, 0, 0, 0, 0, 1, 1]

theorem start_versioned : start.state.Versioned content := by
  intro key e token hkey
  by_cases hk : key = "s"
  · subst hk
    cases hkey
    rfl
  · dsimp only [start] at hkey
    rw [Function.update_of_ne hk] at hkey
    cases hkey

theorem smoveRun (schedule : List (Fin 2))
    (hdone : ∀ i, ∃ r, (Pool.exec (faultless content tokenOf) schedule start).prog i =
      .done (.ok r)) :
    SmoveRun content "s" "m" dest start (Pool.exec (faultless content tokenOf) schedule start)
      (Pool.trace (faultless content tokenOf) schedule start) where
  versioned := start_versioned
  run := Pool.exec_trace (faultless_service content tokenOf) schedule start
  prog i k hi := by simp only [start, hi, Option.getD_some]
  done i _ _ := hdone i
  others ev _ hwho := by
    exfalso
    revert hwho
    generalize ev.who = i
    revert i
    decide

end TwoMovers

open TwoMovers in
/-- Two `SMOVE`s of the same member both reply `1` and both add it. -/
theorem smove_duplicates_member :
    ∃ evs d, Commands.SmoveRun TwoMovers.content "s" "m" TwoMovers.dest TwoMovers.start d evs ∧
      TwoMovers.start.state.memberAt "m" "s" = true ∧
      d.prog 0 = .done (.ok (.integer 1)) ∧ d.prog 1 = .done (.ok (.integer 1)) ∧
      d.state.memberAt "m" "a" = true ∧ d.state.memberAt "m" "b" = true := by
  refine ⟨_, _, smoveRun raced ?_, by decide, rfl, rfl, by decide +kernel, by decide +kernel⟩
  intro i
  match i with
  | 0 => exact ⟨_, rfl⟩
  | 1 => exact ⟨_, rfl⟩

open TwoMovers in
theorem smove_moves_once_iff_on_inTurn :
    ∃ evs d, Commands.SmoveRun TwoMovers.content "s" "m" TwoMovers.dest TwoMovers.start d evs ∧
      d.prog 1 = .done (.ok (.integer 0)) ∧
      Commands.MovedOnce "s" "m" TwoMovers.dest TwoMovers.start d := by
  have hrun := smoveRun inTurn (by
    intro i
    match i with
    | 0 => exact ⟨_, rfl⟩
    | 1 => exact ⟨_, rfl⟩)
  refine ⟨_, _, hrun, rfl, ?_⟩
  refine ((smove_moves_once_iff content "s" "m" dest start _ _ hrun).2 (by decide)).mpr ⟨?_, ?_⟩
  · exact ⟨0, "a", rfl, by decide⟩
  · intro i k hi hne
    unfold Commands.FindsMember
    match i with
    | 0 => decide +kernel
    | 1 => decide +kernel

end RustyAnt
