import RustyAnt.DynamoDb.Races

/-!
# What a load sees

`load` reads the index and then the data table the index points at.  A row that
it finds was stored at some moment between the two reads.  A row that it misses
may have moved to another table, because a writer has changed the key's kind.
-/

namespace RustyAnt

open Lib

namespace DynamoDb

/-- The program of a call with what a load returns; writes return nothing. -/
def Call.answer (fo : FloatOps) : Call → Ddb (Option (StoredValue × String))
  | load key => DynamoDb.load key
  | save key entry cond => do
      DynamoDb.save fo key entry cond
      return none
  | delete key cond => do
      DynamoDb.delete key cond
      return none

theorem answer_requests (fo : FloatOps) (c : Call) : (c.answer fo).Requests Sends := by
  cases c with
  | load key => exact load_requests key
  | save key entry cond =>
      exact Prog.Requests.bind (save_requests fo key entry cond) fun _ => Prog.Requests.done _
  | delete key cond =>
      exact Prog.Requests.bind (delete_requests key cond) fun _ => Prog.Requests.done _

/-- The index points at this row of this table. -/
def HeldAt (t : Tables) (key : String) (k : ValueKind) (row : DataRow) : Prop :=
  Observes t key (some k) ∧ (t.data k)[key]? = some row

theorem linked_found {t : Tables} (h : t.Linked) {key : String} {k : ValueKind}
    (hobs : Observes t key (some k)) : (t.data k)[key]? ≠ none := by
  obtain ⟨ttl, hidx⟩ := hobs
  obtain ⟨k', hk, hmem⟩ := h key _ hidx
  rw [ValueKind.asStr_injective hk]
  rw [Std.ExtTreeMap.mem_iff_isSome_getElem?] at hmem
  exact Option.isSome_iff_ne_none.mp hmem

section Window

variable {ι : Type} [DecidableEq ι] {α : ι → Type}
variable {c d : Pool DdbOp DdbOp.Res RustyAntError Tables α} {evs : List (DdbEvent ι)}
variable {key : String} {k : ValueKind}

/-- The states a run passes through. -/
def Passes (t : Tables) (evs : List (DdbEvent ι)) (s : Tables) : Prop :=
  s = t ∨ ∃ ev ∈ evs, s = ev.after

omit [DecidableEq ι] in
theorem Passes.snoc {t s : Tables} {ev : DdbEvent ι} (h : Passes t evs s) :
    Passes t (evs ++ [ev]) s := by
  rcases h with h | ⟨x, hx, h⟩
  · exact .inl h
  · exact .inr ⟨x, List.mem_append_left _ hx, h⟩

/-- A run on requests of the backend that starts where the index shows the kind
`k`: a row of that kind found at the end was the stored one at some point. -/
theorem held_of_found
    (hrun : Pool.Run (fun s op answer s' => atomicService s op answer s' ∧ Sends op) c evs d)
    (hstart : Observes c.state key (some k)) {row : DataRow}
    (hrow : (d.state.data k)[key]? = some row) :
    ∃ t, Passes c.state evs t ∧ HeldAt t key k row := by
  induction hrun with
  | nil => exact ⟨c.state, .inl rfl, hstart, hrow⟩
  | @snoc evs ev d e hrun hs ih =>
      have hkeep : (d.state.data k)[key]? = some row →
          ∃ t, Passes c.state (evs ++ [ev]) t ∧ HeldAt t key k row := by
        intro hold
        obtain ⟨t, hpass, hheld⟩ := ih hold
        exact ⟨t, hpass.snoc, hheld⟩
      have hstep := keyStep_of_serve hs.serve.1 hs.serve.2 key
      rw [hs.before_eq, hs.after_eq] at hstep
      rcases hstep with hsame | ⟨entry, row', observed, -, hindex, hdata⟩ | ⟨kind, -, hdata⟩
      · rw [hsame.2 k] at hrow
        exact hkeep hrow
      · have hfound := hrow
        rw [hdata k] at hrow
        split at hrow
        · rename_i hk
          refine ⟨e.state, .inr ⟨ev, by simp, hs.after_eq.symm⟩, ⟨ttlOf entry, ?_⟩, hfound⟩
          rw [hindex, hk]
        · split at hrow
          · cases hrow
          · exact hkeep hrow
      · rw [hdata k] at hrow
        split at hrow
        · cases hrow
        · exact hkeep hrow

/-- From there on the key is missing at some point, or the index still shows a
kind, and if it is another one then the row of kind `k` is gone. -/
theorem swept_of_changed
    (hrun : Pool.Run (fun s op answer s' => atomicService s op answer s' ∧ Sends op) c evs d)
    (hstart : Observes c.state key (some k)) :
    (∃ t, Passes c.state evs t ∧ t.index[key]? = none) ∨
      ∃ k', Observes d.state key (some k') ∧ (k' ≠ k → (d.state.data k)[key]? = none) := by
  induction hrun with
  | nil => exact .inr ⟨k, hstart, fun hne => absurd rfl hne⟩
  | @snoc evs ev d e hrun hs ih =>
      rcases ih with ⟨t, hpass, hnone⟩ | ⟨k', hobs', hgone⟩
      · exact .inl ⟨t, hpass.snoc, hnone⟩
      have hstep := keyStep_of_serve hs.serve.1 hs.serve.2 key
      rw [hs.before_eq, hs.after_eq] at hstep
      rcases hstep with hsame | ⟨entry, row', observed, hobs, hindex, hdata⟩ | ⟨kind, hindex, -⟩
      · refine .inr ⟨k', ?_, fun hne => ?_⟩
        · rw [observes_iff] at hobs' ⊢
          rw [← hobs', kindAt, hsame.1, kindAt]
        · rw [hsame.2 k]
          exact hgone hne
      · refine .inr ⟨entry.kind, ⟨_, hindex⟩, fun hne => ?_⟩
        rw [observes_iff] at hobs hobs'
        rw [hdata k, if_neg hne.symm]
        split
        · rfl
        · rename_i hother
          refine hgone fun heq => hother ?_
          rw [hobs', heq] at hobs
          cases observed with
          | none => cases hobs
          | some k₀ =>
              rw [Option.map_some, Option.map_some, Option.some.injEq] at hobs
              rw [ValueKind.asStr_injective hobs]
      · exact .inl ⟨e.state, .inr ⟨ev, by simp, hs.after_eq.symm⟩, hindex⟩

end Window

/-! ## The requests of a load -/

section Requests

variable {ι : Type} {key : String}

/-- The collection of an expired row only sends a transaction. -/
theorem deleteIfMatch_requests (key token : String) :
    (delete key (.ifMatch token)).Requests fun op => ∃ items, op = .transact items := by
  refine Prog.Requests.bind (Prog.Requests.done _) fun p => ?_
  refine Prog.Requests.bind (Prog.Requests.perform ⟨_, rfl⟩) fun out => ?_
  cases out <;> exact Prog.Requests.done _

/-- The outcome of a load whose index read has found the kind `k`, from its data
read and what it asks afterwards. -/
inductive GetsOne (key : String) (k : ValueKind) (data : DdbEvent ι) (rest : List (DdbEvent ι)) :
    Result (Option (StoredValue × String)) → Prop
  | missing (hrow : (data.before.data k)[key]? = none) (hrest : rest = []) :
      GetsOne key k data rest (.ok none)
  | garbled (row : DataRow) (e : RustyAntError) (hrow : (data.before.data k)[key]? = some row)
      (hrest : rest = []) : GetsOne key k data rest (.error e)
  | expired (row : DataRow) (entry : StoredValue) (now : Int) (who : ι) (s s' : Tables)
      (gc : List (DdbEvent ι)) (hrow : (data.before.data k)[key]? = some row)
      (hdec : Codec.storedValue.dec row.data = .ok entry) (hexpired : entry.isExpired now)
      (hrest : rest = ⟨who, .nowMs, .ok now, s, s'⟩ :: gc)
      (hgc : ∀ ev ∈ gc, ∃ items, ev.op = .transact items) : GetsOne key k data rest (.ok none)
  | live (row : DataRow) (entry : StoredValue) (now : Int) (who : ι) (s s' : Tables)
      (hrow : (data.before.data k)[key]? = some row)
      (hdec : Codec.storedValue.dec row.data = .ok entry) (hlive : entry.isExpired now = false)
      (hrest : rest = [⟨who, .nowMs, .ok now, s, s'⟩]) :
      GetsOne key k data rest (.ok (some (entry, encodeToken k row.version)))

theorem getOne_follows {k : ValueKind} {evs : List (DdbEvent ι)}
    {r : Result (Option (StoredValue × String))}
    (h : Pool.Follows (getOne k key) evs (.done r))
    (hserve : ∀ ev ∈ evs, atomicService ev.before ev.op ev.answer ev.after) :
    ∃ data rest, evs = data :: rest ∧ data.op = .getData k key ∧ GetsOne key k data rest r := by
  rcases Pool.Follows.call_inv h with ⟨-, hq⟩ | ⟨who, answer, before, after, rest, rfl, hrest⟩
  · cases hq
  rw [List.forall_mem_cons] at hserve
  obtain ⟨hdata, hserve⟩ := hserve
  dsimp only at hdata
  cases hdata with
  | getData _ _ _ =>
      refine ⟨_, rest, rfl, rfl, ?_⟩
      cases hrow : (before.data k)[key]? with
      | none =>
          rw [hrow] at hrest
          obtain ⟨rfl, hr⟩ := Pool.Follows.done_inv hrest
          cases hr
          exact .missing hrow rfl
      | some row =>
          rw [hrow] at hrest
          cases hdec : Codec.storedValue.dec row.data with
          | error e =>
              have hdone : Pool.Follows ((Prog.done (Codec.storedValue.dec row.data) :
                Ddb StoredValue).bind _) rest (.done r) := hrest
              rw [hdec] at hdone
              obtain ⟨rfl, hr⟩ := Pool.Follows.done_inv hdone
              cases hr
              exact .garbled row e hrow rfl
          | ok entry =>
              have hdone : Pool.Follows ((Prog.done (Codec.storedValue.dec row.data) :
                Ddb StoredValue).bind _) rest (.done r) := hrest
              rw [hdec] at hdone
              rcases Pool.Follows.call_inv hdone with
                ⟨-, hq⟩ | ⟨who', answer, before', after', evs', rfl, hclock⟩
              · cases hq
              rw [List.forall_mem_cons] at hserve
              obtain ⟨hnow, -⟩ := hserve
              dsimp only at hnow
              cases hnow with
              | nowMs _ now =>
                  have hnext : Pool.Follows
                      (if entry.isExpired now then
                        (delete key (.ifMatch (encodeToken k row.version))).attempt.bind
                          fun _ => Prog.done (.ok none)
                      else Prog.done (.ok (some (entry, encodeToken k row.version))))
                      evs' (.done r) := hclock
                  cases hexpired : entry.isExpired now with
                  | false =>
                      rw [hexpired, if_neg Bool.false_ne_true] at hnext
                      obtain ⟨rfl, hr⟩ := hnext.done_inv
                      cases hr
                      exact .live row entry now who' _ _ hrow hdec hexpired rfl
                  | true =>
                      rw [hexpired, if_pos rfl] at hnext
                      have hgc := Prog.Obeys.attempt
                        (deleteIfMatch_requests key (encodeToken k row.version))
                      rcases hnext.bind_inv with ⟨_, _, -, hq⟩ | ⟨gc, evs₂, out, rfl, hdel, hlast⟩
                      · cases hq
                      obtain ⟨out', rfl, -⟩ := hdel.obeys_rest hgc fun _ _ => trivial
                      obtain ⟨rfl, hr⟩ := Pool.Follows.done_inv hlast
                      cases hr
                      rw [List.append_nil]
                      exact .expired row entry now who' _ _ gc hrow hdec hexpired rfl
                        (hdel.obeys hgc fun _ _ => trivial)

theorem load_follows {evs : List (DdbEvent ι)} {r : Result (Option (StoredValue × String))}
    (h : Pool.Follows (load key) evs (.done r))
    (hserve : ∀ ev ∈ evs, atomicService ev.before ev.op ev.answer ev.after)
    (hlinked : ∀ ev ∈ evs, ev.before.Linked) :
    ∃ (read : DdbEvent ι), read.op = .getIndex key ∧ read.after = read.before ∧
      ((evs = [read] ∧ read.before.index[key]? = none ∧ r = .ok none) ∨
        ∃ (k : ValueKind) (data : DdbEvent ι) (rest : List (DdbEvent ι)),
          evs = read :: data :: rest ∧ Observes read.before key (some k) ∧
          data.op = .getData k key ∧ GetsOne key k data rest r) := by
  rcases Pool.Follows.bind_inv (p := readIndexKind key) h with
    ⟨_, _, -, hq⟩ | ⟨reads, evs₂, out, rfl, hread, hnext⟩
  · cases hq
  rw [List.forall_mem_append] at hserve hlinked
  rcases readIndexKind_follows hread hserve.1 hlinked.1 with
    ⟨-, hq⟩ | ⟨read, observed, rfl, hop, hsame, hobs, hq⟩
  · exact absurd rfl (hq _)
  cases hq
  refine ⟨read, hop, hsame, ?_⟩
  cases observed with
  | none =>
      obtain ⟨rfl, hr⟩ := Pool.Follows.done_inv hnext
      cases hr
      exact .inl ⟨rfl, hobs, rfl⟩
  | some k =>
      obtain ⟨data, rest, rfl, hdata, hgets⟩ := getOne_follows hnext hserve.2
      exact .inr ⟨k, data, rest, rfl, hobs, hdata, hgets⟩

theorem GetsOne.rest_op {k : ValueKind} {data : DdbEvent ι} {rest : List (DdbEvent ι)}
    {r : Result (Option (StoredValue × String))} (h : GetsOne key k data rest r) :
    ∀ ev ∈ rest, ev.op = .nowMs ∨ ∃ items, ev.op = .transact items := by
  cases h with
  | missing _ hrest => simp [hrest]
  | garbled _ _ _ hrest => simp [hrest]
  | expired row entry now who s s' gc _ _ _ hrest hgc =>
      rw [hrest, List.forall_mem_cons]
      exact ⟨.inl rfl, fun ev hev => .inr (hgc ev hev)⟩
  | live row entry now who s s' _ _ _ hrest =>
      rw [hrest, List.forall_mem_singleton]
      exact .inl rfl

theorem GetsOne.of_missing {k : ValueKind} {data : DdbEvent ι} {rest : List (DdbEvent ι)}
    {r : Result (Option (StoredValue × String))} (h : GetsOne key k data rest r)
    (hrow : (data.before.data k)[key]? = none) : rest = [] ∧ r = .ok none := by
  cases h with
  | missing _ hrest => exact ⟨hrest, rfl⟩
  | garbled row _ hrow' _ => simp [hrow] at hrow'
  | expired row _ _ _ _ _ _ hrow' _ _ _ _ => simp [hrow] at hrow'
  | live row _ _ _ _ _ hrow' _ _ _ => simp [hrow] at hrow'

theorem load_reads {k : ValueKind} {read data : DdbEvent ι} {rest : List (DdbEvent ι)}
    (hread : read.op = .getIndex key) (hdata : data.op = .getData k key)
    (hrest : ∀ ev ∈ rest, ev.op = .nowMs ∨ ∃ items, ev.op = .transact items) {x y : DdbEvent ι}
    (hx : x ∈ read :: data :: rest) (hy : y ∈ read :: data :: rest)
    (hxop : x.op = .getIndex key) (hyop : ∃ k', y.op = .getData k' key) : x = read ∧ y = data := by
  obtain ⟨k', hyop⟩ := hyop
  constructor
  · rcases List.mem_cons.mp hx with rfl | hx
    · rfl
    rcases List.mem_cons.mp hx with rfl | hx
    · rw [hdata] at hxop
      cases hxop
    · rcases hrest x hx with hop | ⟨items, hop⟩ <;> rw [hop] at hxop <;> cases hxop
  · rcases List.mem_cons.mp hy with rfl | hy
    · rw [hread] at hyop
      cases hyop
    rcases List.mem_cons.mp hy with rfl | hy
    · rfl
    · rcases hrest y hy with hop | ⟨items, hop⟩ <;> rw [hop] at hyop <;> cases hyop

end Requests

/-! ## Spurious misses -/

section Runs

variable {ι : Type}

/-- The tables stood like `t` at some moment from the index read of program `i` to
its next request. -/
def Moment (i : ι) (key : String) (evs : List (DdbEvent ι)) (t : Tables) : Prop :=
  ∃ pre read rest, evs = pre ++ read :: rest ∧ read.who = i ∧ read.op = .getIndex key ∧
    (t = read.before ∨ ∃ mid next post, rest = mid ++ next :: post ∧ (∀ ev ∈ mid, ev.who ≠ i) ∧
      next.who = i ∧ Passes read.after mid t)

theorem Moment.mem {i : ι} {key : String} {evs : List (DdbEvent ι)} {t : Tables}
    (h : Moment i key evs t) : ∃ ev ∈ evs, t = ev.before ∨ t = ev.after := by
  obtain ⟨pre, read, rest, rfl, -, -, ht | ⟨mid, next, post, rfl, -, -, ht | ⟨ev, hev, ht⟩⟩⟩ := h
  · exact ⟨read, by simp, .inl ht⟩
  · exact ⟨read, by simp, .inr ht⟩
  · exact ⟨ev, by simp [hev], .inr ht⟩

def ReadClock (i : ι) (evs : List (DdbEvent ι)) (now : Int) : Prop :=
  ∃ s s', (⟨i, .nowMs, .ok now, s, s'⟩ : DdbEvent ι) ∈ evs

/-- The load of program `i` returns nothing only if at some moment between its reads
the key was missing or what it held is expired, and an entry only if the key held
it at such a moment. -/
def LoadFaithful (i : ι) (key : String) (evs : List (DdbEvent ι))
    (r : Result (Option (StoredValue × String))) : Prop :=
  (r = .ok none → ∃ t, Moment i key evs t ∧ (t.index[key]? = none ∨
    ∃ k row entry now, HeldAt t key k row ∧ Codec.storedValue.dec row.data = .ok entry ∧
      ReadClock i evs now ∧ entry.isExpired now)) ∧
  ∀ entry token, r = .ok (some (entry, token)) → ∃ t k row, Moment i key evs t ∧
    HeldAt t key k row ∧ Codec.storedValue.dec row.data = .ok entry ∧
      token = encodeToken k row.version

/-- At the data read of program `i` the index shows the kind it showed at `i`'s
index read, unless the key was missing at some moment between. -/
def KindKept (i : ι) (key : String) (evs : List (DdbEvent ι)) : Prop :=
  ∀ read ∈ evs, ∀ data ∈ evs, read.who = i → data.who = i → read.op = .getIndex key →
    (∃ k, data.op = .getData k key) →
      kindAt data.before key = kindAt read.before key ∨
        ∃ t, Moment i key evs t ∧ t.index[key]? = none

theorem load_window [DecidableEq ι] {α : ι → Type}
    {c d : Pool DdbOp DdbOp.Res RustyAntError Tables α} {evs : List (DdbEvent ι)}
    {service : Service DdbOp DdbOp.Res RustyAntError Tables}
    (hrun : Pool.Run service c evs d) {i : ι} {key : String} {read data : DdbEvent ι}
    {rest : List (DdbEvent ι)}
    (hevs : evs.filter (fun ev => ev.who = i) = read :: data :: rest)
    (hread : read.op = .getIndex key) :
    ∃ (m m' : Pool DdbOp DdbOp.Res RustyAntError Tables α) (mid : List (DdbEvent ι)),
      Pool.Run service m mid m' ∧ m.state = read.after ∧ m'.state = data.before ∧
      ∀ t, Passes m.state mid t → Moment i key evs t := by
  obtain ⟨pre, evs₁, rfl, -, hwho, hevs₁⟩ := List.filter_eq_cons_iff.mp hevs
  obtain ⟨mid, post, rfl, hmid, hwho', -⟩ := List.filter_eq_cons_iff.mp hevs₁
  obtain ⟨m, m', hbetween, hm, hm'⟩ := hrun.between
  refine ⟨m, m', mid, hbetween, hm, hm', fun t ht => ?_⟩
  rw [hm] at ht
  exact ⟨pre, read, mid ++ data :: post, rfl, by simpa using hwho, hread,
    .inr ⟨mid, data, post, rfl, by simpa using hmid, by simpa using hwho', ht⟩⟩

theorem faithful_of_noRow [DecidableEq ι] {i : ι} {key : String} {evs : List (DdbEvent ι)}
    {read : DdbEvent ι} (hevs : evs.filter (fun ev => ev.who = i) = [read])
    (hread : read.op = .getIndex key) (hnone : read.before.index[key]? = none) :
    LoadFaithful i key evs (.ok none) ∧ KindKept i key evs := by
  refine ⟨⟨fun _ => ⟨read.before, ?_, .inl hnone⟩, nofun⟩, ?_⟩
  · obtain ⟨pre, rest, rfl, -, hwho, -⟩ := List.filter_eq_cons_iff.mp hevs
    exact ⟨pre, read, rest, rfl, by simpa using hwho, hread, .inl rfl⟩
  · rintro _ _ y hy _ hyi _ ⟨k, hyop⟩
    have hmem : y ∈ evs.filter fun ev => ev.who = i := by simp [hy, hyi]
    rw [hevs] at hmem
    rw [List.mem_singleton.mp hmem, hread] at hyop
    cases hyop

/-- Both reads of a load by program `i`, and what other clients can have done between them. -/
structure ReadsBoth (i : ι) (key : String) (k : ValueKind) (evs : List (DdbEvent ι))
    (read data : DdbEvent ι) (rest : List (DdbEvent ι)) : Prop where
  own : ∀ ev, ev ∈ read :: data :: rest ↔ ev ∈ evs ∧ ev.who = i
  readOp : read.op = .getIndex key
  dataOp : data.op = .getData k key
  kind : kindAt read.before key = some k.asStr
  linked : data.before.Linked
  changed : (∃ t, Moment i key evs t ∧ t.index[key]? = none) ∨
    ∃ k', Observes data.before key (some k') ∧ (k' ≠ k → (data.before.data k)[key]? = none)
  held : ∀ row, (data.before.data k)[key]? = some row →
    ∃ t, Moment i key evs t ∧ HeldAt t key k row

theorem readsBoth_of_run [DecidableEq ι] {α : ι → Type}
    {c d : Pool DdbOp DdbOp.Res RustyAntError Tables α} {evs : List (DdbEvent ι)}
    (hrun : Pool.Run (fun s op answer s' => atomicService s op answer s' ∧ Sends op) c evs d)
    {i : ι} {key : String} {k : ValueKind}
    {read data : DdbEvent ι} {rest : List (DdbEvent ι)}
    (hevs : evs.filter (fun ev => ev.who = i) = read :: data :: rest)
    (hread : read.op = .getIndex key) (hsame : read.after = read.before)
    (hobs : Observes read.before key (some k)) (hdata : data.op = .getData k key)
    (hlinked : data.before.Linked) : ReadsBoth i key k evs read data rest := by
  obtain ⟨m, m', mid, hmid, hm, hm', hmoment⟩ := load_window hrun hevs hread
  have hstart : Observes m.state key (some k) := by
    rw [hm, hsame]
    exact hobs
  refine ⟨fun ev => by simp [← hevs], hread, hdata, observes_iff.mp hobs, hlinked, ?_, ?_⟩
  · rw [← hm']
    apply (swept_of_changed hmid hstart).imp_left
    rintro ⟨t, hpass, hnone⟩
    exact ⟨t, hmoment t hpass, hnone⟩
  · intro row hrow
    rw [← hm'] at hrow
    obtain ⟨t, hpass, hheld⟩ := held_of_found hmid hstart hrow
    exact ⟨t, hmoment t hpass, hheld⟩

section ReadsBoth

variable {i : ι} {key : String} {k : ValueKind} {evs : List (DdbEvent ι)} {read data : DdbEvent ι}
  {rest : List (DdbEvent ι)} {r : Result (Option (StoredValue × String))}

theorem ReadsBoth.kindKept (h : ReadsBoth i key k evs read data rest)
    (hgets : GetsOne key k data rest r) (hfaithful : LoadFaithful i key evs r) :
    KindKept i key evs := by
  intro x hx y hy hxi hyi hxop hyop
  obtain ⟨hxr, hyd⟩ := load_reads h.readOp h.dataOp hgets.rest_op ((h.own x).mpr ⟨hx, hxi⟩)
    ((h.own y).mpr ⟨hy, hyi⟩) hxop hyop
  rw [hxr, hyd]
  rcases h.changed with hmissing | ⟨k', hobs', hgone⟩
  · exact .inr hmissing
  by_cases hk : k' = k
  · rw [hk, observes_iff] at hobs'
    exact .inl (hobs'.trans h.kind.symm)
  · obtain ⟨rfl, rfl⟩ := hgets.of_missing (hgone hk)
    obtain ⟨t, ht, hnone | ⟨-, -, -, now, -, -, ⟨s, s', hclock⟩, -⟩⟩ := hfaithful.1 rfl
    · exact .inr ⟨t, ht, hnone⟩
    · -- a load that finds no row reads no clock
      have hev := (h.own _).mpr ⟨hclock, rfl⟩
      simp only [List.mem_cons, List.not_mem_nil, or_false] at hev
      rcases hev with rfl | rfl
      · cases h.readOp
      · cases h.dataOp

theorem ReadsBoth.faithful (h : ReadsBoth i key k evs read data rest)
    (hgets : GetsOne key k data rest r) (hkept : KindKept i key evs) :
    LoadFaithful i key evs r := by
  obtain ⟨hread, hreadi⟩ := (h.own read).mp List.mem_cons_self
  obtain ⟨hdata, hdatai⟩ := (h.own data).mp (List.mem_cons_of_mem _ List.mem_cons_self)
  constructor
  · intro hr
    rcases hkept read hread data hdata hreadi hdatai h.readOp ⟨k, h.dataOp⟩ with
      hsteady | ⟨t, ht, hnone⟩
    · have hpresent := linked_found h.linked (observes_iff.mpr (hsteady.trans h.kind))
      rw [hr] at hgets
      cases hgets with
      | missing hrow _ => exact absurd hrow hpresent
      | expired row entry now who s s' gc hrow hdec hexpired hrest _ =>
          obtain ⟨t, ht, hheld⟩ := h.held row hrow
          refine ⟨t, ht, .inr ⟨k, row, entry, now, hheld, hdec, ⟨s, s', ?_⟩, hexpired⟩⟩
          obtain ⟨hclock, hwho⟩ := (h.own ⟨who, .nowMs, .ok now, s, s'⟩).mp (by simp [hrest])
          rw [← hwho]
          exact hclock
    · exact ⟨t, ht, .inl hnone⟩
  · intro entry token hr
    cases hr
    cases hgets with
    | live row _ now who s s' hrow hdec _ _ =>
        obtain ⟨t, ht, hheld⟩ := h.held row hrow
        exact ⟨t, k, row, ht, hheld, hdec, rfl⟩

end ReadsBoth

/-- For every interleaving with other clients' loads, saves and deletes, a load is
faithful if and only if no kind change has overtaken it. -/
theorem load_faithful_iff [DecidableEq ι] (fo : FloatOps) (calls : ι → Call) (t : Tables)
    (ht : t.Linked) (evs : List (DdbEvent ι))
    (d : Pool DdbOp DdbOp.Res RustyAntError Tables
      fun _ : ι => Option (StoredValue × String))
    (hrun : Pool.Run atomicService ⟨t, fun i => (calls i).answer fo⟩ evs d) (i : ι) (key : String)
    (hcall : calls i = .load key) (r : Result (Option (StoredValue × String)))
    (hdone : d.prog i = .done r) :
    LoadFaithful i key evs r ↔ KindKept i key evs := by
  have hsends : ∀ j, (((⟨t, fun i => (calls i).answer fo⟩ :
      Pool DdbOp DdbOp.Res RustyAntError Tables
        fun _ : ι => Option (StoredValue × String)).prog j)).Requests Sends :=
    fun j => answer_requests fo (calls j)
  have hlinked := (linked_run hrun hsends ht).2
  have hfollows := hrun.follows i
  simp only [hcall, hdone] at hfollows
  have hown : ∀ ev, ev ∈ evs.filter (fun ev => ev.who = i) ↔ ev ∈ evs ∧ ev.who = i := by simp
  obtain ⟨read, hread, hsame, hcases⟩ := load_follows hfollows
    (fun ev hev => hrun.serve ev ((hown ev).mp hev).1)
    (fun ev hev => (hlinked ev ((hown ev).mp hev).1).1)
  rcases hcases with ⟨hevs, hnone, rfl⟩ | ⟨k, data, rest, hevs, hobs, hdata, hgets⟩
  · obtain ⟨hfaithful, hkept⟩ := faithful_of_noRow hevs hread hnone
    exact iff_of_true hfaithful hkept
  · have hdatas := (hown data).mp (by simp [hevs])
    have hboth := readsBoth_of_run (hrun.restrict hsends) hevs hread hsame hobs hdata
      (hlinked data hdatas.1).1
    exact ⟨hboth.kindKept hgets, hboth.faithful hgets⟩

end Runs

/-- One client loads a key while another overwrites its hash with a string. -/
def loadAndSet : Fin 2 → Call
  | 0 => .load "k"
  | 1 => .save "k" ⟨none, .string []⟩ .any

def hashStored : Tables :=
  Tables.empty.applyAll (saveItems "k" ⟨none, .hash {("f", [])}⟩
    (Codec.storedValue.enc ⟨none, .hash {("f", [])}⟩) "0" none none)

theorem hashStored_linked : hashStored.Linked := by
  have hall : (saveItems "k" ⟨none, .hash {("f", [])}⟩
      (Codec.storedValue.enc ⟨none, .hash {("f", [])}⟩) "0" none none).all
      (TransactItem.holds Tables.empty) := by decide
  exact (agree_saveItems Tables.agree_empty _ _ _ _ _ _ hall).linked

def loadAndSetStart : Pool DdbOp DdbOp.Res RustyAntError Tables
    fun _ : Fin 2 => Option (StoredValue × String) :=
  ⟨hashStored, fun i => (loadAndSet i).answer .integral⟩

/-- The set commits between the two reads of the load, or after them. -/
def overtaken : List (Fin 2) := [0, 1, 1, 1, 0]

def inOrder : List (Fin 2) := [0, 0, 0, 1, 1, 1]

theorem load_misses_on_loadAndSet :
    ∃ evs d, Pool.Run atomicService loadAndSetStart evs d ∧ d.prog 0 = .done (.ok none) ∧
      (∀ ev ∈ evs, ev.before.index["k"]? ≠ none ∧ ev.after.index["k"]? ≠ none) ∧
      ¬ LoadFaithful 0 "k" evs (.ok none) := by
  have hlive : ∀ ev ∈ Pool.trace (Tables.serve 0 0) overtaken loadAndSetStart,
      ev.before.index["k"]? ≠ none ∧ ev.after.index["k"]? ≠ none := by
    decide +kernel
  have hclock : ∀ ev ∈ Pool.trace (Tables.serve 0 0) overtaken loadAndSetStart,
      (match ev.op with | .nowMs => true | _ => false) = false := by
    decide +kernel
  refine ⟨_, _, Pool.exec_trace (Tables.serve_atomic 0 0) overtaken loadAndSetStart, rfl, hlive,
    fun hfaithful => ?_⟩
  obtain ⟨t, ht, hnone | ⟨-, -, -, now, -, -, ⟨s, s', hread⟩, -⟩⟩ := hfaithful.1 rfl
  · obtain ⟨ev, hev, rfl | rfl⟩ := ht.mem
    · exact (hlive ev hev).1 hnone
    · exact (hlive ev hev).2 hnone
  · exact absurd (hclock _ hread) nofun

theorem load_faithful_iff_on_loadAndSet :
    ∃ evs d r, Pool.Run atomicService loadAndSetStart evs d ∧ d.prog 0 = .done r ∧
      (LoadFaithful 0 "k" evs r ↔ KindKept 0 "k" evs) := by
  have hrun := Pool.exec_trace (Tables.serve_atomic 0 0) inOrder loadAndSetStart
  refine ⟨_, _, .ok (some (⟨none, .hash {("f", [])}⟩, "hash:0")), hrun, rfl, ?_⟩
  exact load_faithful_iff .integral loadAndSet hashStored hashStored_linked _ _ hrun 0 "k" rfl _ rfl

end DynamoDb

end RustyAnt
