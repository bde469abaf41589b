import RustyAnt.S3.Backend
import RustyAnt.Storage.RoundTrip

/-!
# Garbage collection on S3

`S3Storage::load` collects an expired object in two requests: the read that
finds it expired and an unconditional delete.  The delete removes whatever is
stored by then.  If every write that lands between the two is gone again before
the delete, the collection only removes what was read, and live entries are
removed by explicit deletes only; a write that stays is lost.
-/

namespace RustyAnt

open Lib

/-- The objects under the prefix, and the time. -/
structure Bucket where
  objects : BTreeMap String S3Object
  clock : Int

/-- S3 as a shared service: every request is atomic and checks its precondition,
a refused or failed request changes nothing, and time never runs backwards. -/
inductive s3Service : Service S3Op S3Op.Res RustyAntError Bucket
  | getObject (b : Bucket) (key : String) (now : Int) (hnow : b.clock ≤ now) :
      s3Service b (.getObject key) (.ok (b.objects[key]? : Option S3Object)) { b with clock := now }
  | putObject (b : Bucket) (key : String) (body : Json) (etag : String) (cond : WriteCondition)
      (now : Int) (hnow : b.clock ≤ now) (hcond : cond.Allows b.objects[key]?) :
      s3Service b (.putObject key body cond) (.ok S3Outcome.done)
        ⟨b.objects.insert key ⟨body, etag⟩, now⟩
  | deleteObject (b : Bucket) (key : String) (cond : DeleteCondition) (now : Int)
      (hnow : b.clock ≤ now) (hcond : cond.Allows b.objects[key]?) :
      s3Service b (.deleteObject key cond) (.ok S3Outcome.done) ⟨b.objects.erase key, now⟩
  | putRefused (b : Bucket) (key : String) (body : Json) (cond : WriteCondition) (now : Int)
      (hnow : b.clock ≤ now) :
      s3Service b (.putObject key body cond) (.ok S3Outcome.preconditionFailed)
        { b with clock := now }
  | deleteRefused (b : Bucket) (key : String) (cond : DeleteCondition) (now : Int)
      (hnow : b.clock ≤ now) :
      s3Service b (.deleteObject key cond) (.ok S3Outcome.preconditionFailed)
        { b with clock := now }
  | listObjects (b : Bucket) (cursor : Option String) (maxKeys : Nat) (page : ListPage) (now : Int)
      (hnow : b.clock ≤ now) :
      s3Service b (.listObjects cursor maxKeys) (.ok page) { b with clock := now }
  | nowMs (b : Bucket) (now : Int) (hnow : b.clock ≤ now) :
      s3Service b .nowMs (.ok now) { b with clock := now }
  | nanos (b : Bucket) (n : UInt64) (now : Int) (hnow : b.clock ≤ now) :
      s3Service b .nanos (.ok n) { b with clock := now }
  | fault (b : Bucket) (op : S3Op) (e : RustyAntError) (now : Int) (hnow : b.clock ≤ now) :
      s3Service b op (.error e) { b with clock := now }

abbrev S3Event (ι : Type) := Event S3Op S3Op.Res RustyAntError Bucket ι

namespace S3Storage

inductive Call where
  | load (key : String)
  | save (key : String) (entry : StoredValue) (cond : WriteCondition)
  | delete (key : String) (cond : DeleteCondition)

def Call.prog : Call → S3 Unit
  | load key => do
      let _ ← S3Storage.load key
      return ()
  | save key entry cond => S3Storage.save key entry cond
  | delete key cond => S3Storage.delete key cond

section Events

variable {ι : Type}

/-- A `PutObject` on `key` that went through. -/
def PutsAt (key : String) (ev : S3Event ι) : Prop :=
  ∃ who body cond before after,
    ev = ⟨who, .putObject key body cond, .ok S3Outcome.done, before, after⟩

/-- A `DeleteObject` on `key` that went through. -/
def DeletesAt (key : String) (ev : S3Event ι) : Prop :=
  ∃ who cond before after,
    ev = ⟨who, .deleteObject key cond, .ok S3Outcome.done, before, after⟩

theorem service_clock {b b' : Bucket} {op : S3Op} {answer : Result op.Res}
    (h : s3Service b op answer b') : b.clock ≤ b'.clock := by
  cases h <;> assumption

theorem DeletesAt.after_none {ev : S3Event ι} {key : String} (hdel : DeletesAt key ev)
    (h : s3Service ev.before ev.op ev.answer ev.after) : ev.after.objects[key]? = none := by
  obtain ⟨who, cond, before, after, rfl⟩ := hdel
  dsimp only at h
  cases h
  simp

theorem service_objects {ev : S3Event ι}
    (h : s3Service ev.before ev.op ev.answer ev.after) {key : String}
    (hput : ¬ PutsAt key ev) (hdel : ¬ DeletesAt key ev) :
    ev.after.objects[key]? = ev.before.objects[key]? := by
  obtain ⟨who, op, answer, before, after⟩ := ev
  dsimp only at h ⊢
  cases h with
  | putObject _ k body etag cond now hnow hcond =>
      have hk : k ≠ key := fun hk => hput (hk ▸ ⟨_, _, _, _, _, rfl⟩)
      simp [Std.ExtTreeMap.getElem?_insert, hk]
  | deleteObject _ k cond now hnow hcond =>
      have hk : k ≠ key := fun hk => hdel (hk ▸ ⟨_, _, _, _, rfl⟩)
      simp [Std.ExtTreeMap.getElem?_erase, hk]
  | getObject _ k now hnow => rfl
  | putRefused _ k body cond now hnow => rfl
  | deleteRefused _ k cond now hnow => rfl
  | listObjects _ cursor maxKeys page now hnow => rfl
  | nowMs _ now hnow => rfl
  | nanos _ n now hnow => rfl
  | fault _ _ e now hnow => rfl

/-- A collection: the three events of a `load` that found `entry` expired. -/
structure Collects (key : String) (obj : S3Object) (entry : StoredValue)
    (get now del : S3Event ι) : Prop where
  get_eq : ∃ who before after, get = ⟨who, .getObject key, .ok (some obj), before, after⟩
  dec_eq : Codec.storedValue.dec obj.body = .ok entry
  now_eq : ∃ who, ∃ t : Int, ∃ before after, now = ⟨who, .nowMs, .ok t, before, after⟩ ∧ entry.isExpired t
  del_op : del.op = .deleteObject key .any

theorem decodeObject_deletes {key : String} {obj : S3Object} {evs : List (S3Event ι)}
    {q : S3 Unit} (h : Pool.Follows ((decodeObject key obj).bind fun _ => pure ()) evs q)
    {ev : S3Event ι} (hev : ev ∈ evs) {k : String} {cond : DeleteCondition}
    (hop : ev.op = .deleteObject k cond) :
    ∃ now entry, evs = [now, ev] ∧ Codec.storedValue.dec obj.body = .ok entry ∧
      (∃ who, ∃ t : Int, ∃ before after, now = ⟨who, .nowMs, .ok t, before, after⟩ ∧ entry.isExpired t) ∧
      ev.op = .deleteObject key .any := by
  unfold decodeObject at h
  cases hdec : Codec.storedValue.dec obj.body with
  | error e =>
      rw [hdec] at h
      obtain ⟨rfl, -⟩ := Pool.Follows.done_inv h
      cases hev
  | ok entry =>
      rw [hdec] at h
      rcases Pool.Follows.call_inv h with ⟨rfl, -⟩ | ⟨who, answer, before, after, rest, rfl, hk⟩
      · cases hev
      have hmem : ev ∈ rest := by
        rcases List.mem_cons.mp hev with rfl | hev
        · cases hop
        · exact hev
      cases answer with
      | error e =>
          obtain ⟨rfl, -⟩ := Pool.Follows.done_inv hk
          cases hmem
      | ok t =>
          cases hexp : entry.isExpired t with
          | false =>
              simp only [Prog.bind_eq, Prog.done_ok_bind, hexp, Bool.false_eq_true, if_false] at hk
              obtain ⟨rfl, -⟩ := Pool.Follows.done_inv hk
              cases hmem
          | true =>
              simp only [Prog.bind_eq, Prog.done_ok_bind, hexp, if_true] at hk
              rcases Pool.Follows.call_inv hk with
                ⟨rfl, -⟩ | ⟨who', answer', before', after', last, rfl, hlast⟩
              · cases hmem
              have hnil : last = [] := by
                cases answer' with
                | error e => exact (Pool.Follows.done_inv hlast).1
                | ok out => cases out <;> exact (Pool.Follows.done_inv hlast).1
              subst hnil
              rw [List.mem_singleton] at hmem
              subst hmem
              exact ⟨_, entry, rfl, rfl, ⟨_, t, _, _, rfl, hexp⟩, rfl⟩

/-- A `load` deletes only what it has read as expired, as its third request. -/
theorem load_deletes {key : String} {evs : List (S3Event ι)} {q : S3 Unit}
    (h : Pool.Follows (Call.load key).prog evs q) {ev : S3Event ι} (hev : ev ∈ evs)
    {k : String} {cond : DeleteCondition} (hop : ev.op = .deleteObject k cond) :
    ∃ get now obj entry, evs = [get, now, ev] ∧ Collects key obj entry get now ev := by
  rcases Pool.Follows.call_inv h with ⟨rfl, -⟩ | ⟨who, answer, before, after, rest, rfl, hk⟩
  · cases hev
  have hmem : ev ∈ rest := by
    rcases List.mem_cons.mp hev with rfl | hev
    · cases hop
    · exact hev
  cases answer with
  | error e =>
      obtain ⟨rfl, -⟩ := Pool.Follows.done_inv hk
      cases hmem
  | ok found =>
      cases found with
      | none =>
          obtain ⟨rfl, -⟩ := Pool.Follows.done_inv hk
          cases hmem
      | some obj =>
          obtain ⟨now, entry, rfl, hdec, hnow, hdel⟩ := decodeObject_deletes hk hmem hop
          exact ⟨_, now, obj, entry, rfl, ⟨_, _, _, rfl⟩, hdec, hnow, hdel⟩

/-- Every write that lands between a read and the delete which follows it in the
same call is deleted again before that delete. -/
def Undisturbed (evs : List (S3Event ι)) : Prop :=
  ∀ pre get mid del post key, evs = pre ++ get :: (mid ++ del :: post) →
    get.who = del.who → get.op = .getObject key → del.op = .deleteObject key .any →
    ∀ early put late, mid = early ++ put :: late → PutsAt key put → ∃ x ∈ late, DeletesAt key x

end Events

section Runs

variable {ι : Type} [DecidableEq ι] {α : ι → Type}
variable {c d : Pool S3Op S3Op.Res RustyAntError Bucket α} {evs : List (S3Event ι)}

theorem run_clock (h : Pool.Run s3Service c evs d) : c.state.clock ≤ d.state.clock := by
  induction h with
  | nil => exact Int.le_refl _
  | snoc _ hs ih =>
      have hstep := service_clock hs.serve
      rw [hs.before_eq, hs.after_eq] at hstep
      exact Int.le_trans ih hstep

/-- Over a stretch in which every write to the key is deleted again, the object
at the key stays or goes. -/
theorem run_objects {key : String} (h : Pool.Run s3Service c evs d)
    (hundone : ∀ early put late, evs = early ++ put :: late → PutsAt key put →
      ∃ x ∈ late, DeletesAt key x) :
    d.state.objects[key]? = none ∨ d.state.objects[key]? = c.state.objects[key]? := by
  induction h with
  | nil => exact .inr rfl
  | @snoc evs ev d e _ hs ih =>
      have hput : ¬ PutsAt key ev := by
        intro hput
        obtain ⟨x, hx, -⟩ := hundone evs ev [] rfl hput
        cases hx
      by_cases hdel : DeletesAt key ev
      · rw [← hs.after_eq]
        exact .inl (hdel.after_none hs.serve)
      · have hsame := service_objects hs.serve hput hdel
        rw [hs.after_eq, hs.before_eq] at hsame
        rw [hsame]
        refine ih fun early put late heq hputs => ?_
        obtain ⟨x, hx, hxdel⟩ := hundone early put (late ++ [ev]) (by rw [heq]; simp) hputs
        rcases List.mem_append.mp hx with hx | hx
        · exact ⟨x, hx, hxdel⟩
        · rw [List.mem_singleton.mp hx] at hxdel
          exact absurd hxdel hdel

/-- What each call may send. -/
def Sends : Call → S3Op → Prop
  | .load key, op => op = .getObject key ∨ op = .nowMs ∨ op = .deleteObject key .any
  | .save key entry cond, op => op = .putObject key (Codec.storedValue.enc entry) cond
  | .delete key cond, op => op = .deleteObject key cond

theorem orContention_requests {guar : S3Op → Prop} (out : S3Outcome) :
    (orContention out).Requests guar := by
  cases out <;> exact Prog.Requests.done _

theorem delete_requests {guar : S3Op → Prop} {key : String} {cond : DeleteCondition}
    (h : guar (.deleteObject key cond)) : (delete key cond).Requests guar :=
  Prog.Requests.bind (Prog.Requests.perform h) orContention_requests

theorem call_requests (call : Call) : call.prog.Requests (Sends call) := by
  cases call with
  | save key entry cond =>
      exact Prog.Requests.bind (Prog.Requests.perform rfl) orContention_requests
  | delete key cond => exact delete_requests rfl
  | load key =>
      refine Prog.Requests.bind ?_ fun _ => Prog.Requests.done _
      refine Prog.Requests.bind (Prog.Requests.perform (.inl rfl)) fun found => ?_
      cases found with
      | none => exact Prog.Requests.done _
      | some obj =>
          refine Prog.Requests.bind (Prog.Requests.done _) fun entry => ?_
          refine Prog.Requests.bind (Prog.Requests.perform (.inr (.inl rfl))) fun now => ?_
          split
          · refine Prog.Requests.bind ?_ fun _ => Prog.Requests.done _
            exact (delete_requests (.inr (.inr rfl))).attempt
          · exact Prog.Requests.done _

/-- Every call yet to be made. -/
def start (calls : ι → Call) (b : Bucket) :
    Pool S3Op S3Op.Res RustyAntError Bucket (fun _ : ι => Unit) :=
  ⟨b, fun i => (calls i).prog⟩

/-- A collection of the run with its place in it: the delete is preceded by the
read of the object and by the reading of the clock. -/
theorem collection_split {calls : ι → Call} {b : Bucket} {evs : List (S3Event ι)}
    {d : Pool S3Op S3Op.Res RustyAntError Bucket (fun _ : ι => Unit)}
    (hrun : Pool.Run s3Service (start calls b) evs d) {pre post : List (S3Event ι)}
    {del : S3Event ι} (hevs : evs = pre ++ del :: post) {key k : String}
    {cond : DeleteCondition} (hcall : calls del.who = .load key)
    (hop : del.op = .deleteObject k cond) :
    ∃ get now obj entry first mid last, pre = first ++ get :: (mid ++ now :: last) ∧
      get.who = del.who ∧ Collects key obj entry get now del := by
  have hfollows := hrun.follows del.who
  have hprog : (start calls b).prog del.who = (Call.load key).prog :=
    congrArg Call.prog hcall
  rw [hprog] at hfollows
  have hmem : del ∈ evs.filter fun ev => ev.who = del.who := by
    rw [hevs, List.mem_filter]
    simp
  obtain ⟨get, now, obj, entry, hfilter, hcollects⟩ := load_deletes hfollows hmem hop
  rw [hevs, List.filter_append, List.filter_cons_of_pos (by simp)] at hfilter
  obtain ⟨gwho, gbefore, gafter, hget⟩ := hcollects.get_eq
  obtain ⟨nwho, t, nbefore, nafter, hnow, -⟩ := hcollects.now_eq
  have hpre : pre.filter (fun ev => ev.who = del.who) = [get, now] := by
    rcases hlist : pre.filter (fun ev => ev.who = del.who) with _ | ⟨x, _ | ⟨y, _ | ⟨z, rest⟩⟩⟩ <;>
      rw [hlist] at hfilter <;> simp only [List.nil_append, List.cons_append, List.cons.injEq,
        reduceCtorEq, List.append_eq_nil_iff, and_false] at hfilter
    · rw [hfilter.1, hget] at hop
      cases hop
    · rw [hfilter.2.1, hnow] at hop
      cases hop
    · rw [hlist, hfilter.1, hfilter.2.1]
  obtain ⟨first, rest, rfl, -, hwho, hrest⟩ := List.filter_eq_cons_iff.mp hpre
  obtain ⟨mid, last, rfl, -, -, -⟩ := List.filter_eq_cons_iff.mp hrest
  exact ⟨get, now, obj, entry, first, mid, last, rfl, by simpa using hwho, hcollects⟩

theorem collects_only_what_was_read {calls : ι → Call} {b : Bucket} {evs : List (S3Event ι)}
    {d : Pool S3Op S3Op.Res RustyAntError Bucket (fun _ : ι => Unit)}
    (hrun : Pool.Run s3Service (start calls b) evs d) (hund : Undisturbed evs)
    {pre post : List (S3Event ι)} {del : S3Event ι} (hevs : evs = pre ++ del :: post)
    {key k : String} {cond : DeleteCondition} (hcall : calls del.who = .load key)
    (hop : del.op = .deleteObject k cond) :
    ∃ get obj entry, get ∈ pre ∧ get.who = del.who ∧
      (∃ who before after, get = ⟨who, .getObject key, .ok (some obj), before, after⟩) ∧
      Codec.storedValue.dec obj.body = .ok entry ∧ entry.isExpired del.before.clock ∧
      (del.before.objects[key]? = none ∨ del.before.objects[key]? = some obj) := by
  obtain ⟨get, now, obj, entry, first, mid, last, rfl, hwho, hcollects⟩ :=
    collection_split hrun hevs hcall hop
  obtain ⟨gwho, gbefore, gafter, hget⟩ := hcollects.get_eq
  obtain ⟨nwho, t, nbefore, nafter, hnow, hexp⟩ := hcollects.now_eq
  -- cut the run at the read, at the clock reading and at the delete
  have hcut : evs = (first ++ [get]) ++ ((mid ++ [now]) ++ (last ++ del :: post)) := by
    rw [hevs]
    simp
  rw [hcut] at hrun
  obtain ⟨s₁, hrun₁, hrest₁⟩ := hrun.split
  obtain ⟨s₂, hrun₂, hrest₂⟩ := hrest₁.split
  obtain ⟨s₃, hrun₃, hrest₃⟩ := hrest₂.split
  have hbefore : s₃.state = del.before := hrest₃.head_before
  obtain ⟨s₀, -, hstep⟩ := hrun₁.snoc_inv
  have hread : s₁.state.objects[key]? = some obj := by
    have hserve := hstep.serve
    rw [← hstep.after_eq]
    subst hget
    dsimp only at hserve ⊢
    generalize hfound : some obj = found at hserve
    cases hserve
    rfl
  have hmid : s₃.state.objects[key]? = none ∨ s₃.state.objects[key]? = s₁.state.objects[key]? := by
    refine run_objects (hrun₂.trans hrun₃) ?_
    intro early put late heq hput
    refine hund first get ((mid ++ [now]) ++ last) del post key ?_ hwho ?_ hcollects.del_op
      early put late heq hput
    · rw [hcut]
      simp
    · rw [hget]
  have hclock : t ≤ s₃.state.clock := by
    obtain ⟨s, -, hstep⟩ := hrun₂.snoc_inv
    have hserve := hstep.serve
    have hafter := hstep.after_eq
    have hle := run_clock hrun₃
    subst hnow
    dsimp only at hserve hafter
    have ht : nafter.clock = t := by
      cases hserve
      rfl
    rw [← hafter, ht] at hle
    exact hle
  refine ⟨get, obj, entry, by simp, hwho, hcollects.get_eq, hcollects.dec_eq, ?_, ?_⟩
  · rw [← hbefore]
    exact StoredValue.isExpired_mono hexp hclock
  · rw [← hbefore, ← hread]
    exact hmid

/-- In every run in which no write lands, to stay, between a `load`'s read of an
expired entry and its collection of it: a collection removes nothing but the
expired entry that was read, and a live entry is removed by explicit deletes and
later saves only. -/
theorem gc_spares_live_entries (calls : ι → Call) (b : Bucket) (evs : List (S3Event ι))
    (d : Pool S3Op S3Op.Res RustyAntError Bucket (fun _ : ι => Unit))
    (hrun : Pool.Run s3Service (start calls b) evs d) (hund : Undisturbed evs) :
    (∀ pre del post key k cond, evs = pre ++ del :: post → calls del.who = .load key →
      del.op = .deleteObject k cond →
      ∃ get obj entry, get ∈ pre ∧ get.who = del.who ∧
        (∃ who before after, get = ⟨who, .getObject key, .ok (some obj), before, after⟩) ∧
        Codec.storedValue.dec obj.body = .ok entry ∧ entry.isExpired del.before.clock ∧
        (del.before.objects[key]? = none ∨ del.before.objects[key]? = some obj)) ∧
    ∀ ev ∈ evs, ∀ key obj entry, ev.before.objects[key]? = some obj →
      Codec.storedValue.dec obj.body = .ok entry → entry.isExpired ev.before.clock = false →
      ev.after.objects[key]? ≠ some obj →
        (∃ cond, calls ev.who = .delete key cond) ∨
        ∃ e cond, calls ev.who = .save key e cond := by
  constructor
  · intro pre del post key k cond hevs hcall hop
    exact collects_only_what_was_read hrun hund hevs hcall hop
  · intro ev hev key obj entry hobj hdec hlive hchanged
    have hsent : Sends (calls ev.who) ev.op := by
      have hmem : ev ∈ evs.filter fun x => x.who = ev.who :=
        List.mem_filter.mpr ⟨hev, by simp⟩
      exact (hrun.follows ev.who).obeys (call_requests (calls ev.who)) (fun _ _ => trivial) ev hmem
    have hwrites : PutsAt key ev ∨ DeletesAt key ev := by
      by_contra hnone
      rw [not_or] at hnone
      have hsame := service_objects (hrun.serve ev hev) hnone.1 hnone.2
      exact hchanged (hsame.trans hobj)
    rcases hwrites with ⟨who, body, cond, before, after, hput⟩ | ⟨who, cond, before, after, hdel⟩
    · have hop : ev.op = .putObject key body cond := by rw [hput]
      rw [hop] at hsent
      cases hcall : calls ev.who with
      | load k => simp [hcall, Sends] at hsent
      | save k e cond' =>
          simp only [hcall, Sends, S3Op.putObject.injEq] at hsent
          rw [hsent.1]
          exact .inr ⟨e, cond', rfl⟩
      | delete k cond' => simp [hcall, Sends] at hsent
    · have hop : ev.op = .deleteObject key cond := by rw [hdel]
      rw [hop] at hsent
      cases hcall : calls ev.who with
      | load k =>
          obtain ⟨pre, post, hevs⟩ := List.append_of_mem hev
          obtain ⟨get, obj', entry', -, -, -, hdec', hexp, hin⟩ :=
            collects_only_what_was_read hrun hund hevs hcall hop
          have hk : key = k ∧ cond = .any := by simpa [hcall, Sends] using hsent
          obtain ⟨rfl, rfl⟩ := hk
          rcases hin with hin | hin
          · rw [hin] at hobj
            cases hobj
          · rw [hin, Option.some.injEq] at hobj
            rw [hobj, hdec, Except.ok.injEq] at hdec'
            rw [← hdec', hlive] at hexp
            cases hexp
      | save k e cond' => simp [hcall, Sends] at hsent
      | delete k cond' =>
          simp only [hcall, Sends, S3Op.deleteObject.injEq] at hsent
          rw [hsent.1]
          exact .inl ⟨cond', rfl⟩

end Runs

/-! ## A write between the read and the delete -/

namespace LostWrite

/-- An entry that expires at time 5. -/
def short : StoredValue := ⟨some 5, .string [1]⟩

/-- An entry without expiry. -/
def lasting : StoredValue := ⟨none, .string [2]⟩

/-- One client reads the key, another overwrites it. -/
def calls : Fin 3 → Call
  | 0 => .save "k" short .any
  | 1 => .load "k"
  | 2 => .save "k" lasting .any

/-- S3 without faults and with the clock standing still; all writes of the three
calls are unconditional. -/
def serve : (op : S3Op) → Bucket → Result op.Res × Bucket
  | .getObject key, b => (.ok (b.objects[key]? : Option S3Object), b)
  | .putObject key body .any, b =>
      (.ok S3Outcome.done, { b with objects := b.objects.insert key ⟨body, ""⟩ })
  | .putObject _ _ _, b => (.error .contention, b)
  | .deleteObject key .any, b => (.ok S3Outcome.done, { b with objects := b.objects.erase key })
  | .deleteObject _ _, b => (.error .contention, b)
  | .nowMs, b => (.ok b.clock, b)
  | .nanos, b => (.ok (0 : UInt64), b)
  | .listObjects _ _, b => (.error .contention, b)
  | .listAll, b => (.error .contention, b)
  | .deleteAll, b => (.error .contention, b)

theorem serve_service (op : S3Op) (b : Bucket) :
    s3Service b op (serve op b).1 (serve op b).2 := by
  have hnow : b.clock ≤ b.clock := Int.le_refl _
  cases op with
  | getObject key => exact .getObject b key b.clock hnow
  | putObject key body cond =>
      cases cond with
      | any => exact .putObject b key body "" .any b.clock hnow trivial
      | createOnly => exact .fault b _ _ b.clock hnow
      | ifMatch etag => exact .fault b _ _ b.clock hnow
  | deleteObject key cond =>
      cases cond with
      | any => exact .deleteObject b key .any b.clock hnow trivial
      | ifMatch etag => exact .fault b _ _ b.clock hnow
  | nowMs => exact .nowMs b b.clock hnow
  | nanos => exact .nanos b 0 b.clock hnow
  | listObjects cursor maxKeys => exact .fault b _ _ b.clock hnow
  | listAll => exact .fault b _ _ b.clock hnow
  | deleteAll => exact .fault b _ _ b.clock hnow

/-- Time 10, nothing stored. -/
def empty : Bucket := ⟨∅, 10⟩

/-- The pool when only the collection's delete is left. -/
def beforeDelete : Pool S3Op S3Op.Res RustyAntError Bucket (fun _ : Fin 3 => Unit) :=
  Pool.exec serve [0, 1, 1, 2] (start calls empty)

end LostWrite

open LostWrite in
/-- The third call has returned `Ok` and no call deletes, yet the collection of
the second removes the entry that the third has written. -/
theorem gc_removes_live_entry :
    ∃ evs d ev, Pool.Run s3Service (start calls empty) (evs ++ [ev]) d ∧
      (d.prog 2).returned = some () ∧ calls ev.who = .load "k" ∧
      ∃ obj, ev.before.objects["k"]? = some obj ∧
        Codec.storedValue.dec obj.body = .ok lasting ∧
        lasting.isExpired ev.before.clock = false ∧ ev.after.objects["k"]? = none := by
  obtain ⟨evs, hrun⟩ := Pool.exec_run serve_service [0, 1, 1, 2] (start calls empty)
  have hstep : Pool.Step s3Service beforeDelete
      ⟨1, .deleteObject "k" .any, .ok .done, beforeDelete.state,
        ⟨beforeDelete.state.objects.erase "k", 10⟩⟩ _ :=
    .mk rfl (serve_service _ _)
  have hdec : Codec.storedValue.dec (Codec.storedValue.enc lasting) = .ok lasting :=
    (Codec.storedValue_dec_enc lasting).mpr rfl
  refine ⟨evs, _, _, hrun.snoc hstep, rfl, rfl, ⟨Codec.storedValue.enc lasting, ""⟩, rfl, hdec,
    rfl, ?_⟩
  exact Std.ExtTreeMap.getElem?_erase_self

/-- What a request does to an object. -/
inductive S3Access where
  | read
  | write
  | removal
  | other
  deriving DecidableEq

def access : S3Op → S3Access
  | .getObject _ => .read
  | .putObject _ _ _ => .write
  | .deleteObject _ _ => .removal
  | _ => .other

/-- A run in which no write comes between a read and a later delete. -/
theorem undisturbed_of_accesses {ι : Type} {evs : List (S3Event ι)}
    (h : ¬ [S3Access.read, .write, .removal].Sublist (evs.map fun ev => access ev.op)) :
    Undisturbed evs := by
  rintro pre get mid del post key rfl _ hget hdel early put late rfl ⟨who, body, cond, before, after,
    hput⟩
  have hsub : [get, put, del].Sublist (pre ++ get :: ((early ++ put :: late) ++ del :: post)) := by
    apply List.Sublist.trans _ (List.sublist_append_right pre _)
    apply List.Sublist.cons_cons
    rw [List.append_assoc]
    apply List.Sublist.trans _ (List.sublist_append_right early _)
    apply List.Sublist.cons_cons
    apply List.Sublist.trans _ (List.sublist_append_right late _)
    exact (List.nil_sublist post).cons_cons del
  have hkinds := hsub.map fun ev => access ev.op
  have hop : put.op = .putObject key body cond := by rw [hput]
  rw [List.map_cons, List.map_cons, List.map_singleton, hget, hop, hdel] at hkinds
  exact absurd hkinds h

namespace LostWrite

/-- A load collects the entry, another client saves, and a load finds what it has saved. -/
def callsInTurn : Fin 3 → Call
  | 0 => .load "k"
  | 1 => .save "k" lasting .any
  | 2 => .load "k"

def inTurn : List (Fin 3) := [0, 0, 0, 1, 2, 2]

def expired : Bucket := ⟨{("k", ⟨Codec.storedValue.enc short, ""⟩)}, 10⟩

end LostWrite

open LostWrite in
/-- The expired entry is collected, and the live one that is saved then is spared. -/
theorem gc_spares_live_entries_on_load :
    ∃ evs d, Pool.Run s3Service (start callsInTurn expired) evs d ∧ Undisturbed evs ∧
      (∃ ev ∈ evs, ev.op = .deleteObject "k" .any) ∧
      d.state.objects["k"]? = some ⟨Codec.storedValue.enc lasting, ""⟩ ∧
      ∀ ev ∈ evs, ∀ key obj entry, ev.before.objects[key]? = some obj →
        Codec.storedValue.dec obj.body = .ok entry → entry.isExpired ev.before.clock = false →
        ev.after.objects[key]? ≠ some obj →
          (∃ cond, callsInTurn ev.who = .delete key cond) ∨
          ∃ e cond, callsInTurn ev.who = .save key e cond := by
  have hrun := Pool.exec_trace serve_service inTurn (start callsInTurn expired)
  have hkinds : (Pool.trace serve inTurn (start callsInTurn expired)).map
      (fun ev => access ev.op) = [.read, .other, .removal, .write, .read, .other] := rfl
  have hund : Undisturbed (Pool.trace serve inTurn (start callsInTurn expired)) := by
    apply undisturbed_of_accesses
    rw [hkinds]
    decide
  refine ⟨_, _, hrun, hund, ?_, rfl, (gc_spares_live_entries _ _ _ _ hrun hund).2⟩
  exact ⟨_, List.mem_cons_of_mem _ (List.mem_cons_of_mem _ List.mem_cons_self), rfl⟩

end S3Storage

end RustyAnt
