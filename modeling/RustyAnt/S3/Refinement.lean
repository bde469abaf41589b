import RustyAnt.S3.Gc
import RustyAnt.Storage.OneCall

/-!
# S3 implements the atomic store

Seen from its clients, a bucket is the entries that are not expired, under their ETags.  As long
as no deadline passes and no collection of an expired object hits a write that came after it was
read, every method of `S3Storage` takes effect on that view at one of its requests.
-/

namespace RustyAnt

open Lib

namespace S3Storage

variable {ι : Type} {content : String → StoredValue} {gone : String → Bool}

/-- What a client sees of the bucket. -/
def view (content : String → StoredValue) (gone : String → Bool) (b : Bucket) : Keyspace :=
  fun key => b.objects[key]?.bind fun obj => standing content gone obj.etag

/-- Every object decodes to the entry its ETag stands for. -/
def Tagged (content : String → StoredValue) (b : Bucket) : Prop :=
  ∀ (key : String) (obj : S3Object), b.objects[key]? = some obj →
    Codec.storedValue.dec obj.body = .ok (content obj.etag)

theorem view_standing (b : Bucket) : (view content gone b).Standing content gone := by
  intro key p hkey
  obtain ⟨obj, -, hobj⟩ := Option.bind_eq_some_iff.mp hkey
  obtain ⟨hgone, rfl⟩ := standing_eq_some.mp hobj
  exact hobj

theorem view_of_objects {b b' : Bucket} (h : b'.objects = b.objects) :
    view content gone b' = view content gone b := by
  unfold view
  rw [h]

theorem view_of_none {b : Bucket} {key : String} (h : b.objects[key]? = none) :
    view content gone b key = none := by
  unfold view
  rw [h]
  rfl

theorem view_of_some {b : Bucket} {key : String} {obj : S3Object} (h : b.objects[key]? = some obj) :
    view content gone b key = standing content gone obj.etag := by
  unfold view
  rw [h]
  rfl

theorem view_insert (b : Bucket) (key : String) (obj : S3Object) (now : Int) :
    view content gone ⟨b.objects.insert key obj, now⟩ =
      Function.update (view content gone b) key (standing content gone obj.etag) := by
  funext key'
  by_cases hk : key' = key
  · subst hk
    rw [Function.update_self]
    apply view_of_some
    simp
  · rw [Function.update_of_ne hk]
    unfold view
    simp [Std.ExtTreeMap.getElem?_insert, Ne.symm hk]

theorem view_erase (b : Bucket) (key : String) (now : Int) :
    view content gone ⟨b.objects.erase key, now⟩ =
      Function.update (view content gone b) key none := by
  funext key'
  by_cases hk : key' = key
  · subst hk
    rw [Function.update_self]
    apply view_of_none
    simp
  · rw [Function.update_of_ne hk]
    unfold view
    simp [Std.ExtTreeMap.getElem?_erase, Ne.symm hk]

/-! ## The conditions -/

theorem met_of_allows_write {b : Bucket} {key : String} {cond : WriteCondition}
    (hallows : cond.Allows b.objects[key]?)
    (hnames : ∀ token, cond = .ifMatch token → gone token = false) :
    cond.Met (view content gone b key) := by
  cases cond with
  | any => trivial
  | createOnly => exact view_of_none hallows
  | ifMatch token =>
      obtain ⟨obj, hobj, rfl⟩ := hallows
      rw [view_of_some hobj, standing_of_not_gone (hnames _ rfl)]
      exact ⟨_, rfl⟩

theorem met_of_allows_delete {b : Bucket} {key : String} {cond : DeleteCondition}
    (hallows : cond.Allows b.objects[key]?)
    (hnames : ∀ token, cond = .ifMatch token → gone token = false) :
    cond.Met (view content gone b key) := by
  cases cond with
  | any => trivial
  | ifMatch token =>
      obtain ⟨obj, hobj, rfl⟩ := hallows
      rw [view_of_some hobj, standing_of_not_gone (hnames _ rfl)]
      exact ⟨_, rfl⟩

/-! ## What is asked of the events of a method -/

/-- Whenever the clock is read, an object that was there is expired if and only if it is gone. -/
def Timely (content : String → StoredValue) (gone : String → Bool) (evs : List (S3Event ι)) :
    Prop :=
  ∀ x ∈ evs, ∀ (key : String) (obj : S3Object), x.before.objects[key]? = some obj →
    ∀ ev ∈ evs, ∀ (who : ι) (t : Int) (before after : Bucket), ev = ⟨who, .nowMs, .ok t, before, after⟩ →
      (content obj.etag).isExpired t = gone obj.etag

/-- A collection finds nothing that has not expired. -/
def Spares (content : String → StoredValue) (gone : String → Bool) (evs : List (S3Event ι)) :
    Prop :=
  ∀ get now del key obj entry, [get, now, del] <:+: evs → Collects key obj entry get now del →
    view content gone del.before key = none

/-- Events of one method, as the bucket answered them. -/
structure Orderly (content : String → StoredValue) (gone : String → Bool)
    (evs : List (S3Event ι)) : Prop where
  served : ∀ ev ∈ evs, s3Service ev.before ev.op ev.answer ev.after
  tagged : ∀ ev ∈ evs, Tagged content ev.before ∧ Tagged content ev.after
  timely : Timely content gone evs
  spares : Spares content gone evs

theorem Timely.sublist {evs evs' : List (S3Event ι)} (h : Timely content gone evs)
    (hsub : evs' ⊆ evs) : Timely content gone evs' := fun x hx key obj hobj ev hev =>
  h x (hsub hx) key obj hobj ev (hsub hev)

/-! ## The methods -/

abbrev Hidden (content : String → StoredValue) (gone : String → Bool) (ev : S3Event ι) : Prop :=
  Pool.Hidden (view content gone) ev

def Writes : S3Op → Bool
  | .putObject _ _ _ => true
  | .deleteObject _ _ => true
  | .deleteAll => true
  | _ => false

theorem hidden_of_read {ev : S3Event ι} (h : s3Service ev.before ev.op ev.answer ev.after)
    (hop : Writes ev.op = false) : Hidden content gone ev := by
  obtain ⟨who, op, answer, before, after⟩ := ev
  dsimp only at h hop
  cases h with
  | putObject _ key body etag cond now hnow hcond => cases hop
  | deleteObject _ key cond now hnow hcond => cases hop
  | _ => exact view_of_objects rfl

theorem collected_hidden {del : S3Event ι} {key : String}
    (hserve : s3Service del.before del.op del.answer del.after)
    (hop : del.op = .deleteObject key .any) (hnone : view content gone del.before key = none) :
    Hidden content gone del := by
  obtain ⟨who, op, answer, before, after⟩ := del
  dsimp only at hserve hop hnone
  subst hop
  cases hserve with
  | deleteObject _ _ _ now hnow hcond =>
      show view content gone ⟨before.objects.erase key, now⟩ = view content gone before
      rw [view_erase, ← hnone, Function.update_eq_self]
  | deleteRefused _ _ _ now hnow => exact view_of_objects rfl
  | fault _ _ e now hnow => exact view_of_objects rfl

theorem collect_attempt {key : String} {evs : List (S3Event ι)}
    {q : S3 (Option (StoredValue × String))}
    (h : Pool.Follows ((delete key .any).attempt.bind fun _ => pure none) evs q) :
    (evs = [] ∧ ∃ op k, q = .call op k) ∨
      ∃ del, evs = [del] ∧ del.op = .deleteObject key .any ∧ q = .done (.ok none) := by
  rcases Pool.Follows.call_inv h with ⟨rfl, rfl⟩ | ⟨who, answer, before, after, rest, rfl, hrest⟩
  · exact .inl ⟨rfl, _, _, rfl⟩
  · refine .inr ⟨⟨who, .deleteObject key .any, answer, before, after⟩, ?_, rfl, ?_⟩
    · cases answer with
      | error e => rw [(Pool.Follows.done_inv hrest).1]
      | ok out => cases out <;> rw [(Pool.Follows.done_inv hrest).1]
    · cases answer with
      | error e => exact (Pool.Follows.done_inv hrest).2
      | ok out => cases out <;> exact (Pool.Follows.done_inv hrest).2

theorem read_answer {b b' : Bucket} {key : String} {answer : Result (S3Op.getObject key).Res}
    (h : s3Service b (.getObject key) answer b') (found : Option S3Object)
    (hfound : answer = .ok found) : b.objects[key]? = found := by
  cases h with
  | getObject _ _ now hnow => exact Except.ok.inj hfound
  | fault _ _ e now hnow => cases hfound

theorem load_linearizes {key : String} {evs : List (S3Event ι)}
    {q : S3 (Option (StoredValue × String))} (h : Pool.Follows (load key) evs q)
    (hevs : Orderly content gone evs) :
    Pool.Linearizes (lapsingService content gone) (view content gone) (.load key) evs q := by
  obtain ⟨hserved, htagged, htimely, hspares⟩ := hevs
  rcases Pool.Follows.call_inv h with ⟨rfl, rfl⟩ | ⟨who, answer, before, after, rest, rfl, hrest⟩
  · exact .of_call (by simp)
  rw [List.forall_mem_cons] at hserved htagged
  obtain ⟨hget, hserved⟩ := hserved
  have hsame : view content gone after = view content gone before :=
    @hidden_of_read ι content gone ⟨who, .getObject key, answer, before, after⟩ hget rfl
  dsimp only at hget
  cases answer with
  | error e =>
      obtain ⟨rfl, rfl⟩ := Pool.Follows.done_inv hrest
      exact .of_done (.first (by simp) (fault_above _ e hsame))
  | ok found =>
      have hfound := read_answer hget found rfl
      cases found with
      | none =>
          obtain ⟨rfl, rfl⟩ := Pool.Follows.done_inv hrest
          exact .of_done (.first (by simp) (load_above hsame (view_of_none hfound)))
      | some obj =>
          have hdec := htagged.1.1 key obj hfound
          have hread : Hidden content gone
            (⟨who, .getObject key, .ok (some obj), before, after⟩ : S3Event ι) := hsame
          have hstored := @view_of_some content gone before key obj hfound
          have hrest : Pool.Follows (decodeObject key obj) rest q := hrest
          unfold decodeObject at hrest
          rw [hdec] at hrest
          rcases Pool.Follows.call_inv hrest with
            ⟨rfl, rfl⟩ | ⟨who', reading, before', after', last, rfl, hlast⟩
          · exact .of_call (List.forall_mem_singleton.mpr hsame)
          rw [List.forall_mem_cons] at hserved
          have hnow : view content gone after' = view content gone before' :=
            @hidden_of_read ι content gone ⟨who', .nowMs, reading, before', after'⟩ hserved.1 rfl
          cases reading with
          | error e =>
              obtain ⟨rfl, rfl⟩ := Pool.Follows.done_inv hlast
              exact .of_done (.last (List.forall_mem_singleton.mpr hread) (fault_above _ e hnow))
          | ok t =>
              have hexpired := htimely _ List.mem_cons_self key obj hfound _
                (List.mem_cons_of_mem _ List.mem_cons_self) who' t before' after' rfl
              cases hgone : gone obj.etag with
              | false =>
                  rw [hgone] at hexpired
                  simp only [Prog.bind_eq, Prog.done_ok_bind, hexpired, Bool.false_eq_true,
                    if_false] at hlast
                  obtain ⟨rfl, rfl⟩ := Pool.Follows.done_inv hlast
                  rw [standing_of_not_gone hgone] at hstored
                  exact .of_done (.first (List.forall_mem_singleton.mpr hnow)
                    (load_above hsame hstored))
              | true =>
                  rw [hgone] at hexpired
                  simp only [Prog.bind_eq, Prog.done_ok_bind, hexpired, if_true] at hlast
                  rw [standing_of_gone hgone] at hstored
                  rcases collect_attempt hlast with ⟨rfl, op, k, rfl⟩ | ⟨del, rfl, hop, rfl⟩
                  · exact .of_call (List.forall_mem_cons.mpr
                      ⟨hsame, List.forall_mem_singleton.mpr hnow⟩)
                  · have hnone := hspares _ _ del key obj (content obj.etag)
                      (List.infix_refl _) ⟨⟨_, _, _, rfl⟩, hdec, ⟨_, t, _, _, rfl, hexpired⟩, hop⟩
                    have hdel := collected_hidden (hserved.2 del (by simp)) hop hnone
                    exact .of_done (.first (List.forall_mem_cons.mpr
                      ⟨hnow, List.forall_mem_singleton.mpr hdel⟩) (load_above hsame hstored))

/-- What `save` and `delete` make of their one answer. -/
def settled : Result S3Outcome → Result Unit
  | .ok .done => .ok ()
  | .ok .preconditionFailed => .error .contention
  | .error e => .error e

theorem settled_eq (answer : Result S3Outcome) :
    ((Prog.done answer).bind orContention : S3 Unit) = .done (settled answer) := by
  cases answer with
  | error e => rfl
  | ok out => cases out <;> rfl

theorem save_linearizes {key : String} {entry : StoredValue} {cond : WriteCondition}
    (hnames : NamesStanding gone (.save key entry cond)) {evs : List (S3Event ι)}
    {q : S3 Unit} (h : Pool.Follows (save key entry cond) evs q) (hevs : Orderly content gone evs) :
    Pool.Linearizes (lapsingService content gone) (view content gone) (.save key entry cond) evs q := by
  refine .of_request h fun who answer before after hev => ⟨settled answer, settled_eq answer, ?_⟩
  have hput := hevs.served _ hev
  have hafter := (hevs.tagged _ hev).2 key
  dsimp only at hput hafter
  cases hput with
  | putObject _ _ _ etag _ now hnow hcond =>
      have hstored : (before.objects.insert key
          ⟨Codec.storedValue.enc entry, etag⟩)[key]? = some ⟨Codec.storedValue.enc entry, etag⟩ := by
        simp
      have hcontent : content etag = entry := Codec.storedValue_dec_ok (hafter _ hstored)
      have hmet := @met_of_allows_write content gone before key cond hcond fun token htoken => by
        rw [htoken] at hnames
        exact hnames
      show lapsingService content gone (view content gone before) (.save key entry cond) (.ok ())
        (view content gone ⟨before.objects.insert key ⟨Codec.storedValue.enc entry, etag⟩, now⟩)
      rw [view_insert, ← hcontent]
      exact .save _ key cond etag hmet
  | putRefused _ _ _ _ now hnow => exact .fault _ _ _
  | fault _ _ e now hnow => exact .fault _ _ _

theorem delete_linearizes {key : String} {cond : DeleteCondition}
    (hnames : NamesStanding gone (.delete key cond)) {evs : List (S3Event ι)}
    {q : S3 Unit} (h : Pool.Follows (delete key cond) evs q) (hevs : Orderly content gone evs) :
    Pool.Linearizes (lapsingService content gone) (view content gone) (.delete key cond) evs q := by
  refine .of_request h fun who answer before after hev => ⟨settled answer, settled_eq answer, ?_⟩
  have hdelete := hevs.served _ hev
  dsimp only at hdelete
  cases hdelete with
  | deleteObject _ _ _ now hnow hcond =>
      have hmet := @met_of_allows_delete content gone before key cond hcond fun token htoken => by
        rw [htoken] at hnames
        exact hnames
      show lapsingService content gone (view content gone before) (.delete key cond) (.ok ())
        (view content gone ⟨before.objects.erase key, now⟩)
      rw [view_erase]
      exact .delete _ key cond hmet
  | deleteRefused _ _ _ now hnow => exact .fault _ _ _
  | fault _ _ e now hnow => exact .fault _ _ _

theorem impl_linearizes (op : KVOp) (hop : NamesStanding gone op) (evs : List (S3Event ι))
    (q : S3 op.Res) (h : Pool.Follows (impl op) evs q) (hevs : Orderly content gone evs) :
    Pool.Linearizes (lapsingService content gone) (view content gone) op evs q := by
  have hread : ∀ op', Writes op' = false → ∀ ev ∈ evs, ev.op = op' → Hidden content gone ev :=
    fun op' hop' ev hev heq => hidden_of_read (hevs.served ev hev) (by rw [heq, hop'])
  cases op with
  | load key => exact load_linearizes h hevs
  | save key entry cond => exact save_linearizes hop h hevs
  | delete key cond => exact delete_linearizes hop h hevs
  | listPage cursor maxKeys =>
      exact read_linearizes (.listPage cursor maxKeys) h rfl (fun _ => rfl)
        (fun s page => ⟨.ok page, rfl, .listPage s cursor maxKeys page⟩) (hread _ rfl)
  | walk =>
      exact read_linearizes .walk h rfl (fun _ => rfl) (fun s keys => ⟨.ok keys, rfl, .walk s keys⟩)
        (hread _ rfl)
  | countKeys =>
      exact read_linearizes .countKeys h rfl (fun _ => rfl)
        (fun s keys => ⟨.ok (toI64 (List.length keys)), rfl, .countKeys s _⟩) (hread _ rfl)
  | flushAll => exact hop.elim
  | nowMs =>
      exact read_linearizes .nowMs h rfl (fun _ => rfl) (fun s now => ⟨.ok now, rfl, .nowMs s now⟩)
        (hread _ rfl)
  | nanos =>
      exact read_linearizes .nanos h rfl (fun _ => rfl) (fun s n => ⟨.ok n, rfl, .nanos s n⟩)
        (hread _ rfl)

/-! ## Whole runs -/

section Runs

variable [DecidableEq ι] {α : ι → Type}

/-- Programs of the store, compiled to requests to the bucket. -/
def compiled (p : (i : ι) → KV (α i)) (b : Bucket) : Pool S3Op S3Op.Res RustyAntError Bucket α :=
  ⟨b, fun i => (p i).interp impl⟩

theorem orderly_of_run {c d : Pool S3Op S3Op.Res RustyAntError Bucket α} {evs : List (S3Event ι)}
    (hrun : Pool.Run s3Service c evs d)
    (htagged : ∀ ev ∈ evs, Tagged content ev.before ∧ Tagged content ev.after)
    (htimely : Timely content gone evs)
    (hspares : ∀ i, Spares content gone (evs.filter fun ev => ev.who = i)) (i : ι)
    (block : List (S3Event ι)) (hblock : block <:+: evs.filter fun ev => ev.who = i) :
    Orderly content gone block := by
  have hsub : block ⊆ evs := fun ev hev => (List.mem_filter.mp (hblock.subset hev)).1
  exact ⟨fun ev hev => hrun.serve ev (hsub hev), fun ev hev => htagged ev (hsub hev),
    htimely.sublist hsub, fun get now del key obj entry hin =>
      hspares i get now del key obj entry (hin.trans hblock)⟩

theorem run_above {p : (i : ι) → KV (α i)} (hp : ∀ i, KeepsTokens content gone (p i)) {b : Bucket}
    {evs : List (S3Event ι)} {d : Pool S3Op S3Op.Res RustyAntError Bucket α}
    (hrun : Pool.Run s3Service (compiled p b) evs d)
    (htagged : ∀ ev ∈ evs, Tagged content ev.before ∧ Tagged content ev.after)
    (htimely : Timely content gone evs)
    (hspares : ∀ i, Spares content gone (evs.filter fun ev => ev.who = i)) :
    ∃ above q, Pool.Run (lapsingService content gone) ⟨view content gone b, p⟩ above
        ⟨view content gone d.state, q⟩ ∧
      (above.map Event.who).Sublist (evs.map Event.who) ∧
      ∀ i r, d.prog i = .done r ↔ q i = .done r :=
  Pool.Run.interp hrun hp (fun b _ _ _ h => shown_of_standing (view_standing b) h)
    impl_linearizes (orderly_of_run hrun htagged htimely hspares)

end Runs

/-! ## A bucket whose clock stands still -/

instance (cur : Option S3Object) (cond : WriteCondition) : Decidable (cond.Allows cur) :=
  match cond, cur with
  | .any, _ => .isTrue trivial
  | .createOnly, none => .isTrue rfl
  | .createOnly, some _ => .isFalse nofun
  | .ifMatch _, none => .isFalse nofun
  | .ifMatch etag, some obj =>
      if h : obj.etag = etag then .isTrue ⟨obj, rfl, h⟩
      else .isFalse fun ⟨_, hobj, heq⟩ => h (Option.some.inj hobj ▸ heq)

instance (cur : Option S3Object) (cond : DeleteCondition) : Decidable (cond.Allows cur) :=
  match cond, cur with
  | .any, _ => .isTrue trivial
  | .ifMatch _, none => .isFalse nofun
  | .ifMatch etag, some obj =>
      if h : obj.etag = etag then .isTrue ⟨obj, rfl, h⟩
      else .isFalse fun ⟨_, hobj, heq⟩ => h (Option.some.inj hobj ▸ heq)

/-- S3 that stores only what the ETags given stand for, and does not fail otherwise. -/
def still (content : String → StoredValue) (tokenOf : StoredValue → String) :
    (op : S3Op) → Bucket → Result op.Res × Bucket
  | .getObject key, b => (.ok (b.objects[key]? : Option S3Object), b)
  | .putObject key body cond, b =>
      match Codec.storedValue.dec body with
      | .error e => (.error e, b)
      | .ok entry =>
          if content (tokenOf entry) = entry then
            if cond.Allows b.objects[key]? then
              (.ok S3Outcome.done, ⟨b.objects.insert key ⟨body, tokenOf entry⟩, b.clock⟩)
            else (.ok S3Outcome.preconditionFailed, b)
          else (.error (.s3 "no token"), b)
  | .deleteObject key cond, b =>
      if cond.Allows b.objects[key]? then (.ok S3Outcome.done, ⟨b.objects.erase key, b.clock⟩)
      else (.ok S3Outcome.preconditionFailed, b)
  | .nowMs, b => (.ok b.clock, b)
  | .nanos, b => (.ok (0 : UInt64), b)
  | .listObjects _ _, b => (.error (.s3 "no listing"), b)
  | .listAll, b => (.error (.s3 "no listing"), b)
  | .deleteAll, b => (.error (.s3 "no listing"), b)

section Still

variable {tokenOf : StoredValue → String}

/-- An answer of that bucket: it is one of S3, keeps the clock, and keeps the objects decodable. -/
structure Stills (content : String → StoredValue) (tokenOf : StoredValue → String) (b : Bucket)
    (op : S3Op) (answer : Result op.Res) (b' : Bucket) : Prop where
  served : s3Service b op answer b'
  clock : b'.clock = b.clock
  reading : ∀ t : Int, (⟨op, answer⟩ : (op : S3Op) × Result op.Res) = ⟨.nowMs, .ok t⟩ → t = b.clock
  tagged : Tagged content b → Tagged content b'

theorem still_stills (op : S3Op) (b : Bucket) :
    Stills content tokenOf b op (still content tokenOf op b).1 (still content tokenOf op b).2 := by
  have hnow : b.clock ≤ b.clock := Int.le_refl _
  cases op with
  | getObject key => exact ⟨.getObject b key b.clock hnow, rfl, nofun, id⟩
  | putObject key body cond =>
      unfold still
      dsimp only
      cases hdec : Codec.storedValue.dec body with
      | error e => exact ⟨.fault b _ e b.clock hnow, rfl, nofun, id⟩
      | ok entry =>
          dsimp only
          by_cases htoken : content (tokenOf entry) = entry
          · rw [if_pos htoken]
            by_cases hallows : cond.Allows b.objects[key]?
            · rw [if_pos hallows]
              refine ⟨.putObject b key body _ cond b.clock hnow hallows, rfl, nofun, ?_⟩
              intro htagged key' obj hobj
              rw [Std.ExtTreeMap.getElem?_insert] at hobj
              split at hobj
              · cases hobj
                rw [hdec, htoken]
              · exact htagged key' obj hobj
            · rw [if_neg hallows]
              exact ⟨.putRefused b key body cond b.clock hnow, rfl, nofun, id⟩
          · rw [if_neg htoken]
            exact ⟨.fault b _ _ b.clock hnow, rfl, nofun, id⟩
  | deleteObject key cond =>
      unfold still
      dsimp only
      by_cases hallows : cond.Allows b.objects[key]?
      · rw [if_pos hallows]
        refine ⟨.deleteObject b key cond b.clock hnow hallows, rfl, nofun, ?_⟩
        intro htagged key' obj hobj
        rw [Std.ExtTreeMap.getElem?_erase] at hobj
        split at hobj
        · cases hobj
        · exact htagged key' obj hobj
      · rw [if_neg hallows]
        exact ⟨.deleteRefused b key cond b.clock hnow, rfl, nofun, id⟩
  | nowMs =>
      refine ⟨.nowMs b b.clock hnow, rfl, ?_, id⟩
      rintro t ⟨⟩
      rfl
  | nanos => exact ⟨.nanos b 0 b.clock hnow, rfl, nofun, id⟩
  | listObjects cursor maxKeys => exact ⟨.fault b _ _ b.clock hnow, rfl, nofun, id⟩
  | listAll => exact ⟨.fault b _ _ b.clock hnow, rfl, nofun, id⟩
  | deleteAll => exact ⟨.fault b _ _ b.clock hnow, rfl, nofun, id⟩

variable [DecidableEq ι] {α : ι → Type} {c d : Pool S3Op S3Op.Res RustyAntError Bucket α}
variable {evs : List (S3Event ι)}

theorem still_run (hc : Tagged content c.state)
    (hrun : Pool.Run (Stills content tokenOf) c evs d) :
    (∀ ev ∈ evs, Tagged content ev.before ∧ Tagged content ev.after) ∧
      ∀ ev ∈ evs, ev.before.clock = c.state.clock :=
  ⟨(hrun.state_invariant (Tagged content) hc fun h hs => hs.tagged h).2, fun ev hev =>
    ((hrun.state_invariant (fun b => b.clock = c.state.clock) rfl
      fun h hs => hs.clock.trans h).2 ev hev).1⟩

theorem still_timely (hrun : Pool.Run (Stills content tokenOf) c evs d)
    (hclock : ∀ ev ∈ evs, ev.before.clock = c.state.clock) :
    Timely content (fun token => (content token).isExpired c.state.clock) evs := by
  rintro x - key obj - ev hev who t before after rfl
  rw [(hrun.serve _ hev).reading t rfl, hclock _ hev]

omit [DecidableEq ι] in
/-- Where nothing ever expires there is nothing to collect. -/
theorem spares_of_lasting (hlasting : ∀ token t, (content token).isExpired t = false)
    (hserved : ∀ ev ∈ evs, s3Service ev.before ev.op ev.answer ev.after)
    (htagged : ∀ ev ∈ evs, Tagged content ev.before) : Spares content gone evs := by
  intro get now del key obj entry hin hcollects
  obtain ⟨⟨who, before, after, rfl⟩, hdec, ⟨who', t, before', after', rfl, hexpired⟩, -⟩ := hcollects
  have hmem := hin.subset (List.mem_cons_self)
  have hstored : before.objects[key]? = some obj :=
    read_answer (hserved _ hmem) (some obj) rfl
  have hobj := htagged _ hmem key obj hstored
  rw [hdec, Except.ok.injEq] at hobj
  rw [hobj, hlasting] at hexpired
  cases hexpired

end Still

/-! ## The theorems -/

section Theorems

variable [DecidableEq ι] {α : ι → Type}

/-- A run on S3 is a run of the atomic store: of the same programs, with the same results, and
with their operations in an order in which requests of theirs come up.  No deadline passes
during the run, and no collection finds a live object. -/
theorem s3_refines_store (content : String → StoredValue) (gone : String → Bool)
    (p : (i : ι) → KV (α i)) (hp : ∀ i, KeepsTokens content gone (p i)) (b : Bucket)
    (evs : List (S3Event ι)) (d : Pool S3Op S3Op.Res RustyAntError Bucket α)
    (hrun : Pool.Run s3Service (compiled p b) evs d)
    (htagged : ∀ ev ∈ evs, Tagged content ev.before ∧ Tagged content ev.after)
    (htimely : Timely content gone evs)
    (hspares : ∀ i, Spares content gone (evs.filter fun ev => ev.who = i)) :
    ∃ above q, Pool.Run (lapsingService content gone) ⟨view content gone b, p⟩ above
        ⟨view content gone d.state, q⟩ ∧
      (above.map Event.who).Sublist (evs.map Event.who) ∧
      ∀ i r, d.prog i = .done r ↔ q i = .done r :=
  run_above hp hrun htagged htimely hspares

/-- Programs of one call that run at the same time on S3, request by request, have the results and
leave the entries of the same programs run one after the other on the atomic store. -/
theorem calls_serial (content : String → StoredValue) (gone : String → Bool)
    (p : (i : ι) → KV (α i)) (hp : ∀ i, OneCall (p i)) (b : Bucket)
    (evs : List (S3Event ι)) (d : Pool S3Op S3Op.Res RustyAntError Bucket α)
    (hrun : Pool.Run s3Service (compiled p b) evs d)
    (htagged : ∀ ev ∈ evs, Tagged content ev.before ∧ Tagged content ev.after)
    (htimely : Timely content gone evs)
    (hspares : ∀ i, Spares content gone (evs.filter fun ev => ev.who = i)) :
    ∃ order e, Pool.Serial (lapsingService content gone) ⟨view content gone b, p⟩ order e ∧
      e.state = view content gone d.state ∧ order.Sublist (evs.map Event.who) ∧
      (∀ i ∈ order, ∀ r, d.prog i = .done r ↔ e.prog i = .done r) ∧
      ∀ i, i ∉ order → ∀ r, d.prog i = .done r → (∃ err, r = .error err) ∨ p i = .done r := by
  obtain ⟨above, q, habove, hwho, hend⟩ :=
    run_above (fun i => (hp i).keepsTokens) hrun htagged htimely hspares
  obtain ⟨order, e, hserial, hstate, hsub, hin, hout⟩ :=
    RustyAnt.calls_serial (steadfast_lapsing content gone) (view_standing b).versioned habove hp
  refine ⟨order, e, hserial, hstate, hsub.trans hwho, fun i hi r => ?_, fun i hi r hr => ?_⟩
  · rw [hin i hi]
    exact hend i r
  · refine ((hout i hi).2 r ((hend i r).mp hr)).imp_left ?_
    rintro ⟨err, herr, -⟩
    exact ⟨err, herr⟩

end Theorems

end S3Storage

/-! ## Two increments -/

namespace S3Storage.TwoIncrementsOnS3

open TwoIncrements

/-- Nothing stored, time 0. -/
def empty : Bucket := ⟨∅, 0⟩

theorem lasting (token : String) (t : Int) : (content token).isExpired t = false := by
  unfold content
  split <;> rfl

def goneNow (token : String) : Bool := (content token).isExpired 0

/-- Any two programs, run on this bucket under any schedule. -/
theorem orderly_run {α : Fin 2 → Type} (p : (i : Fin 2) → KV (α i)) (schedule : List (Fin 2)) :
    ∃ evs, Pool.Run s3Service (compiled p empty) evs
        (Pool.exec (still content tokenOf) schedule (compiled p empty)) ∧
      (∀ ev ∈ evs, Tagged content ev.before ∧ Tagged content ev.after) ∧
      Timely content goneNow evs ∧
      ∀ i, Spares content goneNow (evs.filter fun ev => ev.who = i) := by
  obtain ⟨evs, hrun⟩ := Pool.exec_run (@still_stills content tokenOf) schedule (compiled p empty)
  have hempty : Tagged content (compiled p empty).state := by
    intro key obj hobj
    cases hobj
  obtain ⟨htagged, hclock⟩ := still_run hempty hrun
  have hserved := hrun.mono fun h => Stills.served h
  refine ⟨evs, hserved, htagged, still_timely hrun hclock, fun i => spares_of_lasting lasting ?_ ?_⟩
  · exact fun ev hev => hserved.serve ev (List.mem_filter.mp hev).1
  · exact fun ev hev => (htagged ev (List.mem_filter.mp hev).1).1

def start : Pool S3Op S3Op.Res RustyAntError Bucket (fun _ : Fin 2 => Int) :=
  compiled (fun i => (methods i).prog ⟨.integral, fun _ _ => false⟩) empty

/-- Both read nothing, the first one's create wins, the second one reads again. -/
def schedule : List (Fin 2) := [0, 1, 0, 1, 1, 1, 1]

/-- The clients and the bucket after that. -/
def finish : Pool S3Op S3Op.Res RustyAntError Bucket (fun _ : Fin 2 => Int) :=
  Pool.exec (still content tokenOf) schedule start

theorem s3_refines_store_on_twoIncrements :
    ∃ evs, Pool.Run s3Service start evs finish ∧ (finish.prog 1).returned = some 3 ∧
      ∃ above q, Pool.Run (lapsingService content goneNow)
          ⟨view content goneNow empty, fun i => (methods i).prog ⟨.integral, fun _ _ => false⟩⟩ above
          ⟨view content goneNow finish.state, q⟩ ∧
        (above.map Event.who).Sublist (evs.map Event.who) ∧
        ∀ i r, finish.prog i = .done r ↔ q i = .done r := by
  obtain ⟨evs, hrun, htagged, htimely, hspares⟩ := orderly_run _ schedule
  have habove := s3_refines_store content goneNow _
    (fun i => ((methods i).oneStep (x := ⟨.integral, fun _ _ => false⟩) rfl).keepsTokens) empty evs
    finish hrun htagged htimely hspares
  exact ⟨evs, hrun, by decide +kernel, habove⟩

end S3Storage.TwoIncrementsOnS3

end RustyAnt
