import RustyAnt.Mirror.Methods

/-!
# Single-client runs on both backends

A client makes calls of `Storage` methods one after another, each at its own
clock.  The two backends give the same replies and keep the same logical keyspace
as long as no RENAME and no COPY with REPLACE overwrites a live key by an entry of
another kind.  There S3 overwrites, while DynamoDB refuses the write because the
token of the destination names another table.
-/

namespace RustyAnt

open Lib Storage

/-- A call of a method and the clock it is made at. -/
structure Request where
  Reply : Type
  clock : Clock
  method : Method Reply

/-- Same replies, leaving aside the order of KEYS, the pages of SCAN and the pick of
RANDOMKEY. -/
def KeyMethod.SameReply {α : Type} : KeyMethod α → Result α → Result α → Prop
  | .keys _, r₁, r₂ => ∃ ks ks', r₁ = .ok ks ∧ r₂ = .ok ks' ∧ List.Perm ks ks'
  | .scan _ _ _, _, _ => True
  | .randomKey, _, _ => True
  | _, r₁, r₂ => r₁ = r₂

def Method.SameReply {α : Type} : Method α → Result α → Result α → Prop
  | .key m, r₁, r₂ => m.SameReply r₁ r₂
  | _, r₁, r₂ => r₁ = r₂

section Runs

variable (S : Setup) (x : Externs)

/-- A call on `KVStorage<S3Storage>`. -/
def Request.onS3 (q : Request) (objects : BTreeMap String S3Object) :
    Result q.Reply × BTreeMap String S3Object :=
  let out := ((q.method.prog x).interp S3Storage.impl).run (S3World.serve S.etagOf q.clock)
    ⟨objects, 0⟩
  (out.1, out.2.objects)

/-- A call on `KVStorage<DynamoDbBackend>`. -/
def Request.onDynamoDb (q : Request) (tables : Tables) : Result q.Reply × Tables :=
  let out := ((q.method.prog x).interp (DynamoDb.impl S.fo)).run (DdbWorld.serve S.order q.clock)
    ⟨tables, 0⟩
  (out.1, out.2.tables)

/-- Every call gets the same reply on both backends and leaves the same logical
keyspace. -/
def Indistinguishable : List Request → BTreeMap String S3Object → Tables → Prop
  | [], _, _ => True
  | q :: rest, objects, tables =>
      q.method.SameReply (q.onS3 S x objects).1 (q.onDynamoDb S x tables).1 ∧
      (∀ now key, s3Lookup (q.onS3 S x objects).2 now key =
        ddbLookup (q.onDynamoDb S x tables).2 now key) ∧
      Indistinguishable rest (q.onS3 S x objects).2 (q.onDynamoDb S x tables).2

/-- Every entry serialized in the run is within the item limit. -/
def FitsAll : List Request → BTreeMap String S3Object → Prop
  | [], _ => True
  | q :: rest, objects =>
      (q.method.prog x).Along (S.twin q.clock).serve₁ (Fits S.fo) ⟨objects, 0⟩ ∧
      FitsAll rest (q.onS3 S x objects).2

instance FitsAll.decidable :
    (reqs : List Request) → (objects : BTreeMap String S3Object) →
      Decidable (FitsAll S x reqs objects)
  | [], _ => .isTrue trivial
  | q :: rest, objects =>
      have := FitsAll.decidable rest (q.onS3 S x objects).2
      inferInstanceAs (Decidable (_ ∧ _))

/-- Source and destination are live and of different kinds. -/
def CrossesKinds (objects : BTreeMap String S3Object) (clock : Clock) (src dst : String) : Prop :=
  src ≠ dst ∧ ∃ e e₀, s3Lookup objects (clock.now 0) src = .ok (some e) ∧
    s3Lookup objects (clock.now 1) dst = .ok (some e₀) ∧ e.kind ≠ e₀.kind

/-- The call overwrites a live key by an entry of another kind. -/
def KeyMethod.Crosses {α : Type} (objects : BTreeMap String S3Object) (clock : Clock) :
    KeyMethod α → Prop
  | .rename src dst => CrossesKinds objects clock src dst
  | .copy src dst replace => replace = true ∧ CrossesKinds objects clock src dst
  | _ => False

def Method.Crosses {α : Type} (objects : BTreeMap String S3Object) (clock : Clock) :
    Method α → Prop
  | .key m => m.Crosses objects clock
  | _ => False

/-- No call of the run overwrites a live key by an entry of another kind. -/
def NoCrossing : List Request → BTreeMap String S3Object → Prop
  | [], _ => True
  | q :: rest, objects =>
      ¬ q.method.Crosses objects q.clock ∧ NoCrossing rest (q.onS3 S x objects).2

end Runs

section Overwrites

variable {S : Setup} {clock : Clock} {w : S3World} {d : DdbWorld}

/-- The write to a destination that has just been loaded, when it keeps the kind. -/
theorem save_destCond_mirrors (h : Mirrors w d) {dst : String}
    {r₁ r₂ : Option (StoredValue × String)} (hloaded : SameLoad dst (.ok r₁) (.ok r₂) w d)
    {e : StoredValue} (hkind : ∀ e₀, r₁.map Prod.fst = some e₀ → e.kind = e₀.kind) :
    (S.twin clock).Ends (fun a b _ _ => a = .ok () ∧ b = .ok ())
      (KV.save dst e (destCond r₁)) (KV.save dst e (destCond r₂)) w d := by
  rcases hloaded with ⟨err, hr, -⟩ | ⟨hr₁, hr₂, habsent⟩ | ⟨e₀, etag, version, hr₁, hr₂, hstored⟩
  · cases hr
  · cases hr₁
    cases hr₂
    exact save_createOnly_absent h habsent e
  · cases hr₁
    cases hr₂
    exact save_ifMatch_mirrors h hstored (hkind e₀ rfl)

/-- Outcomes that are both `Ok`, as a special case of equal outcomes. -/
theorem Agree.of_ok {p q : KV Unit}
    (h : (S.twin clock).Ends (fun a b _ _ => a = .ok () ∧ b = .ok ()) p q w d) :
    (S.twin clock).Agree p q w d := by
  intro halong
  obtain ⟨hrel, ha, hb⟩ := h halong
  exact ⟨hrel, ha.trans hb.symm⟩

/-- A load of an entry on both sides, with what the bucket held before. -/
theorem loadEntry_lookup (h : Mirrors w d) (key : String) :
    (S.twin clock).Ends (fun r₁ r₂ w' _ => (∃ e, r₁ = .error e ∧ r₂ = .error e) ∨
        (r₁ = .ok none ∧ r₂ = .ok none) ∨ ∃ e, r₁ = .ok (some e) ∧ r₂ = .ok (some e) ∧
          w' = w.tick ∧ s3Lookup w.objects (clock.now w.readings) key = .ok (some e))
      (KV.loadEntry key) (KV.loadEntry key) w d := by
  intro _
  unfold KV.loadEntry
  rw [Prog.bind_eq, Prog.run_bind, Prog.run_bind]
  rcases load_cases S clock h key with ⟨e, h₁, h₂, -⟩ |
    ⟨w', d', h₁, h₂, h', -, -⟩ | ⟨e, etag, version, h₁, h₂, -, hlook⟩
  · rw [h₁, h₂]
    exact ⟨h, .inl ⟨e, rfl, rfl⟩⟩
  · rw [h₁, h₂]
    exact ⟨h', .inr (.inl ⟨rfl, rfl⟩)⟩
  · rw [h₁, h₂]
    exact ⟨h.tick, .inr (.inr ⟨e, rfl, rfl, rfl, hlook⟩)⟩

theorem load_lookup (h : Mirrors w d) (key : String) :
    (S.twin clock).Ends (fun r₁ r₂ w' d' => SameLoad key r₁ r₂ w' d' ∧
        ∀ e etag, r₁ = .ok (some (e, etag)) →
          s3Lookup w.objects (clock.now w.readings) key = .ok (some e))
      (KV.load key) (KV.load key) w d := by
  intro halong
  obtain ⟨hrel, hsame⟩ := load_mirrors h key halong
  refine ⟨hrel, hsame, fun e etag he => ?_⟩
  rcases load_cases S clock h key with ⟨err, h₁, -, -⟩ |
    ⟨w', d', h₁, -, -, -, -⟩ | ⟨e', etag', version, h₁, -, -, hlook⟩
  · rw [h₁] at he
    cases he
  · rw [h₁] at he
    cases he
  · rw [h₁] at he
    cases he
    exact hlook

/-- The kinds of two live entries at keys that do not cross. -/
theorem kind_eq_of_not_crosses {src dst : String} (hread : w.readings = 0) (hne : src ≠ dst)
    (hcross : ¬ CrossesKinds w.objects clock src dst) {e e₀ : StoredValue}
    (hsrc : s3Lookup w.objects (clock.now w.readings) src = .ok (some e))
    (hdst : s3Lookup w.tick.objects (clock.now w.tick.readings) dst = .ok (some e₀)) :
    e.kind = e₀.kind := by
  unfold S3World.tick at hdst
  rw [hread] at hsrc hdst
  by_contra hkind
  exact hcross ⟨hne, e, e₀, hsrc, hdst, hkind⟩

/-- What follows a load of an entry agrees when it does from each entry that the load can find. -/
theorem Agree.loadEntry {α : Type} {f : Option StoredValue → KV α} (h : Mirrors w d) (key : String)
    (hnone : ∀ w' d', Mirrors w' d' → (S.twin clock).Agree (f none) (f none) w' d')
    (hsome : ∀ e d', Mirrors w.tick d' →
      s3Lookup w.objects (clock.now w.readings) key = .ok (some e) →
      (S.twin clock).Agree (f (some e)) (f (some e)) w.tick d') :
    (S.twin clock).Agree ((KV.loadEntry key).bind f) ((KV.loadEntry key).bind f) w d := by
  refine Twin.Ends.bind (loadEntry_lookup h key) ?_ ?_
  · rintro r₁ r₂ w' d' (⟨e, rfl, rfl⟩ | ⟨rfl, rfl⟩ | ⟨e, rfl, rfl, -⟩)
    · exact .inl ⟨e, rfl, rfl, rfl⟩
    · exact .inr ⟨none, none, rfl, rfl⟩
    · exact .inr ⟨some e, some e, rfl, rfl⟩
  · rintro a b w' d' h' (⟨e, ha, -⟩ | ⟨ha, hb⟩ | ⟨e, ha, hb, rfl, hlook⟩)
    · cases ha
    · cases ha
      cases hb
      exact hnone w' d' h'
    · cases ha
      cases hb
      exact hsome e d' h' hlook

/-- The same of a load that keeps the tokens, which differ. -/
theorem Agree.load {α : Type} {f : Option (StoredValue × String) → KV α} (h : Mirrors w d)
    (key : String)
    (hok : ∀ r₁ r₂ w' d', Mirrors w' d' → SameLoad key (.ok r₁) (.ok r₂) w' d' →
      (∀ e etag, r₁ = some (e, etag) →
        s3Lookup w.objects (clock.now w.readings) key = .ok (some e)) →
      (S.twin clock).Agree (f r₁) (f r₂) w' d') :
    (S.twin clock).Agree ((KV.load key).bind f) ((KV.load key).bind f) w d := by
  refine Twin.Ends.bind (load_lookup h key) ?_ ?_
  · rintro r₁ r₂ w' d' ⟨⟨e, rfl, rfl⟩ | ⟨rfl, rfl, -⟩ | ⟨e, etag, version, rfl, rfl, -⟩, -⟩
    · exact .inl ⟨e, rfl, rfl, rfl⟩
    · exact .inr ⟨none, none, rfl, rfl⟩
    · exact .inr ⟨_, _, rfl, rfl⟩
  · rintro r₁ r₂ w' d' h' ⟨hsame, hlook⟩
    exact hok r₁ r₂ w' d' h' hsame fun e etag he => hlook e etag (congrArg Except.ok he)

theorem rename_mirrors (h : Mirrors w d) (hread : w.readings = 0) {src dst : String}
    (hcross : ¬ CrossesKinds w.objects clock src dst) :
    (S.twin clock).Agree (rename src dst) (rename src dst) w d := by
  refine Agree.loadEntry h src (fun w' d' h' => Twin.Agree.done h' _) ?_
  intro e d' h' hsrc
  dsimp only
  by_cases hne : src = dst
  · rw [if_pos hne]
    exact Twin.Agree.done h' _
  · rw [if_neg hne]
    refine Agree.load h' dst ?_
    intro r₁ r₂ w'' d'' h'' hsame hlook
    have hkind : ∀ e₀, r₁.map Prod.fst = some e₀ → e.kind = e₀.kind := by
      intro e₀ he₀
      obtain ⟨⟨e₁, etag⟩, rfl, rfl⟩ := Option.map_eq_some_iff.mp he₀
      exact kind_eq_of_not_crosses hread hne hcross hsrc (hlook _ etag rfl)
    refine Twin.Agree.bind (Agree.of_ok (save_destCond_mirrors h'' hsame hkind)) ?_
    exact fun _ _ _ hrel => uniform_delete_any src _ _ hrel

theorem copy_mirrors (h : Mirrors w d) (hread : w.readings = 0) {src dst : String} {replace : Bool}
    (hcross : ¬ (replace = true ∧ CrossesKinds w.objects clock src dst)) :
    (S.twin clock).Agree (copy src dst replace) (copy src dst replace) w d := by
  unfold copy
  by_cases hne : src = dst
  · rw [if_pos hne]
    exact Twin.Agree.done h _
  · rw [if_neg hne]
    refine Agree.loadEntry h src (fun w' d' h' => Twin.Agree.done h' _) ?_
    intro e d' h' hsrc
    refine Agree.load h' dst ?_
    intro r₁ r₂ w'' d'' h'' hsame hlook
    have hsome : r₁.isSome = r₂.isSome := by
      rcases hsame with ⟨e', hr, -⟩ | ⟨hr₁, hr₂, -⟩ | ⟨e', etag, version, hr₁, hr₂, -⟩
      · cases hr
      · cases hr₁
        cases hr₂
        rfl
      · cases hr₁
        cases hr₂
        rfl
    rw [← hsome]
    split
    · exact Twin.Agree.done h'' _
    · rename_i hrefuse
      have hkind : ∀ e₀, r₁.map Prod.fst = some e₀ → e.kind = e₀.kind := by
        intro e₀ he₀
        obtain ⟨⟨e₁, etag⟩, rfl, rfl⟩ := Option.map_eq_some_iff.mp he₀
        have hreplace : replace = true := by simpa using hrefuse
        exact kind_eq_of_not_crosses hread hne (fun hc => hcross ⟨hreplace, hc⟩) hsrc
          (hlook _ etag rfl)
      refine Twin.Agree.bind (Agree.of_ok (save_destCond_mirrors h'' hsame hkind)).attempt ?_
      rintro ((_ | _) | _) w₃ d₃ h₃ <;> exact Twin.Agree.done h₃ _

/-! ## Overwriting by another kind -/

theorem crosses_loads (h : Mirrors w d) (hread : w.readings = 0) {src dst : String}
    (hcross : CrossesKinds w.objects clock src dst) :
    ∃ e t₁ t₂ e₀ etag version,
      (KV.load src).run (S.twin clock).serve₁ w = (.ok (some (e, t₁)), w.tick) ∧
      (KV.load src).run (S.twin clock).serve₂ d = (.ok (some (e, t₂)), d.tick) ∧
      (KV.load dst).run (S.twin clock).serve₁ w.tick = (.ok (some (e₀, etag)), w.tick.tick) ∧
      (KV.load dst).run (S.twin clock).serve₂ d.tick =
        (.ok (some (e₀, DynamoDb.encodeToken e₀.kind version)), d.tick.tick) ∧
      StoredAt w d dst e₀ etag version ∧ e.kind ≠ e₀.kind := by
  obtain ⟨hne, e, e₀, hsrc, hdst, hkind⟩ := hcross
  have hsrc' : s3Lookup w.objects (clock.now w.readings) src = .ok (some e) := by
    rw [hread]
    exact hsrc
  have hdst' : s3Lookup w.tick.objects (clock.now w.tick.readings) dst = .ok (some e₀) := by
    unfold S3World.tick
    rw [hread]
    exact hdst
  rcases load_cases S clock h src with ⟨err, -, -, hlook⟩ |
    ⟨w', d', -, -, -, -, hlook⟩ | ⟨e₁, etag₁, version₁, h₁, h₂, -, hlook⟩
  · rw [hsrc'] at hlook
    cases hlook
  · rw [hsrc'] at hlook
    cases hlook
  · rw [hsrc'] at hlook
    cases hlook
    have htick : Mirrors w.tick d.tick := h.tick
    rcases load_cases S clock htick dst with ⟨err, -, -, hlook⟩ |
      ⟨w', d', -, -, -, -, hlook⟩ | ⟨e₂, etag, version, h₃, h₄, hstored, hlook⟩
    · rw [hdst'] at hlook
      cases hlook
    · rw [hdst'] at hlook
      cases hlook
    · rw [hdst'] at hlook
      cases hlook
      exact ⟨_, _, _, _, etag, version, h₁, h₂, h₃, h₄, hstored, hkind⟩

theorem run_loadEntry {σ : Type} {serve : (op : KVOp) → σ → Result op.Res × σ} {key : String}
    {s s' : σ} {loaded : Option (StoredValue × String)}
    (h : (KV.load key).run serve s = (.ok loaded, s')) :
    (KV.loadEntry key).run serve s = (.ok (loaded.map Prod.fst), s') := by
  unfold KV.loadEntry
  rw [Prog.bind_eq, Prog.run_bind, h]
  rfl

/-- RENAME onto a live key of another kind: done on S3, refused on DynamoDB. -/
theorem rename_crosses (h : Mirrors w d) (hread : w.readings = 0) {src dst : String}
    (hcross : CrossesKinds w.objects clock src dst)
    (halong : (rename src dst).Along (S.twin clock).serve₁ (Fits S.fo) w) :
    ((rename src dst).run (S.twin clock).serve₁ w).1 = .ok () ∧
    ((rename src dst).run (S.twin clock).serve₂ d).1 = .error .contention := by
  have hne := hcross.1
  obtain ⟨e, t₁, t₂, e₀, etag, version, h₁, h₂, h₃, h₄, hstored, hkind⟩ :=
    crosses_loads (S := S) h hread hcross
  unfold rename at halong ⊢
  rw [Prog.bind_eq] at halong ⊢
  have halong := halong.bind_right (congrArg Prod.fst (run_loadEntry h₁))
  rw [run_loadEntry h₁] at halong
  rw [Prog.run_bind, Prog.run_bind, run_loadEntry h₁, run_loadEntry h₂]
  simp only [Option.map_some, if_neg hne] at halong ⊢
  rw [Prog.bind_eq] at halong ⊢
  have halong := halong.bind_right (congrArg Prod.fst h₃)
  rw [h₃] at halong
  rw [Prog.run_bind, Prog.run_bind, h₃, h₄]
  obtain ⟨hs₁, hs₂⟩ := save_ifMatch_crosses clock (w := w.tick.tick) (d := d.tick.tick)
    hstored hkind halong.1
  constructor
  · show ((Prog.bind (KV.save dst e (.ifMatch etag)) _).run _ w.tick.tick).1 = _
    rw [Prog.run_bind, ← Prod.eta ((KV.save dst e (.ifMatch etag)).run (S.twin clock).serve₁ _), hs₁]
    rfl
  · show ((Prog.bind (KV.save dst e (.ifMatch _)) _).run _ d.tick.tick).1 = _
    rw [Prog.run_bind, hs₂]

/-- COPY REPLACE onto a live key of another kind: done on S3, not done on DynamoDB. -/
theorem copy_crosses (h : Mirrors w d) (hread : w.readings = 0) {src dst : String}
    (hcross : CrossesKinds w.objects clock src dst)
    (halong : (copy src dst true).Along (S.twin clock).serve₁ (Fits S.fo) w) :
    ((copy src dst true).run (S.twin clock).serve₁ w).1 = .ok true ∧
    ((copy src dst true).run (S.twin clock).serve₂ d).1 = .ok false := by
  have hne := hcross.1
  obtain ⟨e, t₁, t₂, e₀, etag, version, h₁, h₂, h₃, h₄, hstored, hkind⟩ :=
    crosses_loads (S := S) h hread hcross
  unfold copy at halong ⊢
  rw [if_neg hne, Prog.bind_eq] at halong ⊢
  have halong := halong.bind_right (congrArg Prod.fst (run_loadEntry h₁))
  rw [run_loadEntry h₁] at halong
  rw [Prog.run_bind, Prog.run_bind, run_loadEntry h₁, run_loadEntry h₂]
  simp only [Option.map_some] at halong ⊢
  rw [Prog.bind_eq] at halong ⊢
  have halong := halong.bind_right (congrArg Prod.fst h₃)
  rw [h₃] at halong
  rw [Prog.run_bind, Prog.run_bind, h₃, h₄]
  obtain ⟨hs₁, hs₂⟩ := save_ifMatch_crosses clock (w := w.tick.tick) (d := d.tick.tick)
    hstored hkind halong.1
  constructor
  · show ((Prog.bind (KV.save dst e (.ifMatch etag)).attempt _).run _ w.tick.tick).1 = _
    rw [Prog.run_bind, Prog.run_attempt, hs₁]
    rfl
  · show ((Prog.bind (KV.save dst e (.ifMatch _)).attempt _).run _ d.tick.tick).1 = _
    rw [Prog.run_bind, Prog.run_attempt, hs₂]
    rfl

end Overwrites

/-! ## Steps and runs -/

section Steps

variable {S : Setup} {clock : Clock} {w : S3World} {d : DdbWorld} {α : Type}

theorem keys_mirrors (wild : String → String → Bool) (pattern : String) (h : Mirrors w d) :
    (S.twin clock).Ends (fun r₁ r₂ _ _ => ∃ ks ks', r₁ = .ok ks ∧ r₂ = .ok ks' ∧ ks.Perm ks')
      (keys wild pattern) (keys wild pattern) w d := by
  refine Twin.Ends.bind (walk_mirrors h) ?_ ?_
  · rintro r₁ r₂ w' d' ⟨ks, ks', rfl, rfl, -⟩
    exact .inr ⟨ks, ks', rfl, rfl⟩
  · rintro a b w' d' h' ⟨ks, ks', ha, hb, hperm⟩ -
    cases ha
    cases hb
    exact ⟨h', _, _, rfl, rfl, hperm.filter _⟩

theorem run_randomKey {σ : Type} {serve : (op : KVOp) → σ → Result op.Res × σ} {s : σ}
    {ks : List String} {n : UInt64} (wild : String → String → Bool)
    (hwalk : serve .walk s = (.ok ks, s)) (hnanos : serve .nanos s = (.ok n, s)) :
    ((randomKey wild).run serve s).2 = s := by
  have hkeys : (keys wild "*").run serve s = (.ok (ks.filter (wild "*")), s) := by
    have hwalk' : KV.walk.run serve s = (.ok ks, s) := hwalk
    unfold keys
    rw [Prog.bind_eq, Prog.run_bind, hwalk']
    rfl
  unfold randomKey
  rw [Prog.bind_eq, Prog.run_bind, hkeys]
  dsimp only
  split
  · rfl
  · have hnanos' : KV.nanos.run serve s = (.ok n, s) := hnanos
    rw [Prog.bind_eq, Prog.run_bind, hnanos']
    rfl

theorem randomKey_mirrors (wild : String → String → Bool) (h : Mirrors w d) :
    Mirrors ((randomKey wild).run (S.twin clock).serve₁ w).2
      ((randomKey wild).run (S.twin clock).serve₂ d).2 := by
  have h₁ : ((randomKey wild).run (S.twin clock).serve₁ w).2 = w := run_randomKey wild rfl rfl
  have h₂ : ((randomKey wild).run (S.twin clock).serve₂ d).2 = d := run_randomKey wild rfl rfl
  rw [h₁, h₂]
  exact h

theorem KeyMethod.mirrors (x : Externs) (m : KeyMethod α) (h : Mirrors w d)
    (hread : w.readings = 0) (hcross : ¬ m.Crosses w.objects clock)
    (halong : (m.prog x).Along (S.twin clock).serve₁ (Fits S.fo) w) :
    Mirrors ((m.prog x).run (S.twin clock).serve₁ w).2 ((m.prog x).run (S.twin clock).serve₂ d).2 ∧
    m.SameReply ((m.prog x).run (S.twin clock).serve₁ w).1
      ((m.prog x).run (S.twin clock).serve₂ d).1 := by
  cases m with
  | delete key => exact uniform_delete key w d h halong
  | existsKey key =>
      exact (uniform_loadEntry key).bind (fun _ => Twin.Uniform.done _) w d h halong
  | expireAt key expiresAtMs =>
      exact uniform_cas key (keepsKind_expireAtModify expiresAtMs) w d h halong
  | ttlMs key => exact uniform_ttlMs key w d h halong
  | expireTimeMs key =>
      refine (uniform_loadEntry key).bind (fun entry => ?_) w d h halong
      cases entry <;> exact Twin.Uniform.done _
  | kind key => exact (uniform_loadEntry key).bind (fun _ => Twin.Uniform.done _) w d h halong
  | memUsage key => exact (uniform_loadEntry key).bind (fun _ => Twin.Uniform.done _) w d h halong
  | persist key => exact uniform_cas key keepsKind_persistModify w d h halong
  | rename src dst => exact rename_mirrors h hread hcross halong
  | renamenx src dst => exact uniform_renamenx src dst w d h halong
  | copy src dst replace => exact copy_mirrors h hread hcross halong
  | keys pattern => exact keys_mirrors x.wild pattern h halong
  | scan cursor pattern count => exact ⟨h, trivial⟩
  | dbsize => exact uniform_countKeys w d h halong
  | keyspaceStats =>
      exact uniform_countKeys.bind (fun _ => Twin.Uniform.done _) w d h halong
  | flushall => exact uniform_flushAll w d h halong
  | randomKey => exact ⟨randomKey_mirrors x.wild h, trivial⟩
  | dump key =>
      refine (uniform_loadEntry key).bind (fun entry => ?_) w d h halong
      cases entry with
      | none => exact Twin.Uniform.done _
      | some e => exact (Twin.Uniform.done _).bind fun _ => Twin.Uniform.done _
  | restore key payload ttl replace absTtl =>
      exact uniform_restore x.fo key payload ttl replace absTtl w d h halong

theorem Method.mirrors (x : Externs) (m : Method α) (h : Mirrors w d)
    (hread : w.readings = 0) (hcross : ¬ m.Crosses w.objects clock)
    (halong : (m.prog x).Along (S.twin clock).serve₁ (Fits S.fo) w) :
    Mirrors ((m.prog x).run (S.twin clock).serve₁ w).2 ((m.prog x).run (S.twin clock).serve₂ d).2 ∧
    m.SameReply ((m.prog x).run (S.twin clock).serve₁ w).1
      ((m.prog x).run (S.twin clock).serve₂ d).1 := by
  cases m with
  | string m => exact m.uniform x w d h halong
  | hash m => exact m.uniform x w d h halong
  | list m => exact m.uniform w d h halong
  | set m => exact m.uniform x w d h halong
  | zset m => exact m.uniform x w d h halong
  | stream m => exact m.uniform w d h halong
  | key m => exact m.mirrors x h hread hcross halong

theorem Method.crosses_differ (x : Externs) (m : Method α) (h : Mirrors w d)
    (hread : w.readings = 0) (hcross : m.Crosses w.objects clock)
    (halong : (m.prog x).Along (S.twin clock).serve₁ (Fits S.fo) w) :
    ¬ m.SameReply ((m.prog x).run (S.twin clock).serve₁ w).1
      ((m.prog x).run (S.twin clock).serve₂ d).1 := by
  cases m with
  | key m =>
      cases m with
      | rename src dst =>
          obtain ⟨h₁, h₂⟩ := rename_crosses h hread hcross halong
          show ¬ ((Storage.rename src dst).run _ w).1 = ((Storage.rename src dst).run _ d).1
          rw [h₁, h₂]
          nofun
      | copy src dst replace =>
          obtain ⟨rfl, hcross⟩ := hcross
          obtain ⟨h₁, h₂⟩ := copy_crosses h hread hcross halong
          show ¬ ((Storage.copy src dst true).run _ w).1 = ((Storage.copy src dst true).run _ d).1
          rw [h₁, h₂]
          simp
      | _ => exact absurd hcross id
  | _ => exact absurd hcross id

end Steps

section Runs

variable (S : Setup) (x : Externs)

theorem Request.onS3_eq (q : Request) (objects : BTreeMap String S3Object) :
    q.onS3 S x objects =
      (((q.method.prog x).run (S.twin q.clock).serve₁ ⟨objects, 0⟩).1,
        ((q.method.prog x).run (S.twin q.clock).serve₁ ⟨objects, 0⟩).2.objects) := by
  unfold Request.onS3
  rw [Prog.run_interp]
  rfl

theorem Request.onDynamoDb_eq (q : Request) (tables : Tables) :
    q.onDynamoDb S x tables =
      (((q.method.prog x).run (S.twin q.clock).serve₂ ⟨tables, 0⟩).1,
        ((q.method.prog x).run (S.twin q.clock).serve₂ ⟨tables, 0⟩).2.tables) := by
  unfold Request.onDynamoDb
  rw [Prog.run_interp]
  rfl

theorem indistinguishable_iff_from (reqs : List Request) {objects : BTreeMap String S3Object}
    {tables : Tables} (h : Mirrors ⟨objects, 0⟩ ⟨tables, 0⟩) (hfits : FitsAll S x reqs objects) :
    Indistinguishable S x reqs objects tables ↔ NoCrossing S x reqs objects := by
  induction reqs generalizing objects tables with
  | nil => exact iff_of_true trivial trivial
  | cons q rest ih =>
      obtain ⟨halong, hrest⟩ := hfits
      unfold Indistinguishable NoCrossing
      rw [q.onS3_eq S x] at hrest ⊢
      rw [q.onDynamoDb_eq S x]
      by_cases hcross : q.method.Crosses objects q.clock
      · refine iff_of_false (fun hsame => ?_) fun hno => hno.1 hcross
        exact q.method.crosses_differ x h rfl hcross halong hsame.1
      · obtain ⟨hrel, hreply⟩ := q.method.mirrors x h rfl hcross halong
        have hnext : Mirrors ⟨_, 0⟩ ⟨_, 0⟩ := ⟨rfl, hrel.2⟩
        constructor
        · rintro ⟨-, -, hind⟩
          exact ⟨hcross, (ih hnext hrest).mp hind⟩
        · rintro ⟨-, hno⟩
          exact ⟨hreply, fun now key => hnext.lookup_eq now key, (ih hnext hrest).mpr hno⟩

/-- From nothing stored, the two backends are indistinguishable in exactly the runs
that never overwrite a live key by an entry of another kind. -/
theorem indistinguishable_iff (reqs : List Request) (hfits : FitsAll S x reqs ∅) :
    Indistinguishable S x reqs ∅ Tables.empty ↔ NoCrossing S x reqs ∅ :=
  indistinguishable_iff_from S x reqs (mirrors_empty 0) hfits

end Runs

namespace RenameOntoString

/-- One fixed ETag and key order, doubles restricted to integers. -/
def setup : Setup := ⟨.integral, fun _ => "etag", ⟨id, List.Perm.refl⟩⟩

def externs : Externs := ⟨.integral, fun _ _ => true⟩

def clock : Clock := ⟨fun _ => 0, 0⟩

/-- A string, a hash, and the hash renamed onto the string. -/
def requests : List Request :=
  [⟨Unit, clock, .string (.setString "s" [118] none)⟩,
    ⟨Int, clock, .hash (.hset "h" [("f", [118])])⟩,
    ⟨Unit, clock, .key (.rename "h" "s")⟩]

end RenameOntoString

open RenameOntoString in
/-- The run fits the item limit, so it is indistinguishable exactly if nothing in it
crosses kinds. -/
theorem indistinguishable_iff_on_renameOntoString :
    FitsAll setup externs requests ∅ ∧
    (Indistinguishable setup externs requests ∅ Tables.empty ↔
      NoCrossing setup externs requests ∅) :=
  have hfits : FitsAll setup externs requests ∅ := by decide +kernel
  ⟨hfits, indistinguishable_iff setup externs requests hfits⟩

open RenameOntoString in
/-- RENAME of a hash onto a string tells the backends apart. -/
theorem distinguishable_by_rename :
    ¬ ∀ (S : Setup) (x : Externs) (reqs : List Request), FitsAll S x reqs ∅ →
      Indistinguishable S x reqs ∅ Tables.empty := by
  intro h
  have hfits : FitsAll setup externs requests ∅ := by decide +kernel
  obtain ⟨-, -, -, -, hreply, -⟩ := h setup externs requests hfits
  revert hreply
  show ¬ _ = _
  decide +kernel

end RustyAnt
