import RustyAnt.Lib.Paging
import RustyAnt.Storage.Keys
import RustyAnt.Storage.RoundTrip

/-!
# A store with one client

What a backend does for a client that runs alone while the clock stands at `now`, one law
for each operation.  A backend is seen through the entries it stores, as the codec reads
them back; `view` is what a lookup reports of them, in which an expired entry is no entry.
-/

namespace RustyAnt

open Lib

/-- What is stored at each key, as the codec reads it back. -/
abbrev Entries := String → Option (Result StoredValue)

/-- The entry as the codec reads it back once it is written. -/
def readBack (e : StoredValue) : Result StoredValue :=
  Codec.storedValue.dec (Codec.storedValue.enc e)

theorem readBack_iff {e : StoredValue} : readBack e = .ok e ↔ e.value.scoresFinite = true :=
  Codec.storedValue_dec_enc e

namespace Entries

/-- What a lookup reports. -/
def view (m : Entries) (now : Int) (key : String) : Result (Option StoredValue) :=
  match m key with
  | none => .ok none
  | some (.error err) => .error err
  | some (.ok e) => .ok (if e.isExpired now then none else some e)

/-- What a lookup leaves: an expired entry is collected. -/
def swept (m : Entries) (now : Int) (key : String) : Entries :=
  match m key with
  | some (.ok e) => if e.isExpired now then Function.update m key none else m
  | _ => m

variable {m : Entries} {now : Int} {key key' : String}

theorem view_none (h : m key = none) : m.view now key = .ok none := by
  unfold view
  rw [h]

theorem view_ok {e : StoredValue} (h : m key = some (.ok e)) :
    m.view now key = .ok (if e.isExpired now then none else some e) := by
  unfold view
  rw [h]

theorem view_congr {m' : Entries} (h : m' key = m key) : m'.view now key = m.view now key := by
  unfold view
  rw [h]

theorem entry_of_live {e : StoredValue} (h : m.view now key = .ok (some e)) :
    m key = some (.ok e) ∧ e.isExpired now = false := by
  unfold view at h
  split at h
  · cases h
  · cases h
  · rename_i e' hkey
    split at h
    · cases h
    · rename_i hlive
      rw [← Option.some.inj (Except.ok.inj h)]
      exact ⟨hkey, Bool.eq_false_iff.mpr hlive⟩

theorem swept_cases (m : Entries) (now : Int) (key : String) : m.swept now key = m ∨
    m.swept now key = Function.update m key none ∧
      ∃ e, m key = some (.ok e) ∧ e.isExpired now = true := by
  unfold swept
  split
  · rename_i e hkey
    by_cases hexp : e.isExpired now = true
    · rw [if_pos hexp]
      exact .inr ⟨rfl, e, hkey, hexp⟩
    · rw [if_neg hexp]
      exact .inl rfl
  · exact .inl rfl

theorem swept_live {e : StoredValue} (h : m.view now key = .ok (some e)) :
    m.swept now key = m := by
  obtain ⟨hkey, hlive⟩ := entry_of_live h
  unfold swept
  rw [hkey]
  dsimp only
  rw [if_neg (by rw [hlive]; decide)]

theorem swept_other (h : key' ≠ key) : m.swept now key key' = m key' := by
  rcases swept_cases m now key with hsame | ⟨hgone, -⟩
  · rw [hsame]
  · rw [hgone, Function.update_of_ne h]

theorem swept_missing (h : m.view now key = .ok none) : m.swept now key key = none := by
  unfold view at h
  unfold swept
  split at h
  · rename_i hkey
    rw [hkey]
    exact hkey
  · cases h
  · rename_i e hkey
    rw [hkey]
    dsimp only
    by_cases hexp : e.isExpired now = true
    · rw [if_pos hexp]
      exact Function.update_self _ _ _
    · rw [if_neg hexp] at h
      cases h

theorem view_swept : (m.swept now key).view now key' = m.view now key' := by
  rcases swept_cases m now key with hsame | ⟨hgone, e, hkey, hexp⟩
  · rw [hsame]
  · rw [hgone]
    by_cases hk : key' = key
    · rw [hk, view_none (Function.update_self _ _ _), view_ok hkey, if_pos hexp]
    · exact view_congr (Function.update_of_ne hk _ _)

theorem update_swept (x : Option (Result StoredValue)) :
    Function.update (m.swept now key) key x = Function.update m key x := by
  funext key'
  by_cases hk : key' = key
  · rw [hk, Function.update_self, Function.update_self]
  · rw [Function.update_of_ne hk, Function.update_of_ne hk, swept_other hk]

end Entries

/-- A backend with one client, at a time of the clock; `nanos` is the reading of the
nanosecond clock.  `Fits` is the backend's limit on an entry. -/
structure OneClient (now : Int) where
  State : Type
  serve : (nanos : UInt64) → (op : KVOp) → State → Result op.Res × State
  Valid : State → Prop
  entries : State → Entries
  listing : State → List String
  Fits : StoredValue → Prop
  readable : ∀ {s key e}, Valid s → entries s key = some (.ok e) → readBack e = .ok e
  load : ∀ {s} nanos key, Valid s → ∃ answer s', serve nanos (.load key) s = (answer, s') ∧
    answer.map (Option.map Prod.fst) = (entries s).view now key ∧
    Valid s' ∧ entries s' = (entries s).swept now key
  put : ∀ {s e cond} nanos key, Valid s → Fits e →
    cond = .any ∨ cond = .createOnly ∧ entries s key = none →
    ∃ s', serve nanos (.save key e cond) s = (.ok (), s') ∧
      Valid s' ∧ entries s' = Function.update (entries s) key (some (readBack e))
  refuse : ∀ {s e} nanos key, Valid s → Fits e → entries s key ≠ none →
    serve nanos (.save key e .createOnly) s = (.error .contention, s)
  remove : ∀ {s} nanos key, Valid s → ∃ s', serve nanos (.delete key .any) s = (.ok (), s') ∧
    Valid s' ∧ entries s' = Function.update (entries s) key none
  clock : ∀ {s} nanos, Valid s → ∃ s', serve nanos .nowMs s = (.ok now, s') ∧
    Valid s' ∧ entries s' = entries s
  draw : ∀ s nanos, serve nanos .nanos s = (.ok nanos, s)
  walk : ∀ s nanos, serve nanos .walk s = (.ok (listing s), s)
  page : ∀ {s n} nanos cursor, Valid s → 1 ≤ n → (∀ c ∈ cursor, c ∈ listing s) →
    ∃ page, serve nanos (.listPage cursor n) s = (.ok page, s) ∧
      IsPage (listing s) n cursor page.keys page.nextCursor
  nodup : ∀ s, (listing s).Nodup
  listed : ∀ {s key}, Valid s → (key ∈ listing s ↔ entries s key ≠ none)

namespace OneClient

variable {now : Int} (B : OneClient now)

/-- A program run by the one client. -/
def run {α : Type} (nanos : UInt64) (p : KV α) (s : B.State) : Result α × B.State :=
  p.run (B.serve nanos) s

/-- The run has ended with this answer and left these entries. -/
def Ends {α : Type} (out : Result α × B.State) (answer : Result α) (m : Entries) : Prop :=
  out.1 = answer ∧ B.Valid out.2 ∧ B.entries out.2 = m

/-- From the entries `m` the program ends with this answer and leaves `m'`. -/
def Does {α : Type} (nanos : UInt64) (m : Entries) (p : KV α) (answer : Result α)
    (m' : Entries) : Prop :=
  ∀ s, B.Valid s → B.entries s = m → B.Ends (B.run nanos p s) answer m'

/-- `EXISTS` reports the key. -/
def Exists (nanos : UInt64) (s : B.State) (key : String) : Prop :=
  (B.run nanos (Storage.existsKey key) s).1 = .ok true

variable {B} {nanos : UInt64} {m m' m'' : Entries} {α β : Type} {key : String}

theorem does_done (r : Result α) : B.Does nanos m (.done r) r m :=
  fun _ hs hm => ⟨rfl, hs, hm⟩

theorem Does.bind {p : KV α} {f : α → KV β} {a : α} {answer : Result β}
    (hp : B.Does nanos m p (.ok a) m') (hf : B.Does nanos m' (f a) answer m'') :
    B.Does nanos m (p.bind f) answer m'' := by
  intro s hs hm
  obtain ⟨hanswer, hvalid, hentries⟩ := hp s hs hm
  have hrest := hf _ hvalid hentries
  unfold run at hanswer hrest ⊢
  rw [Prog.run_bind, ← Prod.eta (p.run (B.serve nanos) s), hanswer]
  exact hrest

theorem Does.bind_error {p : KV α} (f : α → KV β) {err : RustyAntError}
    (hp : B.Does nanos m p (.error err) m') : B.Does nanos m (p.bind f) (.error err) m' := by
  intro s hs hm
  obtain ⟨hanswer, hvalid, hentries⟩ := hp s hs hm
  unfold run at hanswer hvalid hentries ⊢
  rw [Prog.run_bind, ← Prod.eta (p.run (B.serve nanos) s), hanswer]
  exact ⟨rfl, hvalid, hentries⟩

theorem Does.attempt {p : KV α} {answer : Result α} (hp : B.Does nanos m p answer m') :
    B.Does nanos m p.attempt (.ok answer) m' := by
  intro s hs hm
  obtain ⟨hanswer, hvalid, hentries⟩ := hp s hs hm
  unfold run at hanswer hvalid hentries ⊢
  rw [Prog.run_attempt, hanswer]
  exact ⟨rfl, hvalid, hentries⟩

/-! ## Lookups -/

/-- A lookup reports the view of its key and collects what has expired there. -/
theorem does_loadEntry (m : Entries) (key : String) :
    B.Does nanos m (KV.loadEntry key) (m.view now key) (m.swept now key) := by
  intro s hs hm
  obtain ⟨answer, s', hserve, hview, hvalid, hentries⟩ := B.load nanos key hs
  have hrun : (KV.load key).run (B.serve nanos) s = (answer, s') := hserve
  rw [hm] at hview hentries
  unfold run KV.loadEntry
  rw [Prog.bind_eq, Prog.run_bind, hrun, ← hview]
  cases answer with
  | error err => exact ⟨rfl, hvalid, hentries⟩
  | ok loaded => exact ⟨rfl, hvalid, hentries⟩

theorem does_load_missing (h : m.view now key = .ok none) :
    B.Does nanos m (KV.load key) (.ok none) (m.swept now key) := by
  intro s hs hm
  obtain ⟨answer, s', hserve, hview, hvalid, hentries⟩ := B.load nanos key hs
  have hrun : B.run nanos (KV.load key) s = (answer, s') := hserve
  rw [hm] at hview hentries
  rw [h] at hview
  rw [hrun]
  match answer, hview with
  | .ok none, _ => exact ⟨rfl, hvalid, hentries⟩

theorem does_load_live {e : StoredValue} (h : m.view now key = .ok (some e))
    {f : Option (StoredValue × String) → KV β} {answer : Result β}
    (hf : ∀ token, B.Does nanos m (f (some (e, token))) answer m') :
    B.Does nanos m ((KV.load key).bind f) answer m' := by
  intro s hs hm
  obtain ⟨loaded, s', hserve, hview, hvalid, hentries⟩ := B.load nanos key hs
  have hrun : (KV.load key).run (B.serve nanos) s = (loaded, s') := hserve
  rw [hm] at hview hentries
  rw [h] at hview
  rw [Entries.swept_live h] at hentries
  unfold run
  rw [Prog.run_bind, hrun]
  match loaded, hview with
  | .ok (some (e', token)), hview =>
      have he : e' = e := Option.some.inj (Except.ok.inj hview)
      rw [he]
      exact hf token s' hvalid hentries

/-- `EXISTS` reports the keys with a live entry. -/
theorem exists_iff {s : B.State} (hs : B.Valid s) (key : String) :
    B.Exists nanos s key ↔ ∃ e, (B.entries s).view now key = .ok (some e) := by
  have hload := @does_loadEntry now B nanos (B.entries s) key
  unfold Exists Storage.existsKey
  rw [Prog.bind_eq]
  cases hview : (B.entries s).view now key with
  | error err =>
      rw [hview] at hload
      rw [(Does.bind_error _ hload s hs rfl).1]
      simp
  | ok found =>
      rw [hview] at hload
      have hdone : B.Does nanos ((B.entries s).swept now key)
          (pure found.isSome : KV Bool) (.ok found.isSome) _ := does_done _
      rw [(hload.bind hdone s hs rfl).1]
      cases found <;> simp

/-! ## Writes -/

theorem does_save {e : StoredValue} (hfits : B.Fits e) {cond : WriteCondition}
    (hcond : cond = .any ∨ cond = .createOnly ∧ m key = none) :
    B.Does nanos m (KV.save key e cond) (.ok ())
      (Function.update m key (some (readBack e))) := by
  intro s hs hm
  rw [← hm] at hcond ⊢
  obtain ⟨s', hserve, hvalid, hentries⟩ := B.put nanos key hs hfits hcond
  have hrun : B.run nanos (KV.save key e cond) s = (.ok (), s') := hserve
  rw [hrun]
  exact ⟨rfl, hvalid, hentries⟩

theorem does_create {e : StoredValue} (hfits : B.Fits e) (hkey : m key = none) :
    B.Does nanos m (KV.save key e .createOnly).attempt (.ok (.ok ()))
      (Function.update m key (some (readBack e))) :=
  (does_save hfits (.inr ⟨rfl, hkey⟩)).attempt

theorem does_create_refused {e : StoredValue} (hfits : B.Fits e) (hkey : m key ≠ none) :
    B.Does nanos m (KV.save key e .createOnly).attempt (.ok (.error .contention)) m := by
  apply Does.attempt
  intro s hs hm
  rw [← hm] at hkey
  have hrun : B.run nanos (KV.save key e .createOnly) s = (.error .contention, s) :=
    B.refuse nanos key hs hfits hkey
  rw [hrun]
  exact ⟨rfl, hs, hm⟩

theorem does_delete (m : Entries) (key : String) :
    B.Does nanos m (KV.delete key .any) (.ok ()) (Function.update m key none) := by
  intro s hs hm
  obtain ⟨s', hserve, hvalid, hentries⟩ := B.remove nanos key hs
  have hrun : B.run nanos (KV.delete key .any) s = (.ok (), s') := hserve
  rw [hm] at hentries
  rw [hrun]
  exact ⟨rfl, hvalid, hentries⟩

theorem does_nowMs (m : Entries) : B.Does nanos m KV.nowMs (.ok now) m := by
  intro s hs hm
  obtain ⟨s', hserve, hvalid, hentries⟩ := B.clock nanos hs
  have hrun : B.run nanos KV.nowMs s = (.ok now, s') := hserve
  rw [hrun]
  exact ⟨rfl, hvalid, hentries.trans hm⟩

end OneClient
end RustyAnt
