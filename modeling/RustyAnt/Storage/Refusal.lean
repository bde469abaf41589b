import RustyAnt.Storage.Keeps
import RustyAnt.Storage.OneClient
import RustyAnt.Storage.Streams

/-!
# Programs that refuse an entry

A method that finds an entry of a kind it does not work on ends with an error.  What it owes
the keyspace is that it has written nothing by then.  `Refuses` says so of a program, for
the entry at one key and whatever the other keys hold; `Lookups` is what a backend, under a
clock that moves, makes of it.
-/

namespace RustyAnt

open Lib

def Finds (key : String) (e : StoredValue) : (op : KVOp) → Result op.Res → Prop
  | .load key', r => key' = key → ∃ token, r = .ok (some (e, token))
  | _, _ => True

/-- As long as the key holds this entry, the program writes nothing and ends with an error. -/
def KV.Refuses {α : Type} (key : String) (e : StoredValue) (p : KV α) : Prop :=
  p.Obeys (Finds key e) KVOp.Reads fun r => ∃ err, r = .error err

namespace KV.Refuses

variable {α β : Type} {key : String} {e : StoredValue}

theorem error (err : RustyAntError) : KV.Refuses key e (.done (.error err) : KV α) := ⟨err, rfl⟩

theorem head {p : KV α} {f : α → KV β} (h : p.Refuses key e) : KV.Refuses key e (p.bind f) := by
  apply Prog.Obeys.bind h
  · rintro a ⟨err, herr⟩
    cases herr
  · intro err _
    exact ⟨err, rfl⟩

theorem after {p : KV α} {f : α → KV β} (hp : p.ReadOnly) (hf : ∀ a, (f a).Refuses key e) :
    KV.Refuses key e (p.bind f) := by
  induction p with
  | done r =>
      cases r with
      | ok a => exact hf a
      | error err => exact error err
  | call op k ih => exact ⟨hp.1, fun r _ => ih r (hp.2 r trivial)⟩

theorem parse {x : Result α} {f : α → KV β} (h : ∀ a, x = .ok a → (f a).Refuses key e) :
    KV.Refuses key e ((Prog.ofExcept x).bind f) := by
  cases x with
  | ok a => exact h a rfl
  | error err => exact error err

theorem ofExcept {x : Result α} (h : ∃ err, x = .error err) :
    KV.Refuses key e (Prog.ofExcept x : KV α) := h

theorem load {f : Option (StoredValue × String) → KV β}
    (h : ∀ token, (f (some (e, token))).Refuses key e) :
    KV.Refuses key e ((KV.load key).bind f) := by
  refine ⟨trivial, ?_⟩
  intro r hr
  obtain ⟨token, rfl⟩ := hr rfl
  exact h token

theorem loadEntry {f : Option StoredValue → KV β} (h : (f (some e)).Refuses key e) :
    KV.Refuses key e ((KV.loadEntry key).bind f) := by
  unfold KV.loadEntry
  rw [Prog.bind_eq, Prog.bind_assoc]
  exact load fun _ => h

end KV.Refuses

/-! ## Typed access -/

namespace View

variable {α : Type} (v : View α) {key : String} {e : StoredValue}

theorem find_other (h : e.kind ≠ v.kind) : v.find key (some e) = .error (.wrongType key) := by
  unfold find
  dsimp only
  cases hx : v.unwrap e.value with
  | none => rfl
  | some x =>
      rw [v.unwrap_eq_some] at hx
      apply absurd _ h
      rw [← v.kind_wrap x, ← hx]
      rfl

end View

/-- An update closure refuses the entry. -/
def RefusesEntry {R : Type} (e : StoredValue) (modify : Option StoredValue → Result R) : Prop :=
  ∃ err, modify (some e) = .error err

namespace RefusesEntry

variable {α R R' : Type} {key : String} {e : StoredValue}

theorem bind {m : Option StoredValue → Result R} {g : Option StoredValue → R → Result R'}
    (h : RefusesEntry e m) : RefusesEntry e fun entry => m entry >>= g entry := by
  obtain ⟨err, herr⟩ := h
  refine ⟨err, ?_⟩
  dsimp only
  rw [herr]
  rfl

theorem find {v : View α} (h : e.kind ≠ v.kind) : RefusesEntry e (v.find key) :=
  ⟨_, v.find_other h⟩

theorem findOr {v : View α} (h : e.kind ≠ v.kind) (fresh : α) :
    RefusesEntry e (v.findOr key fresh) := bind (find h)

theorem counterOf (h : e.kind ≠ .string) : RefusesEntry e (Storage.counterOf key) :=
  bind (find (v := View.string) h)

theorem parseStringAsF64 (fo : FloatOps) (h : e.kind ≠ .string) :
    RefusesEntry e fun entry => Storage.parseStringAsF64 fo entry key :=
  bind (find (v := View.string) h)

theorem hllOf (h : e.kind ≠ .string) : RefusesEntry e (Storage.hllOf key) :=
  bind (find (v := View.string) h)

theorem groupOf {group : String} (h : e.kind ≠ .stream) :
    RefusesEntry e (Storage.groupOf key group) :=
  bind (find (v := View.stream) h)

end RefusesEntry

namespace KV.Refuses

variable {α β δ R : Type} {key : String} {e : StoredValue}

theorem read {v : View α} (h : e.kind ≠ v.kind) (absent : β) (f : α → β) :
    (v.read key absent f).Refuses key e := by
  apply loadEntry
  apply head
  exact .ofExcept (RefusesEntry.find h)

theorem readRand {v : View α} (h : e.kind ≠ v.kind) (absent : β) (f : α → UInt64 → β) :
    (v.readRand key absent f).Refuses key e := by
  apply loadEntry
  apply head
  exact .ofExcept (RefusesEntry.find h)

theorem casWith {draw : KV δ} {modify : δ → Option StoredValue → Result (CasAction R)}
    (hdraw : draw.ReadOnly) (h : ∀ d, RefusesEntry e (modify d)) :
    (casWith key draw modify).Refuses key e := by
  apply load
  intro token
  apply after hdraw
  intro d
  exact .head (.ofExcept (h d))

theorem cas {modify : Option StoredValue → Result (CasAction R)} (h : RefusesEntry e modify) :
    (cas key modify).Refuses key e := casWith (.done _) fun _ => h

end KV.Refuses

/-! ## Running alone -/

/-- Each key keeps its entry, but for those that had expired at a reading of the clock. -/
def Entries.Kept (clock : Clock) (first last : Nat) (m m' : Entries) : Prop :=
  ∀ key, m' key = m key ∨ m' key = none ∧
    ∃ e n, m key = some (.ok e) ∧ first ≤ n ∧ n < last ∧ e.isExpired (clock.now n) = true

namespace Entries.Kept

variable {clock : Clock} {first mid last : Nat} {m m' : Entries} {key : String}

theorem refl (clock : Clock) (n : Nat) (m : Entries) : Kept clock n n m m := fun _ => .inl rfl

theorem mono (h : Kept clock first mid m m') (hle : mid ≤ last) : Kept clock first last m m' := by
  intro key
  rcases h key with hsame | ⟨hgone, e, n, he, hfirst, hlast, hexp⟩
  · exact .inl hsame
  · exact .inr ⟨hgone, e, n, he, hfirst, by omega, hexp⟩

theorem of_some (h : Kept clock first last m m') {r : Result StoredValue}
    (hkey : m' key = some r) : m key = some r := by
  rcases h key with hsame | ⟨hgone, -⟩
  · rw [← hsame, hkey]
  · rw [hgone] at hkey
    cases hkey

/-- An entry that is live at each reading is still there. -/
theorem live (h : Kept clock first last m m') {e : StoredValue} (hkey : m key = some (.ok e))
    (hlive : ∀ n, first ≤ n → n < last → e.isExpired (clock.now n) = false) :
    m' key = some (.ok e) := by
  rcases h key with hsame | ⟨-, e', n, he, hfirst, hlast, hexp⟩
  · rw [hsame, hkey]
  · rw [hkey] at he
    cases he
    rw [hlive n hfirst hlast] at hexp
    cases hexp

/-- What a load collects has expired at its reading of the clock. -/
theorem swept (h : Kept clock first mid m m') (hmid : first ≤ mid) (hlast : mid ≤ last)
    (hread : ∀ e, m' key = some (.ok e) → mid < last) :
    Kept clock first last m (m'.swept (clock.now mid) key) := by
  rcases swept_cases m' (clock.now mid) key with hsame | ⟨hgone, e, he, hexp⟩
  · rw [hsame]
    exact h.mono hlast
  · intro key'
    by_cases hk : key' = key
    · rw [hk, hgone]
      exact .inr ⟨Function.update_self _ _ _, e, mid, h.of_some he, hmid, hread e he, hexp⟩
    · rw [swept_other hk]
      exact h.mono hlast key'

end Entries.Kept

/-- What a backend does for a client that only looks, under a clock that moves; `readings` is
how often the clock has been read. -/
structure Lookups (clock : Clock) where
  State : Type
  serve : (op : KVOp) → State → Result op.Res × State
  Valid : State → Prop
  entries : State → Entries
  readings : State → Nat
  load : ∀ {s} key, Valid s → ∃ answer s', serve (.load key) s = (answer, s') ∧
    answer.map (Option.map Prod.fst) = (entries s).view (clock.now (readings s)) key ∧
    Valid s' ∧ entries s' = (entries s).swept (clock.now (readings s)) key ∧
    ∀ e, entries s key = some (.ok e) → readings s < readings s'
  look : ∀ {s} op, Valid s → op.Reads → (∀ key, op ≠ .load key) →
    Valid (serve op s).2 ∧ entries (serve op s).2 = entries s
  later : ∀ op s, readings s ≤ readings (serve op s).2

namespace Lookups

variable {clock : Clock} (L : Lookups clock)

/-- From `s` to `s'` nothing has been written. -/
structure Unwritten (s s' : L.State) : Prop where
  valid : L.Valid s'
  later : L.readings s ≤ L.readings s'
  kept : Entries.Kept clock (L.readings s) (L.readings s') (L.entries s) (L.entries s')

/-- The entry has not expired at any reading of the clock from `s` to `s'`. -/
def LiveThrough (e : StoredValue) (s s' : L.State) : Prop :=
  ∀ n, L.readings s ≤ n → n < L.readings s' → e.isExpired (clock.now n) = false

variable {L} {s s' : L.State} {key : String} {e : StoredValue}

/-- One operation: the key that holds a live entry is found, and nothing is written. -/
theorem Unwritten.step (h : L.Unwritten s s') (hentry : L.entries s key = some (.ok e)) {op : KVOp}
    (hop : op.Reads) (hlive : L.LiveThrough e s (L.serve op s').2) :
    Finds key e op (L.serve op s').1 ∧ L.Unwritten s (L.serve op s').2 := by
  have hmono := L.later op s'
  by_cases hload : ∃ key', op = .load key'
  · obtain ⟨key', rfl⟩ := hload
    obtain ⟨answer, s₁, hserve, hview, hvalid, hentries, hread⟩ := L.load key' h.valid
    rw [hserve] at hmono hlive ⊢
    dsimp only at hmono hlive ⊢
    constructor
    · intro hkey
      rw [hkey] at hview hread
      have hhere : L.entries s' key = some (.ok e) :=
        h.kept.live hentry fun n hfirst hlast => hlive n hfirst (by omega)
      have hlt : L.readings s' < L.readings s₁ := hread e hhere
      rw [Entries.view_ok hhere, hlive _ h.later hlt, if_neg Bool.false_ne_true] at hview
      match answer, hview with
      | .ok (some (e', token)), hview =>
          have he : e' = e := Option.some.inj (Except.ok.inj hview)
          rw [he]
          exact ⟨token, rfl⟩
    · refine ⟨hvalid, h.later.trans hmono, ?_⟩
      rw [hentries]
      exact h.kept.swept h.later hmono hread
  · have hother : ∀ key', op ≠ .load key' := fun key' hkey => hload ⟨key', hkey⟩
    obtain ⟨hvalid, hentries⟩ := L.look op h.valid hop hother
    constructor
    · cases op with
      | load key' => exact absurd rfl (hother key')
      | _ => exact trivial
    · refine ⟨hvalid, h.later.trans hmono, ?_⟩
      rw [hentries]
      exact h.kept.mono hmono

theorem refuses_alone {α : Type} {p : KV α} (h : p.Refuses key e) (hs : L.Valid s)
    (hentry : L.entries s key = some (.ok e)) (hlive : L.LiveThrough e s (p.run L.serve s).2) :
    (∃ err, (p.run L.serve s).1 = .error err) ∧ L.Unwritten s (p.run L.serve s).2 := by
  apply Prog.Obeys.run_below (L.Unwritten s)
    (fun s' => L.readings s' ≤ L.readings (p.run L.serve s).2) _ _ h
  · exact ⟨hs, le_refl _, .refl _ _ _⟩
  · exact le_refl _
  · intro op s' hbound
    exact (L.later op s').trans hbound
  · intro op s' hinv hop hbound
    exact hinv.step hentry hop fun n hfirst hlast => hlive n hfirst (by omega)

end Lookups

end RustyAnt
