import RustyAnt.Storage.Keys
import RustyAnt.Storage.Lists
import RustyAnt.Storage.Solo
import RustyAnt.Storage.Strings
import RustyAnt.Storage.ZSets

/-!
# Invariants of every key

A condition on what each key holds, kept by every operation a program asks for.  The
program may use the condition on what it loads and owes it for what it writes; a delete
owes it for nothing.
-/

namespace RustyAnt

open Lib

/-- A condition on what a key holds. -/
abbrev KeyInv := String → Option StoredValue → Prop

namespace KeyInv

/-- What a load answers is within the condition. -/
def rely (I : KeyInv) : (op : KVOp) → Result op.Res → Prop
  | .load key, .ok loaded => I key (loaded.map Prod.fst)
  | _, _ => True

/-- What is written is within the condition.  A create finds the key absent. -/
def guar (I : KeyInv) : KVOp → Prop
  | .save key entry .createOnly => I key none → I key (some entry)
  | .save key entry _ => I key (some entry)
  | .delete key _ => I key none
  | .flushAll => ∀ key, I key none
  | _ => True

/-- The condition at one key only. -/
def only (tracked : String) (J : Option StoredValue → Prop) : KeyInv :=
  fun key entry => key = tracked → J entry

variable {I : KeyInv} {key : String}

theorem guar_save {entry : StoredValue} {cond : WriteCondition} (h : I key (some entry)) :
    I.guar (.save key entry cond) := by
  cases cond with
  | any => exact h
  | createOnly => exact fun _ => h
  | ifMatch etag => exact h

theorem only_of_ne {tracked : String} {J : Option StoredValue → Prop} {entry : Option StoredValue}
    (h : key ≠ tracked) : only tracked J key entry := fun heq => absurd heq h

end KeyInv

/-- Operations that change no entry, but for the expired ones that a load collects. -/
def KVOp.Reads : KVOp → Prop
  | save _ _ _ => False
  | delete _ _ => False
  | flushAll => False
  | _ => True

theorem KVOp.Reads.guar {op : KVOp} (h : op.Reads) (I : KeyInv) : I.guar op := by
  cases op with
  | save key entry cond => exact h.elim
  | delete key cond => exact h.elim
  | flushAll => exact h.elim
  | load | listPage | walk | countKeys | nowMs | nanos => exact trivial

/-- The program changes no entry. -/
def KV.ReadOnly {α : Type} (p : KV α) : Prop := p.Requests KVOp.Reads

namespace KV.ReadOnly

variable {α β : Type}

theorem done (r : Result α) : KV.ReadOnly (.done r) := Prog.Requests.done r

theorem perform {op : KVOp} (h : op.Reads) : KV.ReadOnly (.perform op) := Prog.Requests.perform h

theorem bind {p : KV α} {f : α → KV β} (hp : p.ReadOnly) (hf : ∀ a, (f a).ReadOnly) :
    KV.ReadOnly (p.bind f) := Prog.Requests.bind hp hf

theorem parse {x : Result α} {f : α → KV β} (h : ∀ a, (f a).ReadOnly) :
    KV.ReadOnly ((Prog.ofExcept x).bind f) :=
  bind (done x) h

theorem reply {p : KV α} {f : α → β} (h : p.ReadOnly) :
    KV.ReadOnly (p.bind fun a => Prog.done (.ok (f a))) :=
  bind h fun _ => done _

theorem loadEntry (key : String) : (KV.loadEntry key).ReadOnly :=
  reply (perform trivial)

theorem nowMs : KV.nowMs.ReadOnly := perform trivial

theorem nanos : KV.nanos.ReadOnly := perform trivial

theorem walk : KV.walk.ReadOnly := perform trivial

theorem read (v : View α) (key : String) (absent : β) (f : α → β) :
    (v.read key absent f).ReadOnly := by
  apply bind (loadEntry key)
  intro entry
  apply parse
  intro found
  cases found with
  | none => exact done _
  | some p => exact done _

theorem readRand (v : View α) (key : String) (absent : β) (f : α → UInt64 → β) :
    (v.readRand key absent f).ReadOnly := by
  apply bind (loadEntry key)
  intro entry
  apply parse
  intro found
  cases found with
  | none => exact done _
  | some p => exact reply nanos

end KV.ReadOnly

namespace Storage

theorem mergeKeys_readOnly (merged : Bytes) (keys : List String) :
    (mergeKeys merged keys).ReadOnly := by
  induction keys generalizing merged with
  | nil => exact .done _
  | cons key keys ih =>
      apply KV.ReadOnly.bind (.loadEntry key)
      intro entry
      apply KV.ReadOnly.parse
      intro found
      cases found with
      | none => exact ih merged
      | some p => exact .parse fun merged => ih merged

theorem restoreExpiry_readOnly (ttl : Int) (absTtl : Bool) : (restoreExpiry ttl absTtl).ReadOnly := by
  unfold restoreExpiry
  split
  · exact .done _
  · split
    · exact .done _
    · exact .reply .nowMs

end Storage

/-- The program keeps the condition at every key. -/
def KV.Keeps {α : Type} (I : KeyInv) (p : KV α) : Prop := p.Obeys I.rely I.guar fun _ => True

namespace KV.Keeps

variable {α β δ R : Type} {I : KeyInv} {key : String}

theorem done (r : Result α) : KV.Keeps I (.done r) := trivial

theorem bind {p : KV α} {f : α → KV β} (hp : p.Keeps I) (hf : ∀ a, (f a).Keeps I) :
    KV.Keeps I (p.bind f) :=
  Prog.Obeys.bind hp (fun a _ => hf a) fun _ _ => trivial

theorem attempt {p : KV α} (hp : p.Keeps I) : KV.Keeps I p.attempt :=
  Prog.Obeys.mono (Prog.Obeys.attempt hp) fun _ _ => trivial

theorem parse {x : Result α} {f : α → KV β} (h : ∀ a, x = .ok a → (f a).Keeps I) :
    KV.Keeps I ((Prog.ofExcept x).bind f) := by
  cases x with
  | ok a => exact h a rfl
  | error e => exact done _

theorem reply {p : KV α} {f : α → β} (h : p.Keeps I) :
    KV.Keeps I (p.bind fun a => Prog.done (.ok (f a))) :=
  bind h fun _ => done _

theorem save {entry : StoredValue} {cond : WriteCondition} (h : I key (some entry)) :
    (KV.save key entry cond).Keeps I :=
  Prog.Obeys.perform (KeyInv.guar_save h) fun _ _ => trivial

theorem delete {cond : DeleteCondition} (h : I key none) : (KV.delete key cond).Keeps I :=
  Prog.Obeys.perform h fun _ _ => trivial

theorem load {f : Option (StoredValue × String) → KV β}
    (h : ∀ loaded, I key (loaded.map Prod.fst) → (f loaded).Keeps I) :
    KV.Keeps I ((KV.load key).bind f) := by
  refine ⟨trivial, fun r hr => ?_⟩
  cases r with
  | ok loaded => exact h loaded hr
  | error e => exact done _

theorem loadEntry {f : Option StoredValue → KV β} (h : ∀ entry, I key entry → (f entry).Keeps I) :
    KV.Keeps I ((KV.loadEntry key).bind f) := by
  refine ⟨trivial, fun r hr => ?_⟩
  cases r with
  | ok loaded => exact h (loaded.map Prod.fst) hr
  | error e => exact done _

end KV.Keeps

theorem KV.ReadOnly.keeps {α : Type} {p : KV α} (h : p.ReadOnly) (I : KeyInv) : p.Keeps I := by
  induction p with
  | done r => exact .done r
  | call op k ih => exact ⟨h.1.guar I, fun r _ => ih r (h.2 r trivial)⟩

/-! ## Compare-and-swap -/

section Cas

variable {α β δ R : Type} {I : KeyInv} {J : Option StoredValue → Prop} {key : String}

/-- What a decision on `entry` leaves is within the condition. -/
def Leaves (J : Option StoredValue → Prop) (entry : Option StoredValue)
    (x : Result (CasAction R)) : Prop :=
  ∀ action, x = .ok action → J (action.apply entry)

/-- The closure leaves the condition of an entry that has it. -/
def KeepsAt (J : Option StoredValue → Prop)
    (modify : Option StoredValue → Result (CasAction R)) : Prop :=
  ∀ entry, J entry → Leaves J entry (modify entry)

theorem KeepsAt.only {tracked : String} {modify : Option StoredValue → Result (CasAction R)}
    (h : KeepsAt J modify) : KeepsAt (KeyInv.only tracked J key) modify :=
  fun entry hentry action haction heq => h entry (hentry heq) action haction

theorem KV.Keeps.casWith {draw : KV δ} {modify : δ → Option StoredValue → Result (CasAction R)}
    (hdraw : draw.ReadOnly) (h : ∀ d, KeepsAt (I key) (modify d)) :
    (casWith key draw modify).Keeps I := by
  apply casFrom_obeys trivial (hdraw.keeps I)
  intro seen d loaded action hloaded haction
  have hleft := h d _ hloaded action haction
  apply casCommit_obeys
  · rintro entry r rfl
    cases loaded with
    | none => exact fun _ => hleft
    | some p => exact hleft
  · rintro r p rfl rfl
    exact hleft

theorem KV.Keeps.cas {modify : Option StoredValue → Result (CasAction R)}
    (h : KeepsAt (I key) modify) : (cas key modify).Keeps I :=
  .casWith (Prog.Requests.done _) fun _ => h

variable {entry : Option StoredValue}

@[simp] theorem leaves_error (e : RustyAntError) :
    Leaves J entry (.error e : Result (CasAction R)) := nofun

@[simp] theorem leaves_ok (action : CasAction R) :
    Leaves J entry (.ok action) ↔ J (action.apply entry) := by
  constructor
  · intro h
    exact h action rfl
  · rintro h _ ⟨⟩
    exact h

theorem leaves_bind {x : Result α} {f : α → Result (CasAction R)}
    (h : ∀ a, x = .ok a → Leaves J entry (f a)) : Leaves J entry (x >>= f) := by
  intro action hx
  obtain ⟨a, ha, hfa⟩ := Result.bind_eq_ok.mp hx
  exact h a ha action hfa

@[simp] theorem apply_write (e : StoredValue) (r : R) :
    (CasAction.write e r).apply entry = some e := rfl

@[simp] theorem apply_delete (r : R) : (CasAction.delete r).apply entry = none := rfl

@[simp] theorem apply_noOp (r : R) : (CasAction.noOp r).apply entry = entry := rfl

@[simp] theorem apply_viewWrite (v : View α) (exp : Option Int) (x : α) (r : R) :
    (v.write exp x r).apply entry = some ⟨exp, v.wrap x⟩ := rfl

@[simp] theorem apply_writeOrDelete (v : View α) (exp : Option Int) (x : α) (r : R) :
    (v.writeOrDelete exp x r).apply entry =
      if v.isEmpty x then none else some ⟨exp, v.wrap x⟩ := by
  unfold View.writeOrDelete
  split
  · rfl
  · rfl

theorem keepsAt_find (v : View α) {f : Option (α × Option Int) → Result (CasAction R)}
    (hnone : J none → Leaves J none (f none))
    (hsome : ∀ x exp, J (some ⟨exp, v.wrap x⟩) →
      Leaves J (some ⟨exp, v.wrap x⟩) (f (some (x, exp)))) :
    KeepsAt J fun entry => v.find key entry >>= f := by
  intro entry hentry
  apply leaves_bind
  intro found hfound
  cases found with
  | none =>
      have hentry' := v.find_none hfound
      subst hentry'
      exact hnone hentry
  | some p =>
      have hentry' := v.find_some hfound
      subst hentry'
      exact hsome p.1 p.2 hentry

end Cas

/-! ## Programs of several calls -/

namespace Storage

variable {I : KeyInv} {key src dst : String}

theorem listMove_keeps {I : KeyInv} {source dest : String} {fromLeft toLeft : Bool}
    (hrotate : source = dest → (cas source (rotateModify source fromLeft toLeft)).Keeps I)
    (hpop : source ≠ dest → (cas source (popModify source fromLeft)).Keeps I)
    (hpush : source ≠ dest → ∀ popped, (cas dest (pushModify dest toLeft popped)).Keeps I) :
    (listMove source dest fromLeft toLeft).Keeps I := by
  unfold listMove
  split
  · exact hrotate ‹_›
  · rename_i hne
    apply KV.Keeps.loadEntry
    intro entry _
    apply KV.Keeps.parse
    intro _ _
    apply KV.Keeps.bind (hpop hne)
    intro moved
    cases moved with
    | none => exact .done _
    | some popped => exact .bind (hpush hne popped) fun _ => .done _

/-- What `zadd_ext_incr` leaves of the map that it has found. -/
theorem leaves_zaddExtIncr {J : Option StoredValue → Prop} {fo : FloatOps} {delta : F64}
    {member : String} {flags : ZAddFlags} {map : ZMap} {exp : Option Int}
    {entry : Option StoredValue} (hsame : J entry)
    (hwrite : ∀ score, J (some ⟨exp, .zset (map.insert member score)⟩)) :
    Leaves J entry (match map[member]? with
      | some prev =>
          let candidate := fo.add prev delta
          if flags.nx then return .noOp none
          else if candidate.isNan then .error (.parse "resulting score is not a number (NaN)")
          else if flags.gt && candidate.le prev then return .noOp none
          else if flags.lt && prev.le candidate then return .noOp none
          else return View.zset.write exp (map.insert member candidate) (some candidate)
      | none =>
          if flags.xx then return .noOp none
          else return View.zset.write exp (map.insert member delta) (some delta)) := by
  have hnoOp : Leaves J entry (.ok (.noOp (none : Option F64))) := (leaves_ok _).mpr hsame
  cases map[member]? with
  | none =>
      dsimp only
      split
      · exact hnoOp
      · exact (leaves_ok _).mpr (hwrite delta)
  | some prev =>
      dsimp only
      split
      · exact hnoOp
      · split
        · exact leaves_error _
        · split
          · exact hnoOp
          · split
            · exact hnoOp
            · exact (leaves_ok _).mpr (hwrite _)

theorem delete_keeps (hgone : I key none) : (Storage.delete key).Keeps I := by
  apply KV.Keeps.loadEntry
  intro entry _
  split
  · exact .reply (.delete hgone)
  · exact .done _

theorem rename_keeps (hmove : ∀ e, I src (some e) → I dst (some e)) (hgone : I src none) :
    (rename src dst).Keeps I := by
  apply KV.Keeps.loadEntry
  intro entry hentry
  cases entry with
  | none => exact .done _
  | some e =>
      dsimp only
      split
      · exact .done _
      · apply KV.Keeps.load
        intro dest _
        exact .bind (.save (hmove e hentry)) fun _ => .delete hgone

theorem renamenx_keeps (hmove : ∀ e, I src (some e) → I dst (some e)) (hgone : I src none) :
    (renamenx src dst).Keeps I := by
  apply KV.Keeps.loadEntry
  intro entry hentry
  cases entry with
  | none => exact .done _
  | some e =>
      dsimp only
      split
      · exact .done _
      · apply KV.Keeps.loadEntry
        intro dest _
        split
        · exact .done _
        · apply KV.Keeps.bind (KV.Keeps.attempt (.save (hmove e hentry)))
          intro answer
          split
          · exact .bind (.delete hgone) fun _ => .done _
          · exact .done _
          · exact .done _

theorem copy_keeps (hmove : ∀ e, I src (some e) → I dst (some e)) (replace : Bool) :
    (copy src dst replace).Keeps I := by
  unfold copy
  split
  · exact .done _
  · apply KV.Keeps.loadEntry
    intro entry hentry
    cases entry with
    | none => exact .done _
    | some e =>
        apply KV.Keeps.load
        intro dest _
        split
        · exact .done _
        · apply KV.Keeps.bind (KV.Keeps.attempt (.save (hmove e hentry)))
          intro answer
          split <;> exact .done _

theorem restore_keeps (fo : FloatOps) (payload : Bytes) (ttl : Int) (replace absTtl : Bool)
    (hstore : ∀ value, Rdb.restoreValue fo payload = .ok value → ∀ exp, I key (some ⟨exp, value⟩)) :
    (restore fo key payload ttl replace absTtl).Keeps I := by
  unfold restore
  split
  · rename_i value hvalue
    apply KV.Keeps.bind ((restoreExpiry_readOnly ttl absTtl).keeps _)
    intro expiresAt
    split
    · exact .save (hstore value hvalue expiresAt)
    · apply KV.Keeps.bind (KV.Keeps.attempt (.save (hstore value hvalue expiresAt)))
      intro answer
      split <;> exact .done _
  · exact .done _
  · exact .done _

end Storage

/-! ## A run alone -/

namespace Solo

/-- What a load at time `now` makes of a key. -/
def live (now : Int) (stored : Option (StoredValue × String)) : Option StoredValue :=
  stored.bind fun p => if p.1.isExpired now then none else some p.1

/-- The key is as it was at the start, or within the condition. -/
def Kept (I : KeyInv) (s s' : Keyspace) : Prop :=
  ∀ key, s' key = s key ∨ I key ((s' key).map Prod.fst)

variable {env : Solo} {I : KeyInv} {n bound : Nat} {s s' : Keyspace}

/-- What a run up to its `bound`-th call needs: at the start each load answers within the
condition, and an entry within it that expires leaves an absent key within it. -/
structure Admits (env : Solo) (I : KeyInv) (bound : Nat) (s : Keyspace) : Prop where
  start : ∀ key m, m < bound → I key (live (env.now m) (s key))
  expired : ∀ key entry m, m < bound → I key (some entry) → entry.isExpired (env.now m) = true →
    I key none

theorem Kept.update {key : String} {p : Option (StoredValue × String)} (h : Kept I s s')
    (hp : I key (p.map Prod.fst)) : Kept I s (Function.update s' key p) := by
  intro key'
  by_cases hkey : key' = key
  · subst hkey
    rw [Function.update_self]
    exact .inr hp
  · rw [Function.update_of_ne hkey]
    exact h key'

theorem Admits.absent (h : env.Admits I bound s) (hn : n < bound) (hkept : Kept I s s')
    {key : String} (hkey : s' key = none) : I key none := by
  rcases hkept key with hsame | hin
  · have hstart := h.start key n hn
    rw [← hsame, hkey] at hstart
    exact hstart
  · rw [hkey] at hin
    exact hin

/-- What is found expired leaves an absent key within the condition. -/
theorem Admits.gone (h : env.Admits I bound s) (hn : n < bound) (hkept : Kept I s s')
    {key : String} {p : StoredValue × String} (hkey : s' key = some p)
    (hexp : p.1.isExpired (env.now n) = true) : I key none := by
  rcases hkept key with hsame | hin
  · have hstart := h.start key n hn
    rw [← hsame, hkey] at hstart
    unfold live at hstart
    rwa [Option.bind_some, if_pos hexp] at hstart
  · rw [hkey] at hin
    exact h.expired key p.1 n hn hin hexp

theorem Admits.answered (h : env.Admits I bound s) (hn : n < bound) (hkept : Kept I s s')
    {op : KVOp} (hop : I.guar op) :
    I.rely op (env.answer n op s').1 ∧ Kept I s (env.answer n op s').2 := by
  cases op with
  | load key =>
      cases hkey : s' key with
      | none =>
          rw [answer_load_missing env n hkey]
          exact ⟨h.absent hn hkept hkey, hkept⟩
      | some p =>
          rw [answer_load_found env n hkey]
          by_cases hexp : p.1.isExpired (env.now n) = true
          · rw [if_pos hexp]
            have hgone := h.gone hn hkept hkey hexp
            refine ⟨hgone, ?_⟩
            dsimp only
            split
            · exact hkept.update hgone
            · exact hkept
          · rw [if_neg hexp]
            refine ⟨?_, hkept⟩
            rcases hkept key with hsame | hin
            · have hstart := h.start key n hn
              rw [← hsame, hkey] at hstart
              unfold live at hstart
              rwa [Option.bind_some, if_neg hexp] at hstart
            · rwa [hkey] at hin
  | save key entry cond =>
      refine ⟨trivial, ?_⟩
      unfold answer
      dsimp only
      split
      · rename_i hmet
        apply hkept.update
        cases cond with
        | any => exact hop
        | createOnly => exact hop (h.absent hn hkept hmet)
        | ifMatch etag => exact hop
      · exact hkept
  | delete key cond =>
      refine ⟨trivial, ?_⟩
      unfold answer
      dsimp only
      split
      · exact hkept.update hop
      · exact hkept
  | flushAll => exact ⟨trivial, fun key => .inr (hop key)⟩
  | nowMs | listPage | walk | countKeys | nanos => exact ⟨trivial, hkept⟩

theorem kept_run {α : Type} {p : KV α} (hp : p.Keeps I)
    (h : env.Admits I (env.run p s).2.1 s) : Kept I s (env.run p s).2.2 := by
  have hserve : ∀ (op : KVOp) (w : Nat × Keyspace), Kept I s w.2 → I.guar op →
      (env.serve op w).2.1 ≤ (env.run p s).2.1 →
        I.rely op (env.serve op w).1 ∧ Kept I s (env.serve op w).2.2 := by
    intro op w hkept hop hle
    unfold serve at hle ⊢
    split at hle
    · refine ⟨?_, hkept⟩
      cases op <;> trivial
    · exact h.answered hle hkept hop
  have hdown : ∀ (op : KVOp) (w : Nat × Keyspace),
      (env.serve op w).2.1 ≤ (env.run p s).2.1 → w.1 ≤ (env.run p s).2.1 := by
    intro op w hle
    unfold serve at hle
    split at hle
    · exact Nat.le_of_succ_le hle
    · exact Nat.le_of_succ_le hle
  exact (Prog.Obeys.run_below (fun w => Kept I s w.2) (fun w => w.1 ≤ (env.run p s).2.1) hdown
    hserve hp (s := (0, s)) (fun _ => .inl rfl) (Nat.le_refl _)).2

end Solo

/-! ## Interleaved runs -/

/-- A backend which checks the condition of a write together with the write and on which a
failed request has no effect.  A load may find an entry expired, and collect it. -/
inductive lazyService : Service KVOp KVOp.Res RustyAntError Keyspace
  | load (s : Keyspace) (key : String) :
      lazyService s (.load key) (.ok (s key : Option (StoredValue × String))) s
  | expired (s : Keyspace) (key : String) (collects : Bool) :
      lazyService s (.load key) (.ok (none : Option (StoredValue × String)))
        (if collects then Function.update s key none else s)
  | save (s : Keyspace) (key : String) (entry : StoredValue) (cond : WriteCondition)
      (token : String) (hcond : cond.Met (s key)) :
      lazyService s (.save key entry cond) (.ok ()) (Function.update s key (some (entry, token)))
  | delete (s : Keyspace) (key : String) (cond : DeleteCondition) (hcond : cond.Met (s key)) :
      lazyService s (.delete key cond) (.ok ()) (Function.update s key none)
  | flushAll (s : Keyspace) (kept : String → Bool) (answer : Result Unit) :
      lazyService s .flushAll answer fun key => if kept key then s key else none
  | listPage (s : Keyspace) (cursor : Option String) (maxKeys : Nat) (page : ListPage) :
      lazyService s (.listPage cursor maxKeys) (.ok page) s
  | walk (s : Keyspace) (keys : List String) : lazyService s .walk (.ok keys) s
  | countKeys (s : Keyspace) (n : Int) : lazyService s .countKeys (.ok n) s
  | nowMs (s : Keyspace) (now : Int) : lazyService s .nowMs (.ok now) s
  | nanos (s : Keyspace) (n : UInt64) : lazyService s .nanos (.ok n) s
  | fault (s : Keyspace) (op : KVOp) (e : RustyAntError) (hop : op ≠ .flushAll) :
      lazyService s op (.error e) s

/-- Every key is within the condition. -/
def KeyInv.Holds (I : KeyInv) (s : Keyspace) : Prop := ∀ key, I key (s.entryAt key)

section Interleaved

variable {ι : Type} {α : ι → Type} {I : KeyInv} {s s' : Keyspace}

theorem KeyInv.Holds.update {key : String} {p : Option (StoredValue × String)} (h : I.Holds s)
    (hp : I key (p.map Prod.fst)) : I.Holds (Function.update s key p) := by
  intro key'
  unfold Keyspace.entryAt
  by_cases hkey : key' = key
  · subst hkey
    rw [Function.update_self]
    exact hp
  · rw [Function.update_of_ne hkey]
    exact h key'

theorem KeyInv.Holds.serve (hnone : ∀ key, I key none) (h : I.Holds s) {op : KVOp}
    {answer : Result op.Res} (hserve : lazyService s op answer s') :
    I.rely op answer ∧ (I.guar op → I.Holds s') := by
  cases hserve with
  | load _ key => exact ⟨h key, fun _ => h⟩
  | expired _ key collects =>
      refine ⟨hnone key, fun _ => ?_⟩
      split
      · exact h.update (hnone key)
      · exact h
  | save _ key entry cond token hcond =>
      refine ⟨trivial, fun hguar => h.update ?_⟩
      cases cond with
      | any => exact hguar
      | createOnly => exact hguar (hnone key)
      | ifMatch etag => exact hguar
  | delete _ key cond hcond => exact ⟨trivial, fun _ => h.update (hnone key)⟩
  | flushAll _ kept answer =>
      refine ⟨trivial, fun _ key => ?_⟩
      unfold Keyspace.entryAt
      dsimp only
      split
      · exact h key
      · exact hnone key
  | listPage | walk | countKeys | nowMs | nanos => exact ⟨trivial, fun _ => h⟩
  | fault _ op e hop =>
      refine ⟨?_, fun _ => h⟩
      cases op <;> trivial

variable [DecidableEq ι]
variable {c d : Pool KVOp KVOp.Res RustyAntError Keyspace α}
variable {evs : List (Event KVOp KVOp.Res RustyAntError Keyspace ι)}

theorem keeps_together (hnone : ∀ key, I key none) (hprogs : ∀ i, KV.Keeps I (c.prog i))
    (hinit : I.Holds c.state) (hrun : Pool.Run lazyService c evs d) : I.Holds d.state := by
  have hinv : I.Holds d.state ∧ ∀ i, KV.Keeps I (d.prog i) := by
    induction hrun with
    | nil => exact ⟨hinit, hprogs⟩
    | snoc _ hstep ih =>
        obtain ⟨hholds, hkeeps⟩ := ih
        rw [← hstep.before_eq] at hholds
        obtain ⟨hrely, hnext⟩ := hholds.serve hnone hstep.serve
        obtain ⟨hguar, hkeeps'⟩ := hstep.obeys hkeeps hrely
        rw [← hstep.after_eq]
        exact ⟨hnext hguar, hkeeps'⟩
  exact hinv.1

end Interleaved

theorem Solo.answer_lazy (env : Solo) (n : Nat) (op : KVOp) (s : Keyspace) :
    lazyService s op (env.answer n op s).1 (env.answer n op s).2 := by
  cases op with
  | load key =>
      cases hkey : s key with
      | none =>
          rw [Solo.answer_load_missing env n hkey]
          exact .expired s key false
      | some p =>
          rw [Solo.answer_load_found env n hkey]
          split
          · exact .expired s key (env.collects n)
          · rw [← hkey]
            exact .load s key
  | save key entry cond =>
      by_cases hmet : cond.Met (s key)
      · rw [show env.answer n (.save key entry cond) s = _ from if_pos hmet]
        exact .save s key entry cond _ hmet
      · rw [show env.answer n (.save key entry cond) s = _ from if_neg hmet]
        exact .fault s _ _ nofun
  | delete key cond =>
      by_cases hmet : cond.Met (s key)
      · rw [show env.answer n (.delete key cond) s = _ from if_pos hmet]
        exact .delete s key cond hmet
      · rw [show env.answer n (.delete key cond) s = _ from if_neg hmet]
        exact .fault s _ _ nofun
  | flushAll => exact .flushAll s (fun _ => false) _
  | nowMs => exact .nowMs s _
  | listPage cursor maxKeys => exact .listPage s cursor maxKeys _
  | walk => exact .walk s _
  | countKeys => exact .countKeys s _
  | nanos => exact .nanos s _

end RustyAnt
