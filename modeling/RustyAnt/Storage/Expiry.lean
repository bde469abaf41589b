import RustyAnt.Storage.Keeps
import RustyAnt.Storage.Methods

/-!
# Methods that keep an expiry

A method keeps the expiry of a key in one of two ways.  It may create the key, without an
expiry, and never removes it; or it may remove the key and never creates it.  Either way
what it writes over an entry has the expiry of that entry.
-/

namespace RustyAnt

open Lib Storage

/-- The expiry is `exp` where there is an entry; if the key is never removed, an absent key
counts as one without expiry. -/
def HasExpiry (removes : Bool) (exp : Option Int) : Option StoredValue → Prop
  | none => removes = true ∨ none = exp
  | some e => e.expiresAtMs = exp

@[simp] theorem hasExpiry_none {removes : Bool} {exp : Option Int} :
    HasExpiry removes exp none ↔ removes = true ∨ none = exp := Iff.rfl

@[simp] theorem hasExpiry_some {removes : Bool} {exp : Option Int} {e : StoredValue} :
    HasExpiry removes exp (some e) ↔ e.expiresAtMs = exp := Iff.rfl

abbrev expiryAt (tracked : String) (removes : Bool) (exp : Option Int) : KeyInv :=
  .only tracked (HasExpiry removes exp)

/-- The program may create the key and does not remove it. -/
def KV.Creates {α : Type} (tracked : String) (p : KV α) : Prop :=
  ∀ exp, p.Keeps (expiryAt tracked false exp)

/-- The program may remove the key and does not create it. -/
def KV.Removes {α : Type} (tracked : String) (p : KV α) : Prop :=
  ∀ exp, p.Keeps (expiryAt tracked true exp)

namespace Storage

variable {α R : Type} {tracked key : String} {removes : Bool} {exp : Option Int}

/-! ## Closures -/

theorem keeps_cas {modify : Option StoredValue → Result (CasAction R)}
    (h : KeepsAt (HasExpiry removes exp) modify) :
    (cas key modify).Keeps (expiryAt tracked removes exp) :=
  .cas h.only

theorem keeps_cas_other {modify : Option StoredValue → Result (CasAction R)}
    (hkey : key ≠ tracked) : (cas key modify).Keeps (expiryAt tracked removes exp) :=
  .cas fun _ _ _ _ heq => absurd heq hkey

/-- A closure that first reads the entry and learns its expiry. -/
theorem creates_of {β : Type} {g : Option StoredValue → Result β} {f : β → Result (CasAction R)}
    (expiry : β → Option Int)
    (hg : ∀ entry p, g entry = .ok p → entry.bind (fun e => e.expiresAtMs) = expiry p)
    (hf : ∀ p entry, HasExpiry false (expiry p) entry →
      Leaves (HasExpiry false (expiry p)) entry (f p)) :
    (cas key fun entry => g entry >>= f).Creates tracked := by
  intro exp
  apply keeps_cas
  intro entry hentry
  apply leaves_bind
  intro p hp
  have hexp : exp = expiry p := by
    rw [← hg entry p hp]
    cases entry with
    | none => simpa [eq_comm] using hentry
    | some e => exact Eq.symm hentry
  rw [hexp] at hentry ⊢
  exact hf p entry hentry

theorem find_expiry (v : View α) {entry : Option StoredValue} {found : Option (α × Option Int)}
    (h : v.find key entry = .ok found) :
    entry.bind (fun e => e.expiresAtMs) = found.elim none Prod.snd := by
  cases found with
  | none =>
      rw [v.find_none h]
      rfl
  | some p =>
      rw [v.find_some h]
      rfl

theorem creates_find (v : View α) {f : Option (α × Option Int) → Result (CasAction R)}
    (hnone : ∀ entry, HasExpiry false none entry → Leaves (HasExpiry false none) entry (f none))
    (hsome : ∀ x e entry, HasExpiry false e entry →
      Leaves (HasExpiry false e) entry (f (some (x, e)))) :
    (cas key fun entry => v.find key entry >>= f).Creates tracked := by
  apply creates_of (fun found => found.elim none Prod.snd) fun _ _ => find_expiry v
  intro found entry hentry
  cases found with
  | none => exact hnone entry hentry
  | some p => exact hsome p.1 p.2 entry hentry

theorem creates_findOr (v : View α) {fresh : α} {f : α × Option Int → Result (CasAction R)}
    (hf : ∀ x e entry, HasExpiry false e entry → Leaves (HasExpiry false e) entry (f (x, e))) :
    (cas key fun entry => v.findOr key fresh entry >>= f).Creates tracked := by
  apply creates_of Prod.snd
  · intro entry p hp
    rcases v.findOr_ok hp with ⟨rfl, -, hexp⟩ | rfl
    · exact hexp.symm
    · rfl
  · intro p entry hentry
    exact hf p.1 p.2 entry hentry

theorem removes_find (v : View α) {f : Option (α × Option Int) → Result (CasAction R)}
    (hnone : ∃ r, f none = .ok (.noOp r))
    (hsome : ∀ x e, Leaves (HasExpiry true e) (some ⟨e, v.wrap x⟩) (f (some (x, e)))) :
    KeepsAt (HasExpiry true exp) fun entry => v.find key entry >>= f := by
  refine keepsAt_find v ?_ ?_
  · intro habsent
    obtain ⟨r, hr⟩ := hnone
    rw [hr]
    exact leaves_ok _ |>.mpr habsent
  · intro x e hentry
    rw [show exp = e from Eq.symm hentry]
    exact hsome x e

/-- What is left of a collection has its expiry, or is removed. -/
@[simp] theorem hasExpiry_ite (c : Prop) [Decidable c] (exp : Option Int) (x : Value) :
    HasExpiry true exp (if c then none else some ⟨exp, x⟩) := by
  split
  · exact .inl rfl
  · rfl

/-! ## Strings -/

theorem setStringNx_creates (value : Bytes) : (setStringNx key value none).Creates tracked := by
  intro exp
  apply KV.Keeps.load
  intro loaded _
  have hsave : (KV.save key ⟨none, .string value⟩ .createOnly).Keeps (expiryAt tracked false exp) := by
    refine Prog.Obeys.perform ?_ fun _ _ => trivial
    intro habsent hkey
    simpa using habsent hkey
  apply KV.Keeps.bind hsave.attempt
  intro answer
  split <;> exact .done _

theorem getAndDelete_removes : (getAndDelete key).Removes tracked :=
  fun _ => keeps_cas (removes_find View.string ⟨_, rfl⟩ (by simp))

theorem append_creates (value : Bytes) : (append key value).Creates tracked :=
  creates_findOr View.string (by simp)

theorem setrange_creates (offset : Nat) (value : Bytes) : (setrange key offset value).Creates tracked := by
  apply creates_findOr View.string
  intro data e entry hentry
  dsimp only
  split
  · exact (leaves_ok _).mpr hentry
  · simp

theorem setbit_creates (offset : Nat) (value : Bool) : (setbit key offset value).Creates tracked :=
  creates_findOr View.string (by simp)

theorem incrBy_creates (delta : Int) : (incrBy key delta).Creates tracked := by
  apply creates_of Prod.snd
  · intro entry p hp
    obtain ⟨found, hfound, hp⟩ := Result.bind_eq_ok.mp hp
    rw [find_expiry View.string hfound]
    cases found with
    | none =>
        cases hp
        rfl
    | some q =>
        dsimp only at hp
        split at hp
        · cases hp
          rfl
        · cases hp
  · intro p entry hentry
    dsimp only
    cases checkedAdd p.1 delta with
    | none => simp
    | some n => simp

theorem incrByFloat_creates (fo : FloatOps) (delta : F64) :
    (incrByFloat fo key delta).Creates tracked := by
  refine @creates_of _ tracked key _ (fun entry => parseStringAsF64 fo entry key) _ Prod.snd ?_ ?_
  · intro entry p hp
    obtain ⟨found, hfound, hp⟩ := Result.bind_eq_ok.mp hp
    rw [find_expiry View.string hfound]
    cases found with
    | none =>
        cases hp
        rfl
    | some q =>
        dsimp only at hp
        split at hp
        · cases hp
          rfl
        · cases hp
  · intro p entry hentry
    dsimp only
    split
    · simp
    · simp

theorem hllOf_expiry {entry : Option StoredValue} {found : Option (Bytes × Option Int)}
    (h : hllOf key entry = .ok found) :
    entry.bind (fun e => e.expiresAtMs) = found.elim none Prod.snd := by
  obtain ⟨read, hread, h⟩ := Result.bind_eq_ok.mp h
  rw [find_expiry View.string hread]
  cases read with
  | none =>
      cases h
      rfl
  | some q =>
      dsimp only at h
      split at h
      · cases h
        rfl
      · cases h

theorem pfadd_creates (elements : List Bytes) : (pfadd key elements).Creates tracked := by
  apply creates_of (fun found => found.elim none Prod.snd) fun _ _ => hllOf_expiry
  intro found entry hentry
  cases found with
  | none =>
      apply leaves_bind
      intro out _
      simp
  | some p =>
      apply leaves_bind
      intro out _
      dsimp only
      split
      · simp
      · exact (leaves_ok _).mpr hentry

theorem pfmerge_creates (sources : List String) : (pfmerge key sources).Creates tracked := by
  have hwrite : ∀ merged : Bytes, (cas key fun entry => hllOf key entry >>= fun found =>
      Hll.mergeInto (found.getD (Hll.emptyDense, none)).1 merged >>= fun buf =>
        return View.string.write (found.getD (Hll.emptyDense, none)).2 buf ()).Creates tracked := by
    intro merged
    apply creates_of (fun found => found.elim none Prod.snd) fun _ _ => hllOf_expiry
    intro found entry _
    apply leaves_bind
    intro buf _
    cases found with
    | none => simp
    | some p => simp
  intro exp
  exact .bind ((mergeKeys_readOnly _ _).keeps _) fun merged => hwrite merged exp

theorem mset_keeps {I : KeyInv} {pairs : List (String × Bytes)}
    (h : ∀ p ∈ pairs, ∀ value, I p.1 (some ⟨none, value⟩)) : (mset pairs).Keeps I := by
  induction pairs with
  | nil => exact .done _
  | cons p pairs ih =>
      apply KV.Keeps.bind (.save (h p List.mem_cons_self _))
      intro _
      exact ih fun q hq => h q (List.mem_cons_of_mem _ hq)

theorem anyExists_absent {I : KeyInv} (pairs : List (String × Bytes)) :
    (anyExists pairs).Obeys I.rely I.guar fun answer =>
      answer = .ok false → ∀ p ∈ pairs, I p.1 none := by
  induction pairs with
  | nil => exact fun _ p hp => nomatch hp
  | cons p pairs ih =>
      refine ⟨trivial, fun answer hanswer => ?_⟩
      cases answer with
      | error e => exact nofun
      | ok loaded =>
          cases loaded with
          | some q => exact nofun
          | none =>
              apply ih.mono
              intro answer hrest hfalse q hq
              rcases List.mem_cons.mp hq with rfl | hq
              · exact hanswer
              · exact hrest hfalse q hq

theorem msetnx_creates (pairs : List (String × Bytes)) : (msetnx pairs).Creates tracked := by
  intro exp
  refine Prog.Obeys.bind (anyExists_absent pairs) ?_ fun _ _ => trivial
  intro found habsent
  cases found with
  | true => exact KV.Keeps.done (.ok false)
  | false =>
      apply KV.Keeps.reply
      apply mset_keeps
      intro p hp value hkey
      simpa using habsent rfl p hp hkey

/-! ## Hashes -/

theorem hset_creates (pairs : List (String × Bytes)) : (hset key pairs).Creates tracked :=
  creates_findOr View.hash (by simp)

theorem hsetnx_creates (field : String) (value : Bytes) :
    (hsetnx key field value).Creates tracked := by
  apply creates_findOr View.hash
  intro map e entry hentry
  dsimp only
  split
  · exact (leaves_ok _).mpr hentry
  · simp

theorem hdel_removes (fields : List String) : (hdel key fields).Removes tracked :=
  fun _ => keeps_cas (removes_find View.hash ⟨_, rfl⟩ (by simp))

theorem hincrBy_creates (field : String) (delta : Int) :
    (hincrBy key field delta).Creates tracked := by
  apply creates_findOr View.hash
  intro map e entry hentry
  apply leaves_bind
  intro current _
  cases checkedAdd current delta with
  | none => simp
  | some n => simp

theorem hincrByFloat_creates (fo : FloatOps) (field : String) (delta : F64) :
    (hincrByFloat fo key field delta).Creates tracked := by
  apply creates_findOr View.hash
  intro map e entry hentry
  apply leaves_bind
  intro current _
  dsimp only
  split
  · simp
  · simp

/-! ## Lists -/

theorem listPush_creates (values : List Bytes) (left : Bool) :
    (listPush key values left).Creates tracked :=
  creates_findOr View.list (by simp)

theorem listPushx_creates (values : List Bytes) (left : Bool) :
    (listPushx key values left).Creates tracked :=
  creates_find View.list (by simp) (by simp)

theorem listPop_removes (count : Nat) (left : Bool) : (listPop key count left).Removes tracked :=
  fun _ => keeps_cas (removes_find View.list ⟨_, rfl⟩ (by simp))

theorem lset_creates (index : Int) (value : Bytes) : (lset key index value).Creates tracked := by
  apply creates_find View.list
  · simp
  · intro list e entry hentry
    dsimp only
    split
    · simp
    · simp

theorem lrem_removes (count : Int) (value : Bytes) : (lrem key count value).Removes tracked :=
  fun _ => keeps_cas (removes_find View.list ⟨_, rfl⟩ (by simp))

theorem linsert_creates (before : Bool) (pivot value : Bytes) :
    (linsert key before pivot value).Creates tracked := by
  apply creates_find View.list
  · simp
  · intro list e entry hentry
    dsimp only
    split
    · exact (leaves_ok _).mpr hentry
    · simp

theorem ltrim_removes (start stop : Int) : (ltrim key start stop).Removes tracked := by
  intro exp
  apply keeps_cas
  refine removes_find View.list ⟨_, rfl⟩ ?_
  intro list e
  dsimp only
  split
  · simp
  · simp

theorem rotate_creates (fromLeft toLeft : Bool) :
    (cas key (rotateModify key fromLeft toLeft)).Creates tracked := by
  apply creates_find View.list
  · simp
  · intro list e entry hentry
    dsimp only
    split
    · exact (leaves_ok _).mpr hentry
    · simp

theorem pop_removes (fromLeft : Bool) : (cas key (popModify key fromLeft)).Removes tracked := by
  intro exp
  apply keeps_cas
  refine removes_find View.list ⟨_, rfl⟩ ?_
  intro list e
  dsimp only
  split
  · simp
  · simp

theorem push_creates (toLeft : Bool) (popped : Bytes) :
    (cas key (pushModify key toLeft popped)).Creates tracked :=
  creates_findOr View.list (by simp)

/-! ## Sets -/

theorem sadd_creates (members : List String) : (sadd key members).Creates tracked :=
  creates_findOr View.set (by simp)

theorem srem_removes (members : List String) : (srem key members).Removes tracked :=
  fun _ => keeps_cas (removes_find View.set ⟨_, rfl⟩ (by simp))

theorem spop_removes (count : Nat) : (spop key count).Removes tracked := by
  intro exp
  unfold spop
  split
  · exact KV.ReadOnly.keeps (.read _ _ _ _) _
  · apply KV.Keeps.casWith .nanos
    intro nanos
    exact KeepsAt.only (removes_find View.set ⟨_, rfl⟩ (by simp))

/-! ## Sorted sets -/

theorem zadd_creates (pairs : List (F64 × String)) : (zadd key pairs).Creates tracked :=
  creates_findOr View.zset (by simp)

theorem zaddExt_creates (pairs : List (F64 × String)) (flags : ZAddFlags) :
    (zaddExt key pairs flags).Creates tracked := by
  apply creates_findOr View.zset
  intro map e entry hentry
  dsimp only
  split
  · exact (leaves_ok _).mpr hentry
  · simp

theorem zaddExtIncr_creates (fo : FloatOps) (delta : F64) (member : String) (flags : ZAddFlags) :
    (zaddExtIncr fo key delta member flags).Creates tracked := by
  apply creates_findOr View.zset
  intro map e entry hentry
  exact leaves_zaddExtIncr hentry fun _ => rfl

theorem zincrBy_creates (fo : FloatOps) (member : String) (delta : F64) :
    (zincrBy fo key member delta).Creates tracked := by
  apply creates_findOr View.zset
  intro map e entry hentry
  dsimp only
  split
  · simp
  · simp

theorem zrem_removes (members : List String) : (zrem key members).Removes tracked :=
  fun _ => keeps_cas (removes_find View.zset ⟨_, rfl⟩ (by simp))

theorem zremrange_removes (split : ZMap → ZMap × Nat) : (zremrange key split).Removes tracked :=
  fun _ => keeps_cas (removes_find View.zset ⟨_, rfl⟩ (by simp))

theorem zpopImpl_removes (count : Nat) (fromMax : Bool) :
    (zpopImpl key count fromMax).Removes tracked := by
  intro exp
  unfold zpopImpl
  split
  · exact KV.ReadOnly.keeps (.read _ _ _ _) _
  · exact keeps_cas (removes_find View.zset ⟨_, rfl⟩ (by simp))

/-! ## Streams -/

theorem xadd_creates (spec : AddIdSpec) (fields : List (String × Bytes)) (nomkstream : Bool)
    (trim : Option (TrimBound × Option Nat)) :
    (xadd key spec fields nomkstream trim).Creates tracked := by
  intro exp
  apply KV.Keeps.bind (KV.ReadOnly.nowMs.keeps _)
  intro now
  revert exp
  apply creates_find View.stream
  · intro entry hentry
    dsimp only
    split
    · exact (leaves_ok _).mpr hentry
    · apply leaves_bind
      intro out _
      simp
  · intro s e entry hentry
    apply leaves_bind
    intro out _
    simp

theorem xdel_creates (ids : List StreamId) : (xdel key ids).Creates tracked := by
  apply creates_find View.stream
  · simp
  · intro s e entry hentry
    dsimp only
    split
    · exact (leaves_ok _).mpr hentry
    · simp

theorem xtrim_creates (bound : TrimBound) (limit : Option Nat) :
    (xtrim key bound limit).Creates tracked := by
  apply creates_find View.stream
  · simp
  · intro s e entry hentry
    dsimp only
    split
    · exact (leaves_ok _).mpr hentry
    · simp

theorem xgroup_creates (op : XGroupOp) : (xgroup key op).Creates tracked := by
  apply creates_find View.stream
  · intro entry hentry
    apply leaves_bind
    intro out _
    simp
  · intro s e entry hentry
    apply leaves_bind
    intro out _
    simp

/-- The type error of `xreadgroup` names no key, so it looks under another name. -/
theorem xreadgroup_cas_creates (group consumer : String) (id : XReadGroupId) (count : Option Nat)
    (noack : Bool) (now : Int) :
    (cas key (xreadgroupModify group consumer id count noack now)).Creates tracked := by
  apply creates_of (fun found => found.elim none Prod.snd) fun _ _ => find_expiry View.stream
  intro found entry hentry
  cases found with
  | none => simp
  | some p =>
      apply leaves_bind
      intro out _
      simp

theorem xreadgroup_creates (group consumer : String) (count : Option Nat) (noack : Bool) (now : Int)
    (streams : List (String × XReadGroupId)) :
    (xreadgroup group consumer count noack now streams).Creates tracked := by
  intro exp
  induction streams with
  | nil => exact .done _
  | cons p streams ih =>
      exact .bind (xreadgroup_cas_creates group consumer p.2 count noack now exp) fun _ => .reply ih

theorem xack_creates (group : String) (ids : List StreamId) : (xack key group ids).Creates tracked := by
  apply creates_find View.stream
  · simp
  · intro s e entry hentry
    dsimp only
    split
    · exact (leaves_ok _).mpr hentry
    · simp

theorem xclaim_creates (group consumer : String) (minIdleMs : Int) (ids : List StreamId)
    (opts : XClaimOpts) : (xclaim key group consumer minIdleMs ids opts).Creates tracked := by
  apply creates_find View.stream
  · simp
  · intro s e entry hentry
    apply leaves_bind
    intro out _
    simp

theorem xautoclaim_creates (group consumer : String) (minIdleMs : Int) (start : StreamId)
    (count : Nat) (justId : Bool) (now : Int) :
    (xautoclaim key group consumer minIdleMs start count justId now).Creates tracked := by
  apply creates_find View.stream
  · simp
  · intro s e entry hentry
    apply leaves_bind
    intro out _
    simp

/-! ## Keys -/

theorem delete_removes : (Storage.delete key).Removes tracked :=
  fun _ => delete_keeps fun _ => .inl rfl

theorem delete_other (hkey : key ≠ tracked) :
    (Storage.delete key).Keeps (expiryAt tracked removes exp) :=
  delete_keeps (KeyInv.only_of_ne hkey)

theorem flushall_removes : KV.Removes tracked flushall := by
  intro exp
  refine Prog.Obeys.perform ?_ fun _ _ => trivial
  exact fun _ _ => .inl rfl

theorem rename_removes {src dst : String} (hdst : dst ≠ tracked) :
    (rename src dst).Removes tracked :=
  fun _ => rename_keeps (fun _ _ => KeyInv.only_of_ne hdst) fun _ => .inl rfl

theorem renamenx_removes {src dst : String} (hdst : dst ≠ tracked) :
    (renamenx src dst).Removes tracked :=
  fun _ => renamenx_keeps (fun _ _ => KeyInv.only_of_ne hdst) fun _ => .inl rfl

theorem copy_removes {src dst : String} (hdst : dst ≠ tracked) (replace : Bool) :
    (copy src dst replace).Removes tracked :=
  fun _ => copy_keeps (fun _ _ => KeyInv.only_of_ne hdst) replace

theorem restore_removes (fo : FloatOps) (hkey : key ≠ tracked) (payload : Bytes) (ttl : Int)
    (replace absTtl : Bool) : (restore fo key payload ttl replace absTtl).Removes tracked :=
  fun _ => restore_keeps fo payload ttl replace absTtl fun _ _ _ => KeyInv.only_of_ne hkey

end Storage

end RustyAnt
