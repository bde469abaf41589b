import RustyAnt.Storage.Keeps
import RustyAnt.Storage.Methods

/-!
# Methods that store no empty collection

What a method adds is not empty, and what it removes from is deleted when nothing is left.
-/

namespace RustyAnt

open Lib Storage

/-- An entry that is there is no empty collection. -/
def NonEmpty : Option StoredValue → Prop
  | none => True
  | some e => e.value.isEmptyCollection = false

@[simp] theorem nonEmpty_none : NonEmpty none := trivial

@[simp] theorem nonEmpty_some {e : StoredValue} :
    NonEmpty (some e) ↔ e.value.isEmptyCollection = false := Iff.rfl

/-- No key holds an empty collection. -/
abbrev noEmpty : KeyInv := fun _ => NonEmpty

namespace View

variable {α : Type} (v : View α)

@[simp] theorem isEmptyCollection_wrap (x : α) : (v.wrap x).isEmptyCollection = v.isEmpty x :=
  v.isEmpty_wrap x

@[simp] theorem string_isEmpty (data : Bytes) : View.string.isEmpty data = false := rfl

@[simp] theorem stream_isEmpty (s : StreamValue) : View.stream.isEmpty s = false := rfl

@[simp] theorem hash_isEmpty (m : BTreeMap String Bytes) : View.hash.isEmpty m = m.isEmpty := rfl

@[simp] theorem list_isEmpty (l : List Bytes) : View.list.isEmpty l = l.isEmpty := rfl

@[simp] theorem set_isEmpty (s : BTreeSet String) : View.set.isEmpty s = s.isEmpty := rfl

@[simp] theorem zset_isEmpty (m : BTreeMap String F64) : View.zset.isEmpty m = m.isEmpty := rfl

end View

namespace Storage

variable {α β R : Type} {key : String}

/-! ## Closures -/

theorem leaves_writeOrDelete (v : View α) (exp : Option Int) (x : α) (r : R)
    (entry : Option StoredValue) : Leaves NonEmpty entry (.ok (v.writeOrDelete exp x r)) := by
  rw [leaves_ok, apply_writeOrDelete]
  split
  · exact trivial
  · rename_i h
    rw [nonEmpty_some, v.isEmptyCollection_wrap]
    exact Bool.not_eq_true _ |>.mp h

theorem noEmpty_of {g : Option StoredValue → Result β} {f : β → Result (CasAction R)}
    (hf : ∀ p entry, NonEmpty entry → Leaves NonEmpty entry (f p)) :
    (cas key fun entry => g entry >>= f).Keeps noEmpty :=
  .cas fun entry hentry => leaves_bind fun p _ => hf p entry hentry

theorem noEmpty_find (v : View α) {f : Option (α × Option Int) → Result (CasAction R)}
    (hnone : Leaves NonEmpty none (f none))
    (hsome : ∀ x exp, v.isEmpty x = false →
      Leaves NonEmpty (some ⟨exp, v.wrap x⟩) (f (some (x, exp)))) :
    (cas key fun entry => v.find key entry >>= f).Keeps noEmpty := by
  apply KV.Keeps.cas
  refine keepsAt_find v (fun _ => hnone) ?_
  intro x exp hentry
  exact hsome x exp (by simpa using hentry)

theorem noEmpty_findOr (v : View α) {fresh : α} {f : α × Option Int → Result (CasAction R)}
    (hf : ∀ x exp entry, NonEmpty entry → Leaves NonEmpty entry (f (x, exp))) :
    (cas key fun entry => v.findOr key fresh entry >>= f).Keeps noEmpty :=
  noEmpty_of fun p entry hentry => hf p.1 p.2 entry hentry

/-- What every step of a fold makes true holds after a fold over something. -/
theorem foldl_last {σ : Type} (P : σ → Prop) {step : σ → α → σ} (hstep : ∀ s x, P (step s x))
    {xs : List α} (hxs : xs ≠ []) (s : σ) : P (xs.foldl step s) := by
  rw [← List.dropLast_append_getLast hxs, List.foldl_append]
  exact hstep _ _

theorem isEmpty_insert {map : BTreeMap String β} {k : String} {v : β} :
    (map.insert k v).isEmpty = false :=
  Std.ExtTreeMap.isEmpty_eq_false_iff.mpr Std.ExtTreeMap.insert_ne_empty

/-! ## Strings -/

theorem setString_noEmpty (value : Bytes) (exp : Option Int) :
    (setString key value exp).Keeps noEmpty := .save rfl

theorem setStringNx_noEmpty (value : Bytes) (exp : Option Int) :
    (setStringNx key value exp).Keeps noEmpty := by
  apply KV.Keeps.load
  intro loaded _
  apply KV.Keeps.bind (KV.Keeps.attempt (.save rfl))
  intro answer
  split <;> exact .done _

theorem getStringWithTtl_noEmpty (op : GetExOp) : (getStringWithTtl key op).Keeps noEmpty := by
  have hmodify : ∀ exp, (cas key (getStringWithTtl.modify key exp)).Keeps noEmpty := by
    intro exp
    apply noEmpty_find View.string
    · simp
    · simp
  cases op with
  | leave => exact KV.ReadOnly.keeps (.read _ _ _ _) _
  | setExpireAtMs t => exact hmodify (some t)
  | persist => exact hmodify none

theorem getset_noEmpty (value : Bytes) : (getset key value).Keeps noEmpty :=
  noEmpty_of (by simp)

theorem getAndDelete_noEmpty : (getAndDelete key).Keeps noEmpty := by
  apply noEmpty_find View.string
  · simp
  · simp

theorem append_noEmpty (value : Bytes) : (append key value).Keeps noEmpty :=
  noEmpty_findOr View.string (by simp)

theorem mset_noEmpty (pairs : List (String × Bytes)) : (mset pairs).Keeps noEmpty := by
  induction pairs with
  | nil => exact .done _
  | cons p pairs ih => exact .bind (setString_noEmpty _ _) fun _ => ih

theorem msetnx_noEmpty (pairs : List (String × Bytes)) : (msetnx pairs).Keeps noEmpty := by
  have hscan : (anyExists pairs).ReadOnly := by
    induction pairs with
    | nil => exact .done _
    | cons p pairs ih =>
        apply KV.ReadOnly.bind (.loadEntry _)
        intro entry
        split
        · exact .done _
        · exact ih
  apply KV.Keeps.bind (hscan.keeps _)
  intro found
  split
  · exact .done _
  · exact .reply (mset_noEmpty pairs)

theorem incrBy_noEmpty (delta : Int) : (incrBy key delta).Keeps noEmpty := by
  apply noEmpty_of
  intro p entry _
  dsimp only
  cases checkedAdd p.1 delta with
  | none => simp
  | some n => simp

theorem incrByFloat_noEmpty (fo : FloatOps) (delta : F64) :
    (incrByFloat fo key delta).Keeps noEmpty := by
  refine @noEmpty_of _ _ key (fun entry => parseStringAsF64 fo entry key) _ ?_
  intro p entry _
  dsimp only
  split
  · simp
  · simp

theorem setrange_noEmpty (offset : Nat) (value : Bytes) :
    (setrange key offset value).Keeps noEmpty := by
  apply noEmpty_findOr View.string
  intro data exp entry hentry
  dsimp only
  split
  · exact (leaves_ok _).mpr hentry
  · simp

theorem setbit_noEmpty (offset : Nat) (value : Bool) : (setbit key offset value).Keeps noEmpty :=
  noEmpty_findOr View.string (by simp)

theorem pfadd_noEmpty (elements : List Bytes) : (pfadd key elements).Keeps noEmpty := by
  apply noEmpty_of
  intro found entry hentry
  cases found with
  | none =>
      apply leaves_bind
      intro out _
      simp
  | some p =>
      apply leaves_bind
      intro out _
      dsimp only
      split
      · simp
      · exact (leaves_ok _).mpr hentry

theorem pfmerge_noEmpty (sources : List String) : (pfmerge key sources).Keeps noEmpty := by
  apply KV.Keeps.bind ((mergeKeys_readOnly _ _).keeps _)
  intro merged
  apply noEmpty_of
  intro found entry _
  apply leaves_bind
  intro buf _
  simp

/-! ## Hashes -/

theorem hset_noEmpty {pairs : List (String × Bytes)} (hpairs : pairs ≠ []) :
    (hset key pairs).Keeps noEmpty := by
  apply noEmpty_findOr View.hash
  intro map exp entry _
  have hfold : (pairs.foldl hsetPair (map, 0)).1.isEmpty = false := by
    apply foldl_last (fun acc : BTreeMap String Bytes × Int => acc.1.isEmpty = false) _ hpairs
    intro acc pair
    exact isEmpty_insert
  simp [hfold]

theorem hsetnx_noEmpty (field : String) (value : Bytes) :
    (hsetnx key field value).Keeps noEmpty := by
  apply noEmpty_findOr View.hash
  intro map exp entry hentry
  dsimp only
  split
  · exact (leaves_ok _).mpr hentry
  · simp

theorem hdel_noEmpty (fields : List String) : (hdel key fields).Keeps noEmpty :=
  noEmpty_find View.hash (by simp) fun _ _ _ => leaves_writeOrDelete _ _ _ _ _

theorem hincrBy_noEmpty (field : String) (delta : Int) :
    (hincrBy key field delta).Keeps noEmpty := by
  apply noEmpty_findOr View.hash
  intro map exp entry _
  apply leaves_bind
  intro current _
  cases checkedAdd current delta with
  | none => simp
  | some n => simp

theorem hincrByFloat_noEmpty (fo : FloatOps) (field : String) (delta : F64) :
    (hincrByFloat fo key field delta).Keeps noEmpty := by
  apply noEmpty_findOr View.hash
  intro map exp entry _
  apply leaves_bind
  intro current _
  dsimp only
  split
  · simp
  · simp

/-! ## Lists -/

theorem pushOne_ne_nil (left : Bool) (list : List Bytes) (v : Bytes) :
    (pushOne left list v).isEmpty = false := by
  unfold pushOne
  split
  · rfl
  · rw [List.isEmpty_eq_false_iff]
    exact List.append_ne_nil_of_right_ne_nil _ (List.cons_ne_nil _ _)

theorem pushMany_ne_nil (left : Bool) {values : List Bytes} (hvalues : values ≠ [])
    (list : List Bytes) : (values.foldl (pushOne left) list).isEmpty = false :=
  foldl_last (fun l : List Bytes => l.isEmpty = false) (pushOne_ne_nil left) hvalues list

theorem listPush_noEmpty {values : List Bytes} (hvalues : values ≠ []) (left : Bool) :
    (listPush key values left).Keeps noEmpty :=
  noEmpty_findOr View.list fun list _ _ _ => by
    simp [-List.isEmpty_iff, pushMany_ne_nil left hvalues list]

theorem listPushx_noEmpty {values : List Bytes} (hvalues : values ≠ []) (left : Bool) :
    (listPushx key values left).Keeps noEmpty :=
  noEmpty_find View.list (by simp) fun list _ _ => by
    simp [-List.isEmpty_iff, pushMany_ne_nil left hvalues list]

theorem listPop_noEmpty (count : Nat) (left : Bool) : (listPop key count left).Keeps noEmpty :=
  noEmpty_find View.list (by simp) fun _ _ _ => leaves_writeOrDelete _ _ _ _ _

theorem lset_noEmpty (index : Int) (value : Bytes) : (lset key index value).Keeps noEmpty := by
  apply noEmpty_find View.list
  · simp
  · intro list exp hlist
    dsimp only
    split
    · simp
    · simpa using hlist

theorem lrem_noEmpty (count : Int) (value : Bytes) : (lrem key count value).Keeps noEmpty :=
  noEmpty_find View.list (by simp) fun _ _ _ => leaves_writeOrDelete _ _ _ _ _

theorem linsert_noEmpty (before : Bool) (pivot value : Bytes) :
    (linsert key before pivot value).Keeps noEmpty := by
  apply noEmpty_find View.list
  · simp
  · intro list exp hlist
    dsimp only
    split
    · simpa using hlist
    · rename_i pos _
      have hpos := List.length_pos_iff.mpr (List.isEmpty_eq_false_iff.mp hlist)
      have hlong : ∀ i, list.length ≤ (list.insertIdx i value).length := by
        intro i
        rw [List.length_insertIdx]
        split
        · omega
        · omega
      have hlonger := hlong (if before = true then pos else pos + 1)
      rw [Result.pure_eq_ok, leaves_ok, apply_viewWrite, nonEmpty_some, View.isEmptyCollection_wrap]
      exact List.isEmpty_eq_false_iff.mpr (List.length_pos_iff.mp (by omega))

theorem ltrim_noEmpty (start stop : Int) : (ltrim key start stop).Keeps noEmpty := by
  apply noEmpty_find View.list
  · simp
  · intro list exp _
    dsimp only
    split
    · simp
    · exact leaves_writeOrDelete _ _ _ _ _

theorem listMove_noEmpty (source dest : String) (fromLeft toLeft : Bool) :
    (listMove source dest fromLeft toLeft).Keeps noEmpty := by
  have hrotate : (cas source (rotateModify source fromLeft toLeft)).Keeps noEmpty := by
    apply noEmpty_find View.list
    · simp
    · intro list exp hlist
      dsimp only
      split
      · simpa using hlist
      · simp [-List.isEmpty_iff, pushOne_ne_nil]
  have hpop : (cas source (popModify source fromLeft)).Keeps noEmpty := by
    apply noEmpty_find View.list
    · simp
    · intro list exp hlist
      dsimp only
      split
      · simpa using hlist
      · exact leaves_writeOrDelete _ _ _ _ _
  have hpush : ∀ popped, (cas dest (pushModify dest toLeft popped)).Keeps noEmpty :=
    fun popped => noEmpty_findOr View.list fun list _ _ _ => by
      simp [-List.isEmpty_iff, pushOne_ne_nil]
  exact listMove_keeps (fun _ => hrotate) (fun _ => hpop) fun _ => hpush

/-! ## Sets -/

theorem sadd_noEmpty {members : List String} (hmembers : members ≠ []) :
    (sadd key members).Keeps noEmpty := by
  apply noEmpty_findOr View.set
  intro set exp entry _
  have hfold : (members.foldl saddOne (set, 0)).1.isEmpty = false := by
    apply foldl_last (fun acc : BTreeSet String × Int => acc.1.isEmpty = false) _ hmembers
    intro acc m
    unfold saddOne
    split
    · rename_i hm
      rw [Std.ExtTreeSet.isEmpty_eq_false_iff]
      intro hempty
      rw [hempty, Std.ExtTreeSet.contains_empty] at hm
      cases hm
    · exact Std.ExtTreeSet.isEmpty_eq_false_iff.mpr Std.ExtTreeSet.insert_ne_empty
  simp [hfold]

theorem srem_noEmpty (members : List String) : (srem key members).Keeps noEmpty :=
  noEmpty_find View.set (by simp) fun _ _ _ => leaves_writeOrDelete _ _ _ _ _

theorem spop_noEmpty (count : Nat) : (spop key count).Keeps noEmpty := by
  unfold spop
  split
  · exact KV.ReadOnly.keeps (.read _ _ _ _) _
  · apply KV.Keeps.casWith .nanos
    intro nanos
    exact keepsAt_find View.set (by simp) fun _ _ _ => leaves_writeOrDelete _ _ _ _ _

/-! ## Sorted sets -/

theorem zadd_noEmpty {pairs : List (F64 × String)} (hpairs : pairs ≠ []) :
    (zadd key pairs).Keeps noEmpty := by
  apply noEmpty_findOr View.zset
  intro map exp entry _
  have hfold : (pairs.foldl zaddPair (map, 0)).1.isEmpty = false := by
    apply foldl_last (fun acc : ZMap × Int => acc.1.isEmpty = false) _ hpairs
    intro acc pair
    exact isEmpty_insert
  simp [hfold]

theorem zaddExt_touched (flags : ZAddFlags) (pairs : List (F64 × String)) {acc : ZAddState}
    (hacc : acc.map.isEmpty = false ∨ acc.added = 0 ∧ acc.updated = 0) :
    (pairs.foldl (zaddExtPair flags) acc).map.isEmpty = false ∨
      (pairs.foldl (zaddExtPair flags) acc).added = 0 ∧
        (pairs.foldl (zaddExtPair flags) acc).updated = 0 := by
  induction pairs generalizing acc with
  | nil => exact hacc
  | cons pair pairs ih =>
      apply ih
      have hinsert : (acc.map.insert pair.2 pair.1).isEmpty = false := isEmpty_insert
      unfold zaddExtPair
      dsimp only
      split
      · split
        · exact hacc
        · split
          · exact hacc
          · split
            · exact hacc
            · split
              · exact .inl hinsert
              · exact hacc
      · split
        · exact hacc
        · exact .inl hinsert

theorem zaddExt_noEmpty (pairs : List (F64 × String)) (flags : ZAddFlags) :
    (zaddExt key pairs flags).Keeps noEmpty := by
  apply noEmpty_findOr View.zset
  intro map exp entry hentry
  dsimp only
  split
  · exact (leaves_ok _).mpr hentry
  · rename_i htouched
    have hmap := (@zaddExt_touched flags pairs ⟨map, 0, 0⟩ (.inr ⟨rfl, rfl⟩)).resolve_right htouched
    simp [hmap]

theorem zaddExtIncr_noEmpty (fo : FloatOps) (delta : F64) (member : String) (flags : ZAddFlags) :
    (zaddExtIncr fo key delta member flags).Keeps noEmpty := by
  apply noEmpty_findOr View.zset
  intro map exp entry hentry
  exact leaves_zaddExtIncr hentry fun _ => isEmpty_insert

theorem zincrBy_noEmpty (fo : FloatOps) (member : String) (delta : F64) :
    (zincrBy fo key member delta).Keeps noEmpty := by
  apply noEmpty_findOr View.zset
  intro map exp entry _
  dsimp only
  split
  · simp
  · simp

theorem zrem_noEmpty (members : List String) : (zrem key members).Keeps noEmpty :=
  noEmpty_find View.zset (by simp) fun _ _ _ => leaves_writeOrDelete _ _ _ _ _

theorem zremrange_noEmpty (split : ZMap → ZMap × Nat) : (zremrange key split).Keeps noEmpty :=
  noEmpty_find View.zset (by simp) fun _ _ _ => leaves_writeOrDelete _ _ _ _ _

theorem zpopImpl_noEmpty (count : Nat) (fromMax : Bool) :
    (zpopImpl key count fromMax).Keeps noEmpty := by
  unfold zpopImpl
  split
  · exact KV.ReadOnly.keeps (.read _ _ _ _) _
  · exact noEmpty_find View.zset (by simp) fun _ _ _ => leaves_writeOrDelete _ _ _ _ _

/-! ## Streams -/

theorem xadd_noEmpty (spec : AddIdSpec) (fields : List (String × Bytes)) (nomkstream : Bool)
    (trim : Option (TrimBound × Option Nat)) :
    (xadd key spec fields nomkstream trim).Keeps noEmpty := by
  apply KV.Keeps.bind (KV.ReadOnly.nowMs.keeps _)
  intro now
  apply noEmpty_find View.stream
  · dsimp only
    split
    · simp
    · apply leaves_bind
      intro out _
      simp
  · intro s exp _
    apply leaves_bind
    intro out _
    simp

theorem xdel_noEmpty (ids : List StreamId) : (xdel key ids).Keeps noEmpty := by
  apply noEmpty_find View.stream
  · simp
  · intro s exp _
    dsimp only
    split
    · simp
    · simp

theorem xtrim_noEmpty (bound : TrimBound) (limit : Option Nat) :
    (xtrim key bound limit).Keeps noEmpty := by
  apply noEmpty_find View.stream
  · simp
  · intro s exp _
    dsimp only
    split
    · simp
    · simp

theorem xgroup_noEmpty (op : XGroupOp) : (xgroup key op).Keeps noEmpty := by
  apply noEmpty_find View.stream
  · apply leaves_bind
    intro out _
    simp
  · intro s exp _
    apply leaves_bind
    intro out _
    simp

theorem xreadgroup_noEmpty (group consumer : String) (count : Option Nat) (noack : Bool) (now : Int)
    (streams : List (String × XReadGroupId)) :
    (xreadgroup group consumer count noack now streams).Keeps noEmpty := by
  induction streams with
  | nil => exact .done _
  | cons p streams ih =>
      have hread : (cas p.1 (xreadgroupModify group consumer p.2 count noack now)).Keeps noEmpty := by
        apply noEmpty_of
        intro found entry _
        cases found with
        | none => simp
        | some q =>
            apply leaves_bind
            intro out _
            simp
      exact .bind hread fun _ => .reply ih

theorem xack_noEmpty (group : String) (ids : List StreamId) : (xack key group ids).Keeps noEmpty := by
  apply noEmpty_find View.stream
  · simp
  · intro s exp _
    dsimp only
    split
    · simp
    · simp

theorem xclaim_noEmpty (group consumer : String) (minIdleMs : Int) (ids : List StreamId)
    (opts : XClaimOpts) : (xclaim key group consumer minIdleMs ids opts).Keeps noEmpty := by
  apply noEmpty_find View.stream
  · simp
  · intro s exp _
    apply leaves_bind
    intro out _
    simp

theorem xautoclaim_noEmpty (group consumer : String) (minIdleMs : Int) (start : StreamId)
    (count : Nat) (justId : Bool) (now : Int) :
    (xautoclaim key group consumer minIdleMs start count justId now).Keeps noEmpty := by
  apply noEmpty_find View.stream
  · simp
  · intro s exp _
    apply leaves_bind
    intro out _
    simp

/-! ## Keys -/

theorem delete_noEmpty : (Storage.delete key).Keeps noEmpty := delete_keeps trivial

theorem flushall_noEmpty : KV.Keeps noEmpty flushall :=
  Prog.Obeys.perform (fun _ => trivial) fun _ _ => trivial

theorem expireAt_noEmpty (expiresAtMs : Int) : (expireAt key expiresAtMs).Keeps noEmpty := by
  apply KV.Keeps.cas
  intro entry hentry
  cases entry with
  | none => exact (leaves_ok _).mpr trivial
  | some e => exact (leaves_ok _).mpr hentry

theorem persist_noEmpty : (persist key).Keeps noEmpty := by
  apply KV.Keeps.cas
  intro entry hentry
  cases entry with
  | none => exact (leaves_ok _).mpr trivial
  | some e =>
      unfold persistModify
      dsimp only
      split
      · exact (leaves_ok _).mpr hentry
      · exact (leaves_ok _).mpr hentry

theorem rename_noEmpty (src dst : String) : (rename src dst).Keeps noEmpty :=
  rename_keeps (fun _ he => he) trivial

theorem renamenx_noEmpty (src dst : String) : (renamenx src dst).Keeps noEmpty :=
  renamenx_keeps (fun _ he => he) trivial

theorem copy_noEmpty (src dst : String) (replace : Bool) : (copy src dst replace).Keeps noEmpty := by
  apply copy_keeps
  exact fun _ he => he

/-- The one method that may store an empty collection: it takes it from its payload. -/
theorem restore_noEmpty (fo : FloatOps) (payload : Bytes) (ttl : Int) (replace absTtl : Bool)
    (hpayload : ∀ value, Rdb.restoreValue fo payload = .ok value → value.isEmptyCollection = false) :
    (restore fo key payload ttl replace absTtl).Keeps noEmpty :=
  restore_keeps fo payload ttl replace absTtl fun value hvalue _ => hpayload value hvalue

end Storage

end RustyAnt
