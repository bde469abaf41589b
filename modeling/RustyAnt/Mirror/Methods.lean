import RustyAnt.Mirror.Requests
import RustyAnt.Storage.Methods

/-!
# The `Storage` methods on both backends

Every method is built from the requests of `Mirror.Requests`, so none of them can
tell the backends apart, save for the few treated in `Mirror.Runs`: the walks,
whose order differs, and the overwrites of a key by an entry of another kind.
-/

namespace RustyAnt

open Lib Storage

/-! ## Closures that keep the kind -/

section Emits

variable {α β R : Type} {P : StoredValue → Prop}

@[simp] theorem emits_error (e : RustyAntError) : Emits P (.error e : Result (CasAction R)) :=
  nofun

@[simp] theorem emits_noOp (r : R) : Emits P (.ok (.noOp r)) := nofun

@[simp] theorem emits_delete (r : R) : Emits P (.ok (.delete r)) := nofun

@[simp] theorem emits_write (e : StoredValue) (r : R) : Emits P (.ok (.write e r)) ↔ P e := by
  constructor
  · intro h
    exact h e r rfl
  · rintro h e' r' ⟨⟩
    exact h

theorem emits_bind {x : Result α} {f : α → Result (CasAction R)}
    (h : ∀ a, x = .ok a → Emits P (f a)) : Emits P (x >>= f) := by
  intro e r hx
  obtain ⟨a, ha, hfa⟩ := Result.bind_eq_ok.mp hx
  exact h a ha e r hfa

@[simp] theorem emits_viewWrite (v : View α) (exp : Option Int) (x : α) (r : R) :
    Emits P (.ok (v.write exp x r)) ↔ P ⟨exp, v.wrap x⟩ := emits_write _ _

@[simp] theorem emits_writeOrDelete (v : View α) (exp : Option Int) (x : α) (r : R) :
    Emits P (.ok (v.writeOrDelete exp x r)) ↔ (v.isEmpty x = false → P ⟨exp, v.wrap x⟩) := by
  unfold View.writeOrDelete
  split
  · simp_all
  · simp_all

end Emits

namespace View

variable {α β R : Type} (v : View α)

@[simp] theorem kind_mk (exp : Option Int) (x : α) : StoredValue.kind ⟨exp, v.wrap x⟩ = v.kind :=
  v.kind_wrap x

theorem find_kind {key : String} {e : StoredValue} {p : Option (α × Option Int)}
    (h : v.find key (some e) = .ok p) : e.kind = v.kind := by
  cases p with
  | none => exact absurd (v.find_none h) (by simp)
  | some p =>
      obtain ⟨x, exp⟩ := p
      rw [Option.some.inj (v.find_some h), kind_mk]

theorem findOr_kind {key : String} {fresh : α} {e : StoredValue} {p : α × Option Int}
    (h : v.findOr key fresh (some e) = .ok p) : e.kind = v.kind := by
  obtain ⟨found, hfound, -⟩ := Result.bind_eq_ok.mp h
  exact v.find_kind hfound

end View

section KeepsKind

variable {α β R : Type}

/-- A closure that first looks at the entry, in a way only one kind passes, and
writes that kind only. -/
theorem keepsKind_of_kind {g : Option StoredValue → Result β} {f : β → Result (CasAction R)}
    (k : ValueKind) (hg : ∀ e p, g (some e) = .ok p → e.kind = k)
    (hf : ∀ p, Emits (fun e => e.kind = k) (f p)) : KeepsKind fun entry => g entry >>= f := by
  intro e e' r h
  obtain ⟨p, hp, hfp⟩ := Result.bind_eq_ok.mp h
  exact (hf p e' r hfp).trans (hg e p hp).symm

theorem keepsKind_find (v : View α) {key : String}
    {f : Option (α × Option Int) → Result (CasAction R)}
    (hf : ∀ p, Emits (fun e => e.kind = v.kind) (f p)) :
    KeepsKind fun entry => v.find key entry >>= f :=
  keepsKind_of_kind v.kind (fun _ _ h => v.find_kind h) hf

theorem keepsKind_findOr (v : View α) {key : String} {fresh : α}
    {f : α × Option Int → Result (CasAction R)}
    (hf : ∀ x exp, Emits (fun e => e.kind = v.kind) (f (x, exp))) :
    KeepsKind fun entry => v.findOr key fresh entry >>= f :=
  keepsKind_of_kind v.kind (fun _ _ h => v.findOr_kind h) fun p => hf p.1 p.2

end KeepsKind

section Methods

variable {S : Setup} {clock : Clock} {α β δ : Type}

/-! ## Reads -/

theorem uniform_read (v : View α) (key : String) (absent : β) (f : α → β) :
    (S.twin clock).Uniform (v.read key absent f) := by
  refine (uniform_loadEntry key).bind fun entry => ?_
  refine (Twin.Uniform.done _).bind fun found => ?_
  cases found with
  | none => exact Twin.Uniform.done _
  | some p => exact Twin.Uniform.done _

theorem uniform_readRand (v : View α) (key : String) (absent : β) (f : α → UInt64 → β) :
    (S.twin clock).Uniform (v.readRand key absent f) := by
  refine (uniform_loadEntry key).bind fun entry => ?_
  refine (Twin.Uniform.done _).bind fun found => ?_
  cases found with
  | none => exact Twin.Uniform.done _
  | some p => exact uniform_nanos.bind fun nanos => Twin.Uniform.done _

/-! ## Hashes -/

theorem HashMethod.uniform (x : Externs) (m : HashMethod α) :
    (S.twin clock).Uniform (m.prog x) := by
  cases m with
  | hget key field => exact uniform_read _ _ _ _
  | hgetall key => exact uniform_read _ _ _ _
  | hscan key cursor pattern count => exact uniform_read _ _ _ _
  | hlen key => exact uniform_read _ _ _ _
  | hkeys key => exact uniform_read _ _ _ _
  | hvals key => exact uniform_read _ _ _ _
  | hexists key field => exact uniform_read _ _ _ _
  | hstrlen key field => exact uniform_read _ _ _ _
  | hmget key fields => exact uniform_read _ _ _ _
  | hrandfield key count allowDuplicates => exact uniform_readRand _ _ _ _
  | hset key pairs =>
      refine uniform_cas key (keepsKind_findOr View.hash fun map exp => ?_)
      simp
  | hsetnx key field value =>
      refine uniform_cas key (keepsKind_findOr View.hash fun map exp => ?_)
      dsimp only
      split <;> simp
  | hdel key fields =>
      refine uniform_cas key (keepsKind_find View.hash fun found => ?_)
      cases found <;> simp
  | hincrBy key field delta =>
      refine uniform_cas key (keepsKind_findOr View.hash fun map exp => emits_bind fun n _ => ?_)
      cases checkedAdd n delta <;> simp
  | hincrByFloat key field delta =>
      refine uniform_cas key (keepsKind_findOr View.hash fun map exp => emits_bind fun n _ => ?_)
      dsimp only
      split <;> simp

/-! ## Strings -/

theorem counterOf_kind {key : String} {e : StoredValue} {p : Int × Option Int}
    (h : counterOf key (some e) = .ok p) : e.kind = View.string.kind := by
  obtain ⟨found, hfound, -⟩ := Result.bind_eq_ok.mp h
  exact View.string.find_kind hfound

theorem parseStringAsF64_kind {fo : FloatOps} {key : String} {e : StoredValue}
    {p : F64 × Option Int} (h : parseStringAsF64 fo (some e) key = .ok p) : e.kind = View.string.kind := by
  obtain ⟨found, hfound, -⟩ := Result.bind_eq_ok.mp h
  exact View.string.find_kind hfound

theorem hllOf_kind {key : String} {e : StoredValue} {p : Option (Bytes × Option Int)}
    (h : hllOf key (some e) = .ok p) : e.kind = View.string.kind := by
  obtain ⟨found, hfound, -⟩ := Result.bind_eq_ok.mp h
  exact View.string.find_kind hfound

theorem uniform_getStringWithTtl (key : String) (op : GetExOp) :
    (S.twin clock).Uniform (getStringWithTtl key op) := by
  have hmodify : ∀ exp, KeepsKind (getStringWithTtl.modify key exp) := by
    intro exp
    refine keepsKind_find View.string fun found => ?_
    cases found <;> simp
  cases op with
  | leave => exact uniform_read _ _ _ _
  | setExpireAtMs t => exact uniform_cas key (hmodify (some t))
  | persist => exact uniform_cas key (hmodify none)

theorem uniform_setStringNx (key : String) (value : Bytes) (exp : Option Int) :
    (S.twin clock).Uniform (setStringNx key value exp) := by
  unfold setStringNx
  rw [Prog.bind_eq, load_bind_const]
  refine (uniform_loadEntry key).bind fun _ => ?_
  refine (uniform_save_createOnly key _).attempt.bind fun out => ?_
  rcases out with (_ | _) | _ <;> exact Twin.Uniform.done _

theorem uniform_mget (keys : List String) : (S.twin clock).Uniform (mget keys) := by
  induction keys with
  | nil => exact Twin.Uniform.done _
  | cons k keys ih =>
      exact (uniform_read _ _ _ _).bind fun v => ih.bind fun vs => Twin.Uniform.done _

theorem uniform_mset (pairs : List (String × Bytes)) : (S.twin clock).Uniform (mset pairs) := by
  induction pairs with
  | nil => exact Twin.Uniform.done _
  | cons p pairs ih => exact (uniform_save_any _ _).bind fun _ => ih

theorem uniform_anyExists (pairs : List (String × Bytes)) :
    (S.twin clock).Uniform (anyExists pairs) := by
  induction pairs with
  | nil => exact Twin.Uniform.done _
  | cons p pairs ih =>
      refine (uniform_loadEntry p.1).bind fun entry => ?_
      cases entry with
      | none => exact ih
      | some e => exact Twin.Uniform.done _

theorem uniform_msetnx (pairs : List (String × Bytes)) : (S.twin clock).Uniform (msetnx pairs) := by
  refine (uniform_anyExists pairs).bind fun found => ?_
  cases found with
  | true => exact Twin.Uniform.done _
  | false => exact (uniform_mset pairs).bind fun _ => Twin.Uniform.done _

theorem uniform_mergeKeys (keys : List String) (merged : Bytes) :
    (S.twin clock).Uniform (mergeKeys merged keys) := by
  induction keys generalizing merged with
  | nil => exact Twin.Uniform.done _
  | cons k keys ih =>
      refine (uniform_loadEntry k).bind fun entry => ?_
      refine (Twin.Uniform.done _).bind fun found => ?_
      cases found with
      | none => exact ih merged
      | some p => exact (Twin.Uniform.done _).bind fun merged => ih merged

theorem uniform_pfcount (fo : FloatOps) (keys : List String) :
    (S.twin clock).Uniform (pfcount fo keys) := by
  unfold pfcount
  split
  · refine (uniform_loadEntry _).bind fun entry => (Twin.Uniform.done _).bind fun found => ?_
    cases found <;> exact Twin.Uniform.done _
  · exact (uniform_mergeKeys keys _).bind fun merged => Twin.Uniform.done _

theorem StringMethod.uniform (x : Externs) (m : StringMethod α) :
    (S.twin clock).Uniform (m.prog x) := by
  cases m with
  | getString key => exact uniform_read _ _ _ _
  | getStringWithTtl key op => exact uniform_getStringWithTtl key op
  | setString key value exp => exact uniform_save_any _ _
  | setStringNx key value exp => exact uniform_setStringNx key value exp
  | getset key value =>
      refine uniform_cas key (keepsKind_find View.string fun found => ?_)
      simp
  | getAndDelete key =>
      refine uniform_cas key (keepsKind_find View.string fun found => ?_)
      cases found <;> simp
  | strlen key => exact uniform_read _ _ _ _
  | append key value =>
      refine uniform_cas key (keepsKind_findOr View.string fun data exp => ?_)
      simp
  | mget keys => exact uniform_mget keys
  | mset pairs => exact uniform_mset pairs
  | msetnx pairs => exact uniform_msetnx pairs
  | incrBy key delta =>
      refine uniform_cas key (keepsKind_of_kind _ (fun _ _ => counterOf_kind) fun p => ?_)
      dsimp only
      cases checkedAdd p.1 delta <;> simp
  | incrByFloat key delta =>
      have hkind : ∀ e p, parseStringAsF64 x.fo (some e) key = .ok p → e.kind = View.string.kind :=
        fun _ _ => parseStringAsF64_kind
      refine uniform_cas key (@keepsKind_of_kind _ _ (fun entry => parseStringAsF64 x.fo entry key)
        _ _ hkind fun p => ?_)
      dsimp only
      split <;> simp
  | getrange key start stop => exact uniform_read _ _ _ _
  | setrange key offset value =>
      refine uniform_cas key (keepsKind_findOr View.string fun data exp => ?_)
      dsimp only
      split <;> simp
  | getbit key offset => exact uniform_read _ _ _ _
  | setbit key offset value =>
      refine uniform_cas key (keepsKind_findOr View.string fun data exp => ?_)
      simp
  | pfadd key elements =>
      refine uniform_cas key (keepsKind_of_kind _ (fun _ _ => hllOf_kind) fun found => ?_)
      cases found with
      | none => exact emits_bind fun out _ => by simp
      | some p =>
          refine emits_bind fun out _ => ?_
          dsimp only
          split <;> simp
  | pfcount keys => exact uniform_pfcount x.fo keys
  | pfmerge dest sources =>
      refine (uniform_mergeKeys sources _).bind fun merged => ?_
      refine uniform_cas dest (keepsKind_of_kind _ (fun _ _ => hllOf_kind) fun found => ?_)
      exact emits_bind fun buf _ => by simp

/-! ## Lists -/

theorem keepsKind_rotateModify (key : String) (fromLeft toLeft : Bool) :
    KeepsKind (rotateModify key fromLeft toLeft) := by
  refine keepsKind_find View.list fun found => ?_
  cases found with
  | none => simp
  | some p => dsimp only; cases popOne fromLeft p.1 <;> simp

theorem keepsKind_popModify (key : String) (fromLeft : Bool) :
    KeepsKind (popModify key fromLeft) := by
  refine keepsKind_find View.list fun found => ?_
  cases found with
  | none => simp
  | some p => dsimp only; cases popOne fromLeft p.1 <;> simp

theorem keepsKind_pushModify (key : String) (toLeft : Bool) (popped : Bytes) :
    KeepsKind (pushModify key toLeft popped) :=
  keepsKind_findOr View.list fun list exp => by simp

theorem uniform_listMove (source dest : String) (fromLeft toLeft : Bool) :
    (S.twin clock).Uniform (listMove source dest fromLeft toLeft) := by
  unfold listMove
  split
  · exact uniform_cas source (keepsKind_rotateModify source fromLeft toLeft)
  · refine (uniform_loadEntry dest).bind fun entry => (Twin.Uniform.done _).bind fun _ => ?_
    refine (uniform_cas source (keepsKind_popModify source fromLeft)).bind fun out => ?_
    cases out with
    | none => exact Twin.Uniform.done _
    | some popped =>
        exact (uniform_cas dest (keepsKind_pushModify dest toLeft popped)).bind fun _ =>
          Twin.Uniform.done _

theorem ListMethod.uniform (m : ListMethod α) : (S.twin clock).Uniform m.prog := by
  cases m with
  | listPush key values left =>
      refine uniform_cas key (keepsKind_findOr View.list fun list exp => ?_)
      simp
  | listPushx key values left =>
      refine uniform_cas key (keepsKind_find View.list fun found => ?_)
      cases found <;> simp
  | listPop key count left =>
      refine uniform_cas key (keepsKind_find View.list fun found => ?_)
      cases found <;> simp
  | lrange key start stop => exact uniform_read _ _ _ _
  | llen key => exact uniform_read _ _ _ _
  | lindex key index => exact uniform_read _ _ _ _
  | lset key index value =>
      refine uniform_cas key (keepsKind_find View.list fun found => ?_)
      cases found with
      | none => simp
      | some p => dsimp only; split <;> simp
  | lrem key count value =>
      refine uniform_cas key (keepsKind_find View.list fun found => ?_)
      cases found <;> simp
  | linsert key before pivot value =>
      refine uniform_cas key (keepsKind_find View.list fun found => ?_)
      cases found with
      | none => simp
      | some p => dsimp only; split <;> simp
  | ltrim key start stop =>
      refine uniform_cas key (keepsKind_find View.list fun found => ?_)
      cases found with
      | none => simp
      | some p => dsimp only; split <;> simp
  | listMove source dest fromLeft toLeft => exact uniform_listMove source dest fromLeft toLeft
  | lpos key element rank count maxlen => exact uniform_read _ _ _ _

/-! ## Sets -/

theorem uniform_loadSetsSeq (keys : List String) : (S.twin clock).Uniform (loadSetsSeq keys) := by
  induction keys with
  | nil => exact Twin.Uniform.done _
  | cons k keys ih =>
      exact (uniform_read _ _ _ _).bind fun members => ih.bind fun sets => Twin.Uniform.done _

theorem uniform_spop (key : String) (count : Nat) : (S.twin clock).Uniform (spop key count) := by
  unfold spop
  split
  · exact uniform_read _ _ _ _
  · refine uniform_casWith key draws_nanos fun nanos => keepsKind_find View.set fun found => ?_
    cases found <;> simp

theorem keepsKind_saddModify (key : String) (members : List String) :
    KeepsKind (saddModify key members) :=
  keepsKind_findOr View.set fun set exp => by simp

theorem keepsKind_sremModify (key : String) (members : List String) :
    KeepsKind (sremModify key members) := by
  refine keepsKind_find View.set fun found => ?_
  cases found <;> simp

theorem SetMethod.uniform (x : Externs) (m : SetMethod α) : (S.twin clock).Uniform (m.prog x) := by
  cases m with
  | sadd key members => exact uniform_cas key (keepsKind_saddModify key members)
  | srem key members => exact uniform_cas key (keepsKind_sremModify key members)
  | smembers key => exact uniform_read _ _ _ _
  | sismember key member => exact uniform_read _ _ _ _
  | smismember key members => exact uniform_read _ _ _ _
  | scard key => exact uniform_read _ _ _ _
  | sinter keys => exact (uniform_loadSetsSeq keys).bind fun sets => Twin.Uniform.done _
  | sunion keys => exact (uniform_loadSetsSeq keys).bind fun sets => Twin.Uniform.done _
  | sdiff keys => exact (uniform_loadSetsSeq keys).bind fun sets => Twin.Uniform.done _
  | spop key count => exact uniform_spop key count
  | srandmember key count allowDuplicates => exact uniform_readRand _ _ _ _
  | sscan key cursor pattern count => exact uniform_read _ _ _ _

/-! ## Sorted sets -/

theorem uniform_zremrange (key : String) (split : ZMap → ZMap × Nat) :
    (S.twin clock).Uniform (zremrange key split) := by
  refine uniform_cas key (keepsKind_find View.zset fun found => ?_)
  cases found <;> simp

theorem uniform_zpopImpl (key : String) (count : Nat) (fromMax : Bool) :
    (S.twin clock).Uniform (zpopImpl key count fromMax) := by
  unfold zpopImpl
  split
  · exact uniform_read _ _ _ _
  · refine uniform_cas key (keepsKind_find View.zset fun found => ?_)
    cases found <;> simp

theorem uniform_zaddExtIncr (fo : FloatOps) (key : String) (delta : F64) (member : String)
    (flags : ZAddFlags) : (S.twin clock).Uniform (zaddExtIncr fo key delta member flags) := by
  refine uniform_cas key (keepsKind_findOr View.zset fun map exp => ?_)
  dsimp only
  cases map[member]? with
  | none => dsimp only; split <;> simp
  | some prev =>
      dsimp only
      split
      · simp
      · split
        · simp
        · split
          · simp
          · split <;> simp

theorem keepsKind_zaddModify (key : String) (pairs : List (F64 × String)) :
    KeepsKind (zaddModify key pairs) :=
  keepsKind_findOr View.zset fun map exp => by simp

theorem ZSetMethod.uniform (x : Externs) (m : ZSetMethod α) :
    (S.twin clock).Uniform (m.prog x) := by
  cases m with
  | zadd key pairs => exact uniform_cas key (keepsKind_zaddModify key pairs)
  | zaddExt key pairs flags =>
      refine uniform_cas key (keepsKind_findOr View.zset fun map exp => ?_)
      dsimp only
      split <;> simp
  | zaddExtIncr key delta member flags => exact uniform_zaddExtIncr x.fo key delta member flags
  | zitems key => exact uniform_read _ _ _ _
  | zrem key members =>
      refine uniform_cas key (keepsKind_find View.zset fun found => ?_)
      cases found <;> simp
  | zincrBy key member delta =>
      refine uniform_cas key (keepsKind_findOr View.zset fun map exp => ?_)
      dsimp only
      split <;> simp
  | zrange key start stop => exact uniform_read _ _ _ _
  | zrevrange key start stop => exact uniform_read _ _ _ _
  | zrangebyscore key min max => exact uniform_read _ _ _ _
  | zrevrangebyscore key max min => exact uniform_read _ _ _ _
  | zremrangebyrank key start stop =>
      exact uniform_zremrange key fun m => partitionZsetByRank m start stop
  | zremrangebyscore key min max =>
      exact uniform_zremrange key fun m => partitionZsetByScore m min max
  | zrangebylex key min max limit => exact uniform_read _ _ _ _
  | zrevrangebylex key max min limit => exact uniform_read _ _ _ _
  | zlexcount key min max => exact uniform_read _ _ _ _
  | zremrangebylex key min max =>
      exact uniform_zremrange key fun m => partitionZsetByLex m min max
  | zpopmin key count => exact uniform_zpopImpl key count false
  | zpopmax key count => exact uniform_zpopImpl key count true
  | zscore key member => exact uniform_read _ _ _ _
  | zcard key => exact uniform_read _ _ _ _
  | zrank key member => exact uniform_read _ _ _ _
  | zrevrank key member => exact uniform_read _ _ _ _
  | zcount key min max => exact uniform_read _ _ _ _
  | zmscore key members => exact uniform_read _ _ _ _
  | zrandmember key count allowDuplicates => exact uniform_readRand _ _ _ _
  | zscan key cursor pattern count => exact uniform_read _ _ _ _

/-! ## Streams -/

theorem uniform_xadd (key : String) (spec : AddIdSpec) (fields : List (String × Bytes))
    (nomkstream : Bool) (trim : Option (TrimBound × Option Nat)) :
    (S.twin clock).Uniform (xadd key spec fields nomkstream trim) := by
  refine uniform_nowMs.bind fun now => ?_
  refine uniform_cas key (keepsKind_find View.stream fun found => ?_)
  cases found with
  | none =>
      dsimp only
      split
      · simp
      · exact emits_bind fun out _ => by simp
  | some p => exact emits_bind fun out _ => by simp

theorem uniform_xreadgroup (group consumer : String) (count : Option Nat) (noack : Bool)
    (now : Int) (streams : List (String × XReadGroupId)) :
    (S.twin clock).Uniform (xreadgroup group consumer count noack now streams) := by
  induction streams with
  | nil => exact Twin.Uniform.done _
  | cons p streams ih =>
      have hkind : KeepsKind (xreadgroupModify group consumer p.2 count noack now) := by
        refine keepsKind_find View.stream fun found => ?_
        cases found with
        | none => simp
        | some q => exact emits_bind fun out _ => by simp
      exact (uniform_cas p.1 hkind).bind fun entries => ih.bind fun out => Twin.Uniform.done _

theorem uniform_xread (count : Option Nat) (streams : List (String × StreamId)) :
    (S.twin clock).Uniform (xread count streams) := by
  induction streams with
  | nil => exact Twin.Uniform.done _
  | cons p streams ih =>
      exact (uniform_read _ _ _ _).bind fun entries => ih.bind fun out => Twin.Uniform.done _

theorem StreamMethod.uniform (m : StreamMethod α) : (S.twin clock).Uniform m.prog := by
  cases m with
  | xadd key spec fields nomkstream trim => exact uniform_xadd key spec fields nomkstream trim
  | xlen key => exact uniform_read _ _ _ _
  | xrange key start stop count reverse => exact uniform_read _ _ _ _
  | xdel key ids =>
      refine uniform_cas key (keepsKind_find View.stream fun found => ?_)
      cases found with
      | none => simp
      | some p => dsimp only; split <;> simp
  | xtrim key bound limit =>
      refine uniform_cas key (keepsKind_find View.stream fun found => ?_)
      cases found with
      | none => simp
      | some p => dsimp only; split <;> simp
  | xread keys count => exact uniform_xread count keys
  | xinfoStream key => exact uniform_read _ _ _ _
  | xgroup key op =>
      refine uniform_cas key (keepsKind_find View.stream fun found => ?_)
      cases found <;> exact emits_bind fun out _ => by simp
  | xreadgroup group consumer streams count noack now =>
      exact uniform_xreadgroup group consumer count noack now streams
  | xack key group ids =>
      refine uniform_cas key (keepsKind_find View.stream fun found => ?_)
      cases found with
      | none => simp
      | some p => dsimp only; split <;> simp
  | xclaim key group consumer minIdleMs ids opts =>
      refine uniform_cas key (keepsKind_find View.stream fun found => ?_)
      cases found with
      | none => simp
      | some p => exact emits_bind fun out _ => by simp
  | xautoclaim key group consumer minIdleMs start count justId now =>
      refine uniform_cas key (keepsKind_find View.stream fun found => ?_)
      cases found with
      | none => simp
      | some p => exact emits_bind fun out _ => by simp
  | xpendingSummary key group =>
      refine (uniform_loadEntry key).bind fun entry => (Twin.Uniform.done _).bind fun g => ?_
      split <;> exact Twin.Uniform.done _
  | xpendingDetail key group start stop count consumer idleMs now =>
      exact (uniform_loadEntry key).bind fun entry => (Twin.Uniform.done _).bind fun g =>
        Twin.Uniform.done _
  | xinfoGroups key => exact uniform_read _ _ _ _
  | xinfoConsumers key group =>
      exact (uniform_loadEntry key).bind fun entry => (Twin.Uniform.done _).bind fun g =>
        uniform_nowMs.bind fun now => Twin.Uniform.done _

/-! ## Keys -/

theorem uniform_delete (key : String) : (S.twin clock).Uniform (Storage.delete key) := by
  refine (uniform_loadEntry key).bind fun entry => ?_
  cases entry with
  | none => exact Twin.Uniform.done _
  | some e => exact (uniform_delete_any key).bind fun _ => Twin.Uniform.done _

theorem uniform_ttlMs (key : String) : (S.twin clock).Uniform (ttlMs key) := by
  refine (uniform_loadEntry key).bind fun entry => ?_
  cases entry with
  | none => exact Twin.Uniform.done _
  | some e =>
      dsimp only
      cases e.expiresAtMs with
      | none => exact Twin.Uniform.done _
      | some exp => exact uniform_nowMs.bind fun now => Twin.Uniform.done _

theorem uniform_renamenx (src dst : String) : (S.twin clock).Uniform (renamenx src dst) := by
  refine (uniform_loadEntry src).bind fun entry => ?_
  cases entry with
  | none => exact Twin.Uniform.done _
  | some e =>
      dsimp only
      split
      · exact Twin.Uniform.done _
      · refine (uniform_loadEntry dst).bind fun dest => ?_
        cases dest with
        | some e' => exact Twin.Uniform.done _
        | none =>
            refine (uniform_save_createOnly dst e).attempt.bind fun out => ?_
            rcases out with (_ | _) | _
            all_goals first
              | exact Twin.Uniform.done _
              | exact (uniform_delete_any src).bind fun _ => Twin.Uniform.done _

theorem uniform_restore (fo : FloatOps) (key : String) (payload : Bytes) (ttl : Int)
    (replace absTtl : Bool) :
    (S.twin clock).Uniform (restore fo key payload ttl replace absTtl) := by
  have hexpiry : (S.twin clock).Uniform (restoreExpiry ttl absTtl) := by
    unfold restoreExpiry
    split
    · exact Twin.Uniform.done _
    · split
      · exact Twin.Uniform.done _
      · exact uniform_nowMs.bind fun now => Twin.Uniform.done _
  unfold restore
  split
  · refine hexpiry.bind fun exp => ?_
    split
    · exact uniform_save_any _ _
    · refine (uniform_save_createOnly _ _).attempt.bind fun out => ?_
      rcases out with (_ | _) | _ <;> exact Twin.Uniform.done _
  · exact Twin.Uniform.done _
  · exact Twin.Uniform.done _

theorem keepsKind_expireAtModify (expiresAtMs : Int) : KeepsKind (expireAtModify expiresAtMs) := by
  intro e
  simp [expireAtModify, StoredValue.kind]

theorem keepsKind_persistModify : KeepsKind persistModify := by
  intro e
  by_cases hexp : e.expiresAtMs.isSome <;> simp [persistModify, hexp, StoredValue.kind]

end Methods

end RustyAnt
