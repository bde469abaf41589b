import RustyAnt.Commands.ReadOnly

/-!
# Commands that write

A handler parses its arguments, reads and calls one method of the storage, which is where
it writes.  So it keeps a condition of every key if the method does, on the arguments that
the handler can call it with.
-/

namespace RustyAnt

open Lib

namespace Commands

def argIs (args : List Bytes) (i : Nat) (key : String) : Prop :=
  ∃ arg, args[i]? = some arg ∧ argAsStr arg = .ok key

theorem argsAsStrings_ne_nil {arg : Bytes} {args : List Bytes} {texts : List String}
    (h : argsAsStrings (arg :: args) = .ok texts) : texts ≠ [] := by
  unfold argsAsStrings at h
  rw [List.mapM_cons] at h
  obtain ⟨text, -, h⟩ := Result.bind_eq_ok.mp h
  obtain ⟨rest, -, h⟩ := Result.bind_eq_ok.mp h
  cases h
  exact List.cons_ne_nil _ _

theorem keyValuePairs_ne_nil {cmd : String} {k v : Bytes} {rest : List Bytes}
    {pairs : List (String × Bytes)} (h : keyValuePairs cmd (k :: v :: rest) = .ok pairs) :
    pairs ≠ [] := by
  unfold keyValuePairs at h
  obtain ⟨key, -, h⟩ := Result.bind_eq_ok.mp h
  obtain ⟨pairs', -, h⟩ := Result.bind_eq_ok.mp h
  cases h
  exact List.cons_ne_nil _ _

variable {I : KeyInv}

/-! ## Strings -/

theorem parseGetexOp_readOnly : ∀ opts, (parseGetexOp opts).ReadOnly := by
  intro opts
  unfold parseGetexOp
  split
  · exact .done _
  · apply KV.ReadOnly.parse
    intro name
    split
    · exact .done _
    · exact .done _
    · exact .done _
    · apply KV.ReadOnly.parse
      intro n
      split
      · exact .reply (.reply .nowMs)
      · exact .reply (.reply .nowMs)
      · exact .done _
      · exact .done _
      · exact .done _
    · exact .done _

theorem handleGetex_keeps {args : List Bytes}
    (h : ∀ key op, argIs args 0 key → (args.length = 1 → op = .leave) →
      (Storage.getStringWithTtl key op).Keeps I) :
    (handleGetex args).Keeps I := by
  cases args with
  | nil => exact .done _
  | cons arg opts =>
      unfold handleGetex
      dsimp only
      split
      · exact .done _
      · apply KV.Keeps.parse
        intro key hkey
        cases opts with
        | nil => exact .reply (h key .leave ⟨arg, rfl, hkey⟩ fun _ => rfl)
        | cons opt opts =>
            apply KV.Keeps.bind ((parseGetexOp_readOnly _).keeps I)
            intro op
            exact .reply (h key op ⟨arg, rfl, hkey⟩ (by simp))

theorem parseSetOpts_readOnly : ∀ opts exp, (parseSetOpts opts exp).ReadOnly
  | [], _ => .done _
  | [_], _ => by
      unfold parseSetOpts
      apply KV.ReadOnly.parse
      intro name
      split
      · exact .done _
      · exact .done _
      · exact .done _
  | _ :: _ :: rest, _ => by
      unfold parseSetOpts
      apply KV.ReadOnly.parse
      intro name
      split
      · exact .parse fun _ => .bind (.reply .nowMs) fun _ => parseSetOpts_readOnly rest _
      · exact .parse fun _ => .bind (.reply .nowMs) fun _ => parseSetOpts_readOnly rest _
      · exact .done _

theorem handleSet_keeps (h : ∀ key value exp, (Storage.setString key value exp).Keeps I)
    (args : List Bytes) : (handleSet args).Keeps I := by
  unfold handleSet
  split
  · exact .parse fun _ _ => .bind ((parseSetOpts_readOnly _ _).keeps I) fun _ =>
      .reply (h _ _ _)
  · exact .done _

theorem handleSetnx_keeps (h : ∀ key value, (Storage.setStringNx key value none).Keeps I)
    (args : List Bytes) : (handleSetnx args).Keeps I := by
  unfold handleSetnx
  split
  · exact .parse fun _ _ => .reply (h _ _)
  · exact .done _

theorem handleSetex_keeps (h : ∀ key value exp, (Storage.setString key value exp).Keeps I)
    (args : List Bytes) : (handleSetex args).Keeps I := by
  unfold handleSetex
  split
  · apply KV.Keeps.parse
    intro key _
    apply KV.Keeps.parse
    intro secs _
    split
    · exact .done _
    · exact .bind ((KV.ReadOnly.reply .nowMs).keeps I) fun _ => .reply (h _ _ _)
  · exact .done _

theorem handleGetset_keeps (h : ∀ key value, (Storage.getset key value).Keeps I)
    (args : List Bytes) : (handleGetset args).Keeps I := by
  unfold handleGetset
  split
  · exact .parse fun _ _ => .reply (h _ _)
  · exact .done _

theorem handleGetdel_keeps (h : ∀ key, (Storage.getAndDelete key).Keeps I)
    (args : List Bytes) : (handleGetdel args).Keeps I := by
  unfold handleGetdel
  split
  · exact .parse fun _ _ => .reply (h _)
  · exact .done _

theorem handleAppend_keeps (h : ∀ key value, (Storage.append key value).Keeps I)
    (args : List Bytes) : (handleAppend args).Keeps I := by
  unfold handleAppend
  split
  · exact .parse fun _ _ => .reply (h _ _)
  · exact .done _

theorem handleMset_keeps (h : ∀ pairs, (Storage.mset pairs).Keeps I)
    (args : List Bytes) : (handleMset args).Keeps I := by
  unfold handleMset
  split
  · exact .done _
  · exact .parse fun _ _ => .reply (h _)

theorem handleMsetnx_keeps (h : ∀ pairs, (Storage.msetnx pairs).Keeps I)
    (args : List Bytes) : (handleMsetnx args).Keeps I := by
  unfold handleMsetnx
  split
  · exact .done _
  · exact .parse fun _ _ => .reply (h _)

theorem handleIncrby_keeps {delta : Int} (h : ∀ key, (Storage.incrBy key delta).Keeps I)
    (args : List Bytes) : (handleIncrby delta args).Keeps I := by
  unfold handleIncrby
  split
  · exact .parse fun _ _ => .reply (h _)
  · exact .done _

theorem handleDecrby_keeps (h : ∀ key delta, (Storage.incrBy key delta).Keeps I)
    (args : List Bytes) : (handleDecrby args).Keeps I := by
  apply KV.Keeps.parse
  intro delta _
  split
  · exact .done _
  · exact handleIncrby_keeps (fun key => h key _) args

theorem handleIncrbyfloat_keeps (fo : FloatOps)
    (h : ∀ key delta, (Storage.incrByFloat fo key delta).Keeps I)
    (args : List Bytes) : (handleIncrbyfloat fo args).Keeps I := by
  unfold handleIncrbyfloat
  split
  · exact .parse fun _ _ => .parse fun _ _ => .reply (h _ _)
  · exact .done _

theorem handleSetrange_keeps (h : ∀ key offset value, (Storage.setrange key offset value).Keeps I)
    (args : List Bytes) : (handleSetrange args).Keeps I := by
  unfold handleSetrange
  split
  · exact .parse fun _ _ => .parse fun _ _ => .reply (h _ _ _)
  · exact .done _

theorem handleSetbit_keeps (h : ∀ key offset bit, (Storage.setbit key offset bit).Keeps I)
    (args : List Bytes) : (handleSetbit args).Keeps I := by
  unfold handleSetbit
  split
  · exact .parse fun _ _ => .parse fun _ _ => .parse fun _ _ => .reply (h _ _ _)
  · exact .done _

theorem handleBitop_keeps {args : List Bytes} (h : ∀ dest, argIs args 1 dest → (Storage.delete dest).Keeps I ∧
      ∀ value, (Storage.setString dest value none).Keeps I) :
    (handleBitop args).Keeps I := by
  unfold handleBitop
  split
  · apply KV.Keeps.parse
    intro op _
    apply KV.Keeps.parse
    intro dest hdest
    apply KV.Keeps.parse
    intro srcKeys _
    split
    · exact .done _
    · apply KV.Keeps.bind ((loadStrings_readOnly _).keeps I)
      intro sources
      have hd := h dest ⟨_, rfl, hdest⟩
      dsimp only
      split
      · exact .reply hd.1
      · exact .reply (hd.2 _)
  · exact .done _

theorem handlePfadd_keeps (h : ∀ key elements, (Storage.pfadd key elements).Keeps I)
    (args : List Bytes) : (handlePfadd args).Keeps I := by
  unfold handlePfadd
  split
  · exact .parse fun _ _ => .reply (h _ _)
  · exact .done _

theorem handlePfmerge_keeps (h : ∀ dest sources, (Storage.pfmerge dest sources).Keeps I)
    (args : List Bytes) : (handlePfmerge args).Keeps I := by
  unfold handlePfmerge
  split
  · exact .parse fun _ _ => .parse fun _ _ => .reply (h _ _)
  · exact .done _

/-! ## Hashes -/

theorem handleHset_keeps (h : ∀ key pairs, pairs ≠ [] → (Storage.hset key pairs).Keeps I)
    (args : List Bytes) : (handleHset args).Keeps I := by
  unfold handleHset
  split
  · split
    · exact .done _
    · exact .parse fun _ _ => .parse fun _ hpairs => .reply (h _ _ (keyValuePairs_ne_nil hpairs))
  · exact .done _

theorem handleHsetnx_keeps (h : ∀ key field value, (Storage.hsetnx key field value).Keeps I)
    (args : List Bytes) : (handleHsetnx args).Keeps I := by
  unfold handleHsetnx
  split
  · exact .parse fun _ _ => .parse fun _ _ => .reply (h _ _ _)
  · exact .done _

theorem handleHdel_keeps (h : ∀ key fields, (Storage.hdel key fields).Keeps I)
    (args : List Bytes) : (handleHdel args).Keeps I := by
  unfold handleHdel
  split
  · exact .parse fun _ _ => .parse fun _ _ => .reply (h _ _)
  · exact .done _

theorem handleHincrby_keeps (h : ∀ key field delta, (Storage.hincrBy key field delta).Keeps I)
    (args : List Bytes) : (handleHincrby args).Keeps I := by
  unfold handleHincrby
  split
  · exact .parse fun _ _ => .parse fun _ _ => .parse fun _ _ => .reply (h _ _ _)
  · exact .done _

theorem handleHincrbyfloat_keeps (fo : FloatOps)
    (h : ∀ key field delta, (Storage.hincrByFloat fo key field delta).Keeps I)
    (args : List Bytes) : (handleHincrbyfloat fo args).Keeps I := by
  unfold handleHincrbyfloat
  split
  · apply KV.Keeps.parse
    intro key _
    apply KV.Keeps.parse
    intro field _
    apply KV.Keeps.parse
    intro delta _
    split
    · exact .done _
    · exact .reply (h _ _ _)
  · exact .done _

/-! ## Lists -/

theorem handlePush_keeps {left : Bool}
    (h : ∀ key values, values ≠ [] → (Storage.listPush key values left).Keeps I)
    (args : List Bytes) : (handlePush left args).Keeps I := by
  unfold handlePush
  split
  · exact .parse fun _ _ => .reply (h _ _ (List.cons_ne_nil _ _))
  · exact .done _

theorem handlePushx_keeps {left : Bool}
    (h : ∀ key values, values ≠ [] → (Storage.listPushx key values left).Keeps I)
    (args : List Bytes) : (handlePushx left args).Keeps I := by
  unfold handlePushx
  split
  · exact .parse fun _ _ => .reply (h _ _ (List.cons_ne_nil _ _))
  · exact .done _

theorem handlePop_keeps {left : Bool} (h : ∀ key count, (Storage.listPop key count left).Keeps I)
    (args : List Bytes) : (handlePop left args).Keeps I := by
  unfold handlePop
  split
  · exact .parse fun _ _ => .reply (h _ _)
  · exact .parse fun _ _ => .parse fun _ _ => .reply (h _ _)
  · exact .done _

theorem handleLset_keeps (h : ∀ key index value, (Storage.lset key index value).Keeps I)
    (args : List Bytes) : (handleLset args).Keeps I := by
  unfold handleLset
  split
  · exact .parse fun _ _ => .parse fun _ _ => .reply (h _ _ _)
  · exact .done _

theorem handleLrem_keeps (h : ∀ key count value, (Storage.lrem key count value).Keeps I)
    (args : List Bytes) : (handleLrem args).Keeps I := by
  unfold handleLrem
  split
  · exact .parse fun _ _ => .parse fun _ _ => .reply (h _ _ _)
  · exact .done _

theorem handleLinsert_keeps
    (h : ∀ key before pivot value, (Storage.linsert key before pivot value).Keeps I)
    (args : List Bytes) : (handleLinsert args).Keeps I := by
  unfold handleLinsert
  split
  · exact .parse fun _ _ => .parse fun _ _ => .reply (h _ _ _ _)
  · exact .done _

theorem handleLtrim_keeps (h : ∀ key start stop, (Storage.ltrim key start stop).Keeps I)
    (args : List Bytes) : (handleLtrim args).Keeps I := by
  unfold handleLtrim
  split
  · exact .parse fun _ _ => .parse fun _ _ => .parse fun _ _ => .reply (h _ _ _)
  · exact .done _

theorem moveElement_keeps {parsed : Result (String × String × Bool × Bool)}
    (h : ∀ source dest fromLeft toLeft, parsed = .ok (source, dest, fromLeft, toLeft) →
      (Storage.listMove source dest fromLeft toLeft).Keeps I) : (moveElement parsed).Keeps I := by
  apply KV.Keeps.parse
  rintro ⟨source, dest, fromLeft, toLeft⟩ hparsed
  exact .reply (h source dest fromLeft toLeft hparsed)

theorem handleLmove_keeps {args : List Bytes}
    (h : ∀ source dest fromLeft toLeft, argIs args 0 source → argIs args 1 dest →
      (Storage.listMove source dest fromLeft toLeft).Keeps I) : (handleLmove args).Keeps I := by
  apply moveElement_keeps
  intro source dest fromLeft toLeft hparsed
  unfold parseLmove at hparsed
  split at hparsed
  · obtain ⟨source', hsource, hparsed⟩ := Result.bind_eq_ok.mp hparsed
    obtain ⟨dest', hdest, hparsed⟩ := Result.bind_eq_ok.mp hparsed
    obtain ⟨from', -, hparsed⟩ := Result.bind_eq_ok.mp hparsed
    obtain ⟨to', -, hparsed⟩ := Result.bind_eq_ok.mp hparsed
    cases hparsed
    exact h _ _ _ _ ⟨_, rfl, hsource⟩ ⟨_, rfl, hdest⟩
  · cases hparsed

theorem handleRpoplpush_keeps {args : List Bytes}
    (h : ∀ source dest fromLeft toLeft, argIs args 0 source → argIs args 1 dest →
      (Storage.listMove source dest fromLeft toLeft).Keeps I) : (handleRpoplpush args).Keeps I := by
  apply moveElement_keeps
  intro source dest fromLeft toLeft hparsed
  unfold parseRpoplpush at hparsed
  split at hparsed
  · obtain ⟨source', hsource, hparsed⟩ := Result.bind_eq_ok.mp hparsed
    obtain ⟨dest', hdest, hparsed⟩ := Result.bind_eq_ok.mp hparsed
    cases hparsed
    exact h _ _ _ _ ⟨_, rfl, hsource⟩ ⟨_, rfl, hdest⟩
  · cases hparsed

/-! ## Sets -/

theorem handleSadd_keeps (h : ∀ key members, members ≠ [] → (Storage.sadd key members).Keeps I)
    (args : List Bytes) : (handleSadd args).Keeps I := by
  unfold handleSadd
  split
  · exact .parse fun _ _ => .parse fun _ hmembers => .reply (h _ _ (argsAsStrings_ne_nil hmembers))
  · exact .done _

theorem handleSrem_keeps (h : ∀ key members, (Storage.srem key members).Keeps I)
    (args : List Bytes) : (handleSrem args).Keeps I := by
  unfold handleSrem
  split
  · exact .parse fun _ _ => .parse fun _ _ => .reply (h _ _)
  · exact .done _

theorem handleSpop_keeps (h : ∀ key count, (Storage.spop key count).Keeps I)
    (args : List Bytes) : (handleSpop args).Keeps I := by
  unfold handleSpop
  split
  · exact .parse fun _ _ => .reply (h _ _)
  · exact .parse fun _ _ => .parse fun _ _ => .reply (h _ _)
  · exact .done _

theorem handleSmove_keeps {args : List Bytes}
    (h : ∀ source destination member, argIs args 0 source → argIs args 1 destination →
      source ≠ destination → (Storage.srem source [member]).Keeps I ∧
        (Storage.sadd destination [member]).Keeps I) : (handleSmove args).Keeps I := by
  unfold handleSmove
  split
  · apply KV.Keeps.parse
    intro source hsource
    apply KV.Keeps.parse
    intro destination hdestination
    apply KV.Keeps.parse
    intro member _
    have hmove : (smoveMember source destination member).Keeps I := by
      apply KV.Keeps.bind (KV.ReadOnly.keeps (.read _ _ _ _) I)
      intro found
      split
      · exact .done _
      · split
        · exact .done _
        · obtain ⟨hsrem, hsadd⟩ := h source destination member ⟨_, rfl, hsource⟩
            ⟨_, rfl, hdestination⟩ ‹_›
          exact .bind hsrem fun _ => .reply hsadd
    apply KV.Keeps.bind ((kind_readOnly _).keeps I)
    intro kind
    split
    · exact hmove
    · exact hmove
    · exact .done _
  · exact .done _

theorem overwrite_keeps {dest : String} {β : Type} {n : β} {result : KV β} {isEmpty : Bool}
    (hdelete : (Storage.delete dest).Keeps I) (hresult : isEmpty = false → result.Keeps I) :
    KV.Keeps I (do
      let _ ← Storage.delete dest
      if isEmpty then return n else result) := by
  apply KV.Keeps.bind hdelete
  intro _
  split
  · exact .done _
  · rename_i hempty
    exact hresult (by simpa using hempty)

theorem handleSstore_keeps {op : SetOp} {args : List Bytes}
    (h : ∀ dest, argIs args 0 dest → (Storage.delete dest).Keeps I ∧
      ∀ members, members ≠ [] → (Storage.sadd dest members).Keeps I) :
    (handleSstore op args).Keeps I := by
  unfold handleSstore
  split
  · apply KV.Keeps.parse
    intro dest hdest
    apply KV.Keeps.parse
    intro srcKeys _
    apply KV.Keeps.bind ((compute_readOnly op srcKeys).keeps I)
    intro members
    obtain ⟨hdelete, hsadd⟩ := h dest ⟨_, rfl, hdest⟩
    apply overwrite_keeps hdelete
    intro hmembers
    exact .reply (hsadd members (by simpa using hmembers))
  · exact .done _

/-! ## Sorted sets -/

theorem parseZaddPairs_ne_nil {fo : FloatOps} {args : List Bytes} {pairs : List (F64 × String)}
    (hargs : ¬ args.length < 2) (h : parseZaddPairs fo args = .ok pairs) : pairs ≠ [] := by
  unfold parseZaddPairs at h
  split at h
  · obtain ⟨score, -, h⟩ := Result.bind_eq_ok.mp h
    obtain ⟨member, -, h⟩ := Result.bind_eq_ok.mp h
    obtain ⟨pairs', -, h⟩ := Result.bind_eq_ok.mp h
    cases h
    exact List.cons_ne_nil _ _
  · rename_i hshort
    match args, hshort, hargs with
    | [], _, hargs => exact absurd (by simp) hargs
    | [a], _, hargs => exact absurd (by simp) hargs
    | a :: b :: rest, hshort, _ => exact absurd rfl (hshort a b rest)

theorem parseZadd_ne_nil {fo : FloatOps} {args : List Bytes} {key : String} {flags : ZAddFlags}
    {incr : Bool} {pairs : List (F64 × String)}
    (h : parseZadd fo args = .ok (key, flags, incr, pairs)) : pairs ≠ [] := by
  unfold parseZadd at h
  split at h
  · obtain ⟨key', -, h⟩ := Result.bind_eq_ok.mp h
    obtain ⟨⟨⟨flags', incr'⟩, remaining⟩, -, h⟩ := Result.bind_eq_ok.mp h
    dsimp only at h
    split at h
    · cases h
    · split at h
      · cases h
      · split at h
        · cases h
        · split at h
          · cases h
          · rename_i hlength
            obtain ⟨pairs', hpairs, h⟩ := Result.bind_eq_ok.mp h
            cases h
            exact parseZaddPairs_ne_nil (fun hshort => hlength (.inl hshort)) hpairs
  · cases h

theorem handleZadd_keeps (fo : FloatOps)
    (hincr : ∀ key delta member flags, (Storage.zaddExtIncr fo key delta member flags).Keeps I)
    (hext : ∀ key pairs flags, pairs ≠ [] → (Storage.zaddExt key pairs flags).Keeps I)
    (hadd : ∀ key pairs, pairs ≠ [] → (Storage.zadd key pairs).Keeps I) (args : List Bytes) :
    (handleZadd fo args).Keeps I := by
  apply KV.Keeps.parse
  rintro ⟨key, flags, incr, pairs⟩ hparsed
  have hpairs := parseZadd_ne_nil hparsed
  dsimp only
  split
  · split
    · exact .reply (hincr _ _ _ _)
    · exact .done _
  · split
    · exact .reply (hext _ _ _ hpairs)
    · exact .reply (hadd _ _ hpairs)

theorem handleZrem_keeps (h : ∀ key members, (Storage.zrem key members).Keeps I)
    (args : List Bytes) : (handleZrem args).Keeps I := by
  unfold handleZrem
  split
  · exact .parse fun _ _ => .parse fun _ _ => .reply (h _ _)
  · exact .done _

theorem handleZremrangebylex_keeps (h : ∀ key min max, (Storage.zremrangebylex key min max).Keeps I)
    (args : List Bytes) : (handleZremrangebylex args).Keeps I := by
  unfold handleZremrangebylex
  split
  · exact .parse fun _ _ => .parse fun _ _ => .parse fun _ _ => .reply (h _ _ _)
  · exact .done _

theorem handleZremrangebyrank_keeps
    (h : ∀ key start stop, (Storage.zremrangebyrank key start stop).Keeps I)
    (args : List Bytes) : (handleZremrangebyrank args).Keeps I := by
  unfold handleZremrangebyrank
  split
  · exact .parse fun _ _ => .parse fun _ _ => .parse fun _ _ => .reply (h _ _ _)
  · exact .done _

theorem handleZremrangebyscore_keeps (fo : FloatOps)
    (h : ∀ key min max, (Storage.zremrangebyscore key min max).Keeps I)
    (args : List Bytes) : (handleZremrangebyscore fo args).Keeps I := by
  unfold handleZremrangebyscore
  split
  · exact .parse fun _ _ => .parse fun _ _ => .parse fun _ _ => .reply (h _ _ _)
  · exact .done _

theorem handleZpop_keeps (fo : FloatOps) {fromMax : Bool}
    (h : ∀ key count fromMax, (Storage.zpopImpl key count fromMax).Keeps I) (args : List Bytes) :
    (handleZpop fo fromMax args).Keeps I := by
  have hpop : ∀ key count, (zpop fo key count fromMax).Keeps I := by
    intro key count
    unfold zpop
    dsimp only
    split
    · exact .reply (h key count true)
    · exact .reply (h key count false)
  unfold handleZpop
  split
  · exact .parse fun _ _ => hpop _ _
  · exact .parse fun _ _ => .parse fun _ _ => hpop _ _
  · exact .done _

theorem handleZincrby_keeps (fo : FloatOps)
    (h : ∀ key member delta, (Storage.zincrBy fo key member delta).Keeps I)
    (args : List Bytes) : (handleZincrby fo args).Keeps I := by
  unfold handleZincrby
  split
  · exact .parse fun _ _ => .parse fun _ _ => .parse fun _ _ => .reply (h _ _ _)
  · exact .done _

theorem handleZstore_keeps (fo : FloatOps) {op : ZStoreOp} {args : List Bytes}
    (h : ∀ dest, argIs args 0 dest → (Storage.delete dest).Keeps I ∧
      ∀ pairs, pairs ≠ [] → (Storage.zadd dest pairs).Keeps I) :
    (handleZstore fo op args).Keeps I := by
  unfold handleZstore
  split
  · apply KV.Keeps.parse
    intro dest hdest
    apply KV.Keeps.bind ((computeZsetAggregate_readOnly fo op _ _ _).keeps I)
    intro pairs
    obtain ⟨hdelete, hzadd⟩ := h dest ⟨_, rfl, hdest⟩
    apply overwrite_keeps hdelete
    intro hpairs
    exact .reply (hzadd pairs (by simpa using hpairs))
  · exact .done _

/-! ## Geo -/

theorem parseGeoaddTriples_ne_nil {fo : FloatOps} {lm : Libm} {args : List Bytes}
    {pairs : List (F64 × String)} (hargs : ¬ args.length < 3)
    (h : parseGeoaddTriples fo lm args = .ok pairs) : pairs ≠ [] := by
  unfold parseGeoaddTriples at h
  split at h
  · obtain ⟨lon, -, h⟩ := Result.bind_eq_ok.mp h
    obtain ⟨lat, -, h⟩ := Result.bind_eq_ok.mp h
    obtain ⟨_, -, h⟩ := Result.bind_eq_ok.mp h
    obtain ⟨member, -, h⟩ := Result.bind_eq_ok.mp h
    obtain ⟨pairs', -, h⟩ := Result.bind_eq_ok.mp h
    cases h
    exact List.cons_ne_nil _ _
  · rename_i hshort
    match args, hshort, hargs with
    | [], _, hargs => exact absurd (by simp) hargs
    | [a], _, hargs => exact absurd (by simp) hargs
    | [a, b], _, hargs => exact absurd (by simp) hargs
    | a :: b :: c :: rest, hshort, _ => exact absurd rfl (hshort a b c rest)

theorem handleGeoadd_keeps (fo : FloatOps) (lm : Libm)
    (h : ∀ key pairs flags, pairs ≠ [] → (Storage.zaddExt key pairs flags).Keeps I)
    (args : List Bytes) : (handleGeoadd fo lm args).Keeps I := by
  unfold handleGeoadd
  split
  · apply KV.Keeps.parse
    intro key _
    apply KV.Keeps.parse
    rintro ⟨flags, remaining⟩ _
    dsimp only
    split
    · exact .done _
    · split
      · exact .done _
      · rename_i hlength
        apply KV.Keeps.parse
        intro pairs hpairs
        exact .reply (h _ _ _ (parseGeoaddTriples_ne_nil (fun hshort => hlength (.inl hshort)) hpairs))
  · exact .done _

theorem handleGeosearchstore_keeps (fo : FloatOps) (lm : Libm) {args : List Bytes}
    (h : ∀ dest, argIs args 0 dest → (Storage.delete dest).Keeps I ∧
      ∀ pairs, pairs ≠ [] → (Storage.zadd dest pairs).Keeps I) :
    (handleGeosearchstore fo lm args).Keeps I := by
  unfold handleGeosearchstore
  split
  · split
    · exact .done _
    · apply KV.Keeps.parse
      intro dest hdest
      apply KV.Keeps.parse
      intro source _
      apply KV.Keeps.parse
      intro opts _
      apply KV.Keeps.bind ((runGeoSearch_readOnly fo lm source opts).keeps I)
      intro matched
      obtain ⟨hdelete, hzadd⟩ := h dest ⟨_, rfl, hdest⟩
      apply overwrite_keeps hdelete
      intro hmatched
      exact .reply (hzadd _ (by simpa using hmatched))
  · exact .done _

/-! ## Keys -/

theorem handleDel_keeps (h : ∀ key, (Storage.delete key).Keeps I) (args : List Bytes) :
    (handleDel args).Keeps I := by
  have hcount : ∀ (args : List Bytes) (count : Int), (countKeysWhere Storage.delete args count).Keeps I := by
    intro args
    induction args with
    | nil => exact fun _ => .done _
    | cons arg args ih => exact fun _ => .parse fun key _ => .bind (h key) fun _ => ih _
  unfold handleDel
  split
  · exact .done _
  · exact .reply (hcount args 0)

theorem handleFlushall_keeps {cmd : String} (h : KV.Keeps I Storage.flushall) (args : List Bytes) :
    (handleFlushall cmd args).Keeps I :=
  .parse fun _ _ => .reply h

theorem handleExpiry_keeps {cmd label : String} {expiresAt : Int → KV Int}
    (hread : ∀ n, (expiresAt n).ReadOnly) (h : ∀ key at_, (Storage.expireAt key at_).Keeps I)
    (args : List Bytes) : (handleExpiry cmd label expiresAt args).Keeps I := by
  unfold handleExpiry
  split
  · exact .parse fun _ _ => .parse fun n _ => .bind ((hread n).keeps I) fun _ => .reply (h _ _)
  · exact .done _

theorem handlePersist_keeps (h : ∀ key, (Storage.persist key).Keeps I)
    (args : List Bytes) : (handlePersist args).Keeps I := by
  unfold handlePersist
  split
  · exact .parse fun _ _ => .reply (h _)
  · exact .done _

theorem handleRename_keeps {args : List Bytes}
    (h : ∀ src dst, argIs args 1 dst → (Storage.rename src dst).Keeps I) :
    (handleRename args).Keeps I := by
  unfold handleRename
  split
  · exact .parse fun _ _ => .parse fun _ hdst => .reply (h _ _ ⟨_, rfl, hdst⟩)
  · exact .done _

theorem handleRenamenx_keeps {args : List Bytes}
    (h : ∀ src dst, argIs args 1 dst → (Storage.renamenx src dst).Keeps I) :
    (handleRenamenx args).Keeps I := by
  unfold handleRenamenx
  split
  · exact .parse fun _ _ => .parse fun _ hdst => .reply (h _ _ ⟨_, rfl, hdst⟩)
  · exact .done _

theorem handleCopy_keeps {args : List Bytes}
    (h : ∀ src dst replace, argIs args 1 dst → (Storage.copy src dst replace).Keeps I) :
    (handleCopy args).Keeps I := by
  unfold handleCopy
  split
  · exact .parse fun _ _ => .parse fun _ hdst => .parse fun _ _ =>
      .reply (h _ _ _ ⟨_, rfl, hdst⟩)
  · exact .done _

theorem handleRestore_keeps (fo : FloatOps) {args : List Bytes}
    (h : ∀ key ttl payload opts name at_ replace absTtl, args = key :: ttl :: payload :: opts →
      argAsStr key = .ok name → parseRestoreTtl ttl = .ok at_ →
      parseRestoreOpts opts (false, false) = .ok (replace, absTtl) →
        (Storage.restore fo name payload at_ replace absTtl).Keeps I) :
    (handleRestore fo args).Keeps I := by
  unfold handleRestore
  split
  · exact .parse fun _ hkey => .parse fun _ httl => .parse fun _ hopts =>
      .reply (h _ _ _ _ _ _ _ _ rfl hkey httl hopts)
  · exact .done _

/-! ## Streams -/

def NomkstreamIs (args : List Bytes) (nomkstream : Bool) : Prop :=
  ∃ word, args[1]? = some word ∧ isWord word "NOMKSTREAM" = .ok nomkstream

theorem handleXadd_keeps {args : List Bytes}
    (h : ∀ key spec fields nomkstream trim, argIs args 0 key → NomkstreamIs args nomkstream →
      (Storage.xadd key spec fields nomkstream trim).Keeps I) :
    (handleXadd args).Keeps I := by
  unfold handleXadd
  split
  · apply KV.Keeps.parse
    intro key hkey
    apply KV.Keeps.parse
    intro nomkstream hword
    apply KV.Keeps.parse
    rintro ⟨trim, opts⟩ _
    dsimp only
    split
    · exact .done _
    · apply KV.Keeps.parse
      intro text _
      apply KV.Keeps.parse
      intro spec _
      split
      · exact .done _
      · exact .parse fun _ _ => .reply (h _ _ _ _ _ ⟨_, rfl, hkey⟩ ⟨_, rfl, hword⟩)
  · exact .done _

theorem handleXdel_keeps (h : ∀ key ids, (Storage.xdel key ids).Keeps I)
    (args : List Bytes) : (handleXdel args).Keeps I := by
  unfold handleXdel
  split
  · exact .parse fun _ _ => .parse fun _ _ => .reply (h _ _)
  · exact .done _

theorem handleXtrim_keeps (h : ∀ key bound limit, (Storage.xtrim key bound limit).Keeps I)
    (args : List Bytes) : (handleXtrim args).Keeps I := by
  unfold handleXtrim
  split
  · apply KV.Keeps.parse
    intro key _
    apply KV.Keeps.parse
    intro remaining _
    apply KV.Keeps.parse
    rintro ⟨bound, limit, left⟩ _
    dsimp only
    split
    · exact .done _
    · exact .reply (h _ _ _)
  · exact .done _

/-- The arguments of an `XGROUP` ask for an operation on a key. -/
def XgroupAsks (args : List Bytes) (key : String) (op : XGroupOp) : Prop :=
  ∃ sub keyArg rest word isOk, args = sub :: keyArg :: rest ∧ optionWord sub = .ok word ∧
    argAsStr keyArg = .ok key ∧ parseXgroup word rest = .ok (some (op, isOk))

theorem handleXgroup_keeps {args : List Bytes}
    (h : ∀ key op, XgroupAsks args key op → (Storage.xgroup key op).Keeps I) :
    (handleXgroup args).Keeps I := by
  unfold handleXgroup
  split
  · apply KV.Keeps.parse
    intro sub hsub
    apply KV.Keeps.parse
    intro key hkey
    apply KV.Keeps.parse
    intro parsed hparsed
    split
    · exact .done _
    · exact .reply (h _ _ ⟨_, _, _, _, _, rfl, hsub, hkey, hparsed⟩)
  · exact .done _

theorem handleXreadgroup_keeps
    (h : ∀ group consumer count noack now streams,
      (Storage.xreadgroup group consumer count noack now streams).Keeps I) (args : List Bytes) :
    (handleXreadgroup args).Keeps I :=
  .parse fun _ _ => .bind (KV.ReadOnly.nowMs.keeps I) fun _ => .reply (h _ _ _ _ _ _)

theorem handleXack_keeps (h : ∀ key group ids, (Storage.xack key group ids).Keeps I)
    (args : List Bytes) : (handleXack args).Keeps I := by
  unfold handleXack
  split
  · exact .parse fun _ _ => .parse fun _ _ => .parse fun _ _ => .reply (h _ _ _)
  · exact .done _

theorem handleXclaim_keeps
    (h : ∀ key group consumer minIdle ids opts,
      (Storage.xclaim key group consumer minIdle ids opts).Keeps I) (args : List Bytes) :
    (handleXclaim args).Keeps I := by
  unfold handleXclaim
  split
  · exact .parse fun _ _ => .parse fun _ _ => .parse fun _ _ => .parse fun _ _ => .parse fun _ _ =>
      .bind (KV.ReadOnly.nowMs.keeps I) fun _ => .parse fun _ _ => .reply (h _ _ _ _ _ _)
  · exact .done _

theorem handleXautoclaim_keeps
    (h : ∀ key group consumer minIdle start count justId now,
      (Storage.xautoclaim key group consumer minIdle start count justId now).Keeps I)
    (args : List Bytes) : (handleXautoclaim args).Keeps I := by
  unfold handleXautoclaim
  split
  · exact .parse fun _ _ => .parse fun _ _ => .parse fun _ _ => .parse fun _ _ => .parse fun _ _ =>
      .parse fun _ _ => .bind (KV.ReadOnly.nowMs.keeps I) fun _ => .reply (h _ _ _ _ _ _ _ _)
  · exact .done _

end Commands

end RustyAnt
