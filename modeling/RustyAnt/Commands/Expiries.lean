import RustyAnt.Commands.Writers
import RustyAnt.Storage.Expiry

/-!
# Only the TTL commands touch the TTL

Every command but the ones that set or clear an expiry, and the ones that replace their
destination, keeps the expiry of a key that stays alive and creates keys without one.
-/

namespace RustyAnt

open Lib

namespace Commands

/-- The commands that set or clear an expiry. -/
def ttlCommands : List String :=
  ["SET", "SETEX", "MSET", "GETSET", "EXPIRE", "PEXPIRE", "EXPIREAT", "PEXPIREAT", "PERSIST"]

/-- Where a command that replaces its destination has it. -/
def destinationIndex : String → Option Nat
  | "RENAME" | "RENAMENX" | "COPY" | "BITOP" => some 1
  | "RESTORE" | "SINTERSTORE" | "SUNIONSTORE" | "SDIFFSTORE" | "ZINTERSTORE" | "ZUNIONSTORE"
  | "ZDIFFSTORE" | "GEOSEARCHSTORE" => some 0
  | _ => none

/-- The command sets or clears an expiry, or replaces the key. -/
def Touches (key cmd : String) (args : List Bytes) : Prop :=
  cmd ∈ ttlCommands ∨ cmd = "GETEX" ∧ 1 < args.length ∨
    ∃ i, destinationIndex cmd = some i ∧ argIs args i key

/-- The command of a token list. -/
def TouchesTtl (key : String) : List Bytes → Prop
  | [] => False
  | cmdBytes :: args => ∃ cmd, commandName cmdBytes = .ok cmd ∧ Touches key cmd args

/-- The command keeps the expiry of the key, unless it is one that touches it. -/
def Spares (key : String) (c : String × Handler) : Prop :=
  ∀ args, ¬ Touches key c.1 args → (c.2 args).Creates key ∨ (c.2 args).Removes key

theorem argIs_unique {args : List Bytes} {i : Nat} {a b : String} (ha : argIs args i a)
    (hb : argIs args i b) : a = b := by
  obtain ⟨arg, harg, ha⟩ := ha
  obtain ⟨arg', harg', hb⟩ := hb
  rw [harg] at harg'
  cases harg'
  rw [ha] at hb
  exact Except.ok.inj hb

section Spares

variable {key name : String} {f : Handler}

theorem spares_creates (h : ∀ exp args, (f args).Keeps (expiryAt key false exp)) :
    Spares key (name, f) :=
  fun args _ => .inl fun exp => h exp args

theorem spares_removes (h : ∀ exp args, (f args).Keeps (expiryAt key true exp)) :
    Spares key (name, f) :=
  fun args _ => .inr fun exp => h exp args

theorem spares_ttl (h : name ∈ ttlCommands) : Spares key (name, f) :=
  fun _ hspared => absurd (.inl h) hspared

theorem spares_destination {i : Nat} (hi : destinationIndex name = some i)
    (h : ∀ args exp, (∀ dest, argIs args i dest → dest ≠ key) →
      (f args).Keeps (expiryAt key true exp)) : Spares key (name, f) := by
  intro args hspared
  right
  intro exp
  apply h args exp
  rintro dest hdest rfl
  exact hspared (.inr (.inr ⟨i, hi, hdest⟩))

/-- A command that moves an element: it may remove its source and create its destination. -/
theorem spares_move
    (h : ∀ {I : KeyInv} {args : List Bytes},
      (∀ source dest fromLeft toLeft, argIs args 0 source → argIs args 1 dest →
        (Storage.listMove source dest fromLeft toLeft).Keeps I) → (f args).Keeps I) :
    Spares key (name, f) := by
  intro args _
  by_cases hkey : argIs args 1 key
  · left
    intro exp
    apply h
    intro source dest fromLeft toLeft _ hdest
    have hdest' := argIs_unique hdest hkey
    subst hdest'
    apply Storage.listMove_keeps
    · exact fun _ => Storage.rotate_creates fromLeft toLeft exp
    · exact fun hne => Storage.keeps_cas_other hne
    · exact fun _ popped => Storage.push_creates toLeft popped exp
  · right
    intro exp
    apply h
    intro source dest fromLeft toLeft _ hdest
    have hne : dest ≠ key := by
      rintro rfl
      exact hkey hdest
    apply Storage.listMove_keeps
    · intro hsame
      exact Storage.keeps_cas_other (hsame ▸ hne)
    · exact fun _ => Storage.pop_removes fromLeft exp
    · exact fun _ _ => Storage.keeps_cas_other hne

theorem handleSmove_spares : Spares key (name, handleSmove) := by
  intro args _
  by_cases hkey : argIs args 1 key
  · left
    intro exp
    apply handleSmove_keeps
    intro source dest member _ hdest hne
    have hdest' := argIs_unique hdest hkey
    subst hdest'
    exact ⟨Storage.keeps_cas_other hne, Storage.sadd_creates [member] exp⟩
  · right
    intro exp
    apply handleSmove_keeps
    intro source dest member _ hdest _
    have hne : dest ≠ key := by
      rintro rfl
      exact hkey hdest
    exact ⟨Storage.srem_removes [member] exp, Storage.keeps_cas_other hne⟩

theorem handleGetex_spares : Spares key ("GETEX", handleGetex) := by
  intro args hspared
  left
  intro exp
  apply handleGetex_keeps
  intro key' op hkey hop
  have hlength : args.length = 1 := by
    obtain ⟨arg, harg, -⟩ := hkey
    have hpos := (List.getElem?_eq_some_iff.mp harg).1
    have hle : ¬ 1 < args.length := fun hlt => hspared (.inr (.inl ⟨rfl, hlt⟩))
    omega
  rw [hop hlength]
  exact KV.ReadOnly.keeps (.read _ _ _ _) _

end Spares

/-! ## The table -/

section Table

variable (p : Process) (key : String)

theorem geoWriters_spare : ∀ c ∈ geoWriters p, Spares key c := by
  simp only [geoWriters, List.forall_mem_cons]
  refine ⟨?_, ?_, List.forall_mem_nil _⟩
  · exact spares_creates fun exp => handleGeoadd_keeps _ _
      fun _ _ _ _ => Storage.zaddExt_creates _ _ exp
  · exact spares_destination rfl fun _ exp hne => handleGeosearchstore_keeps _ _ fun dest hdest =>
      ⟨Storage.delete_other (hne dest hdest), fun _ _ => Storage.keeps_cas_other (hne dest hdest)⟩

theorem keyWriters_spare : ∀ c ∈ keyWriters p, Spares key c := by
  simp only [keyWriters, List.forall_mem_cons]
  refine ⟨?_, ?_, ?_, ?_, ?_, ?_, ?_, ?_, ?_, ?_, ?_, ?_, ?_, List.forall_mem_nil _⟩
  · exact spares_removes fun exp => handleFlushall_keeps (Storage.flushall_removes exp)
  · exact spares_removes fun exp => handleFlushall_keeps (Storage.flushall_removes exp)
  · exact spares_removes fun exp => handleDel_keeps fun _ => Storage.delete_removes exp
  · exact spares_removes fun exp => handleDel_keeps fun _ => Storage.delete_removes exp
  · exact spares_destination rfl fun _ exp hne => handleCopy_keeps fun _ dest _ hdest =>
      Storage.copy_removes (hne dest hdest) _ exp
  · exact spares_destination rfl fun _ exp hne => handleRestore_keeps _
      fun key _ _ _ dest _ _ _ hargs hdest _ _ =>
        Storage.restore_removes _ (hne dest ⟨key, hargs ▸ rfl, hdest⟩) _ _ _ _ exp
  · exact spares_ttl (by decide)
  · exact spares_ttl (by decide)
  · exact spares_ttl (by decide)
  · exact spares_ttl (by decide)
  · exact spares_ttl (by decide)
  · exact spares_destination rfl fun _ exp hne => handleRename_keeps fun _ dest hdest =>
      Storage.rename_removes (hne dest hdest) exp
  · exact spares_destination rfl fun _ exp hne => handleRenamenx_keeps fun _ dest hdest =>
      Storage.renamenx_removes (hne dest hdest) exp

theorem stringWriters_spare : ∀ c ∈ stringWriters p, Spares key c := by
  simp only [stringWriters, List.forall_mem_cons]
  refine ⟨?_, ?_, ?_, ?_, ?_, ?_, ?_, ?_, ?_, ?_, ?_, ?_, ?_, ?_, ?_, ?_, ?_, ?_, ?_,
    List.forall_mem_nil _⟩
  · exact spares_creates fun exp => handleSetbit_keeps fun _ _ _ => Storage.setbit_creates _ _ exp
  · exact spares_destination rfl fun _ exp hne => handleBitop_keeps fun dest hdest =>
      ⟨Storage.delete_other (hne dest hdest), fun _ => .save (KeyInv.only_of_ne (hne dest hdest))⟩
  · exact spares_creates fun exp => handlePfadd_keeps fun _ _ => Storage.pfadd_creates _ exp
  · exact spares_creates fun exp => handlePfmerge_keeps fun _ _ => Storage.pfmerge_creates _ exp
  · exact handleGetex_spares
  · exact spares_ttl (by decide)
  · exact spares_removes fun exp => handleGetdel_keeps fun _ => Storage.getAndDelete_removes exp
  · exact spares_creates fun exp => handleSetrange_keeps
      fun _ _ _ => Storage.setrange_creates _ _ exp
  · exact spares_creates fun exp => handleAppend_keeps fun _ _ => Storage.append_creates _ exp
  · exact spares_ttl (by decide)
  · exact spares_creates fun exp => handleSetnx_keeps fun _ _ => Storage.setStringNx_creates _ exp
  · exact spares_ttl (by decide)
  · exact spares_ttl (by decide)
  · exact spares_creates fun exp => handleMsetnx_keeps fun _ => Storage.msetnx_creates _ exp
  · exact spares_creates fun exp => handleIncrby_keeps fun _ => Storage.incrBy_creates _ exp
  · exact spares_creates fun exp args =>
      .parse fun _ _ => handleIncrby_keeps (fun _ => Storage.incrBy_creates _ exp) args
  · exact spares_creates fun exp => handleIncrbyfloat_keeps _
      fun _ _ => Storage.incrByFloat_creates _ _ exp
  · exact spares_creates fun exp => handleIncrby_keeps fun _ => Storage.incrBy_creates _ exp
  · exact spares_creates fun exp => handleDecrby_keeps fun _ _ => Storage.incrBy_creates _ exp

theorem hashWriters_spare : ∀ c ∈ hashWriters p, Spares key c := by
  simp only [hashWriters, List.forall_mem_cons]
  refine ⟨?_, ?_, ?_, ?_, ?_, List.forall_mem_nil _⟩
  · exact spares_creates fun exp => handleHset_keeps fun _ _ _ => Storage.hset_creates _ exp
  · exact spares_creates fun exp => handleHsetnx_keeps fun _ _ _ => Storage.hsetnx_creates _ _ exp
  · exact spares_removes fun exp => handleHdel_keeps fun _ _ => Storage.hdel_removes _ exp
  · exact spares_creates fun exp => handleHincrby_keeps fun _ _ _ => Storage.hincrBy_creates _ _ exp
  · exact spares_creates fun exp => handleHincrbyfloat_keeps _
      fun _ _ _ => Storage.hincrByFloat_creates _ _ _ exp

theorem listWriters_spare : ∀ c ∈ listWriters, Spares key c := by
  simp only [listWriters, List.forall_mem_cons]
  refine ⟨?_, ?_, ?_, ?_, ?_, ?_, ?_, ?_, ?_, ?_, ?_, ?_, List.forall_mem_nil _⟩
  · exact spares_creates fun exp => handlePush_keeps fun _ _ _ => Storage.listPush_creates _ _ exp
  · exact spares_creates fun exp => handlePush_keeps fun _ _ _ => Storage.listPush_creates _ _ exp
  · exact spares_creates fun exp => handlePushx_keeps fun _ _ _ => Storage.listPushx_creates _ _ exp
  · exact spares_creates fun exp => handlePushx_keeps fun _ _ _ => Storage.listPushx_creates _ _ exp
  · exact spares_removes fun exp => handlePop_keeps fun _ _ => Storage.listPop_removes _ _ exp
  · exact spares_removes fun exp => handlePop_keeps fun _ _ => Storage.listPop_removes _ _ exp
  · exact spares_creates fun exp => handleLset_keeps fun _ _ _ => Storage.lset_creates _ _ exp
  · exact spares_removes fun exp => handleLrem_keeps fun _ _ _ => Storage.lrem_removes _ _ exp
  · exact spares_creates fun exp => handleLinsert_keeps
      fun _ _ _ _ => Storage.linsert_creates _ _ _ exp
  · exact spares_removes fun exp => handleLtrim_keeps fun _ _ _ => Storage.ltrim_removes _ _ exp
  · exact spares_move handleLmove_keeps
  · exact spares_move handleRpoplpush_keeps

theorem setWriters_spare : ∀ c ∈ setWriters, Spares key c := by
  simp only [setWriters, List.forall_mem_cons]
  refine ⟨?_, ?_, ?_, ?_, ?_, ?_, ?_, List.forall_mem_nil _⟩
  · exact spares_creates fun exp => handleSadd_keeps fun _ _ _ => Storage.sadd_creates _ exp
  · exact spares_removes fun exp => handleSrem_keeps fun _ _ => Storage.srem_removes _ exp
  · exact spares_destination rfl fun _ exp hne => handleSstore_keeps fun dest hdest =>
      ⟨Storage.delete_other (hne dest hdest), fun _ _ => Storage.keeps_cas_other (hne dest hdest)⟩
  · exact spares_destination rfl fun _ exp hne => handleSstore_keeps fun dest hdest =>
      ⟨Storage.delete_other (hne dest hdest), fun _ _ => Storage.keeps_cas_other (hne dest hdest)⟩
  · exact spares_destination rfl fun _ exp hne => handleSstore_keeps fun dest hdest =>
      ⟨Storage.delete_other (hne dest hdest), fun _ _ => Storage.keeps_cas_other (hne dest hdest)⟩
  · exact handleSmove_spares
  · exact spares_removes fun exp => handleSpop_keeps fun _ _ => Storage.spop_removes _ exp

theorem zsetWriters_spare : ∀ c ∈ zsetWriters p, Spares key c := by
  simp only [zsetWriters, List.forall_mem_cons]
  refine ⟨?_, ?_, ?_, ?_, ?_, ?_, ?_, ?_, ?_, ?_, ?_, List.forall_mem_nil _⟩
  · exact spares_creates fun exp => handleZadd_keeps _ (
      fun _ _ _ _ => Storage.zaddExtIncr_creates _ _ _ _ exp)
      (fun _ _ _ _ => Storage.zaddExt_creates _ _ exp) fun _ _ _ => Storage.zadd_creates _ exp
  · exact spares_destination rfl fun _ exp hne => handleZstore_keeps _ fun dest hdest =>
      ⟨Storage.delete_other (hne dest hdest), fun _ _ => Storage.keeps_cas_other (hne dest hdest)⟩
  · exact spares_destination rfl fun _ exp hne => handleZstore_keeps _ fun dest hdest =>
      ⟨Storage.delete_other (hne dest hdest), fun _ _ => Storage.keeps_cas_other (hne dest hdest)⟩
  · exact spares_destination rfl fun _ exp hne => handleZstore_keeps _ fun dest hdest =>
      ⟨Storage.delete_other (hne dest hdest), fun _ _ => Storage.keeps_cas_other (hne dest hdest)⟩
  · exact spares_removes fun exp => handleZrem_keeps fun _ _ => Storage.zrem_removes _ exp
  · exact spares_creates fun exp => handleZincrby_keeps _
      fun _ _ _ => Storage.zincrBy_creates _ _ _ exp
  · exact spares_removes fun exp => handleZremrangebylex_keeps
      fun _ _ _ => Storage.zremrange_removes _ exp
  · exact spares_removes fun exp => handleZremrangebyrank_keeps
      fun _ _ _ => Storage.zremrange_removes _ exp
  · exact spares_removes fun exp => handleZremrangebyscore_keeps _
      fun _ _ _ => Storage.zremrange_removes _ exp
  · exact spares_removes fun exp => handleZpop_keeps _ fun _ _ _ => Storage.zpopImpl_removes _ _ exp
  · exact spares_removes fun exp => handleZpop_keeps _ fun _ _ _ => Storage.zpopImpl_removes _ _ exp

theorem streamWriters_spare : ∀ c ∈ streamWriters, Spares key c := by
  simp only [streamWriters, List.forall_mem_cons]
  refine ⟨?_, ?_, ?_, ?_, ?_, ?_, ?_, ?_, List.forall_mem_nil _⟩
  · exact spares_creates fun exp _ => handleXadd_keeps
      fun _ _ _ _ _ _ _ => Storage.xadd_creates _ _ _ _ exp
  · exact spares_creates fun exp => handleXdel_keeps fun _ _ => Storage.xdel_creates _ exp
  · exact spares_creates fun exp => handleXtrim_keeps fun _ _ _ => Storage.xtrim_creates _ _ exp
  · exact spares_creates fun exp _ => handleXgroup_keeps fun _ _ _ => Storage.xgroup_creates _ exp
  · exact spares_creates fun exp => handleXreadgroup_keeps
      fun _ _ _ _ _ _ => Storage.xreadgroup_creates _ _ _ _ _ _ exp
  · exact spares_creates fun exp => handleXack_keeps fun _ _ _ => Storage.xack_creates _ _ exp
  · exact spares_creates fun exp => handleXclaim_keeps
      fun _ _ _ _ _ _ => Storage.xclaim_creates _ _ _ _ _ exp
  · exact spares_creates fun exp => handleXautoclaim_keeps
      fun _ _ _ _ _ _ _ _ => Storage.xautoclaim_creates _ _ _ _ _ _ _ exp

theorem writers_spare : ∀ c ∈ writers p, Spares key c := by
  unfold writers
  simp only [List.forall_mem_append]
  exact ⟨⟨⟨⟨⟨⟨⟨geoWriters_spare p key, keyWriters_spare p key⟩,
    stringWriters_spare p key⟩,
    hashWriters_spare p key⟩,
    listWriters_spare key⟩,
    setWriters_spare key⟩,
    zsetWriters_spare p key⟩,
    streamWriters_spare key⟩

/-- Every command but those that touch it keeps the expiry of a key. -/
theorem run_spares {tokens : List Bytes} (h : ¬ TouchesTtl key tokens) :
    (run p tokens).Creates key ∨ (run p tokens).Removes key := by
  apply run_cases p fun q => q.Creates key ∨ q.Removes key
  · exact fun e => .inl fun _ => .done _
  · rintro cmdBytes args cmd handler rfl hname hmem
    rcases commandTable_read p _ hmem with hread | hwriter
    · exact .inl fun exp => (hread args).keeps _
    · exact writers_spare p key _ hwriter args fun htouches => h ⟨cmd, hname, htouches⟩

theorem dispatch_spares {tokens : List Bytes} (h : ¬ TouchesTtl key tokens) :
    ∃ removes, ∀ exp, (dispatch p tokens).Keeps (expiryAt key removes exp) := by
  rcases run_spares p key h with hcreates | hremoves
  · exact ⟨false, fun exp => .reply (hcreates exp).attempt⟩
  · exact ⟨true, fun exp => .reply (hremoves exp).attempt⟩

end Table

/-! ## A run alone -/

section Alone

variable (p : Process) (env : Solo) {key : String} {s : Keyspace}

theorem admits_alive {removes : Bool} {bound : Nat} {e : StoredValue} {token : String}
    (hkey : s key = some (e, token)) (halive : ∀ m < bound, e.isExpired (env.now m) = false) :
    env.Admits (expiryAt key removes e.expiresAtMs) bound s := by
  constructor
  · rintro key' m hm rfl
    rw [hkey]
    unfold Solo.live
    rw [Option.bind_some, if_neg (by rw [halive m hm]; decide)]
    rfl
  · rintro key' e' m hm hexpiry hexpired rfl
    have hsame : e'.isExpired (env.now m) = e.isExpired (env.now m) := by
      unfold StoredValue.isExpired
      rw [hexpiry rfl]
    rw [hsame, halive m hm] at hexpired
    cases hexpired

/-- A key that is absent, or whose entry has expired, counts as one without expiry. -/
theorem admits_gone {removes : Bool} {bound : Nat}
    (hgone : ∀ e token, s key = some (e, token) → ∀ m < bound, e.isExpired (env.now m) = true) :
    env.Admits (expiryAt key removes none) bound s := by
  constructor
  · rintro key' m hm rfl
    have hlive : Solo.live (env.now m) (s key') = none := by
      unfold Solo.live
      cases hkey : s key' with
      | none => rfl
      | some q => rw [Option.bind_some, if_pos (hgone q.1 q.2 hkey m hm)]
    rw [hlive]
    exact .inr rfl
  · rintro key' e' m hm hexpiry hexpired rfl
    unfold StoredValue.isExpired at hexpired
    rw [hexpiry rfl] at hexpired
    cases hexpired

/-- A command that is not one of those that touch the expiry of the key, run alone: an
entry that does not expire while it runs keeps its expiry, and what the command creates
where there was nothing, or nothing alive, has none. -/
theorem only_ttl_commands_touch_ttl {tokens : List Bytes} (h : ¬ TouchesTtl key tokens) :
    (∀ before token, s key = some (before, token) →
      (∀ m < (env.run (dispatch p tokens) s).2.1, before.isExpired (env.now m) = false) →
      ∀ after token', (env.run (dispatch p tokens) s).2.2 key = some (after, token') →
        after.expiresAtMs = before.expiresAtMs) ∧
    ((∀ before token, s key = some (before, token) →
      ∀ m < (env.run (dispatch p tokens) s).2.1, before.isExpired (env.now m) = true) →
      ∀ after token', (env.run (dispatch p tokens) s).2.2 key = some (after, token') →
        (env.run (dispatch p tokens) s).2.2 key = s key ∨ after.expiresAtMs = none) := by
  obtain ⟨removes, hkeeps⟩ := dispatch_spares p key h
  constructor
  · intro before token hkey halive after token' hafter
    rcases Solo.kept_run (hkeeps _) (admits_alive env hkey halive) key with hsame | hin
    · rw [hafter, hkey] at hsame
      rw [(Prod.mk.inj (Option.some.inj hsame)).1]
    · rw [hafter] at hin
      exact hin rfl
  · intro hgone after token' hafter
    rcases Solo.kept_run (hkeeps _) (admits_gone env hgone) key with hsame | hin
    · exact .inl hsame
    · rw [hafter] at hin
      exact .inr (hin rfl)

end Alone

namespace CounterWithTtl

def process : Process where
  externs := ⟨.integral, fun _ _ => true⟩
  libm := ⟨fun _ _ _ => .zero, id, id, id, id, id, fun _ => id, fun _ _ => [], fun _ _ => ""⟩
  info := ⟨1, 0⟩

def env : Solo where
  fails _ := none
  now _ := 7
  collects _ := true
  token _ := "v2"
  other _ := Solo.nothing

def start : Keyspace := fun key =>
  if key = "n" then some (⟨some 100, .string [49]⟩, "v1") else none

def tokens : List Bytes := ["incr", "n"].map Rdb.asBytes

theorem spared : ¬ TouchesTtl "n" tokens := by
  rintro ⟨cmd, hname, htouches⟩
  have hincr : commandName (Rdb.asBytes "incr") = .ok "INCR" := by decide +kernel
  rw [hincr] at hname
  cases hname
  rcases htouches with hmem | ⟨heq, -⟩ | ⟨i, hi, -⟩
  · revert hmem
    decide
  · revert heq
    decide
  · cases hi

end CounterWithTtl

open CounterWithTtl in
/-- A counter that lives until 100 is incremented at 7 and still lives until 100. -/
theorem only_ttl_commands_touch_ttl_on_counterWithTtl :
    (env.run (dispatch process tokens) start).2.2 "n" = some (⟨some 100, .string [50]⟩, "v2") ∧
    ∀ after token, (env.run (dispatch process tokens) start).2.2 "n" = some (after, token) →
      after.expiresAtMs = some 100 :=
  ⟨rfl, (@only_ttl_commands_touch_ttl process env "n" start tokens spared).1
    ⟨some 100, .string [49]⟩ "v1" rfl fun _ _ => rfl⟩

end Commands

end RustyAnt
