import RustyAnt.Commands.Keys
import RustyAnt.Storage.Solo

/-!
# RENAME and COPY on a faulty backend

Whichever of their calls fail, the value is under one of the two names.
-/

namespace RustyAnt

open Lib

namespace Commands

/-- RENAME, RENAMENX and COPY. -/
inductive Relocation where
  | rename
  | renamenx
  | copy
  deriving DecidableEq

namespace Relocation

def handle : Relocation → List Bytes → KV RespReply
  | rename => handleRename
  | renamenx => handleRenamenx
  | copy => handleCopy

/-- What holds after the command, whatever failed. -/
structure Preserved (env : Solo) (src dst : String) (s s' : Keyspace) : Prop where
  source : ∀ p, s src = some p → p.1.isExpired (env.now 0) = false →
    s'.entryAt src = some p.1 ∨ s'.entryAt dst = some p.1
  dest : env.Old s s' dst ∨ ∃ p, s src = some p ∧ s'.entryAt dst = some p.1
  others : ∀ key, key ≠ src → key ≠ dst → s' key = s key
  sameKey : src = dst → env.Old s s' src

section Steps

variable {env : Solo} {src dst : String} {s s₁ s₂ : Keyspace} {n : Nat}

theorem Preserved.of_loads (hsrc : env.Old s s₁ src)
    (hlive : ∀ p, s src = some p → p.1.isExpired (env.now 0) = false → s₁ src = some p)
    (hdst : env.Old s s₁ dst) (hframe : ∀ key, key ≠ src → key ≠ dst → s₁ key = s key) :
    Preserved env src dst s s₁ := by
  constructor
  · intro p hp hexp
    left
    unfold Keyspace.entryAt
    rw [hlive p hp hexp]
    rfl
  · exact .inl hdst
  · exact hframe
  · exact fun _ => hsrc

theorem Preserved.refl (env : Solo) (src dst : String) (s : Keyspace) :
    Preserved env src dst s s :=
  .of_loads (.inl rfl) (fun _ hp _ => hp) (.inl rfl) fun _ _ _ => rfl

theorem Preserved.of_missed (h : env.Missed 0 src s s₁) : Preserved env src dst s s₁ := by
  have hdst : env.Old s s₁ dst := by
    by_cases heq : dst = src
    · rw [heq]
      exact h.old
    · exact .inl (h.frame dst heq)
  apply Preserved.of_loads h.old ?_ hdst fun key hne _ => h.frame key hne
  intro p hp hexp
  rw [h.expired p hp] at hexp
  cases hexp

/-- What the load of the destination leaves. -/
structure Ready (env : Solo) (src dst : String) (p : StoredValue × String) (s s₁ : Keyspace) :
    Prop where
  source : s src = some p
  kept : s₁ src = some p
  dest : env.Old s s₁ dst
  others : ∀ key, key ≠ src → key ≠ dst → s₁ key = s key

variable {p : StoredValue × String}

theorem Ready.refl (dst : String) (h : s src = some p) : Ready env src dst p s s :=
  ⟨h, h, .inl rfl, fun _ _ _ => rfl⟩

theorem Ready.of_missed (hne : src ≠ dst) (hsrc : s src = some p)
    (h : env.Missed n dst s s₁) : Ready env src dst p s s₁ := by
  refine ⟨hsrc, ?_, h.old, fun key _ hkey => h.frame key hkey⟩
  rw [h.frame src hne, hsrc]

theorem Ready.preserved (h : Ready env src dst p s s₁) : Preserved env src dst s s₁ := by
  apply Preserved.of_loads (.inl (h.kept.trans h.source.symm)) ?_ h.dest h.others
  intro q hq _
  rw [h.kept, ← h.source, hq]

/-- The entry is stored under the destination, and still under the source. -/
theorem Ready.saved (h : Ready env src dst p s s₁) (hne : src ≠ dst) (token : String) :
    Preserved env src dst s (Function.update s₁ dst (some (p.1, token))) := by
  have hsrc : Function.update s₁ dst (some (p.1, token)) src = some p := by
    rw [Function.update_of_ne hne, h.kept]
  constructor
  · intro q hq _
    left
    unfold Keyspace.entryAt
    rw [hsrc, ← h.source, hq]
    rfl
  · refine .inr ⟨p, h.source, ?_⟩
    unfold Keyspace.entryAt
    rw [Function.update_self]
    rfl
  · intro key hkey hkey'
    rw [Function.update_of_ne hkey', h.others key hkey hkey']
  · exact fun heq => absurd heq hne

theorem Ready.moved (h : Ready env src dst p s s₁) (hne : src ≠ dst) (token : String) :
    Preserved env src dst s
      (Function.update (Function.update s₁ dst (some (p.1, token))) src none) := by
  have hdst : (Function.update (Function.update s₁ dst (some (p.1, token))) src none) dst =
      some (p.1, token) := by
    rw [Function.update_of_ne hne.symm, Function.update_self]
  constructor
  · intro q hq _
    right
    unfold Keyspace.entryAt
    rw [hdst, ← Option.some.inj (h.source.symm.trans hq)]
    rfl
  · refine .inr ⟨p, h.source, ?_⟩
    unfold Keyspace.entryAt
    rw [hdst]
    rfl
  · intro key hkey hkey'
    rw [Function.update_of_ne hkey, Function.update_of_ne hkey', h.others key hkey hkey']
  · exact fun heq => absurd heq hne

theorem moved_entryAt (hne : src ≠ dst) (entry : StoredValue) (token : String) (s : Keyspace) :
    Keyspace.entryAt (Function.update (Function.update s dst (some (entry, token))) src none) dst =
      some entry := by
  unfold Keyspace.entryAt
  rw [Function.update_of_ne hne.symm, Function.update_self]
  rfl

end Steps

/-! ## The three operations -/

section Runs

variable {env : Solo} {src dst : String} {s : Keyspace}

theorem load_ready (env : Solo) (n : Nat) {p : StoredValue × String} (hne : src ≠ dst)
    (hsrc : s src = some p) :
    (∃ e, env.fails n = some e ∧ env.runFrom n (KV.load dst) s = (.error e, n + 1, s)) ∨
    ∃ found s₁, Ready env src dst p s s₁ ∧ env.runFrom n (KV.load dst) s = (.ok found, n + 1, s₁) ∧
      (env.Faultless → (Storage.destCond found).Met (s₁ dst)) := by
  rcases Solo.load_cases env n dst s with hfail | ⟨q, hdst, -, hload⟩ | ⟨s₁, hmissed, hload⟩
  · exact .inl hfail
  · exact .inr ⟨some q, s, .refl dst hsrc, hload, fun _ => ⟨q.1, hdst⟩⟩
  · exact .inr ⟨none, s₁, .of_missed hne hsrc hmissed, hload, fun h => hmissed.collected (h.collects n)⟩

theorem rename_run (env : Solo) (src dst : String) (s : Keyspace) :
    Preserved env src dst s (env.run (Storage.rename src dst) s).2.2 ∧
    (env.Faultless → ∀ p, s src = some p → p.1.isExpired (env.now 0) = false →
      (env.run (Storage.rename src dst) s).1 = .ok () ∧
      (src ≠ dst → (env.run (Storage.rename src dst) s).2.2 src = none ∧
        (env.run (Storage.rename src dst) s).2.2.entryAt dst = some p.1)) := by
  unfold Solo.run Storage.rename
  rw [Prog.bind_eq, Solo.runFrom_bind]
  rcases Solo.loadEntry_cases env 0 src s with
    ⟨e, hfail, hload⟩ | ⟨p, hsrc, -, hload⟩ | ⟨s₁, hmissed, hload⟩
  · rw [hload]
    refine ⟨.refl env src dst s, fun h => ?_⟩
    rw [h.fails 0] at hfail
    cases hfail
  · rw [hload]
    dsimp only
    by_cases heq : src = dst
    · rw [if_pos heq]
      exact ⟨.refl env src dst s, fun _ _ _ _ => ⟨rfl, fun hne => absurd heq hne⟩⟩
    · rw [if_neg heq, Prog.bind_eq, Solo.runFrom_bind]
      rcases load_ready env 1 heq hsrc with ⟨e, hfail, hload⟩ | ⟨found, s₁, hready, hload, hmet⟩
      · rw [hload]
        refine ⟨.refl env src dst s, fun h => ?_⟩
        rw [h.fails 1] at hfail
        cases hfail
      · rw [hload]
        dsimp only
        rw [Prog.bind_eq, Solo.runFrom_bind]
        rcases Solo.save_cases env 2 dst p.1 (Storage.destCond found) s₁ with
          ⟨e, hrefused, hsave⟩ | hsave
        · rw [hsave]
          refine ⟨hready.preserved, fun h => ?_⟩
          rcases hrefused with hfail | hnot
          · rw [h.fails 2] at hfail
            cases hfail
          · exact absurd (hmet h) hnot
        · rw [hsave]
          dsimp only
          rcases Solo.delete_any_cases env 3 src
            (Function.update s₁ dst (some (p.1, env.token 2))) with ⟨e, hfail, hdelete⟩ | hdelete
          · rw [hdelete]
            refine ⟨hready.saved heq _, fun h => ?_⟩
            rw [h.fails 3] at hfail
            cases hfail
          · rw [hdelete]
            refine ⟨hready.moved heq _, fun _ q hq _ => ⟨rfl, fun _ => ⟨Function.update_self _ _ _, ?_⟩⟩⟩
            rw [← Option.some.inj (hsrc.symm.trans hq)]
            exact moved_entryAt heq p.1 _ s₁
  · rw [hload]
    refine ⟨.of_missed hmissed, fun _ p hp hlive => ?_⟩
    rw [hmissed.expired p hp] at hlive
    cases hlive

theorem renamenx_run (env : Solo) (src dst : String) (s : Keyspace) :
    Preserved env src dst s (env.run (Storage.renamenx src dst) s).2.2 := by
  unfold Solo.run Storage.renamenx
  rw [Prog.bind_eq, Solo.runFrom_bind]
  rcases Solo.loadEntry_cases env 0 src s with
    ⟨e, -, hload⟩ | ⟨p, hsrc, -, hload⟩ | ⟨s₁, hmissed, hload⟩
  · rw [hload]
    exact .refl env src dst s
  · rw [hload]
    dsimp only
    by_cases heq : src = dst
    · rw [if_pos heq]
      exact .refl env src dst s
    · rw [if_neg heq, Prog.bind_eq, Solo.runFrom_bind]
      rcases Solo.loadEntry_cases env 1 dst s with
        ⟨e, -, hload⟩ | ⟨q, -, -, hload⟩ | ⟨s₁, hmissed, hload⟩
      · rw [hload]
        exact .refl env src dst s
      · rw [hload]
        exact .refl env src dst s
      · have hready := Ready.of_missed heq hsrc hmissed
        rw [hload]
        dsimp only
        rw [if_neg (by simp), Prog.bind_eq, Solo.runFrom_bind, Solo.runFrom_attempt]
        rcases Solo.save_cases env 2 dst p.1 .createOnly s₁ with ⟨e, -, hsave⟩ | hsave
        · rw [hsave]
          cases e <;> exact hready.preserved
        · rw [hsave]
          dsimp only
          rw [Prog.bind_eq, Solo.runFrom_bind]
          rcases Solo.delete_any_cases env 3 src
            (Function.update s₁ dst (some (p.1, env.token 2))) with ⟨e, -, hdelete⟩ | hdelete
          · rw [hdelete]
            exact hready.saved heq _
          · rw [hdelete]
            exact hready.moved heq _
  · rw [hload]
    exact .of_missed hmissed

theorem copy_run (env : Solo) (src dst : String) (replace : Bool) (s : Keyspace) :
    Preserved env src dst s (env.run (Storage.copy src dst replace) s).2.2 ∧
    (∀ p, s src = some p → p.1.isExpired (env.now 0) = false →
      (env.run (Storage.copy src dst replace) s).2.2 src = s src) ∧
    ((env.run (Storage.copy src dst replace) s).1 = .ok true →
      (env.run (Storage.copy src dst replace) s).2.2.entryAt dst = s.entryAt src) := by
  unfold Solo.run Storage.copy
  by_cases heq : src = dst
  · rw [if_pos heq]
    exact ⟨.refl env src dst s, fun _ _ _ => rfl, nofun⟩
  · rw [if_neg heq, Prog.bind_eq, Solo.runFrom_bind]
    rcases Solo.loadEntry_cases env 0 src s with
      ⟨e, -, hload⟩ | ⟨p, hsrc, -, hload⟩ | ⟨s₁, hmissed, hload⟩
    · rw [hload]
      exact ⟨.refl env src dst s, fun _ _ _ => rfl, nofun⟩
    · rw [hload]
      dsimp only
      rw [Prog.bind_eq, Solo.runFrom_bind]
      rcases load_ready env 1 heq hsrc with ⟨e, -, hload⟩ | ⟨found, s₁, hready, hload, -⟩
      · rw [hload]
        exact ⟨.refl env src dst s, fun _ _ _ => rfl, nofun⟩
      · have hsame : s₁ src = s src := hready.kept.trans hsrc.symm
        rw [hload]
        dsimp only
        split
        · exact ⟨hready.preserved, fun _ _ _ => hsame, nofun⟩
        · rw [Prog.bind_eq, Solo.runFrom_bind, Solo.runFrom_attempt]
          rcases Solo.save_cases env 2 dst p.1 (Storage.destCond found) s₁ with ⟨e, -, hsave⟩ | hsave
          · rw [hsave]
            cases e <;> exact ⟨hready.preserved, fun _ _ _ => hsame, nofun⟩
          · rw [hsave]
            refine ⟨hready.saved heq _, fun _ _ _ => ?_, fun _ => ?_⟩
            · exact (Function.update_of_ne heq _ _).trans hsame
            · unfold Keyspace.entryAt
              rw [hsrc]
              show (Function.update s₁ dst (some (p.1, env.token 2)) dst).map Prod.fst = _
              rw [Function.update_self]
              rfl
    · rw [hload]
      refine ⟨.of_missed hmissed, fun p hp hlive => ?_, nofun⟩
      rw [hmissed.expired p hp] at hlive
      cases hlive

end Runs

/-! ## The commands -/

/-- A command is its operation and a rendering of the answer. -/
theorem run_map (env : Solo) {α β : Type} (p : KV α) (f : α → β) (s : Keyspace) :
    env.run (p.bind fun a => .done (.ok (f a))) s = ((env.run p s).1.map f, (env.run p s).2) := by
  unfold Solo.run
  rw [Solo.runFrom_bind]
  rcases env.runFrom 0 p s with ⟨answer | answer, w⟩ <;> rfl

theorem bind_asBytes (key : String) (f : String → KV RespReply) :
    (Prog.ofExcept (argAsStr (Rdb.asBytes key))).bind f = f key := by
  rw [argAsStr_asBytes]
  rfl

theorem handleRename_asBytes (src dst : String) :
    handleRename [Rdb.asBytes src, Rdb.asBytes dst] =
      (Storage.rename src dst).bind fun _ => .done (.ok .ok) := by
  unfold handleRename
  calc
    _ = _ := bind_asBytes src _
    _ = _ := bind_asBytes dst _

theorem handleRenamenx_asBytes (src dst : String) :
    handleRenamenx [Rdb.asBytes src, Rdb.asBytes dst] =
      (Storage.renamenx src dst).bind fun renamed => .done (.ok (.flag renamed)) := by
  unfold handleRenamenx
  calc
    _ = _ := bind_asBytes src _
    _ = _ := bind_asBytes dst _

theorem handleCopy_asBytes (src dst : String) (opts : List Bytes) :
    handleCopy (Rdb.asBytes src :: Rdb.asBytes dst :: opts) =
      (Prog.ofExcept (parseCopyOpts opts false)).bind fun replace =>
        (Storage.copy src dst replace).bind fun copied => .done (.ok (.flag copied)) := by
  unfold handleCopy
  calc
    _ = _ := bind_asBytes src _
    _ = _ := bind_asBytes dst _

theorem flag_inj {a b : Bool} (h : RespReply.flag a = RespReply.flag b) : a = b := by
  have hint : (if a then 1 else 0 : Int) = if b then 1 else 0 := RespReply.integer.inj h
  cases a <;> cases b <;> simp_all

theorem copy_cases (env : Solo) (src dst : String) (opts : List Bytes) (s : Keyspace) :
    (∃ e, env.run (handleCopy (Rdb.asBytes src :: Rdb.asBytes dst :: opts)) s = (.error e, 0, s)) ∨
    ∃ replace, env.run (handleCopy (Rdb.asBytes src :: Rdb.asBytes dst :: opts)) s =
      ((env.run (Storage.copy src dst replace) s).1.map RespReply.flag,
        (env.run (Storage.copy src dst replace) s).2) := by
  rw [handleCopy_asBytes]
  cases parseCopyOpts opts false with
  | error e => exact .inl ⟨e, rfl⟩
  | ok replace => exact .inr ⟨replace, run_map env (Storage.copy src dst replace) RespReply.flag s⟩

theorem preserved (env : Solo) (cmd : Relocation) (src dst : String) (opts : List Bytes)
    (s : Keyspace) :
    Preserved env src dst s
      (env.run (cmd.handle (Rdb.asBytes src :: Rdb.asBytes dst :: opts)) s).2.2 := by
  cases cmd with
  | rename =>
      cases opts with
      | cons opt opts => exact .refl env src dst s
      | nil =>
          rw [show handle .rename = handleRename from rfl, handleRename_asBytes, run_map env _ fun _ => RespReply.ok]
          exact (rename_run env src dst s).1
  | renamenx =>
      cases opts with
      | cons opt opts => exact .refl env src dst s
      | nil =>
          rw [show handle .renamenx = handleRenamenx from rfl, handleRenamenx_asBytes, run_map]
          exact renamenx_run env src dst s
  | copy =>
      rw [show handle .copy = handleCopy from rfl]
      rcases copy_cases env src dst opts s with ⟨e, hrun⟩ | ⟨replace, hrun⟩
      · rw [hrun]
        exact .refl env src dst s
      · rw [hrun]
        exact (copy_run env src dst replace s).1

theorem copied (env : Solo) (src dst : String) (opts : List Bytes) {p : StoredValue × String}
    (hp : s src = some p) (hlive : p.1.isExpired (env.now 0) = false) :
    (env.run (handleCopy (Rdb.asBytes src :: Rdb.asBytes dst :: opts)) s).2.2 src = some p ∧
    ((env.run (handleCopy (Rdb.asBytes src :: Rdb.asBytes dst :: opts)) s).1 = .ok (.flag true) →
      (env.run (handleCopy (Rdb.asBytes src :: Rdb.asBytes dst :: opts)) s).2.2.entryAt dst =
        some p.1) := by
  rcases copy_cases env src dst opts s with ⟨e, hrun⟩ | ⟨replace, hrun⟩
  · rw [hrun]
    exact ⟨hp, nofun⟩
  · obtain ⟨-, hkept, hcopied⟩ := copy_run env src dst replace s
    rw [hrun]
    refine ⟨(hkept p hp hlive).trans hp, fun hreply => ?_⟩
    obtain ⟨b, hok, hb⟩ := Result.map_eq_ok.mp hreply
    rw [flag_inj hb] at hok
    rw [hcopied hok]
    unfold Keyspace.entryAt
    rw [hp]
    rfl

/-- The value is under one of the two names whatever failed; a rename that nothing failed
moved it, and a copy left it where it was. -/
theorem relocation_keeps_value (env : Solo) (cmd : Relocation) (src dst : String)
    (opts : List Bytes) (s : Keyspace) :
    let out := env.run (cmd.handle (Rdb.asBytes src :: Rdb.asBytes dst :: opts)) s
    Preserved env src dst s out.2.2 ∧
    ∀ p, s src = some p → p.1.isExpired (env.now 0) = false →
      (cmd = .rename → opts = [] → env.Faultless →
        out.1 = .ok .ok ∧ (src ≠ dst → out.2.2 src = none ∧ out.2.2.entryAt dst = some p.1)) ∧
      (cmd = .copy → out.2.2 src = some p ∧
        (out.1 = .ok (.flag true) → out.2.2.entryAt dst = some p.1)) := by
  refine ⟨preserved env cmd src dst opts s, fun p hp hlive => ⟨?_, ?_⟩⟩
  · intro hcmd hopts hfaultless
    have hrun := (rename_run env src dst s).2 hfaultless p hp hlive
    rw [hcmd, hopts]
    rw [show handle .rename = handleRename from rfl, handleRename_asBytes,
      run_map env _ fun _ => RespReply.ok]
    refine ⟨?_, hrun.2⟩
    rw [hrun.1]
    rfl
  · intro hcmd
    rw [hcmd]
    exact copied env src dst opts hp hlive

namespace FailedDelete

/-- The delete that ends a rename fails. -/
def env : Solo where
  fails n := if n = 3 then some (.s3 "unavailable") else none
  now _ := 0
  collects _ := true
  token _ := "v2"
  other _ := Solo.nothing

def entry : StoredValue := ⟨some 5, .string [97]⟩

def start : Keyspace := fun key => if key = "a" then some (entry, "v1") else none

end FailedDelete

open FailedDelete in
theorem relocation_keeps_value_when_delete_fails :
    let after := (env.run (handleRename [Rdb.asBytes "a", Rdb.asBytes "b"]) start).2.2
    after.entryAt "a" = some entry ∨ after.entryAt "b" = some entry :=
  (relocation_keeps_value env .rename "a" "b" [] start).1.source (entry, "v1") rfl rfl

end Relocation
end Commands
end RustyAnt
