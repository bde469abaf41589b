import RustyAnt.Commands.Keys
import RustyAnt.Mirror.OneClient
import RustyAnt.Rdb.RoundTrip

/-!
# Commands that create their destination

SETNX, MSETNX, RENAMENX, COPY without REPLACE and RESTORE without REPLACE, run alone on
either backend.  Each but RESTORE looks its destinations up before it writes, and the
lookup collects what has expired there.
-/

namespace RustyAnt

open Lib

/-! ## The storage operations -/

namespace OneClient

variable {now : Int} {B : OneClient now} {nanos : UInt64} {m : Entries} {key : String}

section Setnx

variable {value : Bytes} {exp : Option Int}

theorem does_setStringNx_live (hfits : B.Fits ⟨exp, .string value⟩) {e : StoredValue}
    (hlive : m.view now key = .ok (some e)) :
    B.Does nanos m (Storage.setStringNx key value exp) (.ok false) m := by
  have hkey : m key ≠ none := by
    rw [(Entries.entry_of_live hlive).1]
    exact Option.some_ne_none _
  apply does_load_live hlive
  intro token
  exact (does_create_refused hfits hkey).bind (does_done _)

theorem does_setStringNx_missing (hfits : B.Fits ⟨exp, .string value⟩)
    (hmissing : m.view now key = .ok none) :
    B.Does nanos m (Storage.setStringNx key value exp) (.ok true)
      (Function.update m key (some (.ok ⟨exp, .string value⟩))) := by
  have hread : readBack ⟨exp, .string value⟩ = .ok ⟨exp, .string value⟩ := readBack_iff.mpr rfl
  have hcreate := @does_create now B nanos _ key _ hfits (Entries.swept_missing hmissing)
  rw [hread, Entries.update_swept] at hcreate
  exact (does_load_missing hmissing).bind (hcreate.bind (does_done _))

end Setnx

/-! ### Several keys -/

/-- Some key of the pairs has a live entry. -/
def AnyLive (now : Int) (m : Entries) (pairs : List (String × Bytes)) : Prop :=
  ∃ p ∈ pairs, ∃ e, m.view now p.1 = .ok (some e)

/-- The lookups of `msetnx`: no view changes, and no key but those of the pairs. -/
theorem does_anyExists (pairs : List (String × Bytes)) (m : Entries)
    (hread : ∀ p ∈ pairs, ∃ found, m.view now p.1 = .ok found) :
    ∃ found m', B.Does nanos m (Storage.anyExists pairs) (.ok found) m' ∧
      (found = true ↔ AnyLive now m pairs) ∧ (∀ key, m'.view now key = m.view now key) ∧
      ∀ key, key ∉ pairs.map Prod.fst → m' key = m key := by
  induction pairs generalizing m with
  | nil => exact ⟨false, m, does_done _, by simp [AnyLive], fun _ => rfl, fun _ _ => rfl⟩
  | cons p pairs ih =>
      obtain ⟨k, v⟩ := p
      obtain ⟨first, hfirst⟩ := hread (k, v) List.mem_cons_self
      have hload := @does_loadEntry now B nanos m k
      rw [hfirst] at hload
      unfold Storage.anyExists
      cases first with
      | some e =>
          refine ⟨true, _, hload.bind (does_done _), ?_, fun _ => Entries.view_swept, ?_⟩
          · exact iff_of_true rfl ⟨_, List.mem_cons_self, e, hfirst⟩
          · intro key hkey
            apply Entries.swept_other
            intro heq
            exact hkey (heq ▸ List.mem_cons_self)
      | none =>
          have hrest : ∀ p ∈ pairs, ∃ found, (m.swept now k).view now p.1 = .ok found := by
            intro p hp
            rw [Entries.view_swept]
            exact hread p (List.mem_cons_of_mem _ hp)
          obtain ⟨found, m', hdoes, hfound, hview, hframe⟩ := ih _ hrest
          refine ⟨found, m', hload.bind hdoes, hfound.trans ?_, ?_, ?_⟩
          · unfold AnyLive
            simp [Entries.view_swept, hfirst]
          · intro key
            rw [hview, Entries.view_swept]
          · intro key hkey
            rw [List.map_cons, List.mem_cons, not_or] at hkey
            rw [hframe key hkey.2, Entries.swept_other hkey.1]


/-- The entries with those of the list written over them, one after the other. -/
def overwrite (m : Entries) (written : List (String × StoredValue)) : Entries :=
  written.foldl (fun m p => Function.update m p.1 (some (.ok p.2))) m

theorem overwrite_congr {m m' : Entries} (written : List (String × StoredValue))
    (h : ∀ key, key ∉ written.map Prod.fst → m' key = m key) :
    overwrite m' written = overwrite m written := by
  induction written generalizing m m' with
  | nil =>
      funext key
      exact h key List.not_mem_nil
  | cons p written ih =>
      apply ih
      intro key hkey
      dsimp only
      by_cases hk : key = p.1
      · rw [hk, Function.update_self, Function.update_self]
      · rw [Function.update_of_ne hk, Function.update_of_ne hk]
        apply h
        rw [List.map_cons, List.mem_cons, not_or]
        exact ⟨hk, hkey⟩

/-- What MSET and MSETNX write. -/
def plain (pairs : List (String × Bytes)) : List (String × StoredValue) :=
  pairs.map fun p => (p.1, ⟨none, .string p.2⟩)

theorem keys_plain (pairs : List (String × Bytes)) :
    (plain pairs).map Prod.fst = pairs.map Prod.fst := by
  unfold plain
  rw [List.map_map]
  rfl

theorem does_mset (pairs : List (String × Bytes)) (m : Entries)
    (hfits : ∀ p ∈ plain pairs, B.Fits p.2) :
    B.Does nanos m (Storage.mset pairs) (.ok ()) (overwrite m (plain pairs)) := by
  induction pairs generalizing m with
  | nil => exact does_done _
  | cons p pairs ih =>
      obtain ⟨k, v⟩ := p
      have hread : readBack ⟨none, .string v⟩ = .ok ⟨none, .string v⟩ := readBack_iff.mpr rfl
      have hsave := @does_save now B nanos m k _ (hfits _ List.mem_cons_self) .any (.inl rfl)
      rw [hread] at hsave
      exact hsave.bind (ih _ fun p hp => hfits p (List.mem_cons_of_mem _ hp))

theorem does_msetnx_live {pairs : List (String × Bytes)}
    (hread : ∀ p ∈ pairs, ∃ found, m.view now p.1 = .ok found) (hlive : AnyLive now m pairs) :
    ∃ m', B.Does nanos m (Storage.msetnx pairs) (.ok false) m' ∧
      ∀ key, m'.view now key = m.view now key := by
  obtain ⟨found, m', hscan, hfound, hview, -⟩ := @does_anyExists now B nanos pairs m hread
  rw [hfound.mpr hlive] at hscan
  exact ⟨m', hscan.bind (does_done _), hview⟩

theorem does_msetnx_missing {pairs : List (String × Bytes)}
    (hread : ∀ p ∈ pairs, ∃ found, m.view now p.1 = .ok found)
    (hmissing : ¬ AnyLive now m pairs) (hfits : ∀ p ∈ plain pairs, B.Fits p.2) :
    B.Does nanos m (Storage.msetnx pairs) (.ok true) (overwrite m (plain pairs)) := by
  obtain ⟨found, m', hscan, hfound, -, hframe⟩ := @does_anyExists now B nanos pairs m hread
  have hnone : found = false := Bool.eq_false_iff.mpr fun htrue => hmissing (hfound.mp htrue)
  have hwrite := @does_mset now B nanos pairs m' hfits
  rw [← keys_plain] at hframe
  rw [hnone] at hscan
  rw [overwrite_congr _ hframe] at hwrite
  exact hscan.bind (hwrite.bind (does_done _))

/-! ### A source and a destination -/

section Move

variable {src dst : String} {e : StoredValue}

theorem does_renamenx_live (hsrc : m.view now src = .ok (some e)) {e' : StoredValue}
    (hdst : m.view now dst = .ok (some e')) :
    B.Does nanos m (Storage.renamenx src dst) (.ok false) m := by
  have hfirst := @does_loadEntry now B nanos m src
  have hsecond := @does_loadEntry now B nanos m dst
  rw [hsrc, Entries.swept_live hsrc] at hfirst
  rw [hdst, Entries.swept_live hdst] at hsecond
  apply hfirst.bind
  dsimp only
  split
  · exact does_done _
  · exact hsecond.bind (does_done _)

theorem does_renamenx_missing (hsrc : m.view now src = .ok (some e))
    (hdst : m.view now dst = .ok none) (hfits : B.Fits e) (hread : readBack e = .ok e) :
    B.Does nanos m (Storage.renamenx src dst) (.ok true)
      (Function.update (overwrite m [(dst, e)]) src none) := by
  have hne : src ≠ dst := by
    intro heq
    rw [heq, hdst] at hsrc
    cases hsrc
  have hfirst := @does_loadEntry now B nanos m src
  have hsecond := @does_loadEntry now B nanos m dst
  have hcreate := @does_create now B nanos _ dst _ hfits (Entries.swept_missing hdst)
  rw [hsrc, Entries.swept_live hsrc] at hfirst
  rw [hdst] at hsecond
  rw [hread, Entries.update_swept] at hcreate
  apply hfirst.bind
  dsimp only
  rw [if_neg hne]
  exact hsecond.bind (hcreate.bind ((does_delete _ src).bind (does_done _)))

theorem does_copy_live (hsrc : m.view now src = .ok (some e)) {e' : StoredValue}
    (hdst : m.view now dst = .ok (some e')) :
    B.Does nanos m (Storage.copy src dst false) (.ok false) m := by
  have hfirst := @does_loadEntry now B nanos m src
  rw [hsrc, Entries.swept_live hsrc] at hfirst
  unfold Storage.copy
  split
  · exact does_done _
  · apply hfirst.bind
    apply does_load_live hdst
    intro token
    exact does_done _

theorem does_copy_missing (hsrc : m.view now src = .ok (some e))
    (hdst : m.view now dst = .ok none) (hfits : B.Fits e) (hread : readBack e = .ok e) :
    B.Does nanos m (Storage.copy src dst false) (.ok true) (overwrite m [(dst, e)]) := by
  have hne : src ≠ dst := by
    intro heq
    rw [heq, hdst] at hsrc
    cases hsrc
  have hfirst := @does_loadEntry now B nanos m src
  have hcreate := @does_create now B nanos _ dst _ hfits (Entries.swept_missing hdst)
  rw [hsrc, Entries.swept_live hsrc] at hfirst
  rw [hread, Entries.update_swept] at hcreate
  unfold Storage.copy
  rw [if_neg hne]
  exact hfirst.bind ((does_load_missing hdst).bind (hcreate.bind (does_done _)))

end Move

/-! ### A payload -/

def restoredExpiry (now ttl : Int) (absTtl : Bool) : Option Int :=
  if ttl = 0 then none else if absTtl then some ttl else some (saturatingAdd now ttl)

theorem does_restoreExpiry (m : Entries) (ttl : Int) (absTtl : Bool) :
    B.Does nanos m (Storage.restoreExpiry ttl absTtl) (.ok (restoredExpiry now ttl absTtl)) m := by
  unfold Storage.restoreExpiry restoredExpiry
  split
  · exact does_done _
  · split
    · exact does_done _
    · exact (does_nowMs m).bind (does_done _)

section Restore

variable {value : Value} {ttl : Int} {absTtl : Bool}

theorem does_restoreWith_stored (hfits : B.Fits ⟨restoredExpiry now ttl absTtl, value⟩)
    (hkey : m key ≠ none) :
    B.Does nanos m (Storage.restoreWith key value ttl false absTtl)
      (.error Storage.busyKey) m :=
  (does_restoreExpiry m ttl absTtl).bind ((does_create_refused hfits hkey).bind (does_done _))

theorem does_restoreWith_absent (hfits : B.Fits ⟨restoredExpiry now ttl absTtl, value⟩)
    (hkey : m key = none) :
    B.Does nanos m (Storage.restoreWith key value ttl false absTtl) (.ok ())
      (Function.update m key (some (readBack ⟨restoredExpiry now ttl absTtl, value⟩))) :=
  (does_restoreExpiry m ttl absTtl).bind ((does_create hfits hkey).bind (does_done _))

end Restore

end OneClient

/-! ## The commands -/

namespace Commands

/-- What the five commands ask for, once their arguments are read. -/
inductive NxCommand where
  | setnx (key : String) (value : Bytes)
  | msetnx (pairs : List (String × Bytes))
  | renamenx (src dst : String)
  | copy (src dst : String)
  | restore (key : String) (value : Value) (ttl : Int) (absTtl : Bool)

namespace NxCommand

/-- The handler reads its arguments as this command. -/
inductive Reads (fo : FloatOps) : KV RespReply → NxCommand → Prop
  | setnx {arg value : Bytes} {key : String} (hkey : argAsStr arg = .ok key) :
      Reads fo (handleSetnx [arg, value]) (.setnx key value)
  | msetnx {args : List Bytes} {pairs : List (String × Bytes)}
      (harity : ¬ (args.isEmpty ∨ args.length % 2 ≠ 0))
      (hpairs : keyValuePairs "MSETNX" args = .ok pairs) :
      Reads fo (handleMsetnx args) (.msetnx pairs)
  | renamenx {arg arg' : Bytes} {src dst : String} (hsrc : argAsStr arg = .ok src)
      (hdst : argAsStr arg' = .ok dst) : Reads fo (handleRenamenx [arg, arg']) (.renamenx src dst)
  | copy {arg arg' : Bytes} {src dst : String} {opts : List Bytes} (hsrc : argAsStr arg = .ok src)
      (hdst : argAsStr arg' = .ok dst) (hopts : parseCopyOpts opts false = .ok false) :
      Reads fo (handleCopy (arg :: arg' :: opts)) (.copy src dst)
  | restore {arg ttlArg payload : Bytes} {opts : List Bytes} {key : String} {ttl : Int}
      {absTtl : Bool} {value : Value} (hkey : argAsStr arg = .ok key)
      (httl : parseRestoreTtl ttlArg = .ok ttl)
      (hopts : parseRestoreOpts opts (false, false) = .ok (false, absTtl))
      (hpayload : Rdb.restoreValue fo payload = .ok value) :
      Reads fo (handleRestore fo (arg :: ttlArg :: payload :: opts)) (.restore key value ttl absTtl)

def dests : NxCommand → List String
  | setnx key _ => [key]
  | msetnx pairs => pairs.map Prod.fst
  | renamenx _ dst => [dst]
  | copy _ dst => [dst]
  | restore key _ _ _ => [key]

def source : NxCommand → Option String
  | renamenx src _ => some src
  | copy src _ => some src
  | _ => none

/-- The source entry under the name of the destination. -/
def moved (m : Entries) (src dst : String) : List (String × StoredValue) :=
  match m src with
  | some (.ok e) => [(dst, e)]
  | _ => []

/-- The entries to be created, at time `now`. -/
def creates (now : Int) (m : Entries) : NxCommand → List (String × StoredValue)
  | setnx key value => OneClient.plain [(key, value)]
  | msetnx pairs => OneClient.plain pairs
  | renamenx src dst => moved m src dst
  | copy src dst => moved m src dst
  | restore key value ttl absTtl => [(key, ⟨OneClient.restoredExpiry now ttl absTtl, value⟩)]

/-- The keyspace with the destinations created. -/
def created (now : Int) (m : Entries) (c : NxCommand) : Entries :=
  match c with
  | renamenx src _ => Function.update (OneClient.overwrite m (c.creates now m)) src none
  | _ => OneClient.overwrite m (c.creates now m)

/-- The reply to a command that has created its destinations. -/
def done : NxCommand → RespReply
  | restore _ _ _ _ => .ok
  | _ => .flag true

/-- The answer to a command that is refused. -/
def refusal : NxCommand → Result RespReply
  | restore _ _ _ _ => .error Storage.busyKey
  | _ => .ok (.flag false)

end NxCommand

/-- The command creates its destinations where `EXISTS` reports none of them, and otherwise
changes nothing that a lookup reports. -/
structure CreatesOnAbsent {now : Int} (B : OneClient now) (nanos : UInt64) (s : B.State)
    (c : NxCommand) (handler : KV RespReply) : Prop where
  absent : (∀ dst ∈ c.dests, ¬ B.Exists nanos s dst) →
    B.Ends (B.run nanos handler s) (.ok c.done) (c.created now (B.entries s))
  present : (∃ dst ∈ c.dests, B.Exists nanos s dst) →
    (B.run nanos handler s).1 = c.refusal ∧
      ∀ key, (B.entries (B.run nanos handler s).2).view now key = (B.entries s).view now key

/-- RESTORE: the key holds no expired entry, and a value that it restores to an absent key
can be read back. -/
def NxCommand.Probed (now : Int) (m : Entries) : NxCommand → Prop
  | restore key value _ _ => (m key = none → value.scoresFinite = true) ∧
      ∀ e, m key = some (.ok e) → e.isExpired now = false
  | _ => True

section Settles

variable {now : Int} {B : OneClient now} {nanos : UInt64} {s : B.State} {c : NxCommand}
  {handler : KV RespReply} {m' : Entries}

theorem CreatesOnAbsent.of_live (hs : B.Valid s) (hlive : ∃ dst ∈ c.dests, B.Exists nanos s dst)
    (hdoes : B.Does nanos (B.entries s) handler c.refusal m')
    (hview : ∀ key, m'.view now key = (B.entries s).view now key) :
    CreatesOnAbsent B nanos s c handler := by
  obtain ⟨hanswer, -, hentries⟩ := hdoes s hs rfl
  refine ⟨fun habsent => ?_, fun _ => ⟨hanswer, fun key => ?_⟩⟩
  · obtain ⟨dst, hdst, hexists⟩ := hlive
    exact absurd hexists (habsent dst hdst)
  · rw [hentries, hview]

theorem CreatesOnAbsent.of_missing (hs : B.Valid s)
    (habsent : ∀ dst ∈ c.dests, ¬ B.Exists nanos s dst)
    (hdoes : B.Does nanos (B.entries s) handler (.ok c.done) (c.created now (B.entries s))) :
    CreatesOnAbsent B nanos s c handler := by
  refine ⟨fun _ => hdoes s hs rfl, fun hlive => ?_⟩
  obtain ⟨dst, hdst, hexists⟩ := hlive
  exact absurd hexists (habsent dst hdst)

/-- A key that a lookup answers is live or reported missing. -/
theorem missing_of_not_exists (hs : B.Valid s) {key : String}
    (hread : ∃ found, (B.entries s).view now key = .ok found) (h : ¬ B.Exists nanos s key) :
    (B.entries s).view now key = .ok none := by
  obtain ⟨found, hfound⟩ := hread
  cases found with
  | none => exact hfound
  | some e => exact absurd ((OneClient.exists_iff hs key).mpr ⟨e, hfound⟩) h

theorem setnx_creates (hs : B.Valid s) {arg value : Bytes} {key : String}
    (harg : argAsStr arg = .ok key) (hread : ∃ found, (B.entries s).view now key = .ok found)
    (hfits : B.Fits ⟨none, .string value⟩) :
    CreatesOnAbsent B nanos s (.setnx key value) (handleSetnx [arg, value]) := by
  have hstep : ∀ set m', B.Does nanos (B.entries s) (Storage.setStringNx key value none) (.ok set)
      m' → B.Does nanos (B.entries s) (handleSetnx [arg, value]) (.ok (.flag set)) m' := by
    intro set m' hset
    show B.Does nanos _ ((Prog.ofExcept (argAsStr arg)).bind _) _ _
    rw [harg]
    exact hset.bind (OneClient.does_done _)
  by_cases hlive : B.Exists nanos s key
  · obtain ⟨e, he⟩ := (OneClient.exists_iff hs key).mp hlive
    exact .of_live hs ⟨key, List.mem_singleton_self key, hlive⟩
      (hstep _ _ (OneClient.does_setStringNx_live hfits he)) fun _ => rfl
  · have hmissing := missing_of_not_exists hs hread hlive
    refine .of_missing hs (fun dst hdst => ?_)
      (hstep _ _ (OneClient.does_setStringNx_missing hfits hmissing))
    rw [List.mem_singleton.mp hdst]
    exact hlive

theorem msetnx_creates (hs : B.Valid s) {args : List Bytes} {pairs : List (String × Bytes)}
    (harity : ¬ (args.isEmpty ∨ args.length % 2 ≠ 0))
    (hpairs : keyValuePairs "MSETNX" args = .ok pairs)
    (hread : ∀ p ∈ pairs, ∃ found, (B.entries s).view now p.1 = .ok found)
    (hfits : ∀ p ∈ OneClient.plain pairs, B.Fits p.2) :
    CreatesOnAbsent B nanos s (.msetnx pairs) (handleMsetnx args) := by
  have hstep : ∀ set m', B.Does nanos (B.entries s) (Storage.msetnx pairs) (.ok set) m' →
      B.Does nanos (B.entries s) (handleMsetnx args) (.ok (.flag set)) m' := by
    intro set m' hset
    unfold handleMsetnx
    rw [if_neg harity]
    show B.Does nanos _ ((Prog.ofExcept (keyValuePairs "MSETNX" args)).bind _) _ _
    rw [hpairs]
    exact hset.bind (OneClient.does_done _)
  by_cases hlive : OneClient.AnyLive now (B.entries s) pairs
  · obtain ⟨m', hdoes, hview⟩ := @OneClient.does_msetnx_live now B nanos _ pairs hread hlive
    obtain ⟨p, hp, hexists⟩ := hlive
    exact .of_live hs ⟨p.1, List.mem_map_of_mem hp, (OneClient.exists_iff hs p.1).mpr hexists⟩
      (hstep _ _ hdoes) hview
  · refine .of_missing hs (fun dst hdst hexists => ?_)
      (hstep _ _ (OneClient.does_msetnx_missing hread hlive hfits))
    obtain ⟨p, hp, hkey⟩ := List.mem_map.mp hdst
    rw [← hkey] at hexists
    exact hlive ⟨p, hp, (OneClient.exists_iff hs p.1).mp hexists⟩

theorem moved_of_live {m : Entries} {src dst : String} {e : StoredValue}
    (h : m.view now src = .ok (some e)) : NxCommand.moved m src dst = [(dst, e)] := by
  unfold NxCommand.moved
  rw [(Entries.entry_of_live h).1]

theorem renamenx_creates (hs : B.Valid s) {arg arg' : Bytes} {src dst : String}
    (hsrc : argAsStr arg = .ok src) (hdst : argAsStr arg' = .ok dst)
    (hsource : B.Exists nanos s src) (hread : ∃ found, (B.entries s).view now dst = .ok found)
    (hfits : ∀ p ∈ NxCommand.moved (B.entries s) src dst, B.Fits p.2) :
    CreatesOnAbsent B nanos s (.renamenx src dst) (handleRenamenx [arg, arg']) := by
  have hstep : ∀ set m', B.Does nanos (B.entries s) (Storage.renamenx src dst) (.ok set) m' →
      B.Does nanos (B.entries s) (handleRenamenx [arg, arg']) (.ok (.flag set)) m' := by
    intro set m' hset
    show B.Does nanos _ ((Prog.ofExcept (argAsStr arg)).bind _) _ _
    rw [hsrc]
    show B.Does nanos _ ((Prog.ofExcept (argAsStr arg')).bind _) _ _
    rw [hdst]
    exact hset.bind (OneClient.does_done _)
  obtain ⟨e, he⟩ := (OneClient.exists_iff hs src).mp hsource
  have hmoved := @moved_of_live now _ _ dst _ he
  by_cases hlive : B.Exists nanos s dst
  · obtain ⟨e', he'⟩ := (OneClient.exists_iff hs dst).mp hlive
    exact .of_live hs ⟨dst, List.mem_singleton_self dst, hlive⟩
      (hstep _ _ (OneClient.does_renamenx_live he he')) fun _ => rfl
  · have hmissing := missing_of_not_exists hs hread hlive
    have hback := B.readable hs (Entries.entry_of_live he).1
    rw [hmoved] at hfits
    have hdoes := @OneClient.does_renamenx_missing now B nanos _ src dst e he hmissing
      (hfits _ (List.mem_singleton_self _)) hback
    rw [← hmoved] at hdoes
    refine .of_missing hs (fun key hkey => ?_) (hstep _ _ hdoes)
    rw [List.mem_singleton.mp hkey]
    exact hlive

theorem copy_creates (hs : B.Valid s) {arg arg' : Bytes} {src dst : String} {opts : List Bytes}
    (hsrc : argAsStr arg = .ok src) (hdst : argAsStr arg' = .ok dst)
    (hopts : parseCopyOpts opts false = .ok false)
    (hsource : B.Exists nanos s src) (hread : ∃ found, (B.entries s).view now dst = .ok found)
    (hfits : ∀ p ∈ NxCommand.moved (B.entries s) src dst, B.Fits p.2) :
    CreatesOnAbsent B nanos s (.copy src dst) (handleCopy (arg :: arg' :: opts)) := by
  have hstep : ∀ set m', B.Does nanos (B.entries s) (Storage.copy src dst false) (.ok set) m' →
      B.Does nanos (B.entries s) (handleCopy (arg :: arg' :: opts)) (.ok (.flag set)) m' := by
    intro set m' hset
    show B.Does nanos _ ((Prog.ofExcept (argAsStr arg)).bind _) _ _
    rw [hsrc]
    show B.Does nanos _ ((Prog.ofExcept (argAsStr arg')).bind _) _ _
    rw [hdst]
    show B.Does nanos _ ((Prog.ofExcept (parseCopyOpts opts false)).bind _) _ _
    rw [hopts]
    exact hset.bind (OneClient.does_done _)
  obtain ⟨e, he⟩ := (OneClient.exists_iff hs src).mp hsource
  have hmoved := @moved_of_live now _ _ dst _ he
  by_cases hlive : B.Exists nanos s dst
  · obtain ⟨e', he'⟩ := (OneClient.exists_iff hs dst).mp hlive
    exact .of_live hs ⟨dst, List.mem_singleton_self dst, hlive⟩
      (hstep _ _ (OneClient.does_copy_live he he')) fun _ => rfl
  · have hmissing := missing_of_not_exists hs hread hlive
    have hback := B.readable hs (Entries.entry_of_live he).1
    rw [hmoved] at hfits
    have hdoes := @OneClient.does_copy_missing now B nanos _ src dst e he hmissing
      (hfits _ (List.mem_singleton_self _)) hback
    rw [← hmoved] at hdoes
    refine .of_missing hs (fun key hkey => ?_) (hstep _ _ hdoes)
    rw [List.mem_singleton.mp hkey]
    exact hlive

section Restore

variable {key : String} {value : Value} {ttl : Int} {absTtl : Bool}

/-- The write of RESTORE and its reply. -/
def restoring (key : String) (value : Value) (ttl : Int) (absTtl : Bool) : KV RespReply :=
  (Storage.restoreWith key value ttl false absTtl).bind fun _ => pure RespReply.ok

theorem handleRestore_eq {fo : FloatOps} {arg ttlArg payload : Bytes} {opts : List Bytes}
    (hkey : argAsStr arg = .ok key) (httl : parseRestoreTtl ttlArg = .ok ttl)
    (hopts : parseRestoreOpts opts (false, false) = .ok (false, absTtl))
    (hpayload : Rdb.restoreValue fo payload = .ok value) :
    handleRestore fo (arg :: ttlArg :: payload :: opts) = restoring key value ttl absTtl := by
  show (Prog.ofExcept (argAsStr arg)).bind _ = _
  rw [hkey]
  show (Prog.ofExcept (parseRestoreTtl ttlArg)).bind _ = _
  rw [httl]
  show (Prog.ofExcept (parseRestoreOpts opts (false, false))).bind _ = _
  rw [hopts]
  show (Storage.restore fo key payload ttl false absTtl).bind _ = _
  unfold Storage.restore
  rw [hpayload]
  rfl

theorem restore_lost (hs : B.Valid s) (hmissing : (B.entries s).view now key = .ok none) :
    ∀ dst ∈ (NxCommand.restore key value ttl absTtl).dests, ¬ B.Exists nanos s dst := by
  intro dst hdst hexists
  rw [List.mem_singleton.mp hdst, OneClient.exists_iff hs key, hmissing] at hexists
  obtain ⟨e, he⟩ := hexists
  cases he

theorem restore_absent_iff (hs : B.Valid s) (hkey : B.entries s key = none)
    (hfits : B.Fits ⟨OneClient.restoredExpiry now ttl absTtl, value⟩) :
    CreatesOnAbsent B nanos s (.restore key value ttl absTtl) (restoring key value ttl absTtl) ↔
      value.scoresFinite = true := by
  have hlost := @restore_lost now B nanos s key value ttl absTtl hs (Entries.view_none hkey)
  have hdoes : B.Does nanos (B.entries s) (restoring key value ttl absTtl) (.ok .ok) _ :=
    (OneClient.does_restoreWith_absent hfits hkey).bind (OneClient.does_done _)
  rw [show (value.scoresFinite = true) = ((⟨OneClient.restoredExpiry now ttl absTtl, value⟩ :
    StoredValue).value.scoresFinite = true) from rfl, ← readBack_iff]
  constructor
  · intro h
    have hentries := (h.absent hlost).2.2
    rw [(hdoes s hs rfl).2.2] at hentries
    have hat := congrFun hentries key
    have hwanted : (NxCommand.restore key value ttl absTtl).created now (B.entries s) key =
        some (.ok ⟨OneClient.restoredExpiry now ttl absTtl, value⟩) :=
      Function.update_self key _ _
    rw [hwanted, Function.update_self] at hat
    exact Option.some.inj hat
  · intro h
    rw [h] at hdoes
    exact .of_missing hs hlost hdoes

theorem does_restoring_stored (hkey : B.entries s key ≠ none)
    (hfits : B.Fits ⟨OneClient.restoredExpiry now ttl absTtl, value⟩) :
    B.Does nanos (B.entries s) (restoring key value ttl absTtl) (.error Storage.busyKey)
      (B.entries s) :=
  (OneClient.does_restoreWith_stored hfits hkey).bind_error _

/-- RESTORE does not look its destination up: an expired entry that is stored there refuses
the payload, although `EXISTS` reports the key missing. -/
theorem restore_stored_iff (hs : B.Valid s) {e : StoredValue}
    (hkey : B.entries s key = some (.ok e))
    (hfits : B.Fits ⟨OneClient.restoredExpiry now ttl absTtl, value⟩) :
    CreatesOnAbsent B nanos s (.restore key value ttl absTtl) (restoring key value ttl absTtl) ↔
      e.isExpired now = false := by
  have hsome : B.entries s key ≠ none := by
    rw [hkey]
    exact Option.some_ne_none _
  have hdoes := @does_restoring_stored now B nanos s key value ttl absTtl hsome hfits
  have hview := @Entries.view_ok _ now _ e hkey
  by_cases hexp : e.isExpired now = true
  · rw [if_pos hexp] at hview
    apply iff_of_false
    · intro h
      have hanswer := (h.absent (restore_lost hs hview)).1
      rw [(hdoes s hs rfl).1] at hanswer
      cases hanswer
    · rw [hexp]
      decide
  · rw [if_neg hexp] at hview
    have hlive : ∃ dst ∈ (NxCommand.restore key value ttl absTtl).dests, B.Exists nanos s dst :=
      ⟨key, List.mem_singleton_self key, (OneClient.exists_iff hs key).mpr ⟨e, hview⟩⟩
    exact iff_of_true (.of_live hs hlive hdoes fun _ => rfl) (Bool.eq_false_iff.mpr hexp)

theorem restore_creates_iff (hs : B.Valid s)
    (hread : ∃ found, (B.entries s).view now key = .ok found)
    (hfits : B.Fits ⟨OneClient.restoredExpiry now ttl absTtl, value⟩) :
    CreatesOnAbsent B nanos s (.restore key value ttl absTtl) (restoring key value ttl absTtl) ↔
      NxCommand.Probed now (B.entries s) (.restore key value ttl absTtl) := by
  unfold NxCommand.Probed
  cases hkey : B.entries s key with
  | none =>
      rw [restore_absent_iff hs hkey hfits]
      simp [hkey]
  | some found =>
      cases found with
      | error err =>
          obtain ⟨found, hfound⟩ := hread
          unfold Entries.view at hfound
          rw [hkey] at hfound
          cases hfound
      | ok e =>
          rw [restore_stored_iff hs hkey hfits]
          simp [hkey]

end Restore

end Settles

/-- Run alone with valid arguments on either backend, the commands create their destinations
exactly where none is live: RESTORE where it meets no expired entry, the others always. -/
theorem nx_creates_iff (S : Setup) (b : BackendName) (now : Int) (nanos : UInt64)
    (s : (S.client now b).State) (hs : (S.client now b).Valid s) (c : NxCommand)
    (handler : KV RespReply) (hreads : c.Reads S.fo handler)
    (hsource : ∀ src ∈ c.source, (S.client now b).Exists nanos s src)
    (hanswered : ∀ dst ∈ c.dests, ∃ found, ((S.client now b).entries s).view now dst = .ok found)
    (hfits : ∀ p ∈ c.creates now ((S.client now b).entries s), (S.client now b).Fits p.2) :
    CreatesOnAbsent (S.client now b) nanos s c handler ↔
      c.Probed now ((S.client now b).entries s) := by
  cases hreads with
  | setnx hkey =>
      exact iff_of_true (setnx_creates hs hkey (hanswered _ (List.mem_singleton_self _))
        (hfits _ (List.mem_singleton_self _))) trivial
  | msetnx harity hpairs =>
      exact iff_of_true (msetnx_creates hs harity hpairs
        (fun p hp => hanswered _ (List.mem_map_of_mem hp)) hfits) trivial
  | renamenx hsrc hdst =>
      exact iff_of_true (renamenx_creates hs hsrc hdst (hsource _ rfl)
        (hanswered _ (List.mem_singleton_self _)) hfits) trivial
  | copy hsrc hdst hopts =>
      exact iff_of_true (copy_creates hs hsrc hdst hopts (hsource _ rfl)
        (hanswered _ (List.mem_singleton_self _)) hfits) trivial
  | restore hkey httl hopts hpayload =>
      rw [handleRestore_eq hkey httl hopts hpayload]
      exact restore_creates_iff hs (hanswered _ (List.mem_singleton_self _))
        (hfits _ (List.mem_singleton_self _))

namespace ExpiredTarget

def setup : Setup := ⟨.integral, fun _ => "etag", ⟨id, List.Perm.refl⟩⟩

/-- It expired at 5. -/
def entry : StoredValue := ⟨some 5, .string [97]⟩

/-- A bucket with the expired entry, which no lookup has collected. -/
def bucket : S3World :=
  ⟨(∅ : BTreeMap String S3Object).insert "k" ⟨Codec.storedValue.enc entry, "e"⟩, 0⟩

def key : Bytes := [107]

def payload : Bytes := Rdb.withTrailer (Rdb.rdbTypeString :: Rdb.writeRdbString [98])

theorem restoreValue_payload : Rdb.restoreValue .integral payload = .ok (.string [98]) :=
  Rdb.dump_restore_string (by decide)

theorem holdsDocuments : bucket.HoldsDocuments := by
  have hempty : (⟨∅, 0⟩ : S3World).HoldsDocuments := by
    intro key obj hobj
    simp at hobj
  exact hempty.insert "k" entry "e" 0

theorem entries_k : bucket.entries "k" = some (.ok entry) := by
  rw [S3World.entries_stored Std.ExtTreeMap.getElem?_insert_self]
  exact congrArg some (Codec.storedValue_dec_enc entry |>.mpr rfl)

theorem view_k : bucket.entries.view 10 "k" = .ok none := by
  rw [Entries.view_ok entries_k]
  rfl

end ExpiredTarget

open ExpiredTarget in
/-- SETNX creates over the expired entry. -/
theorem nx_creates_iff_on_expiredTarget :
    CreatesOnAbsent (setup.client 10 .s3) 0 bucket (.setnx "k" [98]) (handleSetnx [key, [98]]) := by
  apply (nx_creates_iff setup .s3 10 0 bucket holdsDocuments (.setnx "k" [98])
    (handleSetnx [key, [98]]) (.setnx rfl) nofun ?_ fun _ _ => trivial).mpr trivial
  intro dst hdst
  rw [List.mem_singleton.mp hdst]
  exact ⟨none, view_k⟩

open ExpiredTarget in
/-- RESTORE is refused by it. -/
theorem restore_refused_by_expired :
    ¬ ∀ (S : Setup) (b : BackendName) (now : Int) (nanos : UInt64)
      (s : (S.client now b).State) (c : NxCommand) (handler : KV RespReply),
      (S.client now b).Valid s → c.Reads S.fo handler →
      (∀ src ∈ c.source, (S.client now b).Exists nanos s src) →
      (∀ dst ∈ c.dests, ∃ found, ((S.client now b).entries s).view now dst = .ok found) →
      (∀ p ∈ c.creates now ((S.client now b).entries s), (S.client now b).Fits p.2) →
      CreatesOnAbsent (S.client now b) nanos s c handler := by
  intro h
  have hcreates := h setup .s3 10 0 bucket (.restore "k" (.string [98]) 0 false)
    (handleRestore .integral [key, [48], payload]) holdsDocuments
    (.restore rfl rfl rfl restoreValue_payload) nofun
    (fun dst hdst => by
      rw [List.mem_singleton.mp hdst]
      exact ⟨none, view_k⟩) fun _ _ => trivial
  have hhandler : handleRestore .integral [key, [48], payload] =
      restoring "k" (.string [98]) 0 false := handleRestore_eq rfl rfl rfl restoreValue_payload
  have hkey : (setup.client 10 .s3).entries bucket "k" = some (.ok entry) := entries_k
  rw [hhandler, restore_stored_iff holdsDocuments hkey trivial] at hcreates
  revert hcreates
  decide

end Commands

end RustyAnt
