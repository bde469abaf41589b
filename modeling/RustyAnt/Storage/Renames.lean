import RustyAnt.Storage.Keys
import RustyAnt.Storage.Linearizable

/-!
# A rename among other writers

`RENAME` loads the source and the destination, saves the destination under a
condition and deletes the source without one.  A write of another client to the
source that lands between the load and the delete is lost; a write to the
destination is protected by the condition as long as its token is not the one the
rename has read.
-/

namespace RustyAnt

open Lib

/-- A client that renames `src` to `dst`. -/
inductive Renaming (src dst : String) : (β : Type) → KV β → Prop
  | rename : Renaming src dst Unit (Storage.rename src dst)
  | renamenx : Renaming src dst Bool (Storage.renamenx src dst)

section Events

variable {ι : Type} {content : String → StoredValue} {key src dst : String}

/-- A write that took effect: `entry` is saved under `key`. -/
def SavedAs (key : String) (entry : StoredValue) (ev : KVEvent ι) : Prop :=
  ∃ who cond before token,
    ev = ⟨who, .save key entry cond, .ok (), before, Function.update before key (some (entry, token))⟩

def Deleted (key : String) (ev : KVEvent ι) : Prop :=
  (∃ who cond before, ev = ⟨who, .delete key cond, .ok (), before, Function.update before key none⟩) ∨
    (ev.op = .flushAll ∧ ev.after key = none)

/-- A command that overwrites or deletes the key. -/
def Touches (key : String) (ev : KVEvent ι) : Prop :=
  (∃ entry, SavedAs key entry ev) ∨ Deleted key ev

theorem unchanged_or_touches {ev : KVEvent ι}
    (h : casService content ev.before ev.op ev.answer ev.after) (key : String) :
    Touches key ev ∨ ev.after key = ev.before key := by
  obtain ⟨who, op, answer, before, after⟩ := ev
  dsimp only at h
  cases h with
  | save _ key' cond token hcond =>
      by_cases hk : key' = key
      · subst hk
        exact .inl (.inl ⟨_, who, cond, before, token, rfl⟩)
      · exact .inr (Function.update_of_ne (Ne.symm hk) _ _)
  | delete _ key' cond hcond =>
      by_cases hk : key' = key
      · subst hk
        exact .inl (.inr (.inl ⟨who, cond, before, rfl⟩))
      · exact .inr (Function.update_of_ne (Ne.symm hk) _ _)
  | flushAll _ kept answer =>
      by_cases hkept : kept key = true
      · exact .inr (if_pos hkept)
      · exact .inl (.inr (.inr ⟨rfl, if_neg hkept⟩))
  | load _ key' => exact .inr rfl
  | listPage _ cursor maxKeys page => exact .inr rfl
  | walk _ keys => exact .inr rfl
  | countKeys _ n => exact .inr rfl
  | nowMs _ now => exact .inr rfl
  | nanos _ n => exact .inr rfl
  | fault _ op e hop => exact .inr rfl

theorem Deleted.after_eq {ev : KVEvent ι} (h : Deleted key ev) : ev.after key = none := by
  rcases h with ⟨who, cond, before, rfl⟩ | ⟨-, hnone⟩
  · exact Function.update_self _ _ _
  · exact hnone

theorem SavedAs.entry_after {entry : StoredValue} {ev : KVEvent ι} (h : SavedAs key entry ev) :
    ev.after.entryAt key = some entry := by
  obtain ⟨who, cond, before, token, rfl⟩ := h
  exact congrArg (Option.map Prod.fst) (Function.update_self key (some (entry, token)) before)

theorem SavedAs.unique {entry entry' : StoredValue} {ev : KVEvent ι} (h : SavedAs key entry ev)
    (h' : SavedAs key entry' ev) : entry = entry' :=
  Option.some.inj (h.entry_after.symm.trans h'.entry_after)

theorem SavedAs.op_eq {entry : StoredValue} {ev : KVEvent ι} (h : SavedAs key entry ev) :
    ∃ cond, ev.op = .save key entry cond := by
  obtain ⟨who, cond, before, token, rfl⟩ := h
  exact ⟨cond, rfl⟩

theorem Touches.op_ne_load {ev : KVEvent ι} (h : Touches key ev) {key' : String} :
    ev.op ≠ .load key' := by
  rcases h with ⟨e, who, cond, before, token, rfl⟩ | ⟨who, cond, before, rfl⟩ | ⟨hop, -⟩
  · nofun
  · nofun
  · rw [hop]
    nofun

theorem Touches.op_key {ev : KVEvent ι} (h : Touches key ev) {key' : String}
    {entry : StoredValue} {cond : WriteCondition} (hop : ev.op = .save key' entry cond) :
    key = key' := by
  rcases h with ⟨e, who, cond, before, token, rfl⟩ | ⟨who, cond, before, rfl⟩ | ⟨hflush, -⟩
  · cases hop
    rfl
  · cases hop
  · rw [hflush] at hop
    cases hop

theorem Touches.delete_key {ev : KVEvent ι} (h : Touches key ev) {key' : String}
    {cond : DeleteCondition} (hop : ev.op = .delete key' cond) : key = key' := by
  rcases h with ⟨e, who, cond, before, token, rfl⟩ | ⟨who, cond, before, rfl⟩ | ⟨hflush, -⟩
  · cases hop
  · cases hop
    rfl
  · rw [hflush] at hop
    cases hop

theorem Touches.deleted {ev : KVEvent ι} (h : Touches key ev) {key' : String}
    {cond : DeleteCondition} (hop : ev.op = .delete key' cond) : Deleted key ev := by
  rcases h with ⟨entry, hsaved⟩ | hdeleted
  · obtain ⟨cond', hsave⟩ := hsaved.op_eq
    rw [hop] at hsave
    cases hsave
  · exact hdeleted

theorem Touches.savedAs {ev : KVEvent ι} (h : Touches key ev) {entry : StoredValue}
    (hafter : ev.after.entryAt key = some entry) : SavedAs key entry ev := by
  rcases h with ⟨e, hsaved⟩ | hdeleted
  · have heq : e = entry := Option.some.inj (hsaved.entry_after.symm.trans hafter)
    exact heq ▸ hsaved
  · rw [Keyspace.entryAt, hdeleted.after_eq] at hafter
    cases hafter

theorem SavedAs.met {entry : StoredValue} {ev : KVEvent ι} (h : SavedAs key entry ev)
    (hserve : casService content ev.before ev.op ev.answer ev.after) {entry' : StoredValue}
    {cond : WriteCondition} (hop : ev.op = .save key entry' cond) : cond.Met (ev.before key) := by
  obtain ⟨who, cond', before, token, rfl⟩ := h
  cases hop
  dsimp only at hserve
  generalize Function.update before key (some (entry, token)) = after at hserve
  cases hserve with
  | save _ _ _ _ hcond => exact hcond

/-- A save under a destination's condition finds the token that was loaded there. -/
theorem destCond_met {cur loaded : Option (StoredValue × String)}
    (h : (Storage.destCond loaded).Met cur) : cur.map Prod.snd = loaded.map Prod.snd := by
  cases loaded with
  | none =>
      rw [show cur = none from h]
  | some p =>
      obtain ⟨entry, rfl⟩ := h
      rfl

/-- What a rename requests, as far as it has come: the two loads, the save of the
entry loaded first under the condition that the second load gives, and the
delete. -/
inductive RenameTrace (src dst : String) : List (KVEvent ι) → Prop
  | early (evs : List (KVEvent ι)) (hquiet : ∀ ev ∈ evs, ∃ key, ev.op = .load key) :
      RenameTrace src dst evs
  | saved (load load' save : KVEvent ι) (entry : StoredValue) (token : String)
      (hload : load.op = .load src) (hentry : load.before src = some (entry, token))
      (hsame : load.after = load.before)
      (hload' : load'.op = .load dst)
      (hsave : save.op = .save dst entry (Storage.destCond (load'.before dst))) :
      RenameTrace src dst [load, load', save]
  | deleted (load load' save delete : KVEvent ι) (entry : StoredValue) (token : String)
      (hload : load.op = .load src) (hentry : load.before src = some (entry, token))
      (hsame : load.after = load.before)
      (hload' : load'.op = .load dst)
      (hsave : save.op = .save dst entry (Storage.destCond (load'.before dst)))
      (hsaved : SavedAs dst entry save) (hdelete : delete.op = .delete src .any) :
      RenameTrace src dst [load, load', save, delete]

theorem load_call {β : Type} {k : Result (Option (StoredValue × String)) → KV β}
    {evs : List (KVEvent ι)} {q : KV β}
    (h : Pool.Follows (.call (.load key) k : KV β) evs q)
    (hserve : ∀ ev ∈ evs, casService content ev.before ev.op ev.answer ev.after) :
    evs = [] ∨ ∃ load rest, evs = load :: rest ∧ load.op = .load key ∧ load.after = load.before ∧
      ((∃ e, Pool.Follows (k (.error e)) rest q) ∨
        Pool.Follows (k (.ok (load.before key))) rest q) := by
  rcases h.call_inv with ⟨rfl, -⟩ | ⟨who, answer, before, after, rest, rfl, hrest⟩
  · exact .inl rfl
  rw [List.forall_mem_cons] at hserve
  have hload := hserve.1
  dsimp only at hload
  cases hload with
  | load _ _ => exact .inr ⟨_, rest, rfl, rfl, rfl, .inr hrest⟩
  | fault _ _ e _ => exact .inr ⟨_, rest, rfl, rfl, rfl, .inl ⟨e, hrest⟩⟩

theorem rename_tail {β : Type} {entry : StoredValue} {cond : WriteCondition}
    {k : Except RustyAntError (KVOp.save dst entry cond).Res → KV β}
    {k' : Except RustyAntError (KVOp.delete src .any).Res → KV β}
    {evs : List (KVEvent ι)} {q : KV β}
    (h : Pool.Follows (.call (.save dst entry cond) k : KV β) evs q)
    (hserve : ∀ ev ∈ evs, casService content ev.before ev.op ev.answer ev.after)
    (hfail : ∀ e, ∃ r, k (.error e) = .done r)
    (hok : k (.ok ()) = .call (.delete src .any) k') (hlast : ∀ answer, ∃ r, k' answer = .done r) :
    evs = [] ∨ (∃ save, evs = [save] ∧ save.op = .save dst entry cond) ∨
      ∃ save delete, evs = [save, delete] ∧ save.op = .save dst entry cond ∧
        SavedAs dst entry save ∧ delete.op = .delete src .any := by
  rcases h.call_inv with ⟨rfl, -⟩ | ⟨who, answer, before, after, rest, rfl, hrest⟩
  · exact .inl rfl
  rw [List.forall_mem_cons] at hserve
  have hsave := hserve.1
  dsimp only at hsave
  cases answer with
  | error e =>
      obtain ⟨r, hr⟩ := hfail e
      have hdone : Pool.Follows (.done r : KV β) rest q := hr ▸ hrest
      obtain ⟨rfl, -⟩ := hdone.done_inv
      exact .inr (.inl ⟨_, rfl, rfl⟩)
  | ok u =>
      have hsaved : SavedAs dst entry
          (⟨who, .save dst entry cond, .ok u, before, after⟩ : KVEvent ι) := by
        cases hsave with
        | save _ _ _ token _ => exact ⟨who, cond, before, token, rfl⟩
      have hdelete : Pool.Follows (.call (.delete src .any) k' : KV β) rest q := hok ▸ hrest
      rcases hdelete.call_inv with ⟨rfl, -⟩ | ⟨who', answer, before', after', rest', rfl, hend⟩
      · exact .inr (.inl ⟨_, rfl, rfl⟩)
      · obtain ⟨r, hr⟩ := hlast answer
        have hdone : Pool.Follows (.done r : KV β) rest' q := hr ▸ hend
        obtain ⟨rfl, -⟩ := hdone.done_inv
        exact .inr (.inr ⟨_, _, rfl, rfl, hsaved, rfl⟩)

theorem RenameTrace.of_tail {load load' : KVEvent ι} {rest : List (KVEvent ι)}
    {entry : StoredValue} {token : String} (hload : load.op = .load src)
    (hentry : load.before src = some (entry, token)) (hsame : load.after = load.before)
    (hload' : load'.op = .load dst)
    (h : rest = [] ∨
      (∃ save, rest = [save] ∧
        save.op = .save dst entry (Storage.destCond (load'.before dst))) ∨
      ∃ save delete, rest = [save, delete] ∧
        save.op = .save dst entry (Storage.destCond (load'.before dst)) ∧
        SavedAs dst entry save ∧ delete.op = .delete src .any) :
    RenameTrace src dst (load :: load' :: rest) := by
  rcases h with rfl | ⟨save, rfl, hsave⟩ | ⟨save, delete, rfl, hsave, hsaved, hdelete⟩
  · exact .early _ (by simpa using ⟨⟨src, hload⟩, ⟨dst, hload'⟩⟩)
  · exact .saved load load' save entry token hload hentry hsame hload' hsave
  · exact .deleted load load' save delete entry token hload hentry hsame hload' hsave hsaved hdelete

theorem renameTrace_of_loads {β : Type} {k : Except RustyAntError (KVOp.load src).Res → KV β}
    (next : StoredValue → Except RustyAntError (KVOp.load dst).Res → KV β)
    {evs : List (KVEvent ι)} {q : KV β}
    (h : Pool.Follows (.call (.load src) k : KV β) evs q)
    (hserve : ∀ ev ∈ evs, casService content ev.before ev.op ev.answer ev.after)
    (herror : ∀ e, ∃ r, k (.error e) = .done r) (hnone : ∃ r, k (.ok none) = .done r)
    (hsome : ∀ entry token, k (.ok (some (entry, token))) = .call (.load dst) (next entry))
    (hfail : ∀ entry e, ∃ r, next entry (.error e) = .done r)
    (htail : ∀ entry loaded (rest : List (KVEvent ι)),
      Pool.Follows (next entry (.ok loaded)) rest q →
      (∀ ev ∈ rest, casService content ev.before ev.op ev.answer ev.after) →
      rest = [] ∨
      (∃ save, rest = [save] ∧ save.op = .save dst entry (Storage.destCond loaded)) ∨
      ∃ save delete, rest = [save, delete] ∧
        save.op = .save dst entry (Storage.destCond loaded) ∧
        SavedAs dst entry save ∧ delete.op = .delete src .any) :
    RenameTrace src dst evs := by
  rcases load_call h hserve with rfl | ⟨load, evs, rfl, hload, hsame, ⟨e, hend⟩ | hnext⟩
  · exact .early [] (by simp)
  · obtain ⟨r, hr⟩ := herror e
    have hdone : Pool.Follows (.done r : KV β) evs q := hr ▸ hend
    obtain ⟨rfl, -⟩ := hdone.done_inv
    exact .early [load] (by simpa using ⟨src, hload⟩)
  rw [List.forall_mem_cons] at hserve
  cases hentry : load.before src with
  | none =>
      rw [hentry] at hnext
      obtain ⟨r, hr⟩ := hnone
      have hdone : Pool.Follows (.done r : KV β) evs q := hr ▸ hnext
      obtain ⟨rfl, -⟩ := hdone.done_inv
      exact .early [load] (by simpa using ⟨src, hload⟩)
  | some p =>
      obtain ⟨entry, token⟩ := p
      rw [hentry] at hnext
      have hsecond : Pool.Follows (.call (.load dst) (next entry) : KV β) evs q :=
        hsome entry token ▸ hnext
      rcases load_call hsecond hserve.2 with rfl | ⟨load', rest, rfl, hload', -, ⟨e, hend⟩ | hrest⟩
      · exact .early [load] (by simpa using ⟨src, hload⟩)
      · obtain ⟨r, hr⟩ := hfail entry e
        have hdone : Pool.Follows (.done r : KV β) rest q := hr ▸ hend
        obtain ⟨rfl, -⟩ := hdone.done_inv
        exact .early _ (by simpa using ⟨⟨src, hload⟩, ⟨dst, hload'⟩⟩)
      · have hserved := hserve.2
        rw [List.forall_mem_cons] at hserved
        exact .of_tail hload hentry hsame hload' (htail entry _ rest hrest hserved.2)

theorem rename_trace (hne : src ≠ dst) {evs : List (KVEvent ι)} {q : KV Unit}
    (h : Pool.Follows (Storage.rename src dst) evs q)
    (hserve : ∀ ev ∈ evs, casService content ev.before ev.op ev.answer ev.after) :
    RenameTrace src dst evs := by
  refine renameTrace_of_loads (fun entry answer =>
    (Prog.done answer : KV (Option (StoredValue × String))).bind fun dest =>
      (KV.save dst entry (Storage.destCond dest)).bind fun _ => KV.delete src .any) h hserve
    (fun e => ⟨_, rfl⟩) ⟨_, rfl⟩ (fun entry token => if_neg hne) (fun entry e => ⟨_, rfl⟩) ?_
  intro entry loaded rest hfollows hserved
  exact rename_tail hfollows hserved (fun e => ⟨_, rfl⟩) rfl fun answer => ⟨_, rfl⟩

/-- What `renamenx` makes of the answer to its save. -/
def renamenxEnd (src : String) : Result Unit → KV Bool
  | .ok () => (KV.delete src .any).bind fun _ => Prog.done (.ok true)
  | .error .contention => Prog.done (.ok false)
  | .error e => Prog.fail e

theorem renamenxEnd_error (src : String) (e : RustyAntError) :
    ∃ r, renamenxEnd src (.error e) = .done r := by
  cases e <;> exact ⟨_, rfl⟩

theorem renamenx_trace (hne : src ≠ dst) {evs : List (KVEvent ι)} {q : KV Bool}
    (h : Pool.Follows (Storage.renamenx src dst) evs q)
    (hserve : ∀ ev ∈ evs, casService content ev.before ev.op ev.answer ev.after) :
    RenameTrace src dst evs := by
  refine renameTrace_of_loads (fun entry answer =>
    (Prog.done answer : KV (Option (StoredValue × String))).bind fun dest =>
      if (dest.map Prod.fst).isSome then Prog.done (.ok false)
      else (KV.save dst entry .createOnly).attempt.bind (renamenxEnd src)) h hserve
    (fun e => ⟨_, rfl⟩) ⟨_, rfl⟩ (fun entry token => ?_) (fun entry e => ⟨_, rfl⟩) ?_
  · have hend : (fun r : Result Unit => match r with
        | .ok () => (KV.delete src .any).bind fun _ => Prog.done (.ok true)
        | .error .contention => Prog.done (.ok false)
        | .error e => Prog.fail e) = renamenxEnd src := by
      funext r
      cases r with
      | ok u => rfl
      | error e => cases e <;> rfl
    refine (if_neg hne).trans (Eq.trans (b := Prog.call (KVOp.load dst) fun _ => _) rfl
      (congrArg (Prog.call (KVOp.load dst)) (funext fun answer => ?_)))
    cases answer with
    | error e => rfl
    | ok loaded =>
        cases loaded with
        | some p => rfl
        | none =>
            rw [← hend]
            rfl
  · intro entry loaded rest hfollows hserved
    cases loaded with
    | some p =>
        obtain ⟨rfl, -⟩ := Pool.Follows.done_inv hfollows
        exact .inl rfl
    | none =>
        exact rename_tail hfollows hserved (renamenxEnd_error src) rfl fun answer => by
          cases answer <;> exact ⟨_, rfl⟩

theorem Renaming.trace {β : Type} {p q : KV β} (hp : Renaming src dst β p) (hne : src ≠ dst)
    {evs : List (KVEvent ι)} (h : Pool.Follows p evs q)
    (hserve : ∀ ev ∈ evs, casService content ev.before ev.op ev.answer ev.after) :
    RenameTrace src dst evs := by
  cases hp with
  | rename => exact rename_trace hne h hserve
  | renamenx => exact renamenx_trace hne h hserve

/-- A served delete of the source comes last, after the two loads and the save. -/
theorem RenameTrace.delete_last (hne : src ≠ dst) {evs : List (KVEvent ι)} {delete : KVEvent ι}
    (h : RenameTrace src dst (evs ++ [delete])) (htouches : Touches src delete) :
    ∃ load load' save entry token, evs = [load, load', save] ∧ load.op = .load src ∧
      load.before src = some (entry, token) ∧ load.after = load.before ∧ load'.op = .load dst ∧
      SavedAs dst entry save ∧ delete.op = .delete src .any := by
  generalize hl : evs ++ [delete] = l at h
  cases h with
  | early _ hquiet =>
      obtain ⟨key, hop⟩ := hquiet delete (by simp [← hl])
      exact absurd hop htouches.op_ne_load
  | saved load load' save entry token hload hentry hsame hload' hsave =>
      obtain ⟨-, hlast⟩ := List.append_inj' (show evs ++ [delete] = [load, load'] ++ [save] from hl) rfl
      cases hlast
      exact absurd (htouches.op_key hsave) hne
  | deleted load load' save last entry token hload hentry hsame hload' hsave hsaved hdelete =>
      obtain ⟨rfl, hlast⟩ := List.append_inj' (show evs ++ [delete] = [load, load', save] ++ [last] from hl) rfl
      cases hlast
      exact ⟨load, load', save, entry, token, rfl, hload, hentry, hsame, hload', hsaved, hdelete⟩

/-- A served save of the destination comes after the two loads, under the
condition the second of them gives. -/
theorem RenameTrace.save_last (hne : src ≠ dst) {evs : List (KVEvent ι)} {save' : KVEvent ι}
    (h : RenameTrace src dst (evs ++ [save'])) (htouches : Touches dst save') :
    ∃ load load' entry, evs = [load, load'] ∧ load.op = .load src ∧ load'.op = .load dst ∧
      save'.op = .save dst entry (Storage.destCond (load'.before dst)) := by
  generalize hl : evs ++ [save'] = l at h
  cases h with
  | early _ hquiet =>
      obtain ⟨key, hop⟩ := hquiet save' (by simp [← hl])
      exact absurd hop htouches.op_ne_load
  | saved load load' last entry token hload hentry hsame hload' hsave =>
      obtain ⟨rfl, hlast⟩ := List.append_inj' (show evs ++ [save'] = [load, load'] ++ [last] from hl) rfl
      cases hlast
      exact ⟨load, load', entry, rfl, hload, hload', hsave⟩
  | deleted load load' save last entry token hload hentry hsame hload' hsave hsaved hdelete =>
      obtain ⟨-, hlast⟩ :=
        List.append_inj' (show evs ++ [save'] = [load, load', save] ++ [last] from hl) rfl
      cases hlast
      exact absurd (htouches.delete_key hdelete) hne.symm

end Events

section Runs

variable {ι : Type} [DecidableEq ι] {α : ι → Type} {content : String → StoredValue}
variable {c d : Pool KVOp KVOp.Res RustyAntError Keyspace α} {evs : List (KVEvent ι)}
variable {key : String}

theorem untouched_run (h : Pool.Run (casService content) c evs d)
    (hquiet : ∀ ev ∈ evs, ¬ Touches key ev) : d.state key = c.state key := by
  by_contra hne
  obtain ⟨ev, hev, hchange⟩ := h.exists_change (fun s => s key) (Ne.symm hne)
  rcases unchanged_or_touches (h.serve ev hev) key with htouches | hsame
  · exact hquiet ev hev htouches
  · exact hchange hsame.symm

/-- What a key holds is what it held, or was written by the last event that
touches it. -/
theorem last_write (h : Pool.Run (casService content) c evs d) {entry : StoredValue}
    (hend : d.state.entryAt key = some entry) :
    c.state.entryAt key = some entry ∨
      ∃ pre write post, evs = pre ++ write :: post ∧ SavedAs key entry write ∧
        ∀ ev ∈ post, ¬ Touches key ev := by
  induction h with
  | nil => exact .inl hend
  | @snoc evs ev d e _ hs ih =>
      by_cases htouches : Touches key ev
      · refine .inr ⟨evs, ev, [], rfl, ?_, by simp⟩
        rw [← hs.after_eq] at hend
        exact htouches.savedAs hend
      · have hsame := (unchanged_or_touches hs.serve key).resolve_left htouches
        rw [hs.after_eq, hs.before_eq] at hsame
        rw [Keyspace.entryAt, hsame] at hend
        rcases ih hend with hstart | ⟨pre, write, post, rfl, hsaved, hquiet⟩
        · exact .inl hstart
        · refine .inr ⟨pre, write, post ++ [ev], by simp, hsaved, ?_⟩
          rw [List.forall_mem_append, List.forall_mem_singleton]
          exact ⟨hquiet, htouches⟩

variable {src dst : String} {i : ι}

/-- What the rename has done up to one of its own events. -/
theorem own_trace (hren : Renaming src dst (α i) (c.prog i)) (hne : src ≠ dst)
    {pre post : List (KVEvent ι)} {ev : KVEvent ι}
    (h : Pool.Run (casService content) c (pre ++ ev :: post) d) (hwho : ev.who = i) :
    RenameTrace src dst (pre.filter (fun x => x.who = i) ++ [ev]) := by
  rw [List.append_cons] at h
  obtain ⟨m, hm, -⟩ := h.split
  have htrace := hren.trace hne (hm.follows i) fun x hx => hm.serve x (List.mem_filter.mp hx).1
  rwa [List.filter_append, List.filter_cons_of_pos (by simpa using hwho), List.filter_nil] at htrace

omit [DecidableEq ι] in
theorem mem_own [DecidableEq ι] {l : List (KVEvent ι)} {ev : KVEvent ι} (hev : ev ∈ l)
    (hwho : ev.who = i) {own : List (KVEvent ι)} (hown : l.filter (fun x => x.who = i) = own) :
    ev ∈ own :=
  hown ▸ List.mem_filter.mpr ⟨hev, by simpa using hwho⟩

end Runs

/-- Every write of another client to the source has been copied by the rename, is
still there, or has been overwritten or deleted by a later command of another
client. -/
def SourceKept {ι : Type} (i : ι) (src dst : String) (evs : List (KVEvent ι)) (s : Keyspace) :
    Prop :=
  ∀ pre write post entry, evs = pre ++ write :: post → write.who ≠ i → SavedAs src entry write →
    (∃ save ∈ evs, save.who = i ∧ SavedAs dst entry save) ∨ s.entryAt src = some entry ∨
      ∃ ev ∈ post, ev.who ≠ i ∧ Touches src ev

/-- A write of another client to the destination that comes after the rename's load
of it is not what the rename's save overwrites. -/
def DestKept {ι : Type} (i : ι) (dst : String) (evs : List (KVEvent ι)) : Prop :=
  ∀ pre load mid write mid' save post entry copied,
    evs = pre ++ load :: (mid ++ write :: (mid' ++ save :: post)) →
    load.who = i → load.op = .load dst → write.who ≠ i → SavedAs dst entry write →
    save.who = i → SavedAs dst copied save → ∃ ev ∈ mid', ev.who ≠ i ∧ Touches dst ev

/-- A served delete of the source by the rename finds the entry that the rename has
loaded, or nothing. -/
def StillLoaded {ι : Type} (i : ι) (src : String) (evs : List (KVEvent ι)) : Prop :=
  ∀ pre load mid delete post, evs = pre ++ load :: (mid ++ delete :: post) →
    load.who = i → load.op = .load src → delete.who = i → Deleted src delete →
      delete.before.entryAt src = none ∨ delete.before.entryAt src = load.before.entryAt src

/-- If another client's write puts back at the destination, between the rename's load
and its save, the very token that the rename has loaded there, a later command of
another client overwrites or deletes it before the save. -/
def NoTokenBack {ι : Type} (i : ι) (dst : String) (evs : List (KVEvent ι)) : Prop :=
  ∀ pre load mid write mid' save post entry copied,
    evs = pre ++ load :: (mid ++ write :: (mid' ++ save :: post)) →
    load.who = i → load.op = .load dst → write.who ≠ i → SavedAs dst entry write →
    save.who = i → SavedAs dst copied save →
    (write.after dst).map Prod.snd = (load.before dst).map Prod.snd →
      ∃ ev ∈ mid', ev.who ≠ i ∧ Touches dst ev

section Runs

variable {ι : Type} [DecidableEq ι] {α : ι → Type} {content : String → StoredValue}
variable {c d : Pool KVOp KVOp.Res RustyAntError Keyspace α} {evs : List (KVEvent ι)}
variable {src dst : String} {i : ι}

/-- Before a served delete of the source, the rename has loaded an entry from it,
copied that entry, and touched the source by nothing. -/
theorem before_delete (hren : Renaming src dst (α i) (c.prog i)) (hne : src ≠ dst)
    {pre post : List (KVEvent ι)} {delete : KVEvent ι}
    (hrun : Pool.Run (casService content) c (pre ++ delete :: post) d) (hwho : delete.who = i)
    (hdelete : Touches src delete) :
    Deleted src delete ∧ ∃ entry, (∃ save ∈ pre, save.who = i ∧ SavedAs dst entry save) ∧
      (∃ load ∈ pre, load.who = i ∧ load.op = .load src) ∧ ∀ ev ∈ pre, ev.who = i →
        (ev.op = .load src → ev.before.entryAt src = some entry ∧ ev.after = ev.before) ∧
        (∀ copied, SavedAs dst copied ev → copied = entry) ∧ ¬ Touches src ev := by
  obtain ⟨load, load', save, entry, token, hown, hop, hentry, hsame, hop', hsaved, hlast⟩ :=
    (own_trace hren hne hrun hwho).delete_last hne hdelete
  have hmem : ∀ ev ∈ [load, load', save], ev ∈ pre ∧ ev.who = i := by
    intro ev hev
    rw [← hown] at hev
    obtain ⟨hpre, hi⟩ := List.mem_filter.mp hev
    exact ⟨hpre, by simpa using hi⟩
  obtain ⟨hsave, hsi⟩ := hmem save (by simp)
  obtain ⟨hload, hli⟩ := hmem load (by simp)
  refine ⟨hdelete.deleted hlast, entry, ⟨save, hsave, hsi, hsaved⟩, ⟨load, hload, hli, hop⟩,
    fun ev hev hi => ?_⟩
  have hcases := mem_own hev hi hown
  simp only [List.mem_cons, List.not_mem_nil, or_false] at hcases
  rcases hcases with rfl | rfl | rfl
  · refine ⟨fun _ => ⟨by rw [Keyspace.entryAt, hentry]; rfl, hsame⟩, fun copied hcopied => ?_,
      fun htouches => htouches.op_ne_load hop⟩
    exact absurd hop (Touches.op_ne_load (.inl ⟨copied, hcopied⟩))
  · refine ⟨fun hsrc => ?_, fun copied hcopied => ?_, fun htouches => htouches.op_ne_load hop'⟩
    · rw [hop'] at hsrc
      cases hsrc
      exact absurd rfl hne
    · exact absurd hop' (Touches.op_ne_load (.inl ⟨copied, hcopied⟩))
  · obtain ⟨cond, hsaveop⟩ := hsaved.op_eq
    refine ⟨fun hsrc => ?_, fun copied hcopied => hcopied.unique hsaved,
      fun htouches => hne (htouches.op_key hsaveop)⟩
    rw [hsaveop] at hsrc
    cases hsrc

/-- What the rename deletes without having loaded it was written since, by another client, and that
write is lost. -/
theorem write_deleted (hren : Renaming src dst (α i) (c.prog i)) (hne : src ≠ dst)
    {pre mid post : List (KVEvent ι)} {load delete : KVEvent ι}
    (hrun : Pool.Run (casService content) c (pre ++ load :: (mid ++ delete :: post)) d)
    (hload : load.who = i) (hop : load.op = .load src) (hwho : delete.who = i)
    (hdelete : Deleted src delete) (hfound : delete.before.entryAt src ≠ none)
    (hother : delete.before.entryAt src ≠ load.before.entryAt src) :
    ∃ mid₁ write mid₂ e, mid = mid₁ ++ write :: mid₂ ∧ write.who ≠ i ∧ SavedAs src e write ∧
      (∀ ev ∈ mid₂, ¬ Touches src ev) ∧
      ∀ ev ∈ pre ++ load :: mid, ev.who = i → ¬ SavedAs dst e ev := by
  obtain ⟨e, he⟩ := Option.ne_none_iff_exists'.mp hfound
  have hsplit : pre ++ load :: (mid ++ delete :: post) =
    (pre ++ load :: mid) ++ delete :: post := by simp
  obtain ⟨-, entry, -, -, hown⟩ := before_delete hren hne (hsplit ▸ hrun) hwho (.inr hdelete)
  obtain ⟨hentry, hsame⟩ := (hown load (by simp) hload).1 hop
  have hnot : e ≠ entry := by
    rintro rfl
    exact hother (he.trans hentry.symm)
  obtain ⟨m, m', hmid, hm, hm'⟩ := hrun.between
  rw [← hm'] at he
  rcases last_write hmid he with hstart | ⟨mid₁, write, mid₂, rfl, hsaved, hquiet⟩
  · rw [hm, hsame, hentry, Option.some.injEq] at hstart
    exact absurd hstart.symm hnot
  · refine ⟨mid₁, write, mid₂, e, rfl, ?_, hsaved, hquiet, ?_⟩
    · exact fun hi => (hown write (by simp) hi).2.2 (.inl ⟨e, hsaved⟩)
    · exact fun ev hev hi hcopied => hnot ((hown ev hev hi).2.1 e hcopied)

theorem stillLoaded_of_sourceKept (hren : Renaming src dst (α i) (c.prog i)) (hne : src ≠ dst)
    (hrun : Pool.Run (casService content) c evs d)
    (hkept : ∀ evs₁ evs₂ (d₁ : Pool KVOp KVOp.Res RustyAntError Keyspace α), evs = evs₁ ++ evs₂ →
      Pool.Run (casService content) c evs₁ d₁ → SourceKept i src dst evs₁ d₁.state) :
    StillLoaded i src evs := by
  intro pre load mid delete post hevs hload hop hwho hdelete
  subst hevs
  by_contra hlost
  rw [not_or] at hlost
  obtain ⟨mid₁, write, mid₂, e, rfl, hother, hsaved, hquiet, hnot⟩ :=
    write_deleted hren hne hrun hload hop hwho hdelete hlost.1 hlost.2
  have hfront : pre ++ load :: ((mid₁ ++ write :: mid₂) ++ delete :: post) =
    (pre ++ load :: (mid₁ ++ write :: mid₂)) ++ delete :: post := by simp
  rw [hfront, List.append_cons] at hrun
  obtain ⟨d₁, hd₁, -⟩ := hrun.split
  have hgone : d₁.state.entryAt src = none := by
    obtain ⟨_, -, hs⟩ := hd₁.snoc_inv
    rw [← hs.after_eq, Keyspace.entryAt, hdelete.after_eq]
    rfl
  rcases hkept _ post d₁ (by simp) hd₁ (pre ++ load :: mid₁) write (mid₂ ++ [delete]) e
    (by simp) hother hsaved with ⟨save, hsave, hi, hcopied⟩ | hstored | ⟨ev, hev, hi, htouches⟩
  · rw [List.mem_append, List.mem_singleton] at hsave
    rcases hsave with hsave | rfl
    · exact hnot save hsave hi hcopied
    · obtain ⟨cond, hcopy⟩ := hcopied.op_eq
      exact hne (Touches.op_key (.inr hdelete) hcopy)
  · rw [hgone] at hstored
    cases hstored
  · rw [List.mem_append, List.mem_singleton] at hev
    rcases hev with hev | rfl
    · exact hquiet ev hev htouches
    · exact hi hwho

/-- A write at the source that the rename deletes, and nobody else touches, has been copied. -/
theorem write_copied (hren : Renaming src dst (α i) (c.prog i)) (hne : src ≠ dst)
    {pre mid post evs₂ : List (KVEvent ι)} {write delete : KVEvent ι} {entry : StoredValue}
    (hrun : Pool.Run (casService content) c (pre ++ write :: (mid ++ delete :: post)) d)
    (hstill : StillLoaded i src (pre ++ write :: (mid ++ delete :: post) ++ evs₂))
    (hsaved : SavedAs src entry write) (hi : delete.who = i) (htouches : Touches src delete)
    (hother : ∀ ev ∈ mid, ev.who ≠ i → ¬ Touches src ev) :
    ∃ save ∈ pre ++ write :: mid, save.who = i ∧ SavedAs dst entry save := by
  have hsplit : pre ++ write :: (mid ++ delete :: post) =
    (pre ++ write :: mid) ++ delete :: post := by simp
  obtain ⟨hdel, e, ⟨save, hsave, hsi, hcopied⟩, ⟨load, hload, hli, hop⟩, hown⟩ :=
    before_delete hren hne (hsplit ▸ hrun) hi htouches
  have hquiet : ∀ ev ∈ mid, ¬ Touches src ev := by
    intro ev hev htouch
    by_cases hev' : ev.who = i
    · exact (hown ev (by simp [hev]) hev').2.2 htouch
    · exact hother ev hev hev' htouch
  obtain ⟨m, m', hmid, hm, hm'⟩ := hrun.between
  have hfound : delete.before.entryAt src = some entry := by
    rw [← hm', Keyspace.entryAt, untouched_run hmid hquiet, hm]
    exact hsaved.entry_after
  obtain ⟨pre', post', hpre'⟩ := List.append_of_mem hload
  have hwhole : pre ++ write :: (mid ++ delete :: post) ++ evs₂ =
    pre' ++ load :: (post' ++ delete :: (post ++ evs₂)) := by
    rw [hsplit, hpre']
    simp
  have hsame : entry = e := by
    rcases hstill pre' load post' delete (post ++ evs₂) hwhole hli hop hi hdel with h | h
    · rw [hfound] at h
      cases h
    · rw [hfound, ((hown load hload hli).1 hop).1] at h
      exact Option.some.inj h
  rw [hsame]
  exact ⟨save, hsave, hsi, hcopied⟩

theorem sourceKept_of_stillLoaded (hren : Renaming src dst (α i) (c.prog i)) (hne : src ≠ dst)
    (hstill : StillLoaded i src evs) {evs₁ evs₂ : List (KVEvent ι)}
    {d₁ : Pool KVOp KVOp.Res RustyAntError Keyspace α} (hevs : evs = evs₁ ++ evs₂)
    (hrun₁ : Pool.Run (casService content) c evs₁ d₁) :
    SourceKept i src dst evs₁ d₁.state := by
  intro pre write post entry hevs₁ hwho hsaved
  subst hevs hevs₁
  by_cases hother : ∃ ev ∈ post, ev.who ≠ i ∧ Touches src ev
  · exact .inr (.inr hother)
  by_cases hdelete : ∃ ev ∈ post, ev.who = i ∧ Touches src ev
  · obtain ⟨delete, hmem, hi, htouches⟩ := hdelete
    obtain ⟨mid, rest, rfl⟩ := List.append_of_mem hmem
    obtain ⟨save, hsave, hsi, hcopied⟩ := write_copied hren hne hrun₁ hstill hsaved hi htouches
      fun ev hev hne' htouch => hother ⟨ev, by simp [hev], hne', htouch⟩
    refine .inl ⟨save, ?_, hsi, hcopied⟩
    rw [List.append_cons pre write] at hsave ⊢
    rw [← List.append_assoc]
    exact List.mem_append_left _ hsave
  · have hquiet : ∀ ev ∈ post, ¬ Touches src ev := by
      intro ev hev htouches
      by_cases hi : ev.who = i
      · exact hdelete ⟨ev, hev, hi, htouches⟩
      · exact hother ⟨ev, hev, hi, htouches⟩
    obtain ⟨m, hm, hstate⟩ := hrun₁.since
    refine .inr (.inl ?_)
    rw [Keyspace.entryAt, untouched_run hm hquiet, hstate]
    exact hsaved.entry_after

theorem sourceKept_iff (hren : Renaming src dst (α i) (c.prog i)) (hne : src ≠ dst)
    (hrun : Pool.Run (casService content) c evs d) :
    (∀ evs₁ evs₂ (d₁ : Pool KVOp KVOp.Res RustyAntError Keyspace α), evs = evs₁ ++ evs₂ →
        Pool.Run (casService content) c evs₁ d₁ → SourceKept i src dst evs₁ d₁.state) ↔
      StillLoaded i src evs :=
  ⟨stillLoaded_of_sourceKept hren hne hrun,
    fun hstill _ _ _ hevs hrun₁ => sourceKept_of_stillLoaded hren hne hstill hevs hrun₁⟩

theorem destKept_iff (hren : Renaming src dst (α i) (c.prog i)) (hne : src ≠ dst)
    (hrun : Pool.Run (casService content) c evs d) :
    DestKept i dst evs ↔ NoTokenBack i dst evs := by
  constructor
  · intro hkept pre load mid write mid' save post entry copied hevs hli hop hwho hwrite hsi hsave _
    exact hkept pre load mid write mid' save post entry copied hevs hli hop hwho hwrite hsi hsave
  · intro hback pre load mid write mid' save post entry copied hevs hli hop hwho hwrite hsi hsave
    subst hevs
    by_contra hother
    have hsplit : pre ++ load :: (mid ++ write :: (mid' ++ save :: post)) =
      (pre ++ load :: (mid ++ write :: mid')) ++ save :: post := by simp
    have hsplit' : pre ++ load :: (mid ++ write :: (mid' ++ save :: post)) =
      (pre ++ load :: mid) ++ write :: (mid' ++ save :: post) := by simp
    obtain ⟨load₁, load₂, entry₁, hown, hop₁, hop₂, hsaveop⟩ :=
      (own_trace hren hne (hsplit ▸ hrun) hsi).save_last hne (.inl ⟨copied, hsave⟩)
    have hloads : ∀ ev ∈ pre ++ load :: (mid ++ write :: mid'), ev.who = i →
        ev = load₁ ∨ ev = load₂ := by
      intro ev hev hi
      simpa using mem_own hev hi hown
    have hquiet : ∀ ev ∈ mid', ¬ Touches dst ev := by
      intro ev hev htouches
      by_cases hi : ev.who = i
      · rcases hloads ev (by simp [hev]) hi with rfl | rfl
        · exact htouches.op_ne_load hop₁
        · exact htouches.op_ne_load hop₂
      · exact hother ⟨ev, hev, hi, htouches⟩
    have hload : load = load₂ := by
      rcases hloads load (by simp) hli with rfl | rfl
      · rw [hop₁] at hop
        cases hop
        exact absurd rfl hne
      · rfl
    -- the save finds what the write has left, and its condition names the loaded token
    obtain ⟨m, m', hmid, hm, hm'⟩ := (hsplit' ▸ hrun).between
    have hfound : save.before dst = write.after dst := by
      rw [← hm', ← hm]
      exact untouched_run hmid hquiet
    refine hother (hback pre load mid write mid' save post entry copied rfl hli hop hwho hwrite hsi
      hsave ?_)
    rw [← hfound, hload]
    exact destCond_met (hsave.met (hrun.serve save (by simp)) hsaveop)

end Runs

/-- A rename loses no acknowledged write of another client, at the source or at the
destination, if and only if its delete of the source finds the entry that it has
loaded (or nothing), and no other client puts the loaded token back at the
destination. -/
theorem rename_keeps_writes_iff {ι : Type} [DecidableEq ι] {α : ι → Type}
    (content : String → StoredValue) (src dst : String) (i : ι)
    (c d : Pool KVOp KVOp.Res RustyAntError Keyspace α) (evs : List (KVEvent ι))
    (hne : src ≠ dst) (hren : Renaming src dst (α i) (c.prog i))
    (hrun : Pool.Run (casService content) c evs d) :
    ((∀ evs₁ evs₂ (d₁ : Pool KVOp KVOp.Res RustyAntError Keyspace α), evs = evs₁ ++ evs₂ →
        Pool.Run (casService content) c evs₁ d₁ → SourceKept i src dst evs₁ d₁.state) ∧
      DestKept i dst evs) ↔ StillLoaded i src evs ∧ NoTokenBack i dst evs := by
  rw [sourceKept_iff hren hne hrun, destKept_iff hren hne hrun]

/-! ## A `SET` between the load and the delete -/

namespace RenameAndSet

/-- `RENAME a b` and `SET a 2`. -/
def start : Pool KVOp KVOp.Res RustyAntError Keyspace (fun _ : Fin 2 => Unit) :=
  ⟨Function.update (fun _ => none) "a" (some (TwoIncrements.content "1", "1")),
    fun i => if i = 0 then Storage.rename "a" "b" else Storage.setString "a" [50] none⟩

/-- The rename has loaded both keys and saved `b`; the `SET` comes before its delete. -/
def schedule : List (Fin 2) := [0, 0, 0, 1, 0]

/-- The events of the run. -/
def events : List (KVEvent (Fin 2)) := Pool.trace TwoIncrements.serve schedule start

end RenameAndSet

open RenameAndSet TwoIncrements in
/-- The acknowledged `SET` is neither under `a` nor under `b`. -/
theorem rename_loses_set :
    ∃ evs d, Pool.Run (casService TwoIncrements.content) RenameAndSet.start evs d ∧
      d.prog 0 = .done (.ok ()) ∧ d.prog 1 = .done (.ok ()) ∧
      ¬ SourceKept 0 "a" "b" evs d.state := by
  refine ⟨events, _, Pool.exec_trace serve_service RenameAndSet.schedule RenameAndSet.start,
    rfl, rfl, fun hkept => ?_⟩
  have hset : SavedAs "a" (TwoIncrements.content "2") (events.get ⟨3, by decide⟩) :=
    ⟨1, .any, (events.get ⟨3, by decide⟩).before, "2", rfl⟩
  have hnowhere : ∀ ev ∈ events, ev.after.entryAt "b" ≠ some (TwoIncrements.content "2") := by
    decide +kernel
  rcases hkept (events.take 3) _ (events.drop 4) _ rfl (by decide) hset with
    ⟨save, hsave, -, hcopied⟩ | hstored | ⟨ev, hev, hother, -⟩
  · exact hnowhere save hsave hcopied.entry_after
  · revert hstored
    decide +kernel
  · have hlast : ∀ ev ∈ events.drop 4, ev.who = 0 := by decide +kernel
    exact hother (hlast ev hev)

open RenameAndSet TwoIncrements in
theorem rename_keeps_writes_iff_on_set :
    ∃ evs d, Pool.Run (casService TwoIncrements.content) RenameAndSet.start evs d ∧
      (((∀ evs₁ evs₂ (d₁ : Pool KVOp KVOp.Res RustyAntError Keyspace fun _ : Fin 2 => Unit),
          evs = evs₁ ++ evs₂ →
          Pool.Run (casService TwoIncrements.content) RenameAndSet.start evs₁ d₁ →
            SourceKept 0 "a" "b" evs₁ d₁.state) ∧ DestKept 0 "b" evs) ↔
        StillLoaded 0 "a" evs ∧ NoTokenBack 0 "b" evs) := by
  have hrun := Pool.exec_trace serve_service RenameAndSet.schedule RenameAndSet.start
  exact ⟨_, _, hrun, rename_keeps_writes_iff TwoIncrements.content "a" "b" 0 RenameAndSet.start _ _
    (by decide) .rename hrun⟩

end RustyAnt
