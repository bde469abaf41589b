import RustyAnt.Commands.Keys
import RustyAnt.Storage.Keeps

/-!
# Deadlines

What the commands that set an expiry make of their argument and the clock.  The sums and
products that saturate are exact or clamped; the plain ones are so only inside the range.
-/

namespace RustyAnt

open Lib

/-- A value pushed into the range of an `i64`. -/
def clampI64 (a : Int) : Int := max i64Min (min i64Max a)

theorem clampI64_of_in {a : Int} (h : InI64 a) : clampI64 a = a := by
  unfold InI64 at h
  unfold clampI64
  omega

namespace Commands

/-- How a command reckons a deadline from its argument. -/
inductive Reckoning where
  | fromSeconds -- `now_ms() + n * 1000`
  | fromMillis -- `now_ms() + n`
  | fromSaturatedSeconds -- `now_ms() + n.saturating_mul(1000)`
  | saturatedFromMillis -- `now_ms().saturating_add(n)`
  | atSeconds -- `n.saturating_mul(1000)`
  | atMillis -- `n`
  | never -- the `0` of `RESTORE`
  deriving DecidableEq

namespace Reckoning

/-- The deadline in the integers. -/
def exact (n now : Int) : Reckoning → Option Int
  | fromSeconds => some (now + 1000 * n)
  | fromMillis => some (now + n)
  | fromSaturatedSeconds => some (now + 1000 * n)
  | saturatedFromMillis => some (now + n)
  | atSeconds => some (1000 * n)
  | atMillis => some n
  | never => none

/-- The deadline as the code computes it. -/
def computed (n now : Int) : Reckoning → Option Int
  | fromSeconds => some (wrapI64 (now + wrapI64 (n * 1000)))
  | fromMillis => some (wrapI64 (now + n))
  | fromSaturatedSeconds => some (wrapI64 (now + saturatingSeconds n))
  | saturatedFromMillis => some (saturatingAdd now n)
  | atSeconds => some (saturatingSeconds n)
  | atMillis => some n
  | never => none

/-- What the operators without overflow handling should come to. -/
def plain (n now : Int) : Reckoning → List Int
  | fromSeconds => [n * 1000, now + n * 1000]
  | fromMillis => [now + n]
  | fromSaturatedSeconds => [now + saturatingSeconds n]
  | _ => []

/-- Is the argument a duration? -/
def Relative : Reckoning → Prop
  | fromSeconds | fromMillis | fromSaturatedSeconds | saturatedFromMillis => True
  | _ => False

/-- The arguments that keep the plain operators inside the range. -/
def InRange (n now : Int) : Reckoning → Prop
  | fromSeconds => i64Min ≤ n * 1000 ∧ now + n * 1000 ≤ i64Max
  | fromMillis => now + n ≤ i64Max
  | fromSaturatedSeconds => now = 0 ∨ i64Min ≤ n * 1000 ∧ now + n * 1000 ≤ i64Max
  | _ => True

variable {n now : Int} {r : Reckoning}

theorem fits_of_inRange (hnow : IsClock now) (hn : InI64 n) (h : r.InRange n now) :
    ∀ a ∈ r.plain n now, InI64 a := by
  unfold IsClock at hnow
  cases r with
  | fromSeconds =>
      have hrange : i64Min ≤ n * 1000 ∧ now + n * 1000 ≤ i64Max := h
      simp only [plain, List.forall_mem_cons, List.not_mem_nil, false_implies, implies_true,
        and_true]
      unfold InI64
      omega
  | fromMillis =>
      have hrange : now + n ≤ i64Max := h
      unfold InI64 at hn
      simp only [plain, List.mem_singleton, forall_eq]
      unfold InI64
      omega
  | fromSaturatedSeconds =>
      have hrange : now = 0 ∨ i64Min ≤ n * 1000 ∧ now + n * 1000 ≤ i64Max := h
      simp only [plain, List.mem_singleton, forall_eq]
      unfold InI64 saturatingSeconds i64Min i64Max at *
      omega
  | saturatedFromMillis => simp [plain]
  | atSeconds => simp [plain]
  | atMillis => simp [plain]
  | never => simp [plain]

theorem computed_of_inRange (hnow : IsClock now) (hn : InI64 n) (h : r.InRange n now) :
    r.computed n now = (r.exact n now).map clampI64 := by
  have hfits := fits_of_inRange hnow hn h
  unfold IsClock at hnow
  cases r with
  | fromSeconds =>
      simp only [plain, List.forall_mem_cons, List.not_mem_nil, false_implies, implies_true,
        and_true] at hfits
      simp only [computed, exact, Option.map_some]
      rw [wrapI64_eq_iff.mpr hfits.1, wrapI64_eq_iff.mpr hfits.2, Int.mul_comm n 1000,
        clampI64_of_in (Int.mul_comm n 1000 ▸ hfits.2)]
  | fromMillis =>
      simp only [plain, List.mem_singleton, forall_eq] at hfits
      simp only [computed, exact, Option.map_some]
      rw [wrapI64_eq_iff.mpr hfits, clampI64_of_in hfits]
  | fromSaturatedSeconds =>
      have hrange : now = 0 ∨ i64Min ≤ n * 1000 ∧ now + n * 1000 ≤ i64Max := h
      simp only [plain, List.mem_singleton, forall_eq] at hfits
      simp only [computed, exact, Option.map_some]
      rw [wrapI64_eq_iff.mpr hfits, Option.some.injEq]
      unfold saturatingSeconds clampI64 i64Min i64Max at *
      omega
  | saturatedFromMillis => rfl
  | atSeconds =>
      simp only [computed, exact, Option.map_some]
      rw [saturatingSeconds, Int.mul_comm n 1000, clampI64]
  | atMillis =>
      simp only [computed, exact, Option.map_some]
      rw [clampI64_of_in hn]
  | never => rfl

theorem exact_later (hnow : IsClock now) (hr : r.Relative) (hpos : 0 < n) :
    ∀ d ∈ (r.exact n now).map clampI64, now < d := by
  unfold IsClock at hnow
  have hlater : ∀ a, now < a → now < clampI64 a := by
    intro a ha
    unfold clampI64 i64Min i64Max
    omega
  cases r with
  | fromSeconds | fromMillis | fromSaturatedSeconds | saturatedFromMillis =>
      simp only [exact, Option.map_some, Option.mem_def, Option.some.injEq, forall_eq']
      apply hlater
      omega
  | atSeconds | atMillis | never => exact hr.elim

end Reckoning

/-! ## Requests -/

open Reckoning

/-- An option of `SET` with its argument. -/
inductive SetOption : Bytes → Bytes → Reckoning → Int → Prop
  | ex {word arg : Bytes} {n : Int} (hword : optionWord word = .ok "EX")
      (harg : parseI64 arg "EX" = .ok n) : SetOption word arg fromSeconds n
  | px {word arg : Bytes} {n : Int} (hword : optionWord word = .ok "PX")
      (harg : parseI64 arg "PX" = .ok n) : SetOption word arg fromMillis n

/-- The options of a `SET`, each with what it reckons. -/
inductive SetOptions : List Bytes → List (Reckoning × Int) → Prop
  | nil : SetOptions [] []
  | cons {word arg : Bytes} {opts : List Bytes} {r : Reckoning} {n : Int}
      {reckoned : List (Reckoning × Int)} (h : SetOption word arg r n)
      (hopts : SetOptions opts reckoned) : SetOptions (word :: arg :: opts) ((r, n) :: reckoned)

/-- What an option of `GETEX` reckons. -/
def getexReckoning : String → Option Reckoning
  | "EX" => some fromSaturatedSeconds
  | "PX" => some fromMillis
  | "EXAT" => some atSeconds
  | "PXAT" => some atMillis
  | _ => none

/-- What `RESTORE` reckons from its TTL. -/
def restoreReckoning (ttl : Int) (absTtl : Bool) : Reckoning :=
  if ttl = 0 then never else if absTtl then atMillis else saturatedFromMillis

/-- A request that sets an expiry: its program, the arguments that later ones of it
override, and the one that counts. -/
inductive ExpiryRequest (fo : FloatOps) : KV RespReply → List (Reckoning × Int) →
    Reckoning → Int → Prop
  | set {key value : Bytes} {k : String} {opts : List Bytes} {earlier : List (Reckoning × Int)}
      {r : Reckoning} {n : Int} (hkey : argAsStr key = .ok k)
      (hopts : SetOptions opts (earlier ++ [(r, n)])) :
      ExpiryRequest fo (handleSet (key :: value :: opts)) earlier r n
  | setex {key arg value : Bytes} {k : String} {n : Int} (hkey : argAsStr key = .ok k)
      (harg : parseI64 arg "seconds" = .ok n) (hpos : 0 < n) :
      ExpiryRequest fo (handleSetex [key, arg, value]) [] fromSeconds n
  | expire {key arg : Bytes} {k : String} {n : Int} (hkey : argAsStr key = .ok k)
      (harg : parseI64 arg "seconds" = .ok n) :
      ExpiryRequest fo (handleExpire [key, arg]) [] fromSeconds n
  | pexpire {key arg : Bytes} {k : String} {n : Int} (hkey : argAsStr key = .ok k)
      (harg : parseI64 arg "milliseconds" = .ok n) :
      ExpiryRequest fo (handlePexpire [key, arg]) [] fromMillis n
  | expireat {key arg : Bytes} {k : String} {n : Int} (hkey : argAsStr key = .ok k)
      (harg : parseI64 arg "unix-time-seconds" = .ok n) :
      ExpiryRequest fo (handleExpireat [key, arg]) [] atSeconds n
  | pexpireat {key arg : Bytes} {k : String} {n : Int} (hkey : argAsStr key = .ok k)
      (harg : parseI64 arg "unix-time-milliseconds" = .ok n) :
      ExpiryRequest fo (handlePexpireat [key, arg]) [] atMillis n
  | getex {key word arg : Bytes} {k name : String} {r : Reckoning} {n : Int}
      (hkey : argAsStr key = .ok k) (hword : optionWord word = .ok name)
      (hname : getexReckoning name = some r) (harg : parseI64 arg name = .ok n) :
      ExpiryRequest fo (handleGetex [key, word, arg]) [] r n
  | restore {key arg payload : Bytes} {k : String} {opts : List Bytes} {n : Int}
      {replace absTtl : Bool} (hkey : argAsStr key = .ok k) (harg : parseRestoreTtl arg = .ok n)
      (hopts : parseRestoreOpts opts (false, false) = .ok (replace, absTtl)) :
      ExpiryRequest fo (handleRestore fo (key :: arg :: payload :: opts)) []
        (restoreReckoning n absTtl) n

/-- Every clock that the program reads is at `now`; the other answers are arbitrary. -/
def clockIs (now : Int) : (op : KVOp) → Result op.Res → Prop
  | .nowMs, r => r = .ok now
  | _, _ => True

/-- What is stored has a deadline within `D`. -/
def storesWithin (D : Option Int → Prop) : KVOp → Prop
  | .save _ entry _ => D entry.expiresAtMs
  | _ => True

/-- Every entry that the program stores at that clock has a deadline within `D`. -/
def StoresWithin {α : Type} (now : Int) (D : Option Int → Prop) (p : KV α) : Prop :=
  p.Obeys (clockIs now) (storesWithin D) fun _ => True

/-- The request stores the deadline of the integers or the nearest value of the range, on
every backend and along every interleaving, and no operator overflows on the way. -/
structure ExactDeadline (p : KV RespReply) (now : Int) (earlier : List (Reckoning × Int))
    (r : Reckoning) (n : Int) : Prop where
  fits : ∀ q ∈ earlier ++ [(r, n)], ∀ a ∈ q.1.plain q.2 now, InI64 a
  stores : StoresWithin now (fun d => d = (r.exact n now).map clampI64) p
  later : r.Relative → 0 < n → StoresWithin now (fun d => ∀ t ∈ d, now < t) p

namespace StoresWithin

variable {α β R : Type} {now : Int} {D : Option Int → Prop}

theorem done (r : Result α) : StoresWithin now D (.done r) := trivial

theorem bind {p : KV α} {f : α → KV β} (hp : StoresWithin now D p)
    (hf : ∀ a, StoresWithin now D (f a)) : StoresWithin now D (p.bind f) :=
  Prog.Obeys.bind hp (fun a _ => hf a) fun _ _ => trivial

theorem parse {x : Result α} {f : α → KV β} (h : ∀ a, x = .ok a → StoresWithin now D (f a)) :
    StoresWithin now D ((Prog.ofExcept x).bind f) := by
  cases x with
  | ok a => exact h a rfl
  | error e => exact done _

theorem attempt {p : KV α} (hp : StoresWithin now D p) : StoresWithin now D p.attempt :=
  Prog.Obeys.mono (Prog.Obeys.attempt hp) fun _ _ => trivial

theorem save {key : String} {entry : StoredValue} {cond : WriteCondition}
    (h : D entry.expiresAtMs) : StoresWithin now D (KV.save key entry cond) :=
  Prog.Obeys.perform h fun _ _ => trivial

/-- A program that goes on with the deadline it reckons from the clock. -/
theorem deadline {ms : Int} {f : Int → KV β} (h : StoresWithin now D (f (wrapI64 (now + ms)))) :
    StoresWithin now D ((Commands.deadline ms).bind f) := by
  refine ⟨trivial, fun r hr => ?_⟩
  rw [show r = .ok now from hr]
  exact h

theorem cas {key : String} {modify : Option StoredValue → Result (CasAction R)}
    (h : ∀ entry action, modify entry = .ok action →
      ∀ entry' r, action = .write entry' r → D entry'.expiresAtMs) :
    StoresWithin now D (RustyAnt.cas key modify) := by
  apply casFrom_obeys trivial (Prog.Obeys.done trivial)
  intro seen d loaded action _ haction
  apply casCommit_obeys
  · rintro entry r rfl
    exact h _ _ haction entry r rfl
  · rintro r p rfl rfl
    exact trivial

theorem mono {D' : Option Int → Prop} {p : KV α} (hp : StoresWithin now D p)
    (himp : ∀ d, D d → D' d) : StoresWithin now D' p := by
  induction p with
  | done r => trivial
  | call op k ih =>
      refine ⟨?_, fun r hr => ih r (hp.2 r hr)⟩
      have hop := hp.1
      cases op with
      | save key entry cond => exact himp _ hop
      | _ => trivial

theorem setString {key : String} {value : Bytes} {d : Option Int} (h : D d) :
    StoresWithin now D (Storage.setString key value d) := save h

theorem expireAt {key : String} {t : Int} (h : D (some t)) :
    StoresWithin now D (Storage.expireAt key t) := by
  apply cas
  intro entry action haction entry' r hwrite
  subst hwrite
  cases entry with
  | none => cases haction
  | some existing =>
      cases haction
      exact h

theorem getStringWithTtl {key : String} {t : Int} (h : D (some t)) :
    StoresWithin now D (Storage.getStringWithTtl key (.setExpireAtMs t)) := by
  apply cas
  intro entry action haction entry' r hwrite
  subst hwrite
  obtain ⟨found, hfound, haction⟩ := Result.bind_eq_ok.mp haction
  cases found with
  | none => cases haction
  | some p =>
      cases haction
      exact h

theorem restoreWith {key : String} {value : Value} {ttl : Int} {replace absTtl : Bool}
    (h : D ((restoreReckoning ttl absTtl).computed ttl now)) :
    StoresWithin now D (Storage.restoreWith key value ttl replace absTtl) := by
  have hsave : ∀ (d : Option Int) {next : Result Unit → KV Unit}, D d →
      (∀ answer, StoresWithin now D (next answer)) →
      StoresWithin now D (if replace then KV.save key ⟨d, value⟩ .any
        else (KV.save key ⟨d, value⟩ .createOnly).attempt.bind next) := by
    intro d next hd hnext
    split
    · exact save hd
    · exact bind (attempt (save hd)) hnext
  unfold Storage.restoreWith Storage.restoreExpiry
  unfold restoreReckoning at h
  by_cases hzero : ttl = 0
  · rw [if_pos hzero] at h ⊢
    exact hsave none h fun answer => by split <;> exact done _
  · rw [if_neg hzero] at h ⊢
    by_cases habs : absTtl = true
    · rw [if_pos habs] at h ⊢
      exact hsave (some ttl) h fun answer => by split <;> exact done _
    · rw [if_neg habs] at h ⊢
      refine ⟨trivial, fun r hr => ?_⟩
      rw [show r = .ok now from hr]
      exact hsave _ h fun answer => by split <;> exact done _

end StoresWithin

/-! ## What each request stores -/

variable {fo : FloatOps} {now n : Int} {D : Option Int → Prop}

/-- The options are read one by one, and the last one counts. -/
theorem parseSetOpts_stores {β : Type} {opts : List Bytes} {reckoned : List (Reckoning × Int)}
    (h : SetOptions opts reckoned) (exp : Option Int) {f : Option Int → KV β}
    (hf : StoresWithin now D
      (f (reckoned.foldl (fun _ q => q.1.computed q.2 now) exp))) :
    StoresWithin now D ((parseSetOpts opts exp).bind f) := by
  induction h generalizing exp with
  | nil => exact hf
  | @cons word arg opts r n reckoned hopt hopts ih =>
      cases hopt with
      | ex hword harg =>
          have heq : parseSetOpts (word :: arg :: opts) exp =
              (Commands.deadline (wrapI64 (n * 1000))).bind fun t => parseSetOpts opts (some t) := by
            rw [parseSetOpts, hword]
            show (Prog.ofExcept (parseI64 arg "EX")).bind _ = _
            rw [harg]
            rfl
          rw [heq, Prog.bind_assoc]
          apply StoresWithin.deadline
          exact ih _ hf
      | px hword harg =>
          have heq : parseSetOpts (word :: arg :: opts) exp =
              (Commands.deadline n).bind fun t => parseSetOpts opts (some t) := by
            rw [parseSetOpts, hword]
            show (Prog.ofExcept (parseI64 arg "PX")).bind _ = _
            rw [harg]
            rfl
          rw [heq, Prog.bind_assoc]
          apply StoresWithin.deadline
          exact ih _ hf

theorem handleExpiry_stores {cmd label : String} {expiresAt : Int → KV Int} {key arg : Bytes}
    {k : String} (hkey : argAsStr key = .ok k) (harg : parseI64 arg label = .ok n)
    (h : StoresWithin now D ((expiresAt n).bind fun t =>
      (Storage.expireAt k t).bind fun set => .done (.ok (RespReply.flag set)))) :
    StoresWithin now D (handleExpiry cmd label expiresAt [key, arg]) := by
  have heq : handleExpiry cmd label expiresAt [key, arg] = (expiresAt n).bind fun t =>
      (Storage.expireAt k t).bind fun set => .done (.ok (RespReply.flag set)) := by
    unfold handleExpiry
    show (Prog.ofExcept (argAsStr key)).bind _ = _
    rw [hkey]
    show (Prog.ofExcept (parseI64 arg label)).bind _ = _
    rw [harg]
    rfl
  rw [heq]
  exact h

/-- The clock that a `GETEX` option reads, and its deadline. -/
def getexDeadline (n : Int) : Reckoning → KV Int
  | fromSaturatedSeconds => deadline (saturatingSeconds n)
  | fromMillis => deadline n
  | atSeconds => return saturatingSeconds n
  | _ => return n

theorem handleGetex_eq {key word arg : Bytes} {k name : String} {r : Reckoning}
    (hkey : argAsStr key = .ok k) (hword : optionWord word = .ok name)
    (hname : getexReckoning name = some r) (harg : parseI64 arg name = .ok n) :
    handleGetex [key, word, arg] = (getexDeadline n r).bind fun t =>
      (Storage.getStringWithTtl k (.setExpireAtMs t)).bind fun v =>
        .done (.ok (RespReply.bulkOrNil v)) := by
  have hop : parseGetexOp [word, arg] =
      (getexDeadline n r).bind fun t => .done (.ok (.setExpireAtMs t)) := by
    unfold parseGetexOp
    show (Prog.ofExcept (optionWord word)).bind _ = _
    rw [hword]
    unfold getexReckoning at hname
    split at hname
    all_goals first
      | cases hname
        show (Prog.ofExcept (parseI64 arg _)).bind _ = _
        rw [harg]
        rfl
      | cases hname
  unfold handleGetex
  dsimp only
  rw [if_neg (by simp)]
  show (Prog.ofExcept (argAsStr key)).bind _ = _
  rw [hkey, Prog.ofExcept, Prog.done_ok_bind, Prog.bind_eq, hop, Prog.bind_assoc]
  rfl

theorem getexDeadline_stores {β : Type} {name : String} {r : Reckoning}
    (hname : getexReckoning name = some r) {f : Int → KV β}
    (hf : ∀ t, r.computed n now = some t → StoresWithin now D (f t)) :
    StoresWithin now D ((getexDeadline n r).bind f) := by
  unfold getexReckoning at hname
  split at hname
  · cases hname
    exact .deadline (hf _ rfl)
  · cases hname
    exact .deadline (hf _ rfl)
  · cases hname
    exact hf _ rfl
  · cases hname
    exact hf _ rfl
  · cases hname

theorem request_stores {p : KV RespReply} {earlier : List (Reckoning × Int)} {r : Reckoning}
    (hp : ExpiryRequest fo p earlier r n) (hD : D (r.computed n now)) : StoresWithin now D p := by
  cases hp with
  | @set key value k opts earlier r n hkey hopts =>
      show StoresWithin now D ((Prog.ofExcept (argAsStr key)).bind _)
      rw [hkey]
      apply parseSetOpts_stores hopts
      rw [List.foldl_append]
      exact .bind (.setString hD) fun _ => .done _
  | @setex key arg value k n hkey harg hpos =>
      show StoresWithin now D ((Prog.ofExcept (argAsStr key)).bind _)
      rw [hkey]
      show StoresWithin now D ((Prog.ofExcept (parseI64 arg "seconds")).bind _)
      rw [harg, Prog.ofExcept, Prog.done_ok_bind, if_neg (by omega)]
      exact .deadline (.bind (.setString hD) fun _ => .done _)
  | expire hkey harg =>
      apply handleExpiry_stores hkey harg
      exact .deadline (.bind (.expireAt hD) fun _ => .done _)
  | pexpire hkey harg =>
      apply handleExpiry_stores hkey harg
      exact .deadline (.bind (.expireAt hD) fun _ => .done _)
  | expireat hkey harg =>
      apply handleExpiry_stores hkey harg
      show StoresWithin now D ((Storage.expireAt _ _).bind _)
      exact .bind (.expireAt hD) fun _ => .done _
  | pexpireat hkey harg =>
      apply handleExpiry_stores hkey harg
      show StoresWithin now D ((Storage.expireAt _ _).bind _)
      exact .bind (.expireAt hD) fun _ => .done _
  | getex hkey hword hname harg =>
      rw [handleGetex_eq hkey hword hname harg]
      apply getexDeadline_stores hname
      intro t ht
      rw [ht] at hD
      exact .bind (.getStringWithTtl hD) fun _ => .done _
  | @restore key arg payload k opts n replace absTtl hkey harg hopts =>
      show StoresWithin now D ((Prog.ofExcept (argAsStr key)).bind _)
      rw [hkey]
      show StoresWithin now D ((Prog.ofExcept (parseRestoreTtl arg)).bind _)
      rw [harg]
      show StoresWithin now D ((Prog.ofExcept (parseRestoreOpts opts (false, false))).bind _)
      rw [hopts]
      show StoresWithin now D ((Storage.restore fo k payload n replace absTtl).bind _)
      apply StoresWithin.bind
      · unfold Storage.restore
        split
        · exact .restoreWith hD
        · exact .done _
        · exact .done _
      · exact fun _ => .done _

/-- A load that finds a string leads a `GETEX` to its write. -/
theorem handleGetex_writes {key word arg : Bytes} {k name : String} {r : Reckoning}
    (hkey : argAsStr key = .ok k) (hword : optionWord word = .ok name)
    (hname : getexReckoning name = some r) (harg : parseI64 arg name = .ok n)
    (h : StoresWithin now D (handleGetex [key, word, arg])) : D (r.computed n now) := by
  rw [handleGetex_eq hkey hword hname harg] at h
  have hwrite : ∀ t, StoresWithin now D ((Storage.getStringWithTtl k (.setExpireAtMs t)).bind
      fun v => .done (.ok (RespReply.bulkOrNil v))) → D (some t) := fun t ht =>
    (ht.2 (.ok (some (⟨none, .string []⟩, ""))) trivial).1
  unfold getexReckoning at hname
  split at hname
  · cases hname
    exact hwrite _ (h.2 (.ok now) rfl)
  · cases hname
    exact hwrite _ (h.2 (.ok now) rfl)
  · cases hname
    exact hwrite _ h
  · cases hname
    exact hwrite _ h
  · cases hname

/-- The options of a `SET` reckon from the clock, with plain operators. -/
theorem setOptions_reckoned {opts : List Bytes} {reckoned : List (Reckoning × Int)}
    (h : SetOptions opts reckoned) :
    ∀ q ∈ reckoned, InI64 q.2 ∧ (q.1 = fromSeconds ∨ q.1 = fromMillis) := by
  induction h with
  | nil => simp
  | cons hopt hopts ih =>
      rw [List.forall_mem_cons]
      refine ⟨?_, ih⟩
      cases hopt with
      | ex hword harg => exact ⟨parseI64_inI64 harg, .inl rfl⟩
      | px hword harg => exact ⟨parseI64_inI64 harg, .inr rfl⟩

theorem request_reckoned {p : KV RespReply} {earlier : List (Reckoning × Int)} {r : Reckoning}
    (hp : ExpiryRequest fo p earlier r n) :
    ∀ q ∈ earlier ++ [(r, n)], InI64 q.2 ∧ (q.1 = fromSaturatedSeconds → q = (r, n)) := by
  have hone : InI64 n → earlier = [] → ∀ q ∈ earlier ++ [(r, n)],
      InI64 q.2 ∧ (q.1 = fromSaturatedSeconds → q = (r, n)) := by
    rintro hn rfl q hq
    rw [List.nil_append, List.mem_singleton] at hq
    subst hq
    exact ⟨hn, fun _ => rfl⟩
  cases hp with
  | set hkey hopts =>
      intro q hq
      obtain ⟨hn, hr⟩ := setOptions_reckoned hopts q hq
      refine ⟨hn, fun hsat => ?_⟩
      rcases hr with hr | hr
      · rw [hr] at hsat
        cases hsat
      · rw [hr] at hsat
        cases hsat
  | setex _ harg | expire _ harg | pexpire _ harg | expireat _ harg | pexpireat _ harg =>
      exact hone (parseI64_inI64 harg) rfl
  | getex _ _ _ harg => exact hone (parseI64_inI64 harg) rfl
  | restore _ harg _ =>
      refine hone ?_ rfl
      unfold parseRestoreTtl at harg
      obtain ⟨m, hm, harg⟩ := Result.bind_eq_ok.mp harg
      split at harg
      · cases harg
      · cases harg
        exact parseI64_inI64 hm

theorem Reckoning.inRange_of_fits {r : Reckoning} (hr : r ≠ fromSaturatedSeconds)
    (h : ∀ a ∈ r.plain n now, InI64 a) : r.InRange n now := by
  cases r with
  | fromSeconds =>
      simp only [plain, List.forall_mem_cons, List.not_mem_nil, false_implies, implies_true,
        and_true] at h
      exact ⟨h.1.1, h.2.2⟩
  | fromMillis =>
      simp only [plain, List.mem_singleton, forall_eq] at h
      exact h.2
  | fromSaturatedSeconds => exact absurd rfl hr
  | saturatedFromMillis | atSeconds | atMillis | never => trivial

/-- Below the range the product is pushed up before the clock is added. -/
theorem Reckoning.inRange_of_computed (hnow : IsClock now)
    (hfits : ∀ a ∈ fromSaturatedSeconds.plain n now, InI64 a)
    (h : fromSaturatedSeconds.computed n now = (fromSaturatedSeconds.exact n now).map clampI64) :
    fromSaturatedSeconds.InRange n now := by
  simp only [plain, List.mem_singleton, forall_eq] at hfits
  simp only [computed, exact, Option.map_some] at h
  rw [wrapI64_eq_iff.mpr hfits, Option.some.injEq] at h
  show now = 0 ∨ i64Min ≤ n * 1000 ∧ now + n * 1000 ≤ i64Max
  unfold IsClock at hnow
  unfold InI64 at hfits
  unfold saturatingSeconds clampI64 i64Min i64Max at *
  omega

/-- Only `GETEX` adds a saturated product to the clock. -/
theorem request_saturated {p : KV RespReply} {earlier : List (Reckoning × Int)} {r : Reckoning}
    (hp : ExpiryRequest fo p earlier r n) (hr : r = fromSaturatedSeconds)
    (h : StoresWithin now D p) : D (r.computed n now) := by
  cases hp with
  | set hkey hopts =>
      have hone := (setOptions_reckoned hopts (r, n) (by simp)).2
      rw [hr] at hone
      simp at hone
  | getex hkey hword hname harg => exact handleGetex_writes hkey hword hname harg h
  | restore hkey harg hopts =>
      unfold restoreReckoning at hr
      split at hr
      · cases hr
      · split at hr <;> cases hr
  | setex | expire | pexpire | expireat | pexpireat => cases hr

/-- A request stores the exact deadline, with no overflow on the way, iff each argument
keeps its plain operators inside the range. -/
theorem expiry_exact_iff {p : KV RespReply} {earlier : List (Reckoning × Int)} {r : Reckoning}
    (hp : ExpiryRequest fo p earlier r n) (hnow : IsClock now) :
    ExactDeadline p now earlier r n ↔
      ∀ q ∈ earlier ++ [(r, n)], q.1.InRange q.2 now := by
  have hargs := request_reckoned hp
  constructor
  · rintro ⟨hfits, hstores, -⟩ q hq
    by_cases hsat : q.1 = fromSaturatedSeconds
    · have heq := (hargs q hq).2 hsat
      rw [heq] at hsat hq ⊢
      have hcomputed := request_saturated hp hsat hstores
      have hfit := hfits _ hq
      rw [show r = fromSaturatedSeconds from hsat] at hcomputed hfit ⊢
      exact inRange_of_computed hnow hfit hcomputed
    · exact inRange_of_fits hsat (hfits q hq)
  · intro h
    have hlast : (r, n) ∈ earlier ++ [(r, n)] := List.mem_append_right _ (List.mem_singleton_self _)
    have hcomputed := computed_of_inRange hnow (hargs _ hlast).1 (h _ hlast)
    refine ⟨?_, request_stores hp hcomputed, ?_⟩
    · intro q hq
      exact fits_of_inRange hnow (hargs q hq).1 (h q hq)
    · intro hr hpos
      apply request_stores hp
      rw [hcomputed]
      exact exact_later hnow hr hpos

/-! ## At the end of the range -/

namespace FarAway

/-- `EXPIRE k n` on a string, one second after the epoch. -/
def request (n : String) : List Bytes := [Rdb.asBytes "k", Rdb.asBytes n]

def env : Solo where
  fails _ := none
  now _ := 1000
  collects _ := true
  token n := toString n
  other _ := Solo.nothing

def start : Keyspace := Function.update (fun _ => none) "k" (some (⟨none, .string [118]⟩, "t"))

end FarAway

theorem FarAway.expire_request {text : String} {n : Int}
    (hkey : argAsStr (Rdb.asBytes "k") = .ok "k")
    (h : parseI64 (Rdb.asBytes text) "seconds" = .ok n) (fo : FloatOps) :
    ExpiryRequest fo (handleExpire (FarAway.request text)) [] fromSeconds n := .expire hkey h

open FarAway in
/-- The largest duration is accepted, and the key has expired at once. -/
theorem expiry_wraps :
    ExpiryRequest .integral (handleExpire (request "9223372036854775807")) [] fromSeconds i64Max ∧
      (env.run (handleExpire (request "9223372036854775807")) start).1 = .ok (.integer 1) ∧
      ((env.run (handleExpire (request "9223372036854775807")) start).2.2 "k").map
        (fun p => p.1.expiresAtMs) = some (some 0) ∧
      ¬ ExactDeadline (handleExpire (request "9223372036854775807")) 1000 [] fromSeconds
        i64Max := by
  refine ⟨expire_request (argAsStr_asBytes "k") (by decide +kernel) _, by rfl,
    by decide +kernel, ?_⟩
  rintro ⟨hfits, -, -⟩
  have hproduct := (hfits (fromSeconds, i64Max) (by simp) (i64Max * 1000) (by simp [plain])).2
  unfold i64Max at hproduct
  omega

open FarAway in
theorem expiry_exact_on_hour :
    ExactDeadline (handleExpire (request "3600")) 1000 [] fromSeconds 3600 ↔
      ∀ q ∈ [] ++ [(fromSeconds, (3600 : Int))], q.1.InRange q.2 1000 :=
  expiry_exact_iff (expire_request (argAsStr_asBytes "k") (by decide +kernel) .integral)
    (by unfold IsClock; omega)

end Commands

end RustyAnt
