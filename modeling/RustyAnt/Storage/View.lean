import RustyAnt.Storage.Backend
import RustyAnt.Stream.Ops

/-!
# Typed access to an entry

Every operation of `KVStorage` takes the stored value apart in the same way: the
variant it works on, `wrong_type` on any other, and its own answer on a missing
key.  A `View` is one variant of `Value`; `find` is that match and `read` the
operations that stop there.
-/

namespace RustyAnt

open Lib

/-- A variant of `Value` with what it carries. -/
structure View (α : Type) where
  kind : ValueKind
  wrap : α → Value
  unwrap : Value → Option α
  isEmpty : α → Bool
  unwrap_eq_some : ∀ {v x}, unwrap v = some x ↔ v = wrap x
  kind_wrap : ∀ x, ValueKind.of (wrap x) = kind
  isEmpty_wrap : ∀ x, (wrap x).isEmptyCollection = isEmpty x

namespace View

def string : View Bytes where
  kind := .string
  wrap := .string
  unwrap v := match v with | .string d => some d | _ => none
  isEmpty _ := false
  unwrap_eq_some {v x} := by cases v <;> simp
  kind_wrap _ := rfl
  isEmpty_wrap _ := rfl

def hash : View (BTreeMap String Bytes) where
  kind := .hash
  wrap := .hash
  unwrap v := match v with | .hash m => some m | _ => none
  isEmpty m := m.isEmpty
  unwrap_eq_some {v x} := by cases v <;> simp
  kind_wrap _ := rfl
  isEmpty_wrap _ := rfl

def list : View (List Bytes) where
  kind := .list
  wrap := .list
  unwrap v := match v with | .list l => some l | _ => none
  isEmpty l := l.isEmpty
  unwrap_eq_some {v x} := by cases v <;> simp
  kind_wrap _ := rfl
  isEmpty_wrap _ := rfl

def set : View (BTreeSet String) where
  kind := .set
  wrap := .set
  unwrap v := match v with | .set s => some s | _ => none
  isEmpty s := s.isEmpty
  unwrap_eq_some {v x} := by cases v <;> simp
  kind_wrap _ := rfl
  isEmpty_wrap _ := rfl

def zset : View (BTreeMap String F64) where
  kind := .zset
  wrap := .zset
  unwrap v := match v with | .zset m => some m | _ => none
  isEmpty m := m.isEmpty
  unwrap_eq_some {v x} := by cases v <;> simp
  kind_wrap _ := rfl
  isEmpty_wrap _ := rfl

def stream : View StreamValue where
  kind := .stream
  wrap := .stream
  unwrap v := match v with | .stream s => some s | _ => none
  isEmpty _ := false
  unwrap_eq_some {v x} := by cases v <;> simp
  kind_wrap _ := rfl
  isEmpty_wrap _ := rfl

variable {α β R : Type} (v : View α)

/-- The variant's content and the expiry, `wrong_type(key)` on another variant. -/
def find (key : String) : Option StoredValue → Result (Option (α × Option Int))
  | none => .ok none
  | some e =>
      match v.unwrap e.value with
      | some x => .ok (some (x, e.expiresAtMs))
      | none => .error (.wrongType key)

/-- `find` where a missing key stands for a fresh value without expiry. -/
def findOr (key : String) (fresh : α) (entry : Option StoredValue) :
    Result (α × Option Int) := do
  return (← v.find key entry).getD (fresh, none)

/-- Operations that only look at the value. -/
def read (key : String) (absent : β) (f : α → β) : KV β := do
  let entry ← KV.loadEntry key
  match ← Prog.ofExcept (v.find key entry) with
  | none => return absent
  | some (x, _) => return f x

/-- Operations that sample the value with a time-seeded generator. -/
def readRand (key : String) (absent : β) (f : α → UInt64 → β) : KV β := do
  let entry ← KV.loadEntry key
  match ← Prog.ofExcept (v.find key entry) with
  | none => return absent
  | some (x, _) =>
      let nanos ← KV.nanos
      return f x (pseudoRandU64 nanos)

/-- `Write` the value back under the expiry it had. -/
def write (exp : Option Int) (x : α) (r : R) : CasAction R := .write ⟨exp, v.wrap x⟩ r

/-- `if x.is_empty() { Delete } else { Write }`. -/
def writeOrDelete (exp : Option Int) (x : α) (r : R) : CasAction R :=
  if v.isEmpty x then .delete r else v.write exp x r

theorem find_some {key : String} {entry : Option StoredValue} {x : α} {exp : Option Int}
    (h : v.find key entry = .ok (some (x, exp))) : entry = some ⟨exp, v.wrap x⟩ := by
  cases entry with
  | none => simp [find] at h
  | some e =>
      simp only [find] at h
      split at h
      · rename_i y hy
        simp only [Except.ok.injEq, Option.some.injEq, Prod.mk.injEq] at h
        obtain ⟨rfl, rfl⟩ := h
        rw [v.unwrap_eq_some] at hy
        rw [← hy]
      · simp at h

theorem find_none {key : String} {entry : Option StoredValue}
    (h : v.find key entry = .ok none) : entry = none := by
  cases entry with
  | none => rfl
  | some e =>
      simp only [find] at h
      split at h <;> simp at h

theorem findOr_ok {key : String} {fresh : α} {entry : Option StoredValue} {x : α}
    {exp : Option Int} (h : v.findOr key fresh entry = .ok (x, exp)) :
    (entry = none ∧ x = fresh ∧ exp = none) ∨ entry = some ⟨exp, v.wrap x⟩ := by
  unfold findOr at h
  cases hfind : v.find key entry with
  | error e =>
      rw [hfind] at h
      cases h
  | ok found =>
      rw [hfind, Result.ok_bind, Result.pure_eq_ok] at h
      cases found with
      | none =>
          simp only [Option.getD_none, Except.ok.injEq, Prod.mk.injEq] at h
          exact .inl ⟨v.find_none hfind, h.1.symm, h.2.symm⟩
      | some p =>
          simp only [Option.getD_some, Except.ok.injEq] at h
          subst h
          exact .inr (v.find_some hfind)

theorem find_wrap (key : String) (exp : Option Int) (x : α) :
    v.find key (some ⟨exp, v.wrap x⟩) = .ok (some (x, exp)) := by
  have hunwrap : v.unwrap (v.wrap x) = some x := v.unwrap_eq_some.mpr rfl
  simp only [find, hunwrap]

theorem read_returns (key : String) {absent : β} {f : α → β}
    {post : β → Prop} (habsent : post absent) (hf : ∀ x, post (f x)) :
    (v.read key absent f).Returns post := by
  refine .bind (.any _) fun entry _ => .bind (.any _) fun found _ => ?_
  cases found with
  | none => exact .ok habsent
  | some p => exact .ok (hf p.1)

theorem read_map {γ : Type} (key : String) (absent : β) (f : α → β) (g : β → γ) :
    ((v.read key absent f).bind fun b => .done (.ok (g b))) =
      v.read key (g absent) fun x => g (f x) := by
  unfold View.read
  rw [Prog.bind_eq, Prog.bind_assoc]
  congr 1
  funext entry
  cases v.find key entry with
  | error e => rfl
  | ok found =>
      cases found with
      | none => rfl
      | some p => rfl

end View

/-! ## Programs that only load -/

/-- The program only loads. -/
def OnlyLoads {α : Type} (p : KV α) : Prop := p.Requests fun op => ∃ key, op = .load key

namespace OnlyLoads
variable {α β : Type}

theorem done (r : Result α) : OnlyLoads (.done r : KV α) := Prog.Requests.done r

theorem bind {p : KV α} {f : α → KV β} (hp : OnlyLoads p) (hf : ∀ a, OnlyLoads (f a)) :
    OnlyLoads (p.bind f) := Prog.Requests.bind hp hf

theorem loadEntry (key : String) : OnlyLoads (KV.loadEntry key) :=
  bind (Prog.Requests.perform ⟨key, rfl⟩) fun _ => done _

theorem read (v : View α) (key : String) (absent : β) (f : α → β) :
    OnlyLoads (v.read key absent f) := by
  refine bind (loadEntry key) fun entry => bind (done _) fun found => ?_
  cases found with
  | none => exact done _
  | some p => exact done _

end OnlyLoads

/-! ## Machine integers -/

/-- `i64::checked_add`. -/
def checkedAdd (a b : Int) : Option Int :=
  if i64Min ≤ a + b ∧ a + b ≤ i64Max then some (a + b) else none

/-- `i64::saturating_add`. -/
def saturatingAdd (a b : Int) : Int := max i64Min (min i64Max (a + b))

end RustyAnt
