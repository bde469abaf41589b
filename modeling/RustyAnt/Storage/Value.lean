import RustyAnt.Error
import RustyAnt.Float64
import RustyAnt.Stream.Basic

/-!
# Stored values

`Value`, `StoredValue` and `ValueKind` of `src/storage.rs`.
-/

namespace RustyAnt

inductive Value where
  | string (data : Bytes)
  | hash (map : BTreeMap String Bytes)
  | list (items : List Bytes)
  | set (members : BTreeSet String)
  | zset (map : BTreeMap String F64)
  | stream (s : StreamValue)
  deriving DecidableEq

structure StoredValue where
  expiresAtMs : Option Int
  value : Value
  deriving DecidableEq

/-- Discriminant of `Value`, which routes a key to its table on DynamoDB. -/
inductive ValueKind where
  | string
  | hash
  | list
  | set
  | zset
  | stream
  deriving DecidableEq, Repr

namespace ValueKind

def of : Value → ValueKind
  | .string _ => string
  | .hash _ => hash
  | .list _ => list
  | .set _ => set
  | .zset _ => zset
  | .stream _ => stream

/-- Redis `TYPE` reply tag. -/
def asStr : ValueKind → String
  | string => "string"
  | hash => "hash"
  | list => "list"
  | set => "set"
  | zset => "zset"
  | stream => "stream"

def all : List ValueKind := [string, hash, list, set, zset, stream]

theorem asStr_injective : Function.Injective asStr := by
  intro a b h
  cases a <;> cases b <;> first | rfl | (simp [asStr] at h)

end ValueKind

namespace StoredValue

def kind (e : StoredValue) : ValueKind := ValueKind.of e.value

theorem set_of_kind {e : StoredValue} (h : e.kind = .set) : ∃ exp s, e = ⟨exp, .set s⟩ := by
  obtain ⟨exp, value⟩ := e
  cases value with
  | set s => exact ⟨exp, s, rfl⟩
  | _ => cases h

theorem zset_of_kind {e : StoredValue} (h : e.kind = .zset) : ∃ exp m, e = ⟨exp, .zset m⟩ := by
  obtain ⟨exp, value⟩ := e
  cases value with
  | zset m => exact ⟨exp, m, rfl⟩
  | _ => cases h

def isExpired (e : StoredValue) (now : Int) : Bool :=
  match e.expiresAtMs with
  | some exp => decide (exp ≤ now)
  | none => false

theorem isExpired_mono {e : StoredValue} {t now : Int} (h : e.isExpired t = true) (hle : t ≤ now) :
    e.isExpired now = true := by
  unfold isExpired at h ⊢
  cases hexp : e.expiresAtMs with
  | none => simp [hexp] at h
  | some exp =>
      simp only [hexp, decide_eq_true_eq] at h ⊢
      omega

end StoredValue

namespace Value

/-- A hash, list, set or sorted set without elements. -/
def isEmptyCollection : Value → Bool
  | .hash m => m.isEmpty
  | .list l => l.isEmpty
  | .set s => s.isEmpty
  | .zset m => m.isEmpty
  | .string _ => false
  | .stream _ => false

/-- No score of the value is NaN or infinite. -/
def scoresFinite : Value → Bool
  | .zset m => m.toList.all fun p => p.2.isFinite
  | _ => true

end Value

end RustyAnt
