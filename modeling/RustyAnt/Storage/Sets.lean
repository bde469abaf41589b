import RustyAnt.Storage.Hashes

/-!
# Set operations

The `Storage` methods on the `Set` variant.
-/

namespace RustyAnt

open Lib

namespace Storage

/-- One member of `sadd`, counted when it is new. -/
def saddOne (acc : BTreeSet String × Int) (m : String) : BTreeSet String × Int :=
  if acc.1.contains m then acc else (acc.1.insert m, acc.2 + 1)

def saddModify (key : String) (members : List String) (entry : Option StoredValue) :
    Result (CasAction Int) := do
  let (set, exp) ← View.set.findOr key ∅ entry
  let (set, added) := members.foldl saddOne (set, 0)
  return View.set.write exp set added

def sadd (key : String) (members : List String) : KV Int := cas key (saddModify key members)

theorem insert_of_mem {s : BTreeSet String} {m : String} (h : m ∈ s) : s.insert m = s := by
  refine Std.ExtTreeSet.ext_mem fun k => ?_
  rw [Std.ExtTreeSet.mem_insert, Std.LawfulEqCmp.compare_eq_iff_eq]
  refine ⟨fun hk => hk.elim (fun heq => ?_) id, .inr⟩
  rw [← heq]
  exact h

theorem saddOne_eq (s : BTreeSet String) (n : Int) (m : String) :
    saddOne (s, n) m = (s.insert m, n + ((s.insert m).size - s.size)) := by
  have hsize := s.size_insert (k := m)
  unfold saddOne
  split
  · rename_i hmem
    rw [insert_of_mem hmem]
    simp
  · rename_i hmem
    rw [if_neg hmem] at hsize
    rw [hsize]
    push_cast
    simp

/-- All members of `sadd`. -/
theorem saddOne_foldl (members : List String) (s : BTreeSet String) (n : Int) :
    members.foldl saddOne (s, n) =
      (s.insertMany members, n + ((s.insertMany members).size - s.size)) := by
  induction members generalizing s n with
  | nil => simp
  | cons m ms ih =>
      rw [List.foldl_cons, saddOne_eq, ih, Std.ExtTreeSet.insertMany_cons]
      ext1
      · rfl
      · dsimp only
        omega

theorem saddModify_none (key : String) (members : List String) :
    saddModify key members none =
      .ok (.write ⟨none, .set (Std.ExtTreeSet.ofList members compare)⟩
        (Std.ExtTreeSet.ofList members compare).size) := by
  show Except.ok (View.set.write none _ _) = _
  simp only [saddOne_foldl, ← Std.ExtTreeSet.ofList_eq_insertMany_empty, zero_add,
    Std.ExtTreeSet.size_empty, Nat.cast_zero, sub_zero]
  rfl

theorem saddModify_set (key : String) (members : List String) (exp : Option Int)
    (s : BTreeSet String) :
    saddModify key members (some ⟨exp, .set s⟩) =
      .ok (.write ⟨exp, .set (s.insertMany members)⟩
        ((s.insertMany members).size - s.size)) := by
  show Except.ok (View.set.write exp _ _) = _
  simp only [saddOne_foldl, zero_add]
  rfl

theorem saddModify_other {key : String} {members : List String} {e : StoredValue}
    (h : e.kind ≠ .set) : saddModify key members (some e) = .error (.wrongType key) := by
  obtain ⟨exp, value⟩ := e
  cases value with
  | set s => exact absurd rfl h
  | _ => rfl

/-- One member of `srem`, counted when it was there. -/
def sremOne (acc : BTreeSet String × Int) (m : String) : BTreeSet String × Int :=
  if acc.1.contains m then (acc.1.erase m, acc.2 + 1) else acc

def sremModify (key : String) (members : List String) (entry : Option StoredValue) :
    Result (CasAction Int) := do
  match ← View.set.find key entry with
  | none => return .noOp 0
  | some (set, exp) =>
      let (set, removed) := members.foldl sremOne (set, 0)
      return View.set.writeOrDelete exp set removed

def srem (key : String) (members : List String) : KV Int := cas key (sremModify key members)

def smembers (key : String) : KV (List String) := View.set.read key [] fun s => s.toList

def sscan (wild : String → String → Bool) (key : String) (cursor : UInt64)
    (pattern : Option String) (count : Nat) : KV (UInt64 × List String) :=
  View.set.read key (0, []) fun s => applyCollectionScan wild s.toList cursor count pattern id

def sismember (key member : String) : KV Bool :=
  View.set.read key false fun s => s.contains member

def smismember (key : String) (members : List String) : KV (List Bool) :=
  View.set.read key (members.map fun _ => false) fun s => members.map fun m => s.contains m

def scard (key : String) : KV Int := View.set.read key 0 fun s => toI64 s.size

/-! ## Set algebra -/

def loadSetsSeq : List String → KV (List (BTreeSet String))
  | [] => return []
  | k :: keys => do
      let members ← smembers k
      let sets ← loadSetsSeq keys
      return Std.ExtTreeSet.ofList members compare :: sets

def setIntersection : List (BTreeSet String) → List String
  | [] => []
  | first :: rest => (rest.foldl (fun acc s => acc.filter fun m => s.contains m) first).toList

def setUnion (sets : List (BTreeSet String)) : List String :=
  (sets.foldl (fun (out : BTreeSet String) s => out.insertMany s.toList) ∅).toList

def setDifference : List (BTreeSet String) → List String
  | [] => []
  | first :: rest => (rest.foldl (fun acc s => acc.filter fun m => !s.contains m) first).toList

def sinter (keys : List String) : KV (List String) := do
  let sets ← loadSetsSeq keys
  return setIntersection sets

def sunion (keys : List String) : KV (List String) := do
  let sets ← loadSetsSeq keys
  return setUnion sets

def sdiff (keys : List String) : KV (List String) := do
  let sets ← loadSetsSeq keys
  return setDifference sets

/-! ## Random members -/

def pickRandomUnique (set : BTreeSet String) (count : Nat) (rand : UInt64) : List String :=
  if set.isEmpty || count == 0 then []
  else rotateFrom set.toList rand (min count set.size)

/-- The sampler of `srandmember`; `count` is the absolute length wanted. -/
def pickRandomSet (set : BTreeSet String) (count : Int) (allowDuplicates : Bool) (rand : UInt64) :
    List String :=
  if set.isEmpty || decide (count ≤ 0) then []
  else if allowDuplicates then drawMany set.toList rand count.toNat
  else pickRandomUnique set count.toNat rand

def spopModify (key : String) (count : Nat) (nanos : UInt64) (entry : Option StoredValue) :
    Result (CasAction (List String)) := do
  match ← View.set.find key entry with
  | none => return .noOp []
  | some (set, exp) =>
      let picked := pickRandomUnique set count (pseudoRandU64 nanos)
      return View.set.writeOrDelete exp (picked.foldl (fun s m => s.erase m) set) picked

def spop (key : String) (count : Nat) : KV (List String) :=
  if count = 0 then View.set.read key [] fun _ => []
  else casWith key KV.nanos (spopModify key count)

def srandmember (key : String) (count : Int) (allowDuplicates : Bool) : KV (List String) :=
  View.set.readRand key [] fun s rand => pickRandomSet s count allowDuplicates rand

end Storage

end RustyAnt
