import RustyAnt.Storage.Strings

/-!
# List operations

The `Storage` methods on the `List` variant.
-/

namespace RustyAnt

open Lib

namespace Storage

/-- `resolve_range`: inclusive absolute bounds of a window with negative indices
counted from the end. -/
def resolveRange (len start stop : Int) : Option (Nat × Nat) :=
  if len = 0 then none
  else
    let norm := fun i : Int => if i < 0 then max (len + i) 0 else min i (len - 1)
    if norm stop < norm start then none else some ((norm start).toNat, (norm stop).toNat)

/-- `list.insert(0, v)` or `list.push(v)`. -/
def pushOne (left : Bool) (list : List Bytes) (v : Bytes) : List Bytes :=
  if left then v :: list else list ++ [v]

def pushAllModify (key : String) (values : List Bytes) (left : Bool)
    (entry : Option StoredValue) : Result (CasAction Int) := do
  let (list, exp) ← View.list.findOr key [] entry
  let list := values.foldl (pushOne left) list
  return View.list.write exp list (toI64 list.length)

def listPush (key : String) (values : List Bytes) (left : Bool) : KV Int :=
  cas key (pushAllModify key values left)

def pushxModify (key : String) (values : List Bytes) (left : Bool)
    (entry : Option StoredValue) : Result (CasAction Int) := do
  match ← View.list.find key entry with
  | none => return .noOp 0
  | some (list, exp) =>
      let list := values.foldl (pushOne left) list
      return View.list.write exp list (toI64 list.length)

def listPushx (key : String) (values : List Bytes) (left : Bool) : KV Int :=
  cas key (pushxModify key values left)

/-- `list.remove(0)` or `list.pop()`. -/
def popOne (left : Bool) (list : List Bytes) : Option (Bytes × List Bytes) :=
  if left then list.head?.map fun v => (v, list.tail)
  else list.getLast?.map fun v => (v, list.dropLast)

/-- The popping loop of `list_pop`: what is left and what was popped, in order. -/
def popMany (left : Bool) : (take : Nat) → List Bytes → List Bytes × List Bytes
  | 0, list => (list, [])
  | take + 1, list =>
      match popOne left list with
      | none => (list, [])
      | some (v, list) =>
          let (rest, out) := popMany left take list
          (rest, v :: out)

def popAllModify (key : String) (count : Nat) (left : Bool)
    (entry : Option StoredValue) : Result (CasAction (List Bytes)) := do
  match ← View.list.find key entry with
  | none => return .noOp []
  | some (list, exp) =>
      let (list, out) := popMany left (min count list.length) list
      return View.list.writeOrDelete exp list out

def listPop (key : String) (count : Nat) (left : Bool) : KV (List Bytes) :=
  cas key (popAllModify key count left)

def lrange (key : String) (start stop : Int) : KV (List Bytes) :=
  View.list.read key [] fun list =>
    match resolveRange (toI64 list.length) start stop with
    | none => []
    | some (s, e) => sliceInclusive list s e

def llen (key : String) : KV Int := View.list.read key 0 fun list => toI64 list.length

/-- The absolute position of an index, if the list has it. -/
def resolveIndex (len index : Int) : Option Nat :=
  let actual := if index < 0 then len + index else index
  if actual < 0 ∨ len ≤ actual then none else some actual.toNat

def lindex (key : String) (index : Int) : KV (Option Bytes) :=
  View.list.read key none fun list =>
    (resolveIndex (toI64 list.length) index).bind fun i => list[i]?

def lset (key : String) (index : Int) (value : Bytes) : KV Unit :=
  cas key fun entry => do
    match ← View.list.find key entry with
    | none => .error (.parse "no such key")
    | some (list, exp) =>
        match resolveIndex (toI64 list.length) index with
        | none => .error (.parse "index out of range")
        | some i => return View.list.write exp (list.set i value) ()

/-- The forward loop of `remove_list_occurrences`: at most `max` are removed. -/
def removeFront (target : Bytes) (max : Int) : (removed : Int) → List Bytes → List Bytes × Int
  | removed, [] => ([], removed)
  | removed, v :: list =>
      if max ≤ removed then (v :: list, removed)
      else if v = target then removeFront target max (removed + 1) list
      else
        let (rest, removed) := removeFront target max removed list
        (v :: rest, removed)

/-- The backward loop is the forward one on the reversed list; `-count` wraps. -/
def removeListOccurrences (list : List Bytes) (target : Bytes) (count : Int) : List Bytes × Int :=
  if 0 ≤ count then removeFront target (if count = 0 then i64Max else count) 0 list
  else
    let (rest, removed) := removeFront target (wrapI64 (-count)) 0 list.reverse
    (rest.reverse, removed)

def lrem (key : String) (count : Int) (value : Bytes) : KV Int :=
  cas key fun entry => do
    match ← View.list.find key entry with
    | none => return .noOp 0
    | some (list, exp) =>
        let (list, removed) := removeListOccurrences list value count
        return View.list.writeOrDelete exp list removed

def linsert (key : String) (before : Bool) (pivot value : Bytes) : KV Int :=
  cas key fun entry => do
    match ← View.list.find key entry with
    | none => return .noOp 0
    | some (list, exp) =>
        match list.findIdx? (· == pivot) with
        | none => return .noOp (-1)
        | some pos =>
            let list := list.insertIdx (if before then pos else pos + 1) value
            return View.list.write exp list (toI64 list.length)

/-- `resolve_trim_range`: first position kept and the one past the last. -/
def resolveTrimRange (length : Nat) (start stop : Int) : Option (Nat × Nat) :=
  if length = 0 then none
  else
    let len := toI64 length
    let s := if start < 0 then max (len + start) 0 else start
    let e := if stop < 0 then len + stop else min stop (len - 1)
    if len ≤ s ∨ e < 0 ∨ e < s then none else some (s.toNat, e.toNat + 1)

def ltrim (key : String) (start stop : Int) : KV Unit :=
  cas key fun entry => do
    match ← View.list.find key entry with
    | none => return .noOp ()
    | some (list, exp) =>
        match resolveTrimRange list.length start stop with
        | none => return .delete ()
        | some (s, e) => return View.list.writeOrDelete exp ((list.take e).drop s) ()

/-- A move within one list. -/
def rotateModify (key : String) (fromLeft toLeft : Bool) (entry : Option StoredValue) :
    Result (CasAction (Option Bytes)) := do
  match ← View.list.find key entry with
  | none => return .noOp none
  | some (list, exp) =>
      match popOne fromLeft list with
      | none => return .noOp none
      | some (popped, list) => return View.list.write exp (pushOne toLeft list popped) (some popped)

def popModify (key : String) (fromLeft : Bool) (entry : Option StoredValue) :
    Result (CasAction (Option Bytes)) := do
  match ← View.list.find key entry with
  | none => return .noOp none
  | some (list, exp) =>
      match popOne fromLeft list with
      | none => return .noOp none
      | some (popped, list) => return View.list.writeOrDelete exp list (some popped)

def pushModify (key : String) (toLeft : Bool) (popped : Bytes) (entry : Option StoredValue) :
    Result (CasAction Unit) := do
  let (list, exp) ← View.list.findOr key [] entry
  return View.list.write exp (pushOne toLeft list popped) ()

/-- Across keys the pop and the push are two updates; the destination's type is
checked before the pop. -/
def listMove (source dest : String) (fromLeft toLeft : Bool) : KV (Option Bytes) :=
  if source = dest then cas source (rotateModify source fromLeft toLeft)
  else do
    let entry ← KV.loadEntry dest
    let _ ← Prog.ofExcept (View.list.find dest entry)
    match ← cas source (popModify source fromLeft) with
    | none => return none
    | some popped =>
        cas dest (pushModify dest toLeft popped)
        return some popped

/-- The comparison loop of `scan_list_positions` over `(position, element)`. -/
def scanPositions (element : Bytes) (wanted : Nat) : (cap skip hits : Nat) → List (Bytes × Nat) → List Int
  | _, _, _, [] => []
  | 0, _, _, _ => []
  | cap + 1, skip, hits, (v, idx) :: rest =>
      if v = element then
        if 0 < skip then scanPositions element wanted cap (skip - 1) hits rest
        else if wanted ≤ hits + 1 then [toI64 idx]
        else toI64 idx :: scanPositions element wanted cap 0 (hits + 1) rest
      else scanPositions element wanted cap skip hits rest

def scanListPositions (list : List Bytes) (element : Bytes) (rank : Int) (wanted limit : Nat) :
    List Int :=
  if rank = 0 ∨ list.isEmpty ∨ wanted = 0 then []
  else
    let indexed := if 0 < rank then list.zipIdx else list.zipIdx.reverse
    scanPositions element wanted (if limit = 0 then list.length else limit) (rank.natAbs - 1) 0
      indexed

def lpos (key : String) (element : Bytes) (rank : Int) (count : Option Nat) (maxlen : Nat) :
    KV (List Int) :=
  View.list.read key [] fun list =>
    let wanted := count.elim 1 fun c => if c = 0 then 2 ^ 64 - 1 else c
    scanListPositions list element rank wanted maxlen

end Storage

end RustyAnt
