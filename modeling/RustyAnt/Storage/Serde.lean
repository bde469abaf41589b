import RustyAnt.Storage.Value

/-!
# The JSON form of a stored value

`StoredValue` is persisted as JSON through the derived `Serialize` and
`Deserialize` of `src/storage.rs` and `src/stream.rs`: the value is adjacently
tagged (`type` / `data`) and flattened beside `expires_at_ms`.  JSON is modelled
by its syntax tree.  Of `serde_json` only this is used: integers, strings and
finite doubles survive the trip through text, a double that is not finite is
written as `null`, and `null` is refused where a double is expected.
-/

namespace RustyAnt

/-- A JSON document. -/
inductive Json where
  | null
  | int (n : Int)
  | num (x : F64)
  | str (s : String)
  | arr (items : List Json)
  | obj (fields : List (String × Json))

namespace Json

/-- Bytes one character takes inside a JSON string. -/
def charLen (c : Char) : Nat :=
  if c = '"' ∨ c = '\\' then 2
  else if c.toNat < 32 then
    if c.toNat = 8 ∨ c.toNat = 9 ∨ c.toNat = 10 ∨ c.toNat = 12 ∨ c.toNat = 13 then 2 else 6
  else c.utf8Size

/-- Bytes of a string with its quotes. -/
def strLen (s : String) : Nat := 2 + (s.toList.map charLen).sum

mutual

/-- Length of the compact text `serde_json::to_vec` produces. -/
def len (fo : FloatOps) : Json → Nat
  | null => 4
  | int n => (toString n).length
  | num x => fo.jsonLen x
  | str s => strLen s
  | arr items => 2 + lenItems fo items
  | obj fields => 2 + lenFields fo fields

/-- The items of an array with the commas between them. -/
def lenItems (fo : FloatOps) : List Json → Nat
  | [] => 0
  | [x] => len fo x
  | x :: y :: rest => len fo x + 1 + lenItems fo (y :: rest)

/-- The members of an object with the colons and commas between them. -/
def lenFields (fo : FloatOps) : List (String × Json) → Nat
  | [] => 0
  | [(k, v)] => strLen k + 1 + len fo v
  | (k, v) :: y :: rest => strLen k + 1 + len fo v + 1 + lenFields fo (y :: rest)

end

/-- The member `name` of an object. -/
def field? (name : String) : Json → Option Json
  | obj fields => fields.lookup name
  | _ => none

end Json

/-- Failure of `serde_json::from_slice`. -/
def serdeError {α : Type} (msg : String) : Result α := .error (.serde msg)

/-- One Rust type with its derived serializer and deserializer. -/
structure Codec (α : Type) where
  enc : α → Json
  dec : Json → Result α

namespace Codec

variable {α β : Type}

/-- What is written is read back. -/
def Faithful (c : Codec α) : Prop := ∀ a, c.dec (c.enc a) = .ok a

/-- `i64`, `u64` and `u8` fields. -/
def int : Codec Int where
  enc := .int
  dec
    | .int n => .ok n
    | _ => serdeError "invalid type: expected an integer"

def nat : Codec Nat where
  enc n := .int n
  dec j := do
    let n ← int.dec j
    if 0 ≤ n then return n.toNat else serdeError "invalid value: expected an unsigned integer"

def byte : Codec UInt8 where
  enc b := .int b.toNat
  dec j := do
    let n ← nat.dec j
    if n < 256 then return UInt8.ofNat n else serdeError "invalid value: expected u8"

def u64 : Codec UInt64 where
  enc n := .int n.toNat
  dec j := do
    let n ← nat.dec j
    if n < 2 ^ 64 then return UInt64.ofNat n else serdeError "invalid value: expected u64"

def string : Codec String where
  enc := .str
  dec
    | .str s => .ok s
    | _ => serdeError "invalid type: expected a string"

/-- `f64`: the text of a non-finite double is `null`. -/
def f64 : Codec F64 where
  enc x := if x.isFinite then .num x else .null
  dec
    | .num x => .ok x
    | _ => serdeError "invalid type: null, expected f64"

def vec (c : Codec α) : Codec (List α) where
  enc xs := .arr (xs.map c.enc)
  dec
    | .arr items => items.mapM c.dec
    | _ => serdeError "invalid type: expected a sequence"

def pair (c : Codec α) (d : Codec β) : Codec (α × β) where
  enc p := .arr [c.enc p.1, d.enc p.2]
  dec
    | .arr [x, y] => do return (← c.dec x, ← d.dec y)
    | _ => serdeError "invalid length: expected a tuple of size 2"

def map (c : Codec α) : Codec (BTreeMap String α) where
  enc m := .obj (m.toList.map fun p => (p.1, c.enc p.2))
  dec
    | .obj fields => do
        let pairs ← fields.mapM fun p => do return (p.1, ← c.dec p.2)
        return Std.ExtTreeMap.ofList pairs compare
    | _ => serdeError "invalid type: expected a map"

def set : Codec (BTreeSet String) where
  enc s := .arr (s.toList.map string.enc)
  dec j := do return Std.ExtTreeSet.ofList (← (vec string).dec j) compare

def bytes : Codec Bytes := vec byte

/-- A member that must be present. -/
def required (c : Codec α) (name : String) (j : Json) : Result α :=
  match j.field? name with
  | some v => c.dec v
  | none => serdeError ("missing field " ++ name)

/-- A member with `#[serde(default)]`. -/
def defaulted (c : Codec α) (name : String) (dflt : α) (j : Json) : Result α :=
  match j.field? name with
  | some v => c.dec v
  | none => .ok dflt

/-! ## Streams -/

def streamId : Codec StreamId where
  enc i := .obj [("ms", u64.enc i.ms), ("seq", u64.enc i.seq)]
  dec j := do return ⟨← required u64 "ms" j, ← required u64 "seq" j⟩

def streamEntry : Codec StreamEntry where
  enc e := .obj [("id", streamId.enc e.id), ("fields", (vec (pair string bytes)).enc e.fields)]
  dec j := do
    return ⟨← required streamId "id" j, ← required (vec (pair string bytes)) "fields" j⟩

def consumer : Codec Consumer where
  enc c := .obj [("seen_ms", int.enc c.seenMs)]
  dec j := do return ⟨← required int "seen_ms" j⟩

def pendingEntry : Codec PendingEntry where
  enc p := .obj [("consumer", string.enc p.consumer),
    ("delivery_time_ms", int.enc p.deliveryTimeMs),
    ("delivery_count", nat.enc p.deliveryCount)]
  dec j := do
    return ⟨← required string "consumer" j, ← required int "delivery_time_ms" j,
      ← required nat "delivery_count" j⟩

/-- `pel_serde`: a flat list of `[id, entry]` pairs. -/
def pel : Codec (BTreeMap StreamId PendingEntry) where
  enc m := (vec (pair streamId pendingEntry)).enc m.toList
  dec j := do
    return Std.ExtTreeMap.ofList (← (vec (pair streamId pendingEntry)).dec j) compare

def consumerGroup : Codec ConsumerGroup where
  enc g := .obj [("last_delivered_id", streamId.enc g.lastDeliveredId),
    ("consumers", (map consumer).enc g.consumers), ("pel", pel.enc g.pel)]
  dec j := do
    return ⟨← required streamId "last_delivered_id" j,
      ← defaulted (map consumer) "consumers" ∅ j, ← defaulted pel "pel" ∅ j⟩

def streamValue : Codec StreamValue where
  enc s := .obj <|
    [("entries", (vec streamEntry).enc s.entries),
      ("last_generated_id", streamId.enc s.lastGeneratedId),
      ("max_deleted_entry_id", streamId.enc s.maxDeletedEntryId),
      ("entries_added", nat.enc s.entriesAdded)] ++
    (if s.groups.isEmpty then [] else [("groups", (map consumerGroup).enc s.groups)])
  dec j := do
    return ⟨← required (vec streamEntry) "entries" j,
      ← defaulted streamId "last_generated_id" .min j,
      ← defaulted streamId "max_deleted_entry_id" .min j,
      ← defaulted nat "entries_added" 0 j,
      ← defaulted (map consumerGroup) "groups" ∅ j⟩

/-! ## Values -/

/-- The `type` tag of a value: the variant's name. -/
def valueTag : Value → String
  | .string _ => "String"
  | .hash _ => "Hash"
  | .list _ => "List"
  | .set _ => "Set"
  | .zset _ => "ZSet"
  | .stream _ => "Stream"

/-- The `data` content of a value. -/
def valueData : Value → Json
  | .string d => bytes.enc d
  | .hash m => (map bytes).enc m
  | .list l => (vec bytes).enc l
  | .set s => set.enc s
  | .zset m => (map f64).enc m
  | .stream s => streamValue.enc s

/-- The content of the variant that a `type` tag names. -/
def decodeData (tag : String) (data : Json) : Result Value :=
  match tag with
  | "String" => return .string (← bytes.dec data)
  | "Hash" => return .hash (← (map bytes).dec data)
  | "List" => return .list (← (vec bytes).dec data)
  | "Set" => return .set (← set.dec data)
  | "ZSet" => return .zset (← (map f64).dec data)
  | "Stream" => return .stream (← streamValue.dec data)
  | _ => serdeError "unknown variant"

/-- `StoredValue`; an absent expiry is left out of the document. -/
def storedValue : Codec StoredValue where
  enc e := .obj <|
    (match e.expiresAtMs with
      | some t => [("expires_at_ms", int.enc t)]
      | none => []) ++
    [("type", .str (valueTag e.value)), ("data", valueData e.value)]
  dec j := do
    let expiresAtMs ← match j.field? "expires_at_ms" with
      | none | some .null => pure none
      | some v => some <$> int.dec v
    let tag ← required string "type" j
    match j.field? "data" with
    | none => serdeError "missing field data"
    | some data => return ⟨expiresAtMs, ← decodeData tag data⟩

end Codec

end RustyAnt
