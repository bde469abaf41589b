import RustyAnt.Rdb.Listpack

/-!
# DUMP payloads

`dump_value` and `restore_value`.  The payload is

    type byte | kind payload | RDB version (u16) | CRC64 (u64)
-/

namespace RustyAnt.Rdb

open Lib Lib.Outcome Lib.Endian

def rdbTypeString : UInt8 := 0
def rdbTypeSet : UInt8 := 2
def rdbTypeZset2 : UInt8 := 5
def rdbTypeSetIntset : UInt8 := 11
def rdbTypeHashListpack : UInt8 := 16
def rdbTypeZsetListpack : UInt8 := 17
def rdbTypeListQuicklist2 : UInt8 := 18
def rdbTypeSetListpack : UInt8 := 20
def rdbTypeStreamListpacks3 : UInt8 := 21

def quicklistNodePacked : Nat := 2
def quicklistNodePlain : Nat := 1

/-- `str::as_bytes`. -/
def asBytes (s : String) : Bytes := s.toByteArray.data.toList

theorem fromUTF8?_asBytes (s : String) : String.fromUTF8? (asBytes s).toByteArray = some s := by
  have harray : (asBytes s).toByteArray = s.toByteArray := by
    apply ByteArray.ext
    rw [List.data_toByteArray]
    rfl
  rw [harray, String.fromUTF8?, dif_pos s.isValidUTF8]
  rfl

/-- `String::from_utf8(bytes).map_err(|_| bad_payload())`. -/
def fromUtf8 (bs : Bytes) : Decoded String :=
  match String.fromUTF8? bs.toByteArray with
  | some s => .ok s
  | none => .err badPayload

/-- The version tag and the checksum behind a body. -/
def withTrailer (body : Bytes) : Bytes :=
  let body := body ++ leBytes 2 rdbVersion
  body ++ leBytes 8 (crc64 0 body).toNat

section Float

variable (fo : FloatOps)

def dumpValue : Value → Result Bytes
  | .string data => .ok (withTrailer (rdbTypeString :: writeRdbString data))
  | .hash map =>
      let items := map.toList.flatMap fun p => [asBytes p.1, p.2]
      .ok (withTrailer (rdbTypeHashListpack :: writeRdbString (listpackOf items)))
  | .list items =>
      .ok (withTrailer (rdbTypeListQuicklist2 :: (writeRdbLength 1 ++
        writeRdbLength quicklistNodePacked ++ writeRdbString (listpackOf items))))
  | .set members =>
      let items := members.toList.map asBytes
      .ok (withTrailer (rdbTypeSetListpack :: writeRdbString (listpackOf items)))
  | .zset map =>
      let items := map.toList.flatMap fun p => [asBytes p.1, formatRdbDouble fo p.2]
      .ok (withTrailer (rdbTypeZsetListpack :: writeRdbString (listpackOf items)))
  | .stream _ =>
      .error (.parse ("DUMP for stream keys is not yet implemented (rustyant supports " ++
        "DUMP/RESTORE for string/hash/list/set/zset)"))

/-! ## The kinds of `restore_value` -/

def hashOf : List Bytes → BTreeMap String Bytes → Decoded (BTreeMap String Bytes)
  | k :: v :: rest, map => do
      let field ← fromUtf8 k
      hashOf rest (map.insert field v)
  | _, map => return map

def readHash (r : Reader) : Decoded Value := do
  let (lp, _) ← readRdbString r
  let items ← listpackDecode lp
  if items.length % 2 ≠ 0 then .err badPayload
  else do
    let map ← hashOf items ∅
    return .hash map

/-- One quicklist node. -/
def readNode (s : List Bytes × Reader) : Decoded (List Bytes × Reader) := do
  let (items, r) := s
  let (container, r) ← readRdbLength r
  if container = quicklistNodePacked then do
    let (lp, r) ← readRdbString r
    let entries ← listpackDecode lp
    return (items ++ entries, r)
  else if container = quicklistNodePlain then do
    let (item, r) ← readRdbString r
    return (items ++ [item], r)
  else .err badPayload

def readList (r : Reader) : Decoded Value := do
  let (nodeCount, r) ← readRdbLength r
  let (items, _) ← times readNode nodeCount ([], r)
  return .list items

def setOf : List Bytes → BTreeSet String → Decoded (BTreeSet String)
  | m :: rest, set => do
      let s ← fromUtf8 m
      setOf rest (set.insert s)
  | [], set => return set

def readSetListpack (r : Reader) : Decoded Value := do
  let (lp, _) ← readRdbString r
  let members ← listpackDecode lp
  let set ← setOf members ∅
  return .set set

/-- One member of a hashtable-encoded set. -/
def readMember (s : BTreeSet String × Reader) : Decoded (BTreeSet String × Reader) := do
  let (m, r) ← readRdbString s.2
  let member ← fromUtf8 m
  return (s.1.insert member, r)

def readSet (r : Reader) : Decoded Value := do
  let (count, r) ← readRdbLength r
  let (set, _) ← times readMember count (∅, r)
  return .set set

/-- The integers of an intset blob from element `i` on. -/
def intsetOf (blob : Bytes) (elemSize : Nat) :
    (left i : Nat) → BTreeSet String → Decoded (BTreeSet String)
  | 0, _, set => return set
  | left + 1, i, set => do
      let word ← gather blob (8 + i * elemSize) elemSize
      let n := signed (8 * elemSize) (leNat word)
      intsetOf blob elemSize left (i + 1) (set.insert (toString n))

def readIntset (r : Reader) : Decoded Value := do
  let (blob, _) ← readRdbString r
  if blob.length < 8 then .err badPayload
  else do
    let sizeWord ← gather blob 0 4
    let countWord ← gather blob 4 4
    let elemSize := leNat sizeWord
    let count := leNat countWord
    if (elemSize ≠ 2 ∧ elemSize ≠ 4 ∧ elemSize ≠ 8) ∨ blob.length ≠ 8 + count * elemSize then
      .err badPayload
    else do
      let set ← intsetOf blob elemSize count 0 ∅
      return .set set

/-- `parse_rdb_double(std::str::from_utf8(bytes)?)?` -/
def readScore (bytes : Bytes) : Decoded F64 := do
  let _ ← fromUtf8 bytes
  match parseRdbDouble fo bytes with
  | .ok x => return x
  | .error e => .err e

def zsetOf : List Bytes → BTreeMap String F64 → Decoded (BTreeMap String F64)
  | m :: s :: rest, map => do
      let member ← fromUtf8 m
      let score ← readScore fo s
      zsetOf rest (map.insert member score)
  | _, map => return map

def readZsetListpack (r : Reader) : Decoded Value := do
  let (lp, _) ← readRdbString r
  let items ← listpackDecode lp
  if items.length % 2 ≠ 0 then .err badPayload
  else do
    let map ← zsetOf fo items ∅
    return .zset map

/-- One member of a skiplist-encoded sorted set with its eight score bytes. -/
def readScored (s : BTreeMap String F64 × Reader) : Decoded (BTreeMap String F64 × Reader) := do
  let (m, r) ← readRdbString s.2
  let member ← fromUtf8 m
  let (scoreBytes, r) ← r.readSlice 8
  let word ← gather scoreBytes 0 8
  return (s.1.insert member ⟨UInt64.ofNat (leNat word)⟩, r)

def readZset2 (r : Reader) : Decoded Value := do
  let (count, r) ← readRdbLength r
  let (map, _) ← times readScored count (∅, r)
  return .zset map

def readString (r : Reader) : Decoded Value := do
  let (data, _) ← readRdbString r
  return .string data

/-- The match on the type byte. -/
def readKind (typeByte : UInt8) (r : Reader) : Decoded Value :=
  if typeByte = rdbTypeString then readString r
  else if typeByte = rdbTypeHashListpack then readHash r
  else if typeByte = rdbTypeListQuicklist2 then readList r
  else if typeByte = rdbTypeSetListpack then readSetListpack r
  else if typeByte = rdbTypeSet then readSet r
  else if typeByte = rdbTypeSetIntset then readIntset r
  else if typeByte = rdbTypeZsetListpack then readZsetListpack fo r
  else if typeByte = rdbTypeZset2 then readZset2 r
  else if typeByte = rdbTypeStreamListpacks3 then
    .err (.parse "RESTORE for stream keys is not yet implemented (type 0x15)")
  else .err badPayload

def readBody (body : Bytes) : Decoded Value := do
  let (typeByte, r) ← (Reader.new body).readU8
  readKind fo typeByte r

def restoreValue (payload : Bytes) : Decoded Value :=
  if payload.length < 10 then .err badPayload
  else do
    let split := payload.length - 10
    let body := payload.take split
    let trailer := payload.drop split
    let version ← gather trailer 0 2
    let gotCrc ← gather trailer 2 8
    if rdbMaxAcceptVersion < leNat version then .err badPayload
    else do
      let tag ← slice trailer 0 2
      if leNat gotCrc ≠ (crc64 0 (body ++ tag)).toNat then .err badPayload
      else readBody fo body

end Float

end RustyAnt.Rdb
