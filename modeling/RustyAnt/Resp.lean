import RustyAnt.Rdb.Payload

/-!
# Replies

`RespReply` of `src/resp.rs` and its way to the wire and from it.
-/

namespace RustyAnt

inductive RespReply where
  | simpleString (s : String)
  | error (s : String)
  | integer (n : Int)
  | bulkString (b : Option Bytes)
  | array (items : List RespReply)
  | nil

namespace RespReply

def ok : RespReply := simpleString "OK"

def err (msg : String) : RespReply := error msg

/-- `BulkString(Some(Bytes::from(s.into_bytes())))` -/
def text (s : String) : RespReply := bulkString (some (Rdb.asBytes s))

/-- `Integer(i64::from(b))` -/
def flag (b : Bool) : RespReply := integer (if b then 1 else 0)

def texts (items : List String) : RespReply := array (items.map text)

/-- `map_or(Nil, |b| BulkString(Some(b)))` -/
def bulkOrNil (b : Option Bytes) : RespReply := b.elim nil fun b => bulkString (some b)

end RespReply

/-! ## The wire -/

/-- `redis_protocol::resp2::types::BytesFrame`. -/
inductive BytesFrame where
  | simpleString (b : Bytes)
  | error (s : String)
  | integer (n : Int)
  | bulkString (b : Bytes)
  | array (items : List BytesFrame)
  | null

/-- `extend_encode` and `decode_bytes_mut` of the same crate, with the texts of their errors; what
is decoded comes with its length. -/
structure RedisProtocol where
  encode : BytesFrame → Except String Bytes
  decode : Bytes → Except String (Option (BytesFrame × Nat))

mutual

def RespReply.toFrame : RespReply → BytesFrame
  | .simpleString s => .simpleString (Rdb.asBytes s)
  | .error s => .error s
  | .integer n => .integer n
  | .bulkString (some b) => .bulkString b
  | .bulkString none => .null
  | .nil => .null
  | .array items => .array (toFrames items)

/-- `items.iter().map(Self::to_frame).collect()` -/
def toFrames : List RespReply → List BytesFrame
  | [] => []
  | item :: items => item.toFrame :: toFrames items

end

section Wire

variable (rp : RedisProtocol)

def RespReply.encode (reply : RespReply) : Result Bytes :=
  match rp.encode reply.toFrame with
  | .ok b => .ok b
  | .error e => .error (.respParse ("encode: " ++ e))

def frameToBytes : BytesFrame → Result Bytes
  | .bulkString b => .ok b
  | .simpleString b => .ok b
  | _ => .error (.respParse "argument must be bulk string")

def parseCommand (body : Bytes) : Result (List Bytes) :=
  match rp.decode body with
  | .error e => .error (.respParse ("decode: " ++ e))
  | .ok none => .error (.respParse "incomplete frame")
  | .ok (some (frame, _)) =>
      match frame with
      | .array items => items.mapM frameToBytes
      | .bulkString b => .ok [b]
      | _ => .error (.respParse "expected array of bulk strings")

end Wire

end RustyAnt
