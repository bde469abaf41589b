import RustyAnt.Client.Frames
import RustyAnt.Resp

/-!
# RESP2 on the wire

The bytes of a frame, and what is relied on of `redis_protocol`.
-/

namespace RustyAnt

open Lib.Decimal Client

/-! ## The bytes of a frame -/

mutual

def BytesFrame.wire : BytesFrame → Bytes
  | .simpleString b => header 43 b
  | .error s => header 45 (Rdb.asBytes s)
  | .integer n => header 58 (intBytes n)
  | .bulkString b => header 36 (natBytes b.length) ++ (b ++ [13, 10])
  | .array items => header 42 (natBytes items.length) ++ wireAll items
  | .null => header 36 nilLength

/-- Frames one behind the other. -/
def wireAll : List BytesFrame → Bytes
  | [] => []
  | f :: fs => f.wire ++ wireAll fs

end

/-- A line ends where its text does. -/
def OneLine (text : Bytes) : Prop := (13 : UInt8) ∉ text ∧ (10 : UInt8) ∉ text

mutual

/-- The frames that a reader finds the end of, and has the numbers for. -/
def BytesFrame.Framed : BytesFrame → Prop
  | .simpleString b => OneLine b
  | .error s => OneLine (Rdb.asBytes s)
  | .integer n => InI64 n
  | .bulkString _ => True
  | .array items => items.length < 2 ^ 32 ∧ FramedAll items
  | .null => True

def FramedAll : List BytesFrame → Prop
  | [] => True
  | f :: fs => f.Framed ∧ FramedAll fs

end

/-- A command as `redis-py` packs it. -/
def commandFrame (argv : List Bytes) : Frame := .array (argv.map .bulk)

/-- What is relied on of `redis_protocol`: a frame is encoded as it is, a line break in a line
included, and a command is decoded, whatever its arguments hold. -/
structure RedisProtocol.Documented (rp : RedisProtocol) : Prop where
  encodes : ∀ f, rp.encode f = .ok f.wire
  decodes : ∀ argv, rp.decode (commandFrame argv).bytes =
    .ok (some (.array (argv.map .bulkString), (commandFrame argv).bytes.length))

/-! ## What the server makes of a command and of a reply -/

theorem mapM_frameToBytes (argv : List Bytes) :
    (argv.map BytesFrame.bulkString).mapM frameToBytes = .ok argv := by
  induction argv with
  | nil => rfl
  | cons arg argv ih =>
      rw [List.map_cons, List.mapM_cons, ih]
      rfl

namespace RedisProtocol.Documented

variable {rp : RedisProtocol} (hrp : rp.Documented)

include hrp

theorem parseCommand (argv : List Bytes) :
    parseCommand rp (commandFrame argv).bytes = .ok argv := by
  unfold RustyAnt.parseCommand
  rw [hrp.decodes]
  exact mapM_frameToBytes argv

theorem encode (reply : RespReply) : reply.encode rp = .ok reply.toFrame.wire := by
  unfold RespReply.encode
  rw [hrp.encodes]

end RedisProtocol.Documented

/-! ## Frames of replies among the frames of the splitter -/

theorem no_cr_intBytes (n : Int) : (13 : UInt8) ∉ intBytes n := by
  cases n with
  | ofNat n => exact no_cr_natBytes n
  | negSucc n =>
      rw [intBytes, List.mem_cons, not_or]
      exact ⟨by decide, no_cr_natBytes _⟩

mutual

theorem BytesFrame.Framed.frame {f : BytesFrame} (h : f.Framed) : ∃ g : Frame, g.bytes = f.wire := by
  cases f with
  | simpleString b => exact ⟨.line .simple ⟨b, h.1⟩, rfl⟩
  | error s => exact ⟨.line .error ⟨Rdb.asBytes s, h.1⟩, rfl⟩
  | integer n => exact ⟨.line .integer ⟨intBytes n, no_cr_intBytes n⟩, rfl⟩
  | bulkString b => exact ⟨.bulk b, rfl⟩
  | array items =>
      obtain ⟨gs, hlength, hgs⟩ := framesOfAll h.2
      refine ⟨.array gs, ?_⟩
      rw [Frame.bytes, BytesFrame.wire, hlength, hgs]
  | null => exact ⟨.nilBulk, rfl⟩

theorem framesOfAll {fs : List BytesFrame} (h : FramedAll fs) :
    ∃ gs : List Frame, gs.length = fs.length ∧ bytesAll gs = wireAll fs := by
  cases fs with
  | nil => exact ⟨[], rfl, rfl⟩
  | cons f fs =>
      obtain ⟨g, hg⟩ := BytesFrame.Framed.frame h.1
      obtain ⟨gs, hlength, hgs⟩ := framesOfAll h.2
      refine ⟨g :: gs, congrArg (· + 1) hlength, ?_⟩
      rw [bytesAll, wireAll, hg, hgs]

end

end RustyAnt
