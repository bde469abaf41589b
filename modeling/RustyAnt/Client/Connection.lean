import RustyAnt.Lib.Prog
import RustyAnt.Lib.PyBytes

/-!
# The Python client

`send_packed_command` and the frame splitter of `clients/python/rustyant/connection.py`.
The transport is a service the connection calls.
-/

namespace RustyAnt.Client

open Lib Lib.PyBytes

/-- What the client raises. -/
inductive PyError where
  /-- `redis.exceptions.ConnectionError` -/
  | connection (msg : String)
  /-- `ValueError`, from `int` -/
  | value
  /-- what the transport raises -/
  | transport (msg : String)
  deriving DecidableEq

abbrev Py := Except PyError

/-! ## Frame lengths -/

/-- The items of an array that begins at `start`; an item without length ends the loop. -/
def itemsLen (frameLen : Nat → Py Nat) (start : Nat) : (n pos : Nat) → Py Nat
  | 0, pos => .ok pos
  | n + 1, pos => do
      let item ← frameLen (start + pos)
      if item = 0 then return 0 else itemsLen frameLen start n (pos + item)

/-- `_frame_len(buf, start)`, with no more than `left` bytes from `start` on.  Each item of an array
begins behind the array's own header, so none is left where `left` runs out. -/
def frameLen (buf : List UInt8) : (left start : Nat) → Py Nat
  | 0, _ => .ok 0
  | left + 1, start =>
      match buf[start]? with
      | none => .ok 0
      | some b =>
          if b = 43 ∨ b = 45 ∨ b = 58 then
            match findCrlfFrom buf start with
            | none => .ok 0
            | some crlf => .ok (crlf + 2 - start)
          else if b = 36 then
            match findCrlfFrom buf start with
            | none => .ok 0
            | some crlf =>
                match int ((buf.drop (start + 1)).take (crlf - (start + 1))) with
                | none => .error .value
                | some n =>
                    if n < 0 then .ok (crlf + 2 - start)
                    else
                      let stop := crlf + 2 + n.toNat + 2
                      if buf.length < stop then .ok 0 else .ok (stop - start)
          else if b = 42 then
            match findCrlfFrom buf start with
            | none => .ok 0
            | some crlf =>
                match int ((buf.drop (start + 1)).take (crlf - (start + 1))) with
                | none => .error .value
                | some n =>
                    let pos := crlf + 2 - start
                    if n < 0 then .ok pos else itemsLen (frameLen buf left) start n.toNat pos
          else .ok 0

def notAligned (pos : Nat) : PyError :=
  .connection ("rustyant: outgoing RESP2 stream not frame-aligned at byte " ++ toString pos)

/-- The loop of `_split_resp2_frames`, with no more than `left` bytes from `pos` on. -/
def splitFrom (buf : List UInt8) : (left pos : Nat) → List (List UInt8) → Py (List (List UInt8))
  | 0, _, frames => .ok frames
  | left + 1, pos, frames =>
      if pos < buf.length then do
        let consumed ← frameLen buf (buf.length - pos) pos
        if consumed = 0 then .error (notAligned pos)
        else
          splitFrom buf left (pos + consumed) (frames ++ [(buf.drop pos).take consumed])
      else .ok frames

def splitResp2Frames (buf : List UInt8) : Py (List (List UInt8)) := splitFrom buf buf.length 0 []

/-! ## Sending -/

/-- What the connection asks of its transport. -/
inductive ClientOp where
  | connect
  | sendOneFrame (frame : List UInt8)

/-- Nothing is answered but an exception. -/
abbrev Wire := Prog ClientOp (fun _ => Unit) PyError

/-- `command` of `send_packed_command`. -/
inductive Command where
  | packed (bs : List UInt8)
  | parts (bs : List (List UInt8))

/-- `b"".join(command) if isinstance(command, list) else command` -/
def Command.join : Command → List UInt8
  | packed bs => bs
  | parts bs => bs.flatten

/-- `if self._sock is None: self.connect()` -/
def ensureConnected (sock : Bool) : Wire Unit :=
  if sock then pure () else Prog.perform .connect

def sendFrames : List (List UInt8) → Wire Unit
  | [] => pure ()
  | frame :: frames => do
      Prog.perform (.sendOneFrame frame)
      sendFrames frames

def sendPackedCommand (sock : Bool) (command : Command) : Wire Unit := do
  ensureConnected sock
  let frames ← Prog.ofExcept (splitResp2Frames command.join)
  sendFrames frames

end RustyAnt.Client
