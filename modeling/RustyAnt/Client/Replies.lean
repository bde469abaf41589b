import RustyAnt.Client.Connection
import RustyAnt.Storage.Backend

/-!
# Reading replies

`read_response` and the two transports of `clients/python/rustyant/connection.py`.  What is behind
the wire is a program over the storage.
-/

namespace RustyAnt.Client

open Lib

/-! ## What `hiredis` makes of a reply -/

inductive PyReply where
  | bytes (b : Bytes)
  | int (n : Int)
  | list (items : List PyReply)
  | none
  /-- `hiredis.ReplyError` -/
  | replyError (text : Bytes)

/-- What `_recv_reply` raises. -/
inductive RecvError where
  /-- `redis.exceptions.ConnectionError` -/
  | connection (msg : String)
  /-- any other exception, with its text -/
  | other (msg : String)

/-- `gets` of a `hiredis.Reader` that holds the bytes given: `none` for `False`, else a reply and
the bytes behind it. -/
structure Hiredis where
  gets : Bytes → Except RecvError (Option (PyReply × Bytes))

/-! ## Transports -/

/-- What the two connection classes implement. -/
structure Transport (σ : Type) where
  /-- `_open_transport`, and what `connect` makes of its exceptions -/
  openTransport : σ → Except PyError Unit × σ
  /-- `_close_transport` -/
  closeTransport : σ → σ
  /-- `_send_one_frame` -/
  sendOneFrame : Bytes → σ → KV (Except PyError Unit × σ)
  /-- `_recv_reply` -/
  recvReply : σ → Except RecvError PyReply × σ

/-- `self._http_reply_queue`, which is not there before the first connect; and how many frames were
sent, for the network to tell them apart.  What is not open is not sent to. -/
structure HttpState where
  sent : Nat
  queue : Option (List Bytes)

def noQueue : String := "'RustyAntHttpConnection' object has no attribute '_http_reply_queue'"

/-- A reader that is fed one body. -/
def readBody (h : Hiredis) (raw : Bytes) : Except RecvError PyReply :=
  match h.gets raw with
  | .error e => .error e
  | .ok none => .error (.connection "rustyant HTTP: truncated reply body")
  | .ok (some (reply, _)) => .ok reply

/-- `RustyAntHttpConnection`.  `post` is a round trip: the body that comes back, or the text of an
exception. -/
def http (h : Hiredis) (post : Nat → Bytes → KV (Except String Bytes)) : Transport HttpState where
  openTransport s := (.ok (), ⟨s.sent, some []⟩)
  closeTransport s := s
  sendOneFrame frame s := do
    match ← post s.sent frame with
    | .ok content => return (.ok (), ⟨s.sent + 1, some (s.queue.getD [] ++ [content])⟩)
    | .error msg => return (.error (.transport msg), ⟨s.sent + 1, s.queue⟩)
  recvReply s :=
    match s.queue with
    | none => (.error (.other noQueue), s)
    | some [] => (.error (.connection "rustyant HTTP: no pending reply"), s)
    | some (raw :: queue) => (readBody h raw, ⟨s.sent, some queue⟩)

/-- `self._ws_reader`, which is not there before the first connect, and `self._ws`: the bytes the
reader holds and the messages that have arrived and were not received yet; and how many frames were
sent and connects tried. -/
structure WsState where
  sent : Nat
  tries : Nat
  reader : Option Bytes
  ws : Option (List Bytes)

/-- What the network does besides carrying messages. -/
structure WsNetwork where
  /-- The text of the exception of a connect, if it fails. -/
  dial : (tries : Nat) → Option String
  /-- The text of the exception of a `recv` to which nothing comes. -/
  quiet : (sent : Nat) → String

/-- The loop of `_recv_reply`.  A text message is encoded before it is fed; an empty one tells that
the socket is closed. -/
def recvLoop (h : Hiredis) (net : WsNetwork) (sent tries : Nat) (arrived : List Bytes)
    (reader : Bytes) : Except RecvError PyReply × WsState :=
  match h.gets reader with
  | .error e => (.error e, ⟨sent, tries, some reader, some arrived⟩)
  | .ok (some (reply, rest)) => (.ok reply, ⟨sent, tries, some rest, some arrived⟩)
  | .ok none =>
      match arrived with
      | [] => (.error (.other (net.quiet sent)), ⟨sent, tries, some reader, some []⟩)
      | raw :: arrived =>
          if raw.isEmpty then
            (.error (.connection "rustyant WebSocket closed mid-reply"),
              ⟨sent, tries, some reader, some arrived⟩)
          else recvLoop h net sent tries arrived (reader ++ raw)

def noReader : String := "'RustyAntWSConnection' object has no attribute '_ws_reader'"

def noSocket : String := "'NoneType' object has no attribute 'recv'"

/-- `RustyAntWSConnection`.  `deliver` is a message to the server: the messages that come back, or
the text of an exception.  A message has been answered before the next one is sent. -/
def ws (h : Hiredis) (net : WsNetwork)
    (deliver : Nat → Bytes → KV (Except String (List Bytes))) : Transport WsState where
  openTransport s :=
    match net.dial s.tries with
    | some msg => (.error (.transport msg), ⟨s.sent, s.tries + 1, s.reader, s.ws⟩)
    | none => (.ok (), ⟨s.sent, s.tries + 1, some [], some []⟩)
  closeTransport s := ⟨s.sent, s.tries, s.reader, none⟩
  sendOneFrame frame s := do
    match ← deliver s.sent frame with
    | .ok messages =>
        return (.ok (), ⟨s.sent + 1, s.tries, s.reader, some (s.ws.getD [] ++ messages)⟩)
    | .error msg => return (.error (.transport msg), ⟨s.sent + 1, s.tries, s.reader, s.ws⟩)
  recvReply s :=
    match s.reader with
    | none => (.error (.other noReader), s)
    | some held =>
        match s.ws with
        | some arrived => recvLoop h net s.sent s.tries arrived held
        | none =>
            match h.gets held with
            | .error e => (.error e, s)
            | .ok (some (reply, rest)) => (.ok reply, ⟨s.sent, s.tries, some rest, none⟩)
            | .ok none => (.error (.other noSocket), s)

/-! ## Connections -/

/-- `self._sock is not None`, and what the transport holds. -/
structure Connection (σ : Type) where
  sock : Bool
  transport : σ

/-- What `read_response` raises. -/
inductive Raised where
  /-- `redis.exceptions.ConnectionError` -/
  | connection (msg : String)
  /-- `redis.exceptions.ResponseError` -/
  | response (text : Bytes)

/-- `read_response` behind `_recv_reply`; `decode` is `self.encoder.decode`, where it is asked for. -/
def readResponse (decode : PyReply → PyReply) : Except RecvError PyReply → Except Raised PyReply
  | .error (.connection msg) => .error (.connection msg)
  | .error (.other msg) => .error (.connection ("rustyant transport: " ++ msg))
  | .ok (.replyError text) => .error (.response text)
  | .ok reply => .ok (decode reply)

section Connection

variable {σ : Type} (T : Transport σ)

/-- `connect`: there is a `_sock` once no exception was raised. -/
def Connection.connect (c : Connection σ) : Except PyError Unit × Connection σ :=
  let (r, s) := T.openTransport c.transport
  (r, ⟨c.sock || r.isOk, s⟩)

/-- The calls of `send_packed_command`, made on the transport. -/
def Wire.over {α : Type} : Wire α → Connection σ → KV (Except PyError α × Connection σ)
  | .done r, c => return (r, c)
  | .call .connect k, c => Wire.over (k (c.connect T).1) (c.connect T).2
  | .call (.sendOneFrame frame) k, c => do
      let (r, s) ← T.sendOneFrame frame c.transport
      Wire.over (k r) ⟨c.sock, s⟩

def Connection.send (c : Connection σ) (command : Command) :
    KV (Except PyError Unit × Connection σ) :=
  (sendPackedCommand c.sock command).over T c

def Connection.read (decode : PyReply → PyReply) (c : Connection σ) :
    Except Raised PyReply × Connection σ :=
  let (reply, s) := T.recvReply c.transport
  (readResponse decode reply, ⟨c.sock, s⟩)

def Connection.disconnect (c : Connection σ) : Connection σ :=
  ⟨false, T.closeTransport c.transport⟩

inductive Action where
  | send (command : Command)
  | read
  | disconnect

/-- What the calls of a session have returned or raised. -/
inductive Outcome where
  | sent (r : Except PyError Unit)
  | replied (r : Except Raised PyReply)
  | closed

/-- One action after the other. -/
def session (decode : PyReply → PyReply) : List Action → Connection σ → KV (List Outcome)
  | [], _ => return []
  | .send command :: actions, c => do
      let (r, c) ← c.send T command
      let outcomes ← session decode actions c
      return .sent r :: outcomes
  | .read :: actions, c => do
      let outcomes ← session decode actions (c.read T decode).2
      return .replied (c.read T decode).1 :: outcomes
  | .disconnect :: actions, c => do
      let outcomes ← session decode actions (c.disconnect T)
      return .closed :: outcomes

end Connection

end RustyAnt.Client
