import RustyAnt.Commands.Dispatch

/-!
# The two Lambda functions

`src/handler.rs`, behind HTTP, and `src/ws.rs` with `src/bin/ws.rs`, behind a WebSocket.  The log
lines are left out.
-/

namespace RustyAnt.Server

open Lib Commands

section Handlers

variable (rp : RedisProtocol)

/-! ## HTTP -/

/-- `lambda_http::Body` -/
inductive Body where
  | empty
  | text (s : String)
  | binary (b : Bytes)

/-- `body_bytes` -/
def Body.bytes : Body → Bytes
  | empty => []
  | text s => Rdb.asBytes s
  | binary b => b

structure Response where
  status : Nat
  contentType : String
  body : Bytes

/-- The reply as a response; an error is the text of a `lambda_http::Error`. -/
def respond (status : Nat) (reply : RespReply) : Except String Response :=
  match reply.encode rp with
  | .ok encoded => .ok ⟨status, "application/resp", encoded⟩
  | .error e => .error ("encode: " ++ e.display)

def errorResponse (msg : String) : Except String Response := respond rp 400 (.err msg)

/-- `handler::handle` -/
def handleHttp (p : Process) (body : Body) : KV (Except String Response) :=
  match parseCommand rp body.bytes with
  | .error e => return errorResponse rp ("PARSE " ++ e.display)
  | .ok argv =>
      if argv.isEmpty then return errorResponse rp "empty command"
      else do
        let reply ← dispatch p argv
        return respond rp 200 reply

/-! ## WebSocket -/

/-- What is read of an `ApiGatewayWebsocketProxyRequest`. -/
structure WsEvent where
  routeKey : Option String
  connectionId : Option String
  domainName : Option String
  stage : Option String
  body : Option String
  isBase64Encoded : Bool

inductive WsOutcome where
  | empty
  | reply (connectionId : String) (data : Bytes)

def isControlRoute (routeKey : Option String) : Bool :=
  routeKey == some "$connect" || routeKey == some "$disconnect"

/-- `decode_body`; the decoder of `base64` comes with the text of its error. -/
def decodeBody (base64 : String → Except String Bytes) (body : Option String)
    (isBase64 : Bool) : Except String Bytes :=
  let body := body.getD ""
  if isBase64 then
    match base64 body with
    | .ok b => .ok b
    | .error e => .error ("base64 decode: " ++ e)
  else .ok (Rdb.asBytes body)

/-- What `ws::handle` answers to the bytes of a message. -/
def answerWs (p : Process) (bytes : Bytes) : KV RespReply :=
  match parseCommand rp bytes with
  | .ok argv => dispatch p argv
  | .error e => return .err ("PARSE " ++ e.display)

/-- `ws::handle` -/
def handleWs (base64 : String → Except String Bytes) (p : Process) (event : WsEvent) :
    KV (Except String WsOutcome) :=
  if isControlRoute event.routeKey then return .ok .empty
  else
    match event.connectionId with
    | none => return .error "missing connection_id in request context"
    | some connectionId =>
        match decodeBody base64 event.body event.isBase64Encoded with
        | .error e => return .error e
        | .ok bytes => do
            let reply ← answerWs rp p bytes
            match reply.encode rp with
            | .ok encoded => return .ok (.reply connectionId encoded)
            | .error e => return .error ("encode reply: " ++ e.display)

/-- A call of `post_to_connection`. -/
structure Posted where
  endpoint : String
  connectionId : String
  data : Bytes

/-- What is done about an outcome: the status of the response and what has been posted. -/
def deliver (post : Posted → Bool) (event : WsEvent) :
    Except String WsOutcome → Nat × Option Posted
  | .error _ => (500, none)
  | .ok .empty => (200, none)
  | .ok (.reply connectionId data) =>
      match event.domainName, event.stage with
      | none, _ => (500, none)
      | some _, none => (500, none)
      | some domain, some stage =>
          let posted : Posted := ⟨"https://" ++ domain ++ "/" ++ stage, connectionId, data⟩
          if post posted then (200, some posted) else (500, none)

/-- `handle_event`; `post` tells whether a call of `post_to_connection` succeeds. -/
def handleEvent (base64 : String → Except String Bytes) (post : Posted → Bool) (p : Process)
    (event : WsEvent) : KV (Nat × Option Posted) := do
  let outcome ← handleWs rp base64 p event
  return deliver post event outcome

end Handlers

end RustyAnt.Server
