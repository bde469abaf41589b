import RustyAnt.Client.Dialogue
import RustyAnt.Client.Hiredis
import RustyAnt.Commands.Serializable
import RustyAnt.Commands.WrongKind
import RustyAnt.Server.Lambda

/-!
# Sessions over HTTP and over a WebSocket

Both transports, with the server behind them, carry dialogues.
-/

namespace RustyAnt.Client

open Lib Commands Server

section Sessions

variable (rp : RedisProtocol) (h : Hiredis) (decode : PyReply → PyReply) (p : Process)
  (fate : Nat → Fate)

/-! ## HTTP -/

/-- A `POST`.  `wrap` is the body as the Lambda gets it, and `gateway` what comes back where the
Lambda has failed. -/
def post (wrap : Bytes → Body) (gateway : String → Bytes) (n : Nat) (frame : Bytes) :
    KV (Except String Bytes) :=
  match fate n with
  | .lost msg => return .error msg
  | .unanswered msg => do
      let _ ← handleHttp rp p (wrap frame)
      return .error msg
  | .delivered => do
      match ← handleHttp rp p (wrap frame) with
      | .ok response => return .ok response.body
      | .error msg => return .ok (gateway msg)

/-- Each reply is read by a reader of its own. -/
def httpManners : Manners where
  refuses _ := none
  answer argv := if argv.isEmpty then return .err "empty command" else dispatch p argv
  raises := true
  keeps := true
  value reply := readResponse decode (readBody h reply.toFrame.wire)
  silence d := .connection
    (if d.opened then "rustyant HTTP: no pending reply" else "rustyant transport: " ++ noQueue)

def httpHolds (d : Dialogue) : HttpState :=
  ⟨d.sent, if d.opened then some (d.pending.map fun reply => reply.toFrame.wire) else none⟩

/-- Nothing was sent before the first connect. -/
def HttpSound (d : Dialogue) : Prop := d.opened = false → d.sock = false ∧ d.pending = []

theorem httpSound_fresh : HttpSound .fresh := fun _ => ⟨rfl, rfl⟩

theorem HttpSound.opened {d : Dialogue} (hsound : HttpSound d) (hsock : d.sock = true) :
    d.opened = true := by
  by_contra hclosed
  rw [(hsound (Bool.eq_false_of_not_eq_true hclosed)).1] at hsock
  cases hsock

theorem HttpSound.next {d : Dialogue} (hsound : HttpSound d) (hsock : d.sock = true)
    (replies : List RespReply) : HttpSound (d.next replies) := by
  intro hclosed
  cases (hsound.opened hsock).symm.trans hclosed

theorem http_reads (post : Nat → Bytes → KV (Except String Bytes)) {d : Dialogue}
    (hsound : HttpSound d) :
    readResponse decode ((http h post).recvReply (httpHolds d)).1 =
        (d.read (httpManners h decode p)).1 ∧
      ((http h post).recvReply (httpHolds d)).2 =
        httpHolds (d.read (httpManners h decode p)).2 := by
  obtain ⟨sock, opened, sent, tries, pending⟩ := d
  cases opened with
  | false =>
      obtain rfl : pending = [] := (hsound rfl).2
      exact ⟨rfl, rfl⟩
  | true =>
      cases pending with
      | nil => exact ⟨rfl, rfl⟩
      | cons reply pending => exact ⟨rfl, rfl⟩

section Http

variable {rp} (hrp : rp.Documented) {wrap : Bytes → Body} (hwrap : ∀ b, (wrap b).bytes = b)
  (gateway : String → Bytes)

include hrp

theorem respond_of_documented (status : Nat) (reply : RespReply) :
    respond rp status reply = .ok ⟨status, "application/resp", reply.toFrame.wire⟩ := by
  unfold respond
  rw [hrp.encode]

include hwrap

theorem handleHttp_command (argv : List Bytes) :
    ∃ status, handleHttp rp p (wrap (commandFrame argv).bytes) =
      ((httpManners h decode p).answer argv).bind fun reply =>
        .done (.ok (.ok ⟨status, "application/resp", reply.toFrame.wire⟩)) := by
  unfold handleHttp
  rw [hwrap, hrp.parseCommand]
  unfold httpManners
  dsimp only
  split
  case isTrue =>
    refine ⟨400, ?_⟩
    unfold errorResponse
    rw [respond_of_documented hrp]
    rfl
  case isFalse =>
    refine ⟨200, ?_⟩
    simp only [respond_of_documented hrp]
    rfl

theorem http_sends (argv : List Bytes) {d : Dialogue} (hopened : d.opened = true) :
    (http h (post rp p fate wrap gateway)).sendOneFrame (commandFrame argv).bytes (httpHolds d) =
      (d.sendOne fate (httpManners h decode p) argv).bind fun out =>
        .done (.ok (out.1, httpHolds out.2)) := by
  obtain ⟨status, hhandle⟩ := handleHttp_command h decode p hrp hwrap argv
  have hsame : (⟨d.sent + 1, (httpHolds d).queue⟩ : HttpState) = httpHolds (d.next []) := by
    unfold httpHolds Dialogue.next
    rw [List.append_nil]
  have hmore (reply : RespReply) :
      (⟨d.sent + 1, some ((httpHolds d).queue.getD [] ++ [reply.toFrame.wire])⟩ : HttpState) =
        httpHolds (d.next [reply]) := by
    unfold httpHolds Dialogue.next
    rw [hopened, List.map_append]
    rfl
  show Prog.bind (post rp p fate wrap gateway d.sent _) _ = _
  unfold post Dialogue.sendOne
  cases fate d.sent with
  | lost msg =>
      show (Prog.done (.ok (_, _)) : KV _) = Prog.done (.ok (_, httpHolds (d.next [])))
      rw [← hsame]
      rfl
  | unanswered msg =>
      show Prog.bind (Prog.bind (handleHttp rp p _) _) _ = Prog.bind (Prog.bind _ _) _
      rw [hhandle, Prog.bind_assoc, Prog.bind_assoc, Prog.bind_assoc]
      apply congrArg (Prog.bind _)
      funext reply
      show (Prog.done (.ok (_, _)) : KV _) = Prog.done (.ok (_, httpHolds (d.next [])))
      rw [← hsame]
      rfl
  | delivered =>
      show Prog.bind (Prog.bind (handleHttp rp p _) _) _ = Prog.bind (Prog.bind _ _) _
      rw [hhandle, Prog.bind_assoc, Prog.bind_assoc, Prog.bind_assoc]
      apply congrArg (Prog.bind _)
      funext reply
      show (Prog.done (.ok (_, _)) : KV _) = Prog.done (.ok (_, httpHolds (d.next [reply])))
      rw [← hmore]
      rfl

theorem http_carries :
    Carries (http h (post rp p fate wrap gateway)) decode fate (httpManners h decode p) httpHolds
      HttpSound fun _ => True where
  connects d _ := rfl
  refused d msg hdial := nomatch hdial
  disconnects d := rfl
  sends argv d _ hsound hsock :=
    http_sends h decode p fate hrp hwrap gateway argv (hsound.opened hsock)
  reads d hsound := http_reads h decode p _ hsound
  sound_connect d := nofun
  sound_refused d hsound _ := hsound
  sound_disconnect d hsound hclosed := ⟨rfl, (hsound hclosed).2⟩
  sound_read d hsound := by
    obtain ⟨sock, opened, sent, tries, pending⟩ := d
    cases pending with
    | nil => exact hsound
    | cons reply pending =>
        intro hclosed
        cases (hsound hclosed).2
  sound_next d hsound hsock := HttpSound.next hsound hsock []
  sound_answer argv d _ hsound hsock :=
    (Prog.Returns.any _).mono fun _ _ reply _ => HttpSound.next hsound hsock [reply]

/-- A session over HTTP is the dialogue with the server: the replies come in the order of the
commands, each to its own, whatever is pipelined and whatever the network loses. -/
theorem http_sessions_are_dialogues (requests : List Request) :
    session (http h (post rp p fate wrap gateway)) decode (requests.map Request.action)
        ⟨false, ⟨0, none⟩⟩ =
      Dialogue.fresh.converse fate (httpManners h decode p) requests :=
  (http_carries h decode p fate hrp hwrap gateway).session (fun _ _ _ _ => trivial) httpSound_fresh

end Http

/-! ## WebSocket -/

variable (net : WsNetwork)

/-- A message to the socket, and what is posted back.  `wrap` is the event that the gateway makes
of a message. -/
def message (base64 : String → Except String Bytes) (wrap : Bytes → WsEvent) (n : Nat)
    (frame : Bytes) : KV (Except String (List Bytes)) :=
  match fate n with
  | .lost msg => return .error msg
  | .unanswered _ => do
      let _ ← handleEvent rp base64 (fun _ => false) p (wrap frame)
      return .ok []
  | .delivered => do
      let (_, posted) ← handleEvent rp base64 (fun _ => true) p (wrap frame)
      return .ok (posted.map (·.data)).toList

/-- The event of a message: it is no control route, has an address to post to, and its body is the
message. -/
structure Carried (base64 : String → Except String Bytes) (event : WsEvent) (frame : Bytes) :
    Prop where
  route : isControlRoute event.routeKey = false
  connectionId : event.connectionId.isSome
  domainName : event.domainName.isSome
  stage : event.stage.isSome
  body : decodeBody base64 event.body event.isBase64Encoded = .ok frame

/-- One reader reads all replies, and the sender does not hear of a reply that is not posted. -/
def wsManners : Manners where
  refuses := net.dial
  answer argv := dispatch p argv
  raises := false
  keeps := false
  value reply := readResponse decode (.ok (parsed reply.toFrame))
  silence d := .connection ("rustyant transport: " ++
    if d.opened then if d.sock then net.quiet d.sent else noSocket else noReader)

/-- The state of a WebSocket connection, whose reader has nothing left. -/
def wsHolds (d : Dialogue) : WsState :=
  ⟨d.sent, d.tries, if d.opened then some [] else none,
    if d.sock then some (d.pending.map fun reply => reply.toFrame.wire) else none⟩

/-- What is to come can be read, and comes only where the socket is open. -/
structure WsSound (d : Dialogue) : Prop where
  opened : d.sock = true → d.opened = true
  closed : d.sock = false → d.pending = []
  framed : ∀ reply ∈ d.pending, reply.toFrame.Framed

/-- A command whose replies `hiredis` reads, and which gets to the Lambda. -/
structure WsGood (base64 : String → Except String Bytes) (wrap : Bytes → WsEvent)
    (argv : List Bytes) : Prop where
  carried : Carried base64 (wrap (commandFrame argv).bytes) (commandFrame argv).bytes
  framed : (dispatch p argv).Returns fun reply => reply.toFrame.Framed

section Ws

variable {rp h} (hrp : rp.Documented) (hh : h.Documented) (base64 : String → Except String Bytes)
  (wrap : Bytes → WsEvent)

theorem handleEvent_command (hrp : rp.Documented) (post : Posted → Bool) {argv : List Bytes}
    {event : WsEvent} (hcarried : Carried base64 event (commandFrame argv).bytes) :
    ∃ endpoint connectionId, handleEvent rp base64 post p event =
      (dispatch p argv).bind fun reply =>
        let posted : Posted := ⟨endpoint, connectionId, reply.toFrame.wire⟩
        .done (.ok (if post posted then (200, some posted) else (500, none))) := by
  obtain ⟨hroute, hconnection, hdomain, hstage, hbody⟩ := hcarried
  obtain ⟨connectionId, hconnection⟩ := Option.isSome_iff_exists.mp hconnection
  obtain ⟨domain, hdomain⟩ := Option.isSome_iff_exists.mp hdomain
  obtain ⟨stage, hstage⟩ := Option.isSome_iff_exists.mp hstage
  refine ⟨"https://" ++ domain ++ "/" ++ stage, connectionId, ?_⟩
  unfold handleEvent handleWs answerWs
  rw [hroute, hconnection]
  dsimp only
  rw [hbody]
  dsimp only
  rw [hrp.parseCommand]
  show Prog.bind (Prog.bind (dispatch p argv) _) _ = _
  rw [Prog.bind_assoc]
  apply congrArg (Prog.bind _)
  funext reply
  rw [hrp.encode]
  show Prog.done (.ok (deliver post event (.ok (.reply connectionId reply.toFrame.wire)))) = _
  unfold deliver
  rw [hdomain, hstage]

theorem ws_recv_closed (hh : h.Documented)
    (deliver : Nat → Bytes → KV (Except String (List Bytes))) (sent tries : Nat) :
    (ws h net deliver).recvReply ⟨sent, tries, some [], none⟩ =
      (.error (.other noSocket), ⟨sent, tries, some [], none⟩) := by
  unfold ws
  dsimp only
  rw [hh.gets_nil]

theorem ws_sends (hrp : rp.Documented) (h : Hiredis) (base64 : String → Except String Bytes)
    (wrap : Bytes → WsEvent) {argv : List Bytes} {d : Dialogue}
    (hcarried : Carried base64 (wrap (commandFrame argv).bytes) (commandFrame argv).bytes)
    (hsock : d.sock = true) :
    (ws h net (message rp p fate base64 wrap)).sendOneFrame (commandFrame argv).bytes (wsHolds d) =
      (d.sendOne fate (wsManners decode p net) argv).bind fun out =>
        .done (.ok (out.1, wsHolds out.2)) := by
  have hsame : (⟨d.sent + 1, d.tries, (wsHolds d).reader, (wsHolds d).ws⟩ : WsState) =
      wsHolds (d.next []) := by
    unfold wsHolds Dialogue.next
    rw [List.append_nil]
  have hmore (replies : List RespReply) :
      (⟨d.sent + 1, d.tries, (wsHolds d).reader,
          some ((wsHolds d).ws.getD [] ++ replies.map fun reply => reply.toFrame.wire)⟩ :
        WsState) = wsHolds (d.next replies) := by
    unfold wsHolds Dialogue.next
    rw [hsock, List.map_append]
    rfl
  show Prog.bind (message rp p fate base64 wrap d.sent _) _ = _
  unfold message Dialogue.sendOne
  cases fate d.sent with
  | lost msg =>
      show (Prog.done (.ok (_, _)) : KV _) = Prog.done (.ok (_, wsHolds (d.next [])))
      rw [← hsame]
      rfl
  | unanswered msg =>
      obtain ⟨endpoint, connectionId, hhandle⟩ :=
        handleEvent_command p base64 hrp (fun _ => false) hcarried
      show Prog.bind (Prog.bind (handleEvent rp base64 _ p _) _) _ = Prog.bind (Prog.bind _ _) _
      rw [hhandle, Prog.bind_assoc, Prog.bind_assoc, Prog.bind_assoc]
      apply congrArg (Prog.bind _)
      funext reply
      show (Prog.done (.ok (_, _)) : KV _) = Prog.done (.ok (_, wsHolds (d.next [])))
      rw [← hmore]
      rfl
  | delivered =>
      obtain ⟨endpoint, connectionId, hhandle⟩ :=
        handleEvent_command p base64 hrp (fun _ => true) hcarried
      show Prog.bind (Prog.bind (handleEvent rp base64 _ p _) _) _ = Prog.bind (Prog.bind _ _) _
      rw [hhandle, Prog.bind_assoc, Prog.bind_assoc, Prog.bind_assoc]
      apply congrArg (Prog.bind _)
      funext reply
      show (Prog.done (.ok (_, _)) : KV _) = Prog.done (.ok (_, wsHolds (d.next [reply])))
      rw [← hmore]
      rfl

theorem ws_reads (hh : h.Documented) (deliver : Nat → Bytes → KV (Except String (List Bytes)))
    {d : Dialogue} (hsound : WsSound d) :
    readResponse decode ((ws h net deliver).recvReply (wsHolds d)).1 =
        (d.read (wsManners decode p net)).1 ∧
      ((ws h net deliver).recvReply (wsHolds d)).2 =
        wsHolds (d.read (wsManners decode p net)).2 := by
  obtain ⟨sock, opened, sent, tries, pending⟩ := d
  cases sock with
  | false =>
      obtain rfl : pending = [] := hsound.closed rfl
      cases opened with
      | false => exact ⟨rfl, rfl⟩
      | true =>
          show readResponse decode
              ((ws h net deliver).recvReply ⟨sent, tries, some [], none⟩).1 = _ ∧
            ((ws h net deliver).recvReply ⟨sent, tries, some [], none⟩).2 = _
          rw [ws_recv_closed net hh]
          exact ⟨rfl, rfl⟩
  | true =>
      obtain rfl : opened = true := hsound.opened rfl
      cases pending with
      | nil =>
          show readResponse decode (recvLoop h net sent tries [] []).1 = _ ∧
            (recvLoop h net sent tries [] []).2 = _
          rw [recvLoop_nothing hh]
          exact ⟨rfl, rfl⟩
      | cons reply pending =>
          have hreply := recvLoop_whole hh (hsound.framed reply List.mem_cons_self) net sent tries
            (pending.map fun reply => reply.toFrame.wire)
          show readResponse decode (recvLoop h net sent tries (_ :: _) []).1 = _ ∧
            (recvLoop h net sent tries (_ :: _) []).2 = _
          rw [hreply]
          exact ⟨rfl, rfl⟩

theorem WsSound.next {d : Dialogue} (hsound : WsSound d) (hsock : d.sock = true)
    {replies : List RespReply} (hframed : ∀ reply ∈ replies, reply.toFrame.Framed) :
    WsSound (d.next replies) where
  opened _ := hsound.opened hsock
  closed hclosed := by cases hsock.symm.trans hclosed
  framed reply hmem := by
    rcases List.mem_append.mp hmem with hold | hnew
    · exact hsound.framed reply hold
    · exact hframed reply hnew

theorem ws_carries (hrp : rp.Documented) (hh : h.Documented) :
    Carries (ws h net (message rp p fate base64 wrap)) decode fate (wsManners decode p net) wsHolds
      WsSound (WsGood p base64 wrap) where
  connects d hdial := by
    show (ws h net _).openTransport _ = _
    unfold ws wsHolds
    dsimp only
    rw [show net.dial d.tries = none from hdial]
    rfl
  refused d msg hdial := by
    unfold ws wsHolds
    dsimp only
    rw [show net.dial d.tries = some msg from hdial]
    rfl
  disconnects d := rfl
  sends argv d hgood _ hsock := ws_sends decode p fate net hrp h base64 wrap hgood.carried hsock
  reads d hsound := ws_reads decode p net hh _ hsound
  sound_connect d := ⟨fun _ => rfl, fun _ => rfl, nofun⟩
  sound_refused d hsound _ := ⟨hsound.opened, hsound.closed, hsound.framed⟩
  sound_disconnect d hsound := ⟨nofun, fun _ => rfl, nofun⟩
  sound_read d hsound := by
    obtain ⟨sock, opened, sent, tries, pending⟩ := d
    cases pending with
    | nil => exact hsound
    | cons reply pending =>
        refine ⟨hsound.opened, fun hclosed => ?_, fun reply' hmem => ?_⟩
        · cases hsound.closed hclosed
        · exact hsound.framed reply' (List.mem_cons_of_mem reply hmem)
  sound_next d hsound hsock := hsound.next hsock nofun
  sound_answer argv d hgood hsound hsock := by
    apply hgood.framed.mono
    intro r hframed reply hr
    apply hsound.next hsock
    intro reply' hmem
    rw [List.mem_singleton.mp hmem]
    exact hframed reply hr

theorem wsSound_fresh : WsSound .fresh := ⟨nofun, fun _ => rfl, nofun⟩

/-- A session over a WebSocket is the dialogue with the server, if what the server answers can be
read: the replies come in the order of the commands, each to its own, whatever is pipelined and
whichever connects fail. -/
theorem ws_sessions_are_dialogues (hrp : rp.Documented) (hh : h.Documented)
    {requests : List Request}
    (hgood : ∀ request ∈ requests, ∀ argv ∈ request.commands, WsGood p base64 wrap argv) :
    session (ws h net (message rp p fate base64 wrap)) decode (requests.map Request.action)
        ⟨false, ⟨0, 0, none, none⟩⟩ =
      Dialogue.fresh.converse fate (wsManners decode p net) requests :=
  (ws_carries decode p fate net base64 wrap hrp hh).session hgood wsSound_fresh

end Ws

end Sessions

/-! ## Two pings -/

namespace TwoPings

open Commands.TwoCounters (process)

def ping : List Bytes := [Rdb.asBytes "PING"]

/-- One call with both commands, and two reads. -/
def requests : List Request := [.send (.packed _) [ping, ping] rfl, .read, .read]

/-- The second reply is lost. -/
def fate (n : Nat) : Fate := if n = 1 then .unanswered "Read timed out." else .delivered

theorem http_sessions_are_dialogues_on_twoPings :
    session (http reader (post Resp2.codec process fate .binary Rdb.asBytes)) id
        (requests.map Request.action) ⟨false, ⟨0, none⟩⟩ =
      Dialogue.fresh.converse fate (httpManners reader id process) requests :=
  http_sessions_are_dialogues reader id process fate Resp2.codec_documented (fun _ => rfl)
    Rdb.asBytes requests

/-- The text of the frame of a ping. -/
def base64Text : String := "KjENCiQ0DQpQSU5HDQo="

def base64 (s : String) : Except String Bytes :=
  if s = base64Text then .ok (commandFrame ping).bytes else .error "Invalid byte"

def wrap (_ : Bytes) : WsEvent :=
  ⟨some "$default", some "c", some "d", some "prod", some base64Text, true⟩

theorem dispatch_ping : dispatch process ping = .done (.ok (.simpleString "PONG")) := by
  have hname : commandName (Rdb.asBytes "PING") = .ok "PING" := by decide +kernel
  have hmem : ("PING", pureHandler fun _ => .ok (.simpleString "PONG")) ∈ commandTable process :=
    List.mem_cons_self
  unfold dispatch ping
  rw [run_eq process hname hmem]
  rfl

theorem ping_good : WsGood process base64 wrap ping where
  carried := ⟨rfl, rfl, rfl, rfl, by decide +kernel⟩
  framed := by
    rw [dispatch_ping]
    apply Prog.Returns.ok
    exact ⟨by decide +kernel, by decide +kernel⟩

/-- The first connect fails. -/
def network : WsNetwork where
  dial tries := if tries = 0 then some "Connection refused" else none
  quiet _ := "Connection timed out"

theorem ws_sessions_are_dialogues_on_twoPings :
    session (ws reader network (message Resp2.codec process fate base64 wrap)) id
        ((requests ++ requests).map Request.action) ⟨false, ⟨0, 0, none, none⟩⟩ =
      Dialogue.fresh.converse fate (wsManners id process network) (requests ++ requests) := by
  apply ws_sessions_are_dialogues id process fate network base64 wrap Resp2.codec_documented
    reader_documented
  intro request hrequest argv hargv
  have hmem : request ∈ requests := (List.mem_append.mp hrequest).elim id id
  have hping : argv = ping := by
    simp only [requests, List.mem_cons, List.not_mem_nil, or_false] at hmem
    rcases hmem with rfl | rfl | rfl
    · simpa [Request.commands] using hargv
    · cases hargv
    · cases hargv
  rw [hping]
  exact ping_good

end TwoPings

end RustyAnt.Client
