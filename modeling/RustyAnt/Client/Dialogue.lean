import RustyAnt.Client.Replies
import RustyAnt.Resp.Wire

/-!
# A connection as its user sees it

A queue of replies: a command that is sent puts its reply at the end, and a read takes the first
one.  No byte is mentioned here; `Carries` says of a transport that its frames and messages come to
this, and then a whole session does.
-/

namespace RustyAnt.Client

open Lib

/-! ## Dialogues -/

structure Dialogue where
  sock : Bool
  /-- It was connected once. -/
  opened : Bool
  sent : Nat
  /-- How often a connect was tried. -/
  tries : Nat
  pending : List RespReply

/-- What becomes of a command that is sent. -/
inductive Fate where
  | delivered
  /-- The server never gets it. -/
  | lost (msg : String)
  /-- The server runs it, and its reply does not come back. -/
  | unanswered (msg : String)

/-- What differs between the transports. -/
structure Manners where
  /-- The text of the exception of a connect, if it fails. -/
  refuses : (tries : Nat) → Option String
  answer : List Bytes → KV RespReply
  /-- A reply that does not come back is an exception where the command was sent. -/
  raises : Bool
  /-- What has been answered can be read after a disconnect. -/
  keeps : Bool
  /-- What a read makes of a reply. -/
  value : RespReply → Except Raised PyReply
  /-- What a read raises where nothing is to come. -/
  silence : Dialogue → Raised

/-- What is done with a connection, a `send` with the commands that it packs. -/
inductive Request where
  | send (command : Command) (argvs : List (List Bytes))
      (packs : command.join = bytesAll (argvs.map commandFrame))
  | read
  | disconnect

def Request.action : Request → Action
  | send command _ _ => .send command
  | read => .read
  | disconnect => .disconnect

def Request.commands : Request → List (List Bytes)
  | send _ argvs _ => argvs
  | read => []
  | disconnect => []

namespace Dialogue

variable (fate : Nat → Fate) (m : Manners)

def connect (d : Dialogue) : Dialogue := ⟨true, true, d.sent, d.tries + 1, []⟩

/-- A connect has failed. -/
def refused (d : Dialogue) : Dialogue := { d with tries := d.tries + 1 }

def disconnect (d : Dialogue) : Dialogue :=
  ⟨false, d.opened, d.sent, d.tries, if m.keeps then d.pending else []⟩

/-- One command has been sent; what was answered to it is to come. -/
def next (d : Dialogue) (replies : List RespReply) : Dialogue :=
  { d with sent := d.sent + 1, pending := d.pending ++ replies }

def sendOne (argv : List Bytes) (d : Dialogue) : KV (Except PyError Unit × Dialogue) :=
  match fate d.sent with
  | .lost msg => return (.error (.transport msg), d.next [])
  | .unanswered msg => do
      let _ ← m.answer argv
      return (if m.raises then .error (.transport msg) else .ok (), d.next [])
  | .delivered => do
      let reply ← m.answer argv
      return (.ok (), d.next [reply])

/-- The commands of a pipeline, up to the first one that raises. -/
def sendAll : List (List Bytes) → Dialogue → KV (Except PyError Unit × Dialogue)
  | [], d => return (.ok (), d)
  | argv :: argvs, d => do
      let (r, d) ← sendOne fate m argv d
      match r with
      | .ok () => sendAll argvs d
      | .error e => return (.error e, d)

def send (argvs : List (List Bytes)) (d : Dialogue) : KV (Except PyError Unit × Dialogue) :=
  if d.sock then sendAll fate m argvs d
  else match m.refuses d.tries with
    | some msg => return (.error (.transport msg), d.refused)
    | none => sendAll fate m argvs d.connect

def read (d : Dialogue) : Except Raised PyReply × Dialogue :=
  match d.pending with
  | [] => (.error (m.silence d), d)
  | reply :: pending => (m.value reply, { d with pending := pending })

theorem sock_read (d : Dialogue) : (d.read m).2.sock = d.sock := by
  unfold read
  cases d.pending with
  | nil => rfl
  | cons reply pending => rfl

def converse : List Request → Dialogue → KV (List Outcome)
  | [], _ => return []
  | .send _ argvs _ :: requests, d => do
      let (r, d) ← d.send fate m argvs
      let outcomes ← converse requests d
      return .sent r :: outcomes
  | .read :: requests, d => do
      let outcomes ← converse requests (d.read m).2
      return .replied (d.read m).1 :: outcomes
  | .disconnect :: requests, d => do
      let outcomes ← converse requests (d.disconnect m)
      return .closed :: outcomes

def fresh : Dialogue := ⟨false, false, 0, 0, []⟩

end Dialogue

/-! ## Transports that carry a dialogue -/

section Carries

variable {σ : Type} {T : Transport σ} {decode : PyReply → PyReply} {fate : Nat → Fate}
  {m : Manners} {holds : Dialogue → σ} {sound : Dialogue → Prop} {good : List Bytes → Prop}

/-- A transport that holds a dialogue as `holds` says makes the same of each call, as long as the
dialogue is `sound`, which it stays where the commands are `good`. -/
structure Carries (T : Transport σ) (decode : PyReply → PyReply) (fate : Nat → Fate) (m : Manners)
    (holds : Dialogue → σ) (sound : Dialogue → Prop) (good : List Bytes → Prop) : Prop where
  connects : ∀ d, m.refuses d.tries = none → T.openTransport (holds d) = (.ok (), holds d.connect)
  refused : ∀ d msg, m.refuses d.tries = some msg →
    T.openTransport (holds d) = (.error (.transport msg), holds d.refused)
  disconnects : ∀ d, T.closeTransport (holds d) = holds (d.disconnect m)
  sends : ∀ argv d, good argv → sound d → d.sock = true →
    T.sendOneFrame (commandFrame argv).bytes (holds d) =
      (d.sendOne fate m argv).bind fun out => .done (.ok (out.1, holds out.2))
  reads : ∀ d, sound d → readResponse decode (T.recvReply (holds d)).1 = (d.read m).1 ∧
    (T.recvReply (holds d)).2 = holds (d.read m).2
  sound_connect : ∀ d : Dialogue, sound d.connect
  sound_refused : ∀ d, sound d → d.sock = false → sound d.refused
  sound_disconnect : ∀ d, sound d → sound (d.disconnect m)
  sound_read : ∀ d, sound d → sound (d.read m).2
  sound_next : ∀ d, sound d → d.sock = true → sound (d.next [])
  sound_answer : ∀ argv d, good argv → sound d → d.sock = true →
    (m.answer argv).Returns fun reply => sound (d.next [reply])

def Dialogue.over (holds : Dialogue → σ) (d : Dialogue) : Connection σ := ⟨d.sock, holds d⟩

theorem Wire.over_bind {α β : Type} (p : Wire α) (f : α → Wire β) (c : Connection σ) :
    Wire.over T (p.bind f) c = (Wire.over T p c).bind fun out =>
      match out.1 with
      | .ok a => Wire.over T (f a) out.2
      | .error e => .done (.ok (.error e, out.2)) := by
  induction p generalizing c with
  | done r => cases r <;> rfl
  | call op k ih =>
      cases op with
      | connect => exact ih _ _
      | sendOneFrame frame =>
          show (Prog.bind _ _ : KV _) = Prog.bind (Prog.bind _ _) _
          rw [Prog.bind_assoc]
          exact congrArg _ (funext fun out => ih _ _)

theorem Connection.connect_of_open {c : Connection σ} {r : Except PyError Unit} {s : σ}
    (hopen : T.openTransport c.transport = (r, s)) : c.connect T = (r, ⟨c.sock || r.isOk, s⟩) := by
  unfold Connection.connect
  rw [hopen]

theorem Carries.connect (hT : Carries T decode fate m holds sound good) {d : Dialogue}
    (hsock : d.sock = false) (hdial : m.refuses d.tries = none) :
    (d.over holds).connect T = (.ok (), d.connect.over holds) := by
  rw [Connection.connect_of_open (hT.connects d hdial)]
  show (_, (⟨d.sock || true, _⟩ : Connection σ)) = _
  rw [hsock]
  rfl

theorem Carries.connect_refused (hT : Carries T decode fate m holds sound good) {d : Dialogue}
    {msg : String} (hdial : m.refuses d.tries = some msg) :
    (d.over holds).connect T = (.error (.transport msg), d.refused.over holds) := by
  rw [Connection.connect_of_open (hT.refused d msg hdial)]
  show (_, (⟨d.sock || false, _⟩ : Connection σ)) = _
  rw [Bool.or_false]
  rfl

/-- What is sent leaves the connection open and the dialogue sound. -/
theorem Carries.sendOne_sound (hT : Carries T decode fate m holds sound good) {argv : List Bytes}
    {d : Dialogue} (hgood : good argv) (hsound : sound d) (hsock : d.sock = true) :
    (d.sendOne fate m argv).Returns fun out => sound out.2 ∧ out.2.sock = true := by
  unfold Dialogue.sendOne
  cases fate d.sent with
  | lost msg => exact Prog.Returns.ok ⟨hT.sound_next d hsound hsock, hsock⟩
  | unanswered msg =>
      apply Prog.Returns.bind (Prog.Returns.any _)
      rintro reply -
      exact Prog.Returns.ok ⟨hT.sound_next d hsound hsock, hsock⟩
  | delivered =>
      apply Prog.Returns.bind (hT.sound_answer argv d hgood hsound hsock)
      intro reply hreply
      exact Prog.Returns.ok ⟨hreply, hsock⟩

theorem Carries.sendAll_sound (hT : Carries T decode fate m holds sound good)
    {argvs : List (List Bytes)} {d : Dialogue} (hgood : ∀ argv ∈ argvs, good argv)
    (hsound : sound d) (hsock : d.sock = true) :
    (d.sendAll fate m argvs).Returns fun out => sound out.2 := by
  induction argvs generalizing d with
  | nil => exact Prog.Returns.ok hsound
  | cons argv argvs ih =>
      have hrest := fun argv' hmem => hgood argv' (List.mem_cons_of_mem argv hmem)
      apply Prog.Returns.bind (hT.sendOne_sound (hgood argv List.mem_cons_self) hsound hsock)
      rintro ⟨r, d'⟩ ⟨hsound', hsock'⟩
      cases r with
      | ok u => exact ih hrest hsound' hsock'
      | error e => exact Prog.Returns.ok hsound'

theorem Carries.sendAll (hT : Carries T decode fate m holds sound good)
    {argvs : List (List Bytes)} {d : Dialogue} (hgood : ∀ argv ∈ argvs, good argv)
    (hsound : sound d) (hsock : d.sock = true) :
    Wire.over T (sendFrames ((argvs.map commandFrame).map Frame.bytes)) (d.over holds) =
      (d.sendAll fate m argvs).bind fun out => .done (.ok (out.1, out.2.over holds)) := by
  induction argvs generalizing d with
  | nil => rfl
  | cons argv argvs ih =>
      have hone := hT.sendOne_sound (hgood argv List.mem_cons_self) hsound hsock
      have hrest := fun argv' hmem => hgood argv' (List.mem_cons_of_mem argv hmem)
      show Wire.over T (Prog.bind (Prog.perform _) _) _ = Prog.bind (Prog.bind _ _) _
      rw [Wire.over_bind, Prog.bind_assoc]
      show Prog.bind (Prog.bind (T.sendOneFrame _ (holds d)) _) _ = _
      rw [hT.sends argv d (hgood argv List.mem_cons_self) hsound hsock, Prog.bind_assoc,
        Prog.bind_assoc]
      apply hone.bind_congr
      rintro ⟨r, d'⟩ ⟨hsound', hsock'⟩
      cases r with
      | error e =>
          show (Prog.done (.ok (_, ⟨d.sock, holds d'⟩)) : KV (_ × Connection σ)) =
            Prog.done (.ok (Except.error e, ⟨d'.sock, holds d'⟩))
          rw [hsock, hsock']
      | ok u =>
          show Wire.over T _ ⟨d.sock, holds d'⟩ = _
          rw [hsock, ← hsock']
          exact ih hrest hsound' hsock'

theorem Carries.send (hT : Carries T decode fate m holds sound good) {argvs : List (List Bytes)}
    {command : Command} {d : Dialogue} (hgood : ∀ argv ∈ argvs, good argv) (hsound : sound d)
    (packs : command.join = bytesAll (argvs.map commandFrame)) :
    (d.over holds).send T command =
      (d.send fate m argvs).bind fun out => .done (.ok (out.1, out.2.over holds)) := by
  have hsplit : splitResp2Frames command.join =
      .ok ((argvs.map commandFrame).map Frame.bytes) := by
    rw [packs]
    exact splitResp2Frames_bytesAll _
  show Wire.over T (sendPackedCommand d.sock command) (d.over holds) = _
  rw [sendPackedCommand_of_split d.sock hsplit]
  unfold Dialogue.send
  cases hsock : d.sock with
  | true =>
      rw [if_pos rfl]
      exact hT.sendAll hgood hsound hsock
  | false =>
      rw [if_neg (by decide)]
      show Wire.over T _ ((d.over holds).connect T).2 = _
      cases hdial : m.refuses d.tries with
      | none =>
          rw [hT.connect hsock hdial]
          exact hT.sendAll hgood (hT.sound_connect d) rfl
      | some msg =>
          rw [hT.connect_refused hdial]
          rfl

theorem Carries.send_sound (hT : Carries T decode fate m holds sound good)
    {argvs : List (List Bytes)} {d : Dialogue} (hgood : ∀ argv ∈ argvs, good argv)
    (hsound : sound d) : (d.send fate m argvs).Returns fun out => sound out.2 := by
  unfold Dialogue.send
  cases hsock : d.sock with
  | true =>
      rw [if_pos rfl]
      exact hT.sendAll_sound hgood hsound hsock
  | false =>
      rw [if_neg (by decide)]
      cases m.refuses d.tries with
      | none => exact hT.sendAll_sound hgood (hT.sound_connect d) rfl
      | some msg => exact Prog.Returns.ok (hT.sound_refused d hsound hsock)

/-- A transport that carries dialogues carries every session. -/
theorem Carries.session (hT : Carries T decode fate m holds sound good) {requests : List Request}
    {d : Dialogue} (hgood : ∀ request ∈ requests, ∀ argv ∈ request.commands, good argv)
    (hsound : sound d) :
    session T decode (requests.map Request.action) (d.over holds) = d.converse fate m requests := by
  induction requests generalizing d with
  | nil => rfl
  | cons request requests ih =>
      have hfirst := hgood request List.mem_cons_self
      have hrest := fun r hmem => hgood r (List.mem_cons_of_mem request hmem)
      cases request with
      | send command argvs packs =>
          show Prog.bind ((d.over holds).send T command) _ = Prog.bind (d.send fate m argvs) _
          rw [hT.send hfirst hsound packs, Prog.bind_assoc]
          apply (hT.send_sound hfirst hsound).bind_congr
          rintro ⟨r, d'⟩ hsound'
          show Prog.bind (Client.session T decode _ (d'.over holds)) _ = _
          rw [ih hrest hsound']
          rfl
      | read =>
          obtain ⟨hvalue, hstate⟩ := hT.reads d hsound
          have hread : (d.over holds).read T decode =
              ((d.read m).1, (d.read m).2.over holds) := by
            unfold Dialogue.over
            rw [← hvalue, ← hstate, Dialogue.sock_read]
            rfl
          show Prog.bind (Client.session T decode _ ((d.over holds).read T decode).2) _ = _
          rw [hread, ih hrest (hT.sound_read d hsound)]
          rfl
      | disconnect =>
          have hclosed : (d.over holds).disconnect T = (d.disconnect m).over holds :=
            congrArg (Connection.mk false) (hT.disconnects d)
          show Prog.bind (Client.session T decode _ ((d.over holds).disconnect T)) _ = _
          rw [hclosed, ih hrest (hT.sound_disconnect d hsound)]
          rfl

end Carries

end RustyAnt.Client
