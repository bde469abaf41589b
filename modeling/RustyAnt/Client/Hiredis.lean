import RustyAnt.Client.Replies
import RustyAnt.Resp.Codec

/-!
# `hiredis`

What it makes of the bytes of replies, and what the loop of `_recv_reply` makes of the messages they
come in, wherever these are cut.
-/

namespace RustyAnt.Client

open Lib

/-! ## Readers -/

mutual

/-- What `hiredis` makes of a frame. -/
def parsed : BytesFrame → PyReply
  | .simpleString b => .bytes b
  | .error s => .replyError (Rdb.asBytes s)
  | .integer n => .int n
  | .bulkString b => .bytes b
  | .array items => .list (parsedAll items)
  | .null => .none

def parsedAll : List BytesFrame → List PyReply
  | [] => []
  | f :: fs => parsed f :: parsedAll fs

end

/-- What is relied on of a `hiredis.Reader`: it takes a whole frame off what it was fed, and waits
for the rest of one that is not whole. -/
structure Hiredis.Documented (h : Hiredis) : Prop where
  reads : ∀ f rest, BytesFrame.Framed f → h.gets (f.wire ++ rest) = .ok (some (parsed f, rest))
  waits : ∀ f p, BytesFrame.Framed f → p <+: f.wire → p ≠ f.wire → h.gets p = .ok none

theorem wire_ne_nil (f : BytesFrame) : f.wire ≠ [] := by
  cases f <;> exact List.cons_ne_nil _ _

theorem Hiredis.Documented.gets_nil {h : Hiredis} (hh : h.Documented) : h.gets [] = .ok none :=
  hh.waits .null [] trivial List.nil_prefix (wire_ne_nil .null).symm

/-- A reader that takes off whole frames. -/
def reader : Hiredis where
  gets bs := .ok ((Resp2.readWhole bs).map fun (f, rest) => (parsed f, rest))

theorem reader_documented : reader.Documented where
  reads f rest hf := by
    show Except.ok ((Resp2.readWhole _).map _) = _
    rw [Resp2.readWhole_wire hf]
    rfl
  waits f p hf hp hne := by
    show Except.ok ((Resp2.readWhole _).map _) = _
    rw [Resp2.readWhole_cut hf hp hne]
    rfl

/-! ## Messages -/

section Messages

variable {h : Hiredis} {f : BytesFrame} {fs : List BytesFrame} {net : WsNetwork}
  {sent tries : Nat} {held r : Bytes} {messages more : List Bytes}

theorem recvLoop_nothing (hh : h.Documented) :
    recvLoop h net sent tries [] [] =
      (.error (.other (net.quiet sent)), ⟨sent, tries, some [], some []⟩) := by
  rw [recvLoop, hh.gets_nil]

/-- What begins with a frame has all of it, or ends within it. -/
theorem whole_or_cut {q rest : Bytes} (hcut : held ++ q = f.wire ++ rest) :
    (∃ r, held = f.wire ++ r) ∨ held <+: f.wire ∧ held ≠ f.wire := by
  have hpre : held <+: f.wire ++ rest := ⟨q, hcut⟩
  rcases cut_of_append hpre with hcut | ⟨r, hr, -⟩
  · exact .inr hcut
  · exact .inl ⟨r, hr⟩

theorem recvLoop_waits (hh : h.Documented) (hf : f.Framed) (hpre : held <+: f.wire)
    (hne : held ≠ f.wire) {raw : Bytes} (hraw : raw ≠ []) :
    recvLoop h net sent tries (raw :: more) held =
      recvLoop h net sent tries more (held ++ raw) := by
  rw [recvLoop, hh.waits f held hf hpre hne]
  dsimp only
  rw [if_neg (by simp [hraw])]

theorem recvLoop_reads (hh : h.Documented) (hf : f.Framed) (r : Bytes) (arrived : List Bytes) :
    recvLoop h net sent tries arrived (f.wire ++ r) =
      (.ok (parsed f), ⟨sent, tries, some r, some arrived⟩) := by
  unfold recvLoop
  rw [hh.reads f r hf]

theorem recvLoop_whole (hh : h.Documented) (hf : f.Framed) (net : WsNetwork) (sent tries : Nat)
    (arrived : List Bytes) :
    recvLoop h net sent tries (f.wire :: arrived) [] =
      (.ok (parsed f), ⟨sent, tries, some [], some arrived⟩) := by
  rw [recvLoop_waits hh hf List.nil_prefix (wire_ne_nil f).symm (wire_ne_nil f), List.nil_append,
    ← List.append_nil f.wire]
  exact recvLoop_reads hh hf [] arrived

/-- The first reply is read, and what is behind it stays. -/
theorem recvLoop_reply (hh : h.Documented) (hf : f.Framed) (sent : Nat) (more : List Bytes)
    (hsome : ∀ raw ∈ messages, raw ≠ []) (hcut : held ++ messages.flatten = f.wire ++ r) :
    ∃ rest left, recvLoop h net sent tries (messages ++ more) held =
        (.ok (parsed f), ⟨sent, tries, some rest, some (left ++ more)⟩) ∧
      rest ++ left.flatten = r ∧ ∀ raw ∈ left, raw ≠ [] := by
  induction messages generalizing held with
  | nil =>
      rw [List.flatten_nil, List.append_nil] at hcut
      rw [hcut]
      exact ⟨r, [], recvLoop_reads hh hf r _, List.append_nil r, nofun⟩
  | cons raw messages ih =>
      have hrest := fun raw' hmem => hsome raw' (List.mem_cons_of_mem raw hmem)
      rcases whole_or_cut hcut with ⟨rest, rfl⟩ | ⟨hpre, hne⟩
      · rw [List.append_assoc] at hcut
        exact ⟨rest, raw :: messages, recvLoop_reads hh hf rest _,
          List.append_cancel_left hcut, hsome⟩
      · rw [List.cons_append, recvLoop_waits hh hf hpre hne (hsome raw List.mem_cons_self)]
        apply ih hrest
        rw [List.append_assoc]
        exact hcut

theorem recvLoop_closed (hh : h.Documented) (hf : f.Framed) (hsome : ∀ raw ∈ messages, raw ≠ [])
    (hpre : held ++ messages.flatten <+: f.wire) (hne : held ++ messages.flatten ≠ f.wire) :
    recvLoop h net sent tries (messages ++ [] :: more) held =
      (.error (.connection "rustyant WebSocket closed mid-reply"),
        ⟨sent, tries, some (held ++ messages.flatten), some more⟩) := by
  induction messages generalizing held with
  | nil =>
      rw [List.flatten_nil, List.append_nil] at hpre hne ⊢
      rw [List.nil_append, recvLoop, hh.waits f held hf hpre hne]
      rfl
  | cons raw messages ih =>
      have hrest := fun raw' hmem => hsome raw' (List.mem_cons_of_mem raw hmem)
      have hraw := hsome raw List.mem_cons_self
      rw [List.flatten_cons, ← List.append_assoc] at hpre hne ⊢
      have hheld : held <+: f.wire :=
        ((List.prefix_append held raw).trans (List.prefix_append _ _)).trans hpre
      have hheld_ne : held ≠ f.wire := by
        intro heq
        have hlength := hpre.length_le
        have hpos := List.length_pos_iff.mpr hraw
        rw [heq, List.length_append, List.length_append] at hlength
        omega
      rw [List.cons_append, recvLoop_waits hh hf hheld hheld_ne hraw]
      exact ih hrest hpre hne

/-! ## Many replies -/

/-- `n` calls of `_recv_reply`. -/
def recvAll {σ : Type} (T : Transport σ) : Nat → σ → List (Except RecvError PyReply) × σ
  | 0, s => ([], s)
  | n + 1, s =>
      let (reply, s) := T.recvReply s
      let (replies, s) := recvAll T n s
      (reply :: replies, s)

variable (net) (deliver : Nat → Bytes → KV (Except String (List Bytes)))

theorem recvAll_replies (hh : h.Documented) (hfs : FramedAll fs) (more : List Bytes)
    (hsome : ∀ raw ∈ messages, raw ≠ []) (hcut : held ++ messages.flatten = wireAll fs ++ r) :
    ∃ rest left,
      recvAll (ws h net deliver) fs.length ⟨sent, tries, some held, some (messages ++ more)⟩ =
        (fs.map fun f => .ok (parsed f), ⟨sent, tries, some rest, some (left ++ more)⟩) ∧
      rest ++ left.flatten = r ∧ ∀ raw ∈ left, raw ≠ [] := by
  induction fs generalizing held messages with
  | nil => exact ⟨held, messages, rfl, hcut, hsome⟩
  | cons f fs ih =>
      rw [wireAll, List.append_assoc] at hcut
      obtain ⟨rest, left, hfirst, hrest, hleft⟩ :=
        recvLoop_reply hh hfs.1 sent more hsome hcut
      obtain ⟨rest', left', hall, hr, hleft'⟩ := ih hfs.2 hleft hrest
      refine ⟨rest', left', ?_, hr, hleft'⟩
      have hrecv : (ws h net deliver).recvReply ⟨sent, tries, some held, some (messages ++ more)⟩ =
          (.ok (parsed f), ⟨sent, tries, some rest, some (left ++ more)⟩) := hfirst
      rw [List.length_cons, recvAll, hrecv]
      dsimp only
      rw [hall]
      rfl

theorem recvAll_closed (hh : h.Documented) (hfs : FramedAll fs) (hf : f.Framed)
    (hpre : r <+: f.wire) (hne : r ≠ f.wire) (hsome : ∀ raw ∈ messages, raw ≠ [])
    (hcut : held ++ messages.flatten = wireAll fs ++ r) :
    recvAll (ws h net deliver) (fs.length + 1)
        ⟨sent, tries, some held, some (messages ++ [] :: more)⟩ =
      ((fs.map fun f => .ok (parsed f)) ++
          [.error (.connection "rustyant WebSocket closed mid-reply")],
        ⟨sent, tries, some r, some more⟩) := by
  induction fs generalizing held messages with
  | nil =>
      have hr : held ++ messages.flatten = r := hcut
      rw [← hr] at hpre hne ⊢
      have hrecv : (ws h net deliver).recvReply
            ⟨sent, tries, some held, some (messages ++ [] :: more)⟩ =
          (.error (.connection "rustyant WebSocket closed mid-reply"),
            ⟨sent, tries, some (held ++ messages.flatten), some more⟩) :=
        recvLoop_closed hh hf hsome hpre hne
      rw [recvAll, hrecv]
      rfl
  | cons f' fs ih =>
      rw [wireAll, List.append_assoc] at hcut
      obtain ⟨rest, left, hfirst, hrest, hleft⟩ :=
        recvLoop_reply hh hfs.1 sent ([] :: more) hsome hcut
      have hrecv : (ws h net deliver).recvReply
            ⟨sent, tries, some held, some (messages ++ [] :: more)⟩ =
          (.ok (parsed f'), ⟨sent, tries, some rest, some (left ++ [] :: more)⟩) := hfirst
      rw [List.length_cons, recvAll, hrecv]
      dsimp only
      rw [ih hfs.2 hleft hrest]
      rfl

/-- Wherever the bytes of replies are cut into messages, each reply is read once and in its place,
and what is behind them stays; where the socket closes within a reply, the call for it raises. -/
theorem replies_are_reassembled (hh : h.Documented) (hfs : FramedAll fs)
    (hsome : ∀ raw ∈ messages, raw ≠ []) (hcut : held ++ messages.flatten = wireAll fs ++ r) :
    (∀ more, ∃ rest left,
      recvAll (ws h net deliver) fs.length ⟨sent, tries, some held, some (messages ++ more)⟩ =
          (fs.map fun f => .ok (parsed f), ⟨sent, tries, some rest, some (left ++ more)⟩) ∧
        rest ++ left.flatten = r) ∧
    ∀ (f : BytesFrame) (more : List Bytes), f.Framed → r <+: f.wire → r ≠ f.wire →
      recvAll (ws h net deliver) (fs.length + 1)
          ⟨sent, tries, some held, some (messages ++ [] :: more)⟩ =
        ((fs.map fun f => .ok (parsed f)) ++
            [.error (.connection "rustyant WebSocket closed mid-reply")],
          ⟨sent, tries, some r, some more⟩) := by
  refine ⟨fun more => ?_, fun f more hf hpre hne => ?_⟩
  · obtain ⟨rest, left, hall, hr, -⟩ := recvAll_replies net deliver hh hfs more hsome hcut
    exact ⟨rest, left, hall, hr⟩
  · exact recvAll_closed net deliver hh hfs hf hpre hne hsome hcut

end Messages

namespace TornReplies

def replies : List BytesFrame := [.simpleString (Rdb.asBytes "PONG"), .bulkString [13, 10]]

/-- The two replies and half of an integer, cut within a line and within a line end. -/
def messages : List Bytes :=
  [[43, 80], [79, 78, 71, 13], [10, 36, 50, 13, 10, 13, 10, 13, 10, 58, 55]]

def network : WsNetwork := ⟨fun _ => none, fun _ => "Connection timed out"⟩

theorem replies_are_reassembled_on_tornReplies :
    recvAll (ws reader network fun _ _ => return .ok []) 3
        ⟨0, 1, some [], some (messages ++ [[]])⟩ =
      ([.ok (.bytes (Rdb.asBytes "PONG")), .ok (.bytes [13, 10]),
          .error (.connection "rustyant WebSocket closed mid-reply")],
        ⟨0, 1, some [58, 55], some []⟩) := by
  have hsome : ∀ raw ∈ messages, raw ≠ [] := by decide
  have hframed : FramedAll replies :=
    ⟨⟨by decide +kernel, by decide +kernel⟩, trivial, trivial⟩
  have hcut : ([] : Bytes) ++ messages.flatten = wireAll replies ++ [58, 55] := by decide +kernel
  have hpre : ([58, 55] : Bytes) <+: (BytesFrame.integer 7).wire := by decide +kernel
  have hseven : InI64 7 := ⟨by decide, by decide⟩
  exact (replies_are_reassembled network (fun _ _ => return .ok []) reader_documented hframed hsome
    hcut).2 (.integer 7) [] hseven hpre (by decide +kernel)

end TornReplies

end RustyAnt.Client
