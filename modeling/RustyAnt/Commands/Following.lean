import RustyAnt.Commands.Streams
import RustyAnt.Storage.Linearizable
import RustyAnt.Stream.Bookkeeping
import RustyAnt.Stream.Pending

/-!
# Following a stream

A reader asks for what lies past the last id it was handed, by `XREAD` or by `XRANGE`
with an exclusive start, while entries are added.  What it has received is always the
first part of the stream.  `XREVRANGE` reads the same entries from the other end.
-/

namespace RustyAnt

open Lib RustyAnt.Stream

namespace Commands

/-! ## Reading a reply -/

def rangeItems : Result RespReply → List RespReply
  | .ok (.array items) => items
  | _ => []

/-- The entries of an `XREAD` reply on one stream. -/
def readItems : Result RespReply → List RespReply
  | .ok (.array [.array [_, .array items]]) => items
  | _ => []

def itemId : RespReply → Option Bytes
  | .array (.bulkString (some id) :: _) => some id
  | _ => none

/-- `XREAD COUNT n STREAMS key last`. -/
def xreadArgs (key : String) (n : Nat) (last : Option Bytes) : List Bytes :=
  [Rdb.asBytes "COUNT", Decimal.natBytes n, Rdb.asBytes "STREAMS", Rdb.asBytes key,
    last.getD StreamId.min.display]

/-- `XRANGE key (last + COUNT n`, with `-` before anything was received. -/
def xrangeArgs (key : String) (n : Nat) (last : Option Bytes) : List Bytes :=
  [Rdb.asBytes key, last.elim [45] (40 :: ·), [43], Rdb.asBytes "COUNT", Decimal.natBytes n]

/-- `XREVRANGE key (last - COUNT n`, with `+` before anything was received. -/
def xrevrangeArgs (key : String) (n : Nat) (last : Option Bytes) : List Bytes :=
  [Rdb.asBytes key, last.elim [43] (40 :: ·), [45], Rdb.asBytes "COUNT", Decimal.natBytes n]

/-! ## The reader -/

/-- What a reader has been handed, and the last id in it. -/
structure Reader where
  received : List RespReply := []
  last : Option Bytes := none

def Reader.take (r : Reader) (items : List RespReply) : Reader :=
  ⟨r.received ++ items, (items.getLast?.bind itemId).or r.last⟩

/-- A stream that is added to, and its reader. -/
structure Following where
  run : StreamRun := {}
  reader : Reader := {}

/-- An `XADD` commits, or the reader asks for more. -/
inductive FollowStep where
  | add (spec : AddIdSpec) (fields : List (String × Bytes)) (nomkstream : Bool) (now : UInt64)
  | xread (n : Nat)
  | xrange (n : Nat)

/-- How many entries a `COUNT` asks for: one past `i64` is refused. -/
def served (n : Nat) : Nat := if (n : Int) ≤ i64Max then n else 0

namespace Following

/-- The reader is handed the entries of a reply. -/
def receive (f : Following) (items : List RespReply) : Following :=
  { f with reader := f.reader.take items }

def step (key : String) (f : Following) : FollowStep → Following
  | .add spec fields nomkstream now =>
      { f with run := f.run.step key (.xadd spec fields nomkstream none now) }
  | .xread n => f.receive (readItems
      (answered key f.run.entry 0 (handleXread (xreadArgs key n f.reader.last))))
  | .xrange n => f.receive (rangeItems
      (answered key f.run.entry 0 (handleXrange false (xrangeArgs key n f.reader.last))))

def exec (key : String) (f : Following) (steps : List FollowStep) : Following :=
  steps.foldl (step key) f

theorem exec_snoc (key : String) (f : Following) (steps : List FollowStep) (st : FollowStep) :
    f.exec key (steps ++ [st]) = (f.exec key steps).step key st := by
  unfold exec
  rw [List.foldl_append]
  rfl

def entries (f : Following) : List StreamEntry := (streamOf f.run.entry).entries

end Following

/-! ## What the arguments say -/

theorem argText_ascii {bs : Bytes} (h : ∀ b ∈ bs, b.toNat < 128) : argText bs = .ok bs := by
  unfold argText
  rw [argAsStr_ascii h]
  rfl

theorem display_ascii (id : StreamId) : ∀ b ∈ id.display, b.toNat < 128 := by
  intro b hb
  unfold StreamId.display at hb
  rw [List.mem_append, List.mem_cons] at hb
  rcases hb with hb | rfl | hb
  · exact Decimal.natBytes_ascii _ b hb
  · decide
  · exact Decimal.natBytes_ascii _ b hb

theorem xreadIdArg_display (id : StreamId) : xreadIdArg id.display = .ok id := by
  have hdollar : id.display ≠ [36] := by
    intro h
    have hlen := congrArg List.length h
    unfold StreamId.display at hlen
    rw [List.length_append, List.length_cons, List.length_singleton] at hlen
    have hms := List.length_pos_iff.mpr (Decimal.natBytes_ne_nil id.ms.toNat)
    have hseq := List.length_pos_iff.mpr (Decimal.natBytes_ne_nil id.seq.toNat)
    omega
  unfold xreadIdArg
  rw [argText_ascii (display_ascii id), Result.ok_bind, if_neg hdollar, StreamId.parse_display]

theorem rangeIdArg_exclusive (id : StreamId) : rangeIdArg (40 :: id.display) = .ok (.exclusive id) := by
  have hascii : ∀ b ∈ 40 :: id.display, b.toNat < 128 := by
    intro b hb
    rcases List.mem_cons.mp hb with rfl | hb
    · decide
    · exact display_ascii id b hb
  unfold rangeIdArg
  rw [argText_ascii hascii, Result.ok_bind, RangeId.parse_exclusive]

theorem rangeIdArg_minus : rangeIdArg [45] = .ok .minInf := by
  unfold rangeIdArg
  rw [argText_ascii (by simp)]
  rfl

theorem rangeIdArg_plus : rangeIdArg [43] = .ok .maxInf := by
  unfold rangeIdArg
  rw [argText_ascii (by simp)]
  rfl

theorem parseI64_natBytes {n : Nat} (hn : (n : Int) ≤ i64Max) (label : String) :
    parseI64 (Decimal.natBytes n) label = .ok n := by
  have hmin : i64Min ≤ n := by
    unfold i64Min
    omega
  exact parseI64_intBytes hmin hn label

theorem parseStreamCount_natBytes {n : Nat} (hn : (n : Int) ≤ i64Max) (label : String) :
    parseStreamCount (Decimal.natBytes n) label = .ok n := by
  unfold parseStreamCount
  rw [parseI64_natBytes hn, Result.ok_bind, if_neg (by omega)]
  rfl

/-- A number past `i64` is refused. -/
theorem parseI64_beyond {n : Nat} (hn : ¬ (n : Int) ≤ i64Max) (label : String) :
    parseI64 (Decimal.natBytes n) label = .error (.parse (label ++ " is not an integer")) := by
  have hparse : Storage.parseI64 (Decimal.intBytes n) = none := by
    unfold Storage.parseI64
    rw [Decimal.parseInt_intBytes, Option.filter_some, if_neg]
    rw [decide_eq_true_eq]
    exact fun h => hn h.2
  unfold parseI64
  rw [argAsStr_ascii (Decimal.natBytes_ascii n), Result.ok_bind,
    show Storage.parseI64 (Decimal.natBytes n) = none from hparse]

theorem parseStreamCount_beyond {n : Nat} (hn : ¬ (n : Int) ≤ i64Max) (label : String) :
    parseStreamCount (Decimal.natBytes n) label =
      .error (.parse (label ++ " is not an integer")) := by
  unfold parseStreamCount
  rw [parseI64_beyond hn]
  rfl

theorem parseXreadOpts_word {tok n : Bytes} {rest : List Bytes} {count : Option Nat}
    (h : optionWord tok = .ok "COUNT") :
    parseXreadOpts (tok :: n :: rest) count =
      parseStreamCount n "COUNT" >>= fun c => parseXreadOpts rest (some c) := by
  rw [parseXreadOpts, h]
  rfl

theorem parseXreadOpts_streams {tok n : Bytes} {rest : List Bytes} {count : Option Nat}
    (h : optionWord tok = .ok "STREAMS") :
    parseXreadOpts (tok :: n :: rest) count = .ok (count, n :: rest) := by
  rw [parseXreadOpts, h]
  rfl

theorem word_count : optionWord (Rdb.asBytes "COUNT") = .ok "COUNT" := by
  rw [optionWord_asBytes]
  decide +kernel

theorem word_streams : optionWord (Rdb.asBytes "STREAMS") = .ok "STREAMS" := by
  rw [optionWord_asBytes]
  decide +kernel

theorem isWord_count : isWord (Rdb.asBytes "COUNT") "COUNT" = .ok true := by
  unfold isWord
  rw [word_count]
  rfl

/-! ## One request -/

def pastId (after : StreamId) (n : Nat) (entries : List StreamEntry) : List StreamEntry :=
  (entries.filter fun e => decide (after < e.id)).take n

section Requests

variable {key : String} {entry : Option StoredValue} {n : Nat}

def IsStream (entry : Option StoredValue) : Prop :=
  entry = none ∨ ∃ exp s, entry = some ⟨exp, .stream s⟩

theorem answered_read {β γ : Type} (h : IsStream entry) (absent : β) (f : StreamValue → β)
    (habsent : absent = f {}) (k : β → KV γ) :
    answered key entry 0 ((View.stream.read key absent f).bind k) =
      answered key entry 0 (k (f (streamOf entry))) := by
  unfold View.read
  rw [Prog.bind_eq, Prog.bind_assoc, answered_loadEntry]
  rcases h with rfl | ⟨exp, s, rfl⟩
  · rw [streamOf_none, ← habsent]
    rfl
  · rfl

theorem served_of_le (hn : (n : Int) ≤ i64Max) : served n = n := if_pos hn

theorem take_served {α : Type} (hn : ¬ (n : Int) ≤ i64Max) (xs : List α) :
    xs.take (served n) = [] := by
  unfold served
  rw [if_neg hn, List.take_zero]

theorem parseXreadOpts_xreadArgs (hn : (n : Int) ≤ i64Max) (after : Bytes) :
    parseXreadOpts (xreadArgs key n (some after)) none = .ok (some n, [Rdb.asBytes key, after]) := by
  show parseXreadOpts (_ :: _ :: _ :: [_, _]) none = _
  rw [parseXreadOpts_word word_count, parseStreamCount_natBytes hn, Result.ok_bind,
    parseXreadOpts_streams word_streams]
  rfl

theorem answered_handleXread (hn : (n : Int) ≤ i64Max) (after : StreamId) :
    answered key entry 0 (handleXread (xreadArgs key n (some after.display))) =
      answered key entry 0 ((Storage.xread (some n) [(key, after)]).bind fun perStream =>
        .done (.ok (perStreamReply perStream))) := by
  have hkeys : argsAsStrings [Rdb.asBytes key] = .ok [key] := by
    unfold argsAsStrings
    rw [List.mapM_cons, argAsStr_asBytes]
    rfl
  have hids : xreadIdArgs [after.display] = .ok [after] := by
    unfold xreadIdArgs
    rw [List.mapM_cons, xreadIdArg_display]
    rfl
  have hsplit : ∀ msg, splitStreams msg [Rdb.asBytes key, after.display] =
      .ok ([Rdb.asBytes key], [after.display]) := by
    intro msg
    unfold splitStreams
    rw [if_neg (by simp), List.splitAt_eq, List.length_cons, List.length_singleton]
    rfl
  unfold handleXread
  rw [if_neg (by simp [xreadArgs]), parseXreadOpts_xreadArgs hn]
  show answered key entry 0 ((Prog.ofExcept (splitStreams _ _)).bind _) = _
  rw [hsplit]
  show answered key entry 0 ((Prog.ofExcept (argsAsStrings _)).bind _) = _
  rw [hkeys]
  show answered key entry 0 ((Prog.ofExcept (xreadIdArgs _)).bind _) = _
  rw [hids]
  rfl

theorem xread_answer (h : IsStream entry) (key : String) (n : Nat) (after : StreamId) :
    readItems (answered key entry 0 (handleXread (xreadArgs key n (some after.display)))) =
      (pastId after (served n) (streamOf entry).entries).map entryToReply := by
  by_cases hn : (n : Int) ≤ i64Max
  · rw [answered_handleXread hn, served_of_le hn]
    unfold Storage.xread
    rw [Prog.bind_eq, Prog.bind_assoc, answered_read h [] _ (by simp)]
    show readItems (.ok (perStreamReply (if (pastId after n (streamOf entry).entries).isEmpty then []
      else [(key, pastId after n (streamOf entry).entries)]))) = _
    split
    · rename_i hempty
      rw [List.isEmpty_iff] at hempty
      rw [hempty]
      rfl
    · rfl
  · have hopts : parseXreadOpts (xreadArgs key n (some after.display)) none =
        .error (.parse ("COUNT" ++ " is not an integer")) := by
      show parseXreadOpts (_ :: _ :: _ :: [_, _]) none = _
      rw [parseXreadOpts_word word_count, parseStreamCount_beyond hn]
      rfl
    unfold handleXread pastId
    rw [if_neg (by simp [xreadArgs]), hopts, take_served hn]
    rfl

theorem parseXrangeCount_natBytes (hn : (n : Int) ≤ i64Max) :
    parseXrangeCount (some (Rdb.asBytes "COUNT", Decimal.natBytes n)) = .ok (some n) := by
  show (isWord (Rdb.asBytes "COUNT") "COUNT" >>= _) = _
  rw [isWord_count, Result.ok_bind, if_pos rfl, parseStreamCount_natBytes hn]
  rfl

theorem parseXrangeCount_beyond (hn : ¬ (n : Int) ≤ i64Max) :
    parseXrangeCount (some (Rdb.asBytes "COUNT", Decimal.natBytes n)) =
      .error (.parse ("COUNT" ++ " is not an integer")) := by
  show (isWord (Rdb.asBytes "COUNT") "COUNT" >>= _) = _
  rw [isWord_count, Result.ok_bind, if_pos rfl, parseStreamCount_beyond hn]
  rfl

/-- The entries between two bounds, in the order of the request. -/
def between (start stop : RangeId) (reverse : Bool) (entries : List StreamEntry) :
    List StreamEntry :=
  (if reverse then List.reverse else id) (entries.filter fun e =>
    start.geMin e.id && stop.leMax e.id)

theorem between_all (reverse : Bool) (entries : List StreamEntry) :
    between .minInf .maxInf reverse entries = (if reverse then List.reverse else id) entries := by
  unfold between
  exact congrArg _ (List.filter_true entries)

theorem bounds_up : parseXrangeBounds false [45] [43] = .ok (.minInf, .maxInf) := by
  unfold parseXrangeBounds
  rw [if_neg (by simp), rangeIdArg_minus, rangeIdArg_plus]
  rfl

theorem bounds_down : parseXrangeBounds true [43] [45] = .ok (.minInf, .maxInf) := by
  unfold parseXrangeBounds
  rw [if_pos rfl, rangeIdArg_minus, rangeIdArg_plus]
  rfl

theorem xrange_answer (h : IsStream entry) (key : String) (n : Nat) {reverse : Bool}
    {first second : Bytes} {start stop : RangeId}
    (hbounds : parseXrangeBounds reverse first second = .ok (start, stop)) :
    rangeItems (answered key entry 0 (handleXrange reverse
        [Rdb.asBytes key, first, second, Rdb.asBytes "COUNT", Decimal.natBytes n])) =
      ((between start stop reverse (streamOf entry).entries).take (served n)).map entryToReply := by
  show rangeItems (answered key entry 0 ((Prog.ofExcept (argAsStr (Rdb.asBytes key))).bind _)) = _
  rw [argAsStr_asBytes]
  show rangeItems (answered key entry 0
    ((Prog.ofExcept (parseXrangeBounds reverse first second)).bind _)) = _
  rw [hbounds]
  show rangeItems (answered key entry 0 ((Prog.ofExcept (parseXrangeCount _)).bind _)) = _
  by_cases hn : (n : Int) ≤ i64Max
  · rw [parseXrangeCount_natBytes hn, served_of_le hn]
    show rangeItems (answered key entry 0
      ((Storage.xrange key start stop (some n) reverse).bind _)) = _
    unfold Storage.xrange
    rw [answered_read h [] _ (by cases reverse <;> simp)]
    cases reverse <;> rfl
  · rw [parseXrangeCount_beyond hn, take_served hn]
    rfl

end Requests

/-! ## What the reader has -/

/-- The reader holds the first entries of the stream, and knows the last of them. -/
structure Reader.Holds (r : Reader) (entries : List StreamEntry) : Prop where
  received : r.received = (entries.take r.received.length).map entryToReply
  last : r.last = (entries.take r.received.length).getLast?.map fun e => e.id.display

section Holds

variable {r : Reader} {entries : List StreamEntry} {n : Nat}

theorem Reader.Holds.le (h : r.Holds entries) : r.received.length ≤ entries.length := by
  have hlen := congrArg List.length h.received
  rw [List.length_map, List.length_take] at hlen
  omega

theorem Reader.Holds.append (h : r.Holds entries) (more : List StreamEntry) :
    r.Holds (entries ++ more) := by
  have htake : (entries ++ more).take r.received.length = entries.take r.received.length :=
    List.take_append_of_le_length h.le
  constructor
  · rw [htake]
    exact h.received
  · rw [htake]
    exact h.last

theorem Reader.Holds.take (h : r.Holds entries) (n : Nat) :
    (r.take (((entries.drop r.received.length).take n).map entryToReply)).Holds entries ∧
      (r.take (((entries.drop r.received.length).take n).map entryToReply)).received.length =
        min (r.received.length + n) entries.length := by
  have hle := h.le
  have hall : entries.take (r.received.length + n) =
      entries.take r.received.length ++ (entries.drop r.received.length).take n :=
    List.take_add
  have hreceived : (r.take (((entries.drop r.received.length).take n).map entryToReply)).received =
      (entries.take (r.received.length + n)).map entryToReply := by
    rw [hall, List.map_append, ← h.received]
    rfl
  have hlen : (r.take (((entries.drop r.received.length).take n).map entryToReply)).received.length =
      min (r.received.length + n) entries.length := by
    rw [hreceived, List.length_map, List.length_take]
  have hsame : entries.take (min (r.received.length + n) entries.length) =
      entries.take (r.received.length + n) := by
    rw [← List.take_take, List.take_length]
  refine ⟨⟨?_, ?_⟩, hlen⟩
  · rw [hlen, hsame]
    exact hreceived
  · rw [hlen, hsame, hall, List.getLast?_append, Option.map_or, ← h.last]
    show (((_ : List StreamEntry).map entryToReply).getLast?.bind itemId).or r.last = _
    rw [List.getLast?_map]
    cases ((entries.drop r.received.length).take n).getLast? <;> rfl

/-- What comes after the last of the first `k` elements is the rest. -/
theorem filter_past {α : Type} {before : α → α → Bool} {xs : List α}
    (hsorted : xs.Pairwise fun a b => before a b = true)
    (hasymm : ∀ a b, before a b = true → before b a = false) {k : Nat} {top : α}
    (htop : (xs.take k).getLast? = some top) : xs.filter (before top) = xs.drop k := by
  obtain ⟨init, hinit⟩ := List.getLast?_eq_some_iff.mp htop
  have hsplit := List.take_append_drop k xs
  rw [← hsplit] at hsorted
  obtain ⟨hfront, -, hacross⟩ := List.pairwise_append.mp hsorted
  have hold : (xs.take k).filter (before top) = [] := by
    rw [List.filter_eq_nil_iff, hinit]
    rw [hinit] at hfront
    intro a ha
    rw [Bool.not_eq_true]
    rcases List.mem_append.mp ha with hmem | hmem
    · exact hasymm a top
        ((List.pairwise_append.mp hfront).2.2 a hmem top (List.mem_singleton_self _))
    · rw [List.mem_singleton.mp hmem]
      by_contra htrue
      rw [Bool.not_eq_false] at htrue
      have hfalse := hasymm top top htrue
      rw [htrue] at hfalse
      cases hfalse
  have hnew : (xs.drop k).filter (before top) = xs.drop k := by
    rw [List.filter_eq_self]
    exact fun a ha => hacross top (List.mem_of_getLast? htop) a ha
  rw [← hsplit, List.filter_append, hsplit, hold, hnew]
  rfl

theorem decide_lt_asymm (a b : StreamId) (h : decide (a < b) = true) : decide (b < a) = false :=
  decide_eq_false (not_lt.mpr (decide_eq_true_eq.mp h).le)

theorem past_cursor (hsorted : entries.Pairwise fun a b => a.id < b.id)
    (hpos : ∀ e ∈ entries, StreamId.min < e.id) (k : Nat) :
    (entries.filter fun e => decide
      (((entries.take k).getLast?.elim StreamId.min StreamEntry.id) < e.id)) = entries.drop k := by
  cases hlast : (entries.take k).getLast? with
  | none =>
      rw [List.getLast?_eq_none_iff] at hlast
      have hdrop := List.take_append_drop k entries
      rw [hlast, List.nil_append] at hdrop
      rw [hdrop, List.filter_eq_self]
      exact fun e he => decide_eq_true (hpos e he)
  | some top =>
      have hbefore : entries.Pairwise fun a b => decide (a.id < b.id) = true :=
        hsorted.imp fun h => decide_eq_true h
      have hpast := filter_past hbefore (fun a b => decide_lt_asymm a.id b.id) hlast
      rw [Option.elim_some]
      exact hpast

end Holds

/-! ## The conversation -/

namespace Following

variable {key : String} {f : Following}

/-- What holds all along the conversation. -/
structure Kept (f : Following) : Prop where
  stream : IsStream f.run.entry
  appended : f.entries.map StreamEntry.id = addedIds f.run.log
  last : StreamRun.LastAdded f.run
  positive : ∀ id ∈ addedIds f.run.log, StreamId.min < id
  holds : f.reader.Holds f.entries

theorem kept_empty : Kept {} :=
  ⟨.inl rfl, rfl, rfl, nofun, ⟨rfl, rfl⟩⟩

/-- Every id comes after `0-0`. -/
theorem positive_step {run : StreamRun} {cmd : StreamCmd} (hlast : StreamRun.LastAdded run)
    (hpos : ∀ id ∈ addedIds run.log, StreamId.min < id)
    (hids : (addedIds (run.step key cmd).log).Pairwise (· < ·)) :
    ∀ id ∈ addedIds (run.step key cmd).log, StreamId.min < id := by
  rcases StreamRun.step_cases key run cmd with ⟨e, hstep⟩ | ⟨r, hlog, heff⟩
  · rw [hstep, StreamRun.addedIds_snoc]
    rw [show addedIds [(cmd, .error e)] = [] from rfl, List.append_nil]
    exact hpos
  · rw [hlog, StreamRun.addedIds_snoc] at hids ⊢
    by_cases hr : ∃ id, r = .added (some id)
    · obtain ⟨new, rfl⟩ := hr
      obtain ⟨spec, _, _, _, now, _, hresolve, _, _⟩ := heff.added_inv
      intro id hid
      rcases List.mem_append.mp hid with hmem | hmem
      · exact hpos id hmem
      · have heq : id = new := List.mem_singleton.mp hmem
        rw [heq]
        cases hadded : addedIds run.log with
        | nil =>
            have hmin : (streamOf run.entry).lastGeneratedId = .min := by
              rw [hlast, hadded]
              rfl
            rw [hmin] at hresolve
            apply lt_resolveAddId hresolve
            have htop : StreamId.min.seq ≠ UInt64.ofNat (2 ^ 64 - 1) := by decide
            cases spec with
            | auto => exact fun h => htop (congrArg StreamId.seq h)
            | partialMs ms => exact fun h => htop (congrArg StreamId.seq h)
            | concrete id => exact fun h => h
        | cons first rest =>
            have hfirst : first ∈ addedIds run.log := by
              rw [hadded]
              exact List.mem_cons_self
            have hnew := (List.pairwise_append.mp hids).2.2 first hfirst new
              (List.mem_singleton_self new)
            exact (hpos first hfirst).trans hnew
    · have hr' : ∀ id, r ≠ .added (some id) := fun id hid => hr ⟨id, hid⟩
      rw [StreamRun.addedIds_single_eq_nil hr', List.append_nil]
      exact hpos

/-- An `XADD` appends an entry or leaves the stream as it is. -/
theorem step_add (key : String) (h : IsStream f.run.entry) (spec : AddIdSpec) (fields : List (String × Bytes))
    (nomkstream : Bool) (now : UInt64) :
    ∃ more, (f.step key (.add spec fields nomkstream now)).entries = f.entries ++ more ∧
      addedIds (f.step key (.add spec fields nomkstream now)).run.log =
        addedIds f.run.log ++ more.map StreamEntry.id ∧
      IsStream (f.step key (.add spec fields nomkstream now)).run.entry := by
  show ∃ more, (streamOf (f.run.step key _).entry).entries = _ ∧ addedIds (f.run.step key _).log = _ ∧
    IsStream (f.run.step key _).entry
  unfold StreamRun.step
  cases hmod : StreamCmd.modify key (.xadd spec fields nomkstream none now) f.run.entry with
  | error e =>
      refine ⟨[], (List.append_nil _).symm, ?_, h⟩
      rw [StreamRun.addedIds_snoc]
      rfl
  | ok action =>
      obtain ⟨b, hb, rfl⟩ := Result.map_eq_ok.mp hmod
      dsimp only
      rw [CasAction.map_apply, CasAction.map_result, StreamRun.addedIds_snoc]
      rcases Storage.xaddModify_added hb with ⟨hnone, hsame⟩ | ⟨id, exp, hid, hentry⟩
      · rw [hnone, hsame]
        exact ⟨[], (List.append_nil _).symm, rfl, h⟩
      · rw [hid, hentry]
        exact ⟨[⟨id, fields⟩], rfl, rfl, .inr ⟨exp, _, rfl⟩⟩

theorem Kept.sorted (h : Kept f) (hids : (addedIds f.run.log).Pairwise (· < ·)) :
    f.entries.Pairwise fun a b => a.id < b.id := by
  rw [← h.appended] at hids
  exact List.pairwise_map.mp hids

theorem Kept.past (h : Kept f) (hids : (addedIds f.run.log).Pairwise (· < ·)) (n : Nat) :
    pastId ((f.entries.take f.reader.received.length).getLast?.elim StreamId.min StreamEntry.id) n
      f.entries = (f.entries.drop f.reader.received.length).take n := by
  have hpos : ∀ e ∈ f.entries, StreamId.min < e.id := by
    intro e he
    apply h.positive
    rw [← h.appended]
    exact List.mem_map_of_mem he
  unfold pastId
  rw [past_cursor (h.sorted hids) hpos]

/-- Both ways of asking hand over the next `n` entries. -/
theorem Kept.xread (h : Kept f) (hids : (addedIds f.run.log).Pairwise (· < ·)) (n : Nat) :
    f.step key (.xread n) =
      f.receive (((f.entries.drop f.reader.received.length).take (served n)).map entryToReply) := by
  have hargs : xreadArgs key n f.reader.last = xreadArgs key n (some
      ((f.entries.take f.reader.received.length).getLast?.elim
        StreamId.min StreamEntry.id).display) := by
    rw [h.holds.last]
    cases (f.entries.take f.reader.received.length).getLast? <;> rfl
  have hanswer := xread_answer h.stream key n
    ((f.entries.take f.reader.received.length).getLast?.elim StreamId.min StreamEntry.id)
  rw [← hargs] at hanswer
  show f.receive (readItems _) = _
  rw [hanswer]
  exact congrArg (fun l => f.receive (List.map entryToReply l)) (h.past hids (served n))

theorem Kept.xrange (h : Kept f) (hids : (addedIds f.run.log).Pairwise (· < ·)) (n : Nat) :
    f.step key (.xrange n) =
      f.receive (((f.entries.drop f.reader.received.length).take (served n)).map entryToReply) := by
  have hpast := h.past hids (served n)
  have hlast := h.holds.last
  show f.receive (rangeItems (answered key f.run.entry 0 (handleXrange false
    [Rdb.asBytes key, f.reader.last.elim [45] (40 :: ·), [43], Rdb.asBytes "COUNT",
      Decimal.natBytes n]))) = _
  rw [hlast]
  cases htop : (f.entries.take f.reader.received.length).getLast? with
  | none =>
      have hanswer := xrange_answer h.stream key n bounds_up
      have hdrop := List.take_append_drop f.reader.received.length f.entries
      rw [List.getLast?_eq_none_iff.mp htop, List.nil_append] at hdrop
      rw [hdrop, Option.map_none, Option.elim_none]
      show f.receive (rangeItems _) = _
      rw [hanswer, between_all, if_neg Bool.false_ne_true]
      rfl
  | some top =>
      have hbounds : parseXrangeBounds false (40 :: top.id.display) [43] =
          .ok (.exclusive top.id, .maxInf) := by
        unfold parseXrangeBounds
        rw [if_neg (by simp), rangeIdArg_exclusive, rangeIdArg_plus]
        rfl
      have hanswer := xrange_answer h.stream key n hbounds
      rw [htop, Option.elim_some] at hpast
      rw [← hpast, Option.map_some, Option.elim_some]
      show f.receive (rangeItems _) = _
      rw [hanswer]
      have hsame : between (.exclusive top.id) .maxInf false (streamOf f.run.entry).entries =
          f.entries.filter fun e => decide (top.id < e.id) :=
        List.filter_congr fun e _ => Bool.and_true _
      rw [hsame]
      rfl

theorem Kept.step {st : FollowStep} (h : Kept f)
    (hids : (addedIds (f.step key st).run.log).Pairwise (· < ·)) : Kept (f.step key st) := by
  cases st with
  | add spec fields nomkstream now =>
      obtain ⟨more, hentries, hadded, hstream⟩ := step_add key h.stream spec fields
        nomkstream now
      refine ⟨hstream, ?_, StreamRun.lastAdded_step key _ h.last,
        positive_step h.last h.positive hids, ?_⟩
      · rw [hentries, List.map_append, h.appended, hadded]
      · rw [hentries]
        exact h.holds.append more
  | xread n =>
      rw [h.xread hids n]
      exact ⟨h.stream, h.appended, h.last, h.positive, (h.holds.take _).1⟩
  | xrange n =>
      rw [h.xrange hids n]
      exact ⟨h.stream, h.appended, h.last, h.positive, (h.holds.take _).1⟩

theorem log_step (key : String) (f : Following) (st : FollowStep) :
    f.run.log <+: (f.step key st).run.log := by
  cases st with
  | add spec fields nomkstream now => exact StreamRun.log_exec key f.run [_]
  | xread n => exact List.prefix_rfl
  | xrange n => exact List.prefix_rfl

theorem kept_exec {steps : List FollowStep}
    (hids : (addedIds (exec key {} steps).run.log).Pairwise (· < ·)) : Kept (exec key {} steps) := by
  induction steps using List.reverseRecOn with
  | nil => exact kept_empty
  | append_singleton steps st ih =>
      rw [exec_snoc] at hids ⊢
      have hpre := StreamRun.addedIds_prefix (log_step key (exec key {} steps) st)
      exact (ih (hids.sublist hpre.sublist)).step hids

end Following

/-! ## From the other end -/

/-- The same entries in the opposite order. -/
def reversed : RespReply → RespReply
  | .array items => .array items.reverse
  | reply => reply

/-- A range without `COUNT`, with its bounds read. -/
theorem answered_handleXrange (key : String) (entry : Option StoredValue) (reverse : Bool)
    (first second : Bytes) :
    answered key entry 0 (handleXrange reverse [Rdb.asBytes key, first, second]) =
      parseXrangeBounds reverse first second >>= fun p =>
        answered key entry 0 ((Storage.xrange key p.1 p.2 none reverse).bind fun out =>
          .done (.ok (.array (out.map entryToReply)))) := by
  show answered key entry 0 ((Prog.ofExcept (argAsStr (Rdb.asBytes key))).bind _) = _
  rw [argAsStr_asBytes]
  show answered key entry 0 ((Prog.ofExcept (parseXrangeBounds reverse first second)).bind _) = _
  cases parseXrangeBounds reverse first second <;> rfl

theorem answered_xrange (key : String) (entry : Option StoredValue) (start stop : RangeId)
    (reverse : Bool) :
    answered key entry 0 ((Storage.xrange key start stop none reverse).bind fun out =>
      .done (.ok (RespReply.array (out.map entryToReply)))) =
      (View.stream.find key entry).map fun found =>
        RespReply.array ((between start stop reverse (found.elim [] fun p => p.1.entries)).map
          entryToReply) := by
  unfold Storage.xrange View.read
  rw [Prog.bind_eq, Prog.bind_assoc, answered_loadEntry]
  cases View.stream.find key entry with
  | error e => rfl
  | ok found =>
      cases found with
      | none => cases reverse <;> rfl
      | some p => cases reverse <;> rfl

theorem xrevrange_reversed (key : String) (entry : Option StoredValue) (first second : Bytes) :
    answered key entry 0 (handleXrange true [Rdb.asBytes key, second, first]) =
      (answered key entry 0 (handleXrange false [Rdb.asBytes key, first, second])).map reversed := by
  rw [answered_handleXrange, answered_handleXrange,
    show parseXrangeBounds true second first = parseXrangeBounds false first second from rfl]
  cases parseXrangeBounds false first second with
  | error e => rfl
  | ok p =>
      rw [Result.ok_bind, Result.ok_bind, answered_xrange, answered_xrange]
      cases View.stream.find key entry with
      | error e => rfl
      | ok found =>
          show Except.ok (RespReply.array (List.map entryToReply (List.reverse _))) =
            Except.ok (reversed (RespReply.array (List.map entryToReply _)))
          rw [List.map_reverse]
          rfl

def pageDown (key : String) (entry : Option StoredValue) (r : Reader) (n : Nat) : Reader :=
  r.take (rangeItems (answered key entry 0 (handleXrange true (xrevrangeArgs key n r.last))))

section PageDown

variable {r : Reader} {entry : Option StoredValue}

/-- A page down is the next `n` entries from the newest. -/
theorem pageDown_next (hstream : IsStream entry)
    (hsorted : (streamOf entry).entries.Pairwise fun a b => a.id < b.id)
    (h : r.Holds (streamOf entry).entries.reverse) (key : String) (n : Nat) :
    pageDown key entry r n =
      r.take ((((streamOf entry).entries.reverse.drop r.received.length).take (served n)).map entryToReply) := by
  unfold pageDown xrevrangeArgs
  rw [h.last]
  cases htop : ((streamOf entry).entries.reverse.take r.received.length).getLast? with
  | none =>
      have hanswer := xrange_answer hstream key n bounds_down
      have hdrop := List.take_append_drop r.received.length (streamOf entry).entries.reverse
      rw [List.getLast?_eq_none_iff.mp htop, List.nil_append] at hdrop
      rw [hdrop, Option.map_none, Option.elim_none, hanswer, between_all, if_pos rfl]
  | some top =>
      have hbounds : parseXrangeBounds true (40 :: top.id.display) [45] =
          .ok (.minInf, .exclusive top.id) := by
        unfold parseXrangeBounds
        rw [if_pos rfl, rangeIdArg_minus, rangeIdArg_exclusive]
        rfl
      have hanswer := xrange_answer hstream key n hbounds
      have hbefore : (streamOf entry).entries.Pairwise fun a b => decide (a.id < b.id) = true :=
        hsorted.imp fun h => decide_eq_true h
      have hdown : (streamOf entry).entries.reverse.Pairwise fun a b => decide (b.id < a.id) = true :=
        List.pairwise_reverse.mpr hbefore
      have hpast := @filter_past _ (fun a b => decide (b.id < a.id)) _ hdown
        (fun a b => decide_lt_asymm b.id a.id) _ _ htop
      have hsame : between .minInf (.exclusive top.id) true (streamOf entry).entries =
          (streamOf entry).entries.reverse.filter fun e => decide (e.id < top.id) := by
        rw [List.filter_reverse]
        exact congrArg List.reverse (List.filter_congr fun e _ => Bool.true_and _)
      rw [Option.map_some, Option.elim_some, hanswer, hsame, ← hpast]

/-- Paging down hands over the entries from the newest, as many as were asked for. -/
theorem pageDown_all (hstream : IsStream entry)
    (hsorted : (streamOf entry).entries.Pairwise fun a b => a.id < b.id) (key : String)
    (counts : List Nat) :
    (counts.foldl (pageDown key entry) {}).received =
      ((streamOf entry).entries.reverse.take (counts.map served).sum).map entryToReply := by
  have hrun : (counts.foldl (pageDown key entry) {}).Holds (streamOf entry).entries.reverse ∧
      (counts.foldl (pageDown key entry) {}).received.length =
        min (counts.map served).sum (streamOf entry).entries.length := by
    induction counts using List.reverseRecOn with
    | nil => exact ⟨⟨rfl, rfl⟩, (Nat.zero_min _).symm⟩
    | append_singleton counts n ih =>
        obtain ⟨hholds, hlen⟩ := ih
        have htake := hholds.take (served n)
        rw [List.foldl_append, List.map_append, List.sum_append, List.map_singleton,
          List.sum_singleton]
        show (pageDown _ _ _ _).Holds _ ∧ (pageDown _ _ _ _).received.length = _
        rw [pageDown_next hstream hsorted hholds]
        refine ⟨htake.1, htake.2.trans ?_⟩
        rw [hlen, List.length_reverse]
        omega
  rw [hrun.1.received, hrun.2, ← List.take_take, ← List.length_reverse, List.take_length]

end PageDown

/-! ## Following misses nothing -/

/-- The reader has the first entries of the stream, in their order, and asking again brings
the next ones. -/
structure Following.Complete (key : String) (f : Following) : Prop where
  appended : f.entries.map StreamEntry.id = addedIds f.run.log
  handed : ∃ got, got <+: f.entries ∧ got.Pairwise (fun a b => a.id < b.id) ∧
    f.reader.received = got.map entryToReply
  xread : ∀ n, (f.step key (.xread n)).reader.received.length =
    min (f.reader.received.length + served n) f.entries.length
  xrange : ∀ n, (f.step key (.xrange n)).reader.received.length =
    min (f.reader.received.length + served n) f.entries.length

theorem Following.Kept.complete {f : Following} (h : f.Kept)
    (hids : (addedIds f.run.log).Pairwise (· < ·)) (key : String) : f.Complete key := by
  have hpre := List.take_prefix f.reader.received.length f.entries
  have hgot := (h.sorted hids).sublist hpre.sublist
  refine ⟨h.appended, ⟨_, hpre, hgot, h.holds.received⟩, ?_, ?_⟩
  · intro n
    rw [h.xread hids n]
    exact (h.holds.take (served n)).2
  · intro n
    rw [h.xrange hids n]
    exact (h.holds.take (served n)).2

/-- Forward by `XREAD` or `XRANGE` while entries are added, and back by `XREVRANGE`. -/
theorem following_misses_nothing (key : String) (steps : List FollowStep)
    (hids : (addedIds (Following.exec key {} steps).run.log).Pairwise (· < ·)) :
    (Following.exec key {} steps).Complete key ∧
    (∀ entry first second,
      answered key entry 0 (handleXrange true [Rdb.asBytes key, second, first]) =
        (answered key entry 0 (handleXrange false [Rdb.asBytes key, first, second])).map
          reversed) ∧
    ∀ counts : List Nat, (counts.foldl (pageDown key (Following.exec key {} steps).run.entry) {}).received =
      ((Following.exec key {} steps).entries.reverse.take (counts.map served).sum).map
        entryToReply := by
  have hkept := Following.kept_exec hids
  refine ⟨hkept.complete hids key, xrevrange_reversed key, ?_⟩
  intro counts
  exact pageDown_all hkept.stream (hkept.sorted hids) key counts

namespace Conversation

/-- Three entries, asked for one and two at a time while they are added. -/
def steps : List FollowStep := [
  .add (.concrete ⟨5, 1⟩) [("f", [97])] false 1,
  .xread 1,
  .add (.concrete ⟨5, 2⟩) [("f", [98])] false 2,
  .add (.concrete ⟨9, 0⟩) [("f", [99])] false 3,
  .xrange 2]

end Conversation

theorem following_misses_nothing_in_conversation :
    (addedIds (Following.exec "k" {} Conversation.steps).run.log).length = 3 ∧
      (Following.exec "k" {} Conversation.steps).Complete "k" :=
  ⟨by decide +kernel, (following_misses_nothing "k" Conversation.steps (by decide +kernel)).1⟩

end Commands
end RustyAnt
