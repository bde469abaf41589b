import RustyAnt.Commands.Following
import RustyAnt.Stream.Idle

/-!
# Between two bounds

`XRANGE` and `XREVRANGE` return the entries between two bounds, and the extended form of
`XPENDING` the pending rows.  A bound may be a bare millisecond, which stands for sequence
number 0 on either side.  The loop behind `XPENDING` looks at its count only after it has
added a row.
-/

namespace RustyAnt

open Lib RustyAnt.Stream

/-! ## A bare millisecond -/

namespace Stream

theorem splitOnce_of_not_mem {sep : UInt8} {text : Bytes} (h : sep ∉ text) :
    splitOnce sep text = none := by
  induction text with
  | nil => rfl
  | cons b text ih =>
      rw [List.mem_cons, not_or] at h
      rw [splitOnce, if_neg (Ne.symm h.1), ih h.2]
      rfl

end Stream

theorem StreamId.parse_natBytes (ms : UInt64) :
    StreamId.parse (Decimal.natBytes ms.toNat) = .ok ⟨ms, 0⟩ := by
  unfold StreamId.parse
  rw [splitOnce_of_not_mem (dash_not_mem _), readU64_natBytes]
  rfl

theorem RangeId.parse_natBytes (ms : UInt64) :
    RangeId.parse (Decimal.natBytes ms.toNat) = .ok (.inclusive ⟨ms, 0⟩) := by
  have hsign : ∀ b ∈ Decimal.natBytes ms.toNat, b ≠ 45 ∧ b ≠ 43 ∧ b ≠ 40 := by
    intro b hb
    have hdigit := (Decimal.mem_natBytes hb).1
    refine ⟨?_, ?_, ?_⟩ <;> rintro rfl <;> exact absurd hdigit (by decide)
  have hparse := StreamId.parse_natBytes ms
  have hne := Decimal.natBytes_ne_nil ms.toNat
  generalize Decimal.natBytes ms.toNat = text at hsign hparse hne
  cases text with
  | nil => exact absurd rfl hne
  | cons b text =>
      obtain ⟨hdash, hplus, hparen⟩ := hsign b List.mem_cons_self
      unfold RangeId.parse
      split
      · rename_i h
        cases h
        exact absurd rfl hdash
      · rename_i h
        cases h
        exact absurd rfl hplus
      · rename_i h
        cases h
        exact absurd rfl hparen
      · rw [hparse]
        rfl

namespace Commands

theorem rangeIdArg_natBytes (ms : UInt64) :
    rangeIdArg (Decimal.natBytes ms.toNat) = .ok (.inclusive ⟨ms, 0⟩) := by
  unfold rangeIdArg
  rw [argText_ascii (Decimal.natBytes_ascii _), Result.ok_bind, RangeId.parse_natBytes]

/-- The entries of the milliseconds from `a` to `b`. -/
def millis (a b : UInt64) (entries : List StreamEntry) : List StreamEntry :=
  entries.filter fun e => decide (a ≤ e.id.ms) && decide (e.id.ms ≤ b)

theorem first_le_iff (a : UInt64) (id : StreamId) : (⟨a, 0⟩ : StreamId) ≤ id ↔ a ≤ id.ms := by
  have hseq := id.seq.toNat_lt
  have hval : (⟨a, 0⟩ : StreamId).val = a.toNat * 2 ^ 64 := Nat.add_zero _
  rw [StreamId.le_iff_val, UInt64.le_iff_toNat_le, hval]
  unfold StreamId.val
  omega

theorem le_first_iff (b : UInt64) (id : StreamId) :
    id ≤ (⟨b, 0⟩ : StreamId) ↔ id.ms ≤ b ∧ (id.ms = b → id.seq = 0) := by
  have hseq := id.seq.toNat_lt
  have hval : (⟨b, 0⟩ : StreamId).val = b.toNat * 2 ^ 64 := Nat.add_zero _
  have hzero : id.seq = 0 ↔ id.seq.toNat = 0 := UInt64.toNat_inj.symm
  rw [StreamId.le_iff_val, UInt64.le_iff_toNat_le, ← UInt64.toNat_inj, hzero, hval]
  unfold StreamId.val
  omega

/-- Two bare milliseconds leave out what follows the first id of the last one. -/
theorem between_millis (a b : UInt64) (reverse : Bool) (entries : List StreamEntry) :
    between (.inclusive ⟨a, 0⟩) (.inclusive ⟨b, 0⟩) reverse entries =
      (if reverse then List.reverse else id) ((millis a b entries).filter fun e =>
        decide (e.id.ms = b → e.id.seq = 0)) := by
  unfold between millis
  rw [List.filter_filter]
  apply congrArg
  apply List.filter_congr
  intro e _
  show (decide (⟨a, 0⟩ ≤ e.id) && decide (e.id ≤ ⟨b, 0⟩)) = _
  rw [decide_eq_decide.mpr (first_le_iff a e.id), decide_eq_decide.mpr (le_first_iff b e.id),
    Bool.decide_and]
  cases decide (a ≤ e.id.ms) <;> cases decide (e.id.ms ≤ b) <;>
    cases decide (e.id.ms = b → e.id.seq = 0) <;> rfl

theorem xrange_millis_answer {entry : Option StoredValue} (h : IsStream entry) (key : String)
    (a b : UInt64) (reverse : Bool) :
    answered key entry 0 (handleXrange reverse (Rdb.asBytes key ::
        if reverse then [Decimal.natBytes b.toNat, Decimal.natBytes a.toNat]
        else [Decimal.natBytes a.toNat, Decimal.natBytes b.toNat])) =
      .ok (.array ((between (.inclusive ⟨a, 0⟩) (.inclusive ⟨b, 0⟩) reverse
        (streamOf entry).entries).map entryToReply)) := by
  have hfound : (View.stream.find key entry).map (fun found =>
      RespReply.array ((between (.inclusive ⟨a, 0⟩) (.inclusive ⟨b, 0⟩) reverse
        (found.elim [] fun p => p.1.entries)).map entryToReply)) =
      .ok (.array ((between (.inclusive ⟨a, 0⟩) (.inclusive ⟨b, 0⟩) reverse
        (streamOf entry).entries).map entryToReply)) := by
    rcases h with rfl | ⟨exp, s, rfl⟩ <;> rfl
  cases reverse with
  | false =>
      have hbounds : parseXrangeBounds false (Decimal.natBytes a.toNat) (Decimal.natBytes b.toNat) =
          .ok (.inclusive ⟨a, 0⟩, .inclusive ⟨b, 0⟩) := by
        unfold parseXrangeBounds
        rw [if_neg (by decide), rangeIdArg_natBytes, rangeIdArg_natBytes]
        rfl
      rw [if_neg (by decide), answered_handleXrange, hbounds, Result.ok_bind, answered_xrange,
        hfound]
  | true =>
      have hbounds : parseXrangeBounds true (Decimal.natBytes b.toNat) (Decimal.natBytes a.toNat) =
          .ok (.inclusive ⟨a, 0⟩, .inclusive ⟨b, 0⟩) := by
        unfold parseXrangeBounds
        rw [if_pos rfl, rangeIdArg_natBytes, rangeIdArg_natBytes]
        rfl
      rw [if_pos rfl, answered_handleXrange, hbounds, Result.ok_bind, answered_xrange, hfound]

/-- A range between two milliseconds has every entry of them exactly when no entry of the last
one follows its first id. -/
theorem xrange_millis_iff {entry : Option StoredValue} (h : IsStream entry) (key : String)
    {a b : UInt64} (hab : a ≤ b) :
    (answered key entry 0 (handleXrange false
          [Rdb.asBytes key, Decimal.natBytes a.toNat, Decimal.natBytes b.toNat]) =
        .ok (.array ((millis a b (streamOf entry).entries).map entryToReply)) ∧
      answered key entry 0 (handleXrange true
          [Rdb.asBytes key, Decimal.natBytes b.toNat, Decimal.natBytes a.toNat]) =
        .ok (.array ((millis a b (streamOf entry).entries).reverse.map entryToReply))) ↔
      ∀ e ∈ (streamOf entry).entries, e.id.ms = b → e.id.seq = 0 := by
  have hup := xrange_millis_answer h key a b false
  have hdown := xrange_millis_answer h key a b true
  rw [between_millis] at hup hdown
  rw [if_neg (by decide), if_neg (by decide)] at hup
  rw [if_pos rfl, if_pos rfl] at hdown
  rw [hup, hdown]
  constructor
  · intro hall e he hms
    have hlen := congrArg (fun r => (rangeItems r).length) hall.1
    dsimp only [rangeItems] at hlen
    rw [List.length_map, List.length_map] at hlen
    have hkept := List.length_filter_eq_length_iff.mp hlen
    have hin : e ∈ millis a b (streamOf entry).entries := by
      refine List.mem_filter.mpr ⟨he, ?_⟩
      rw [hms, decide_eq_true hab, decide_eq_true (UInt64.le_refl b)]
      rfl
    exact of_decide_eq_true (hkept e hin) hms
  · intro hseq
    have hkept : (millis a b (streamOf entry).entries).filter
        (fun e => decide (e.id.ms = b → e.id.seq = 0)) = millis a b (streamOf entry).entries := by
      apply List.filter_eq_self.mpr
      intro e he
      exact decide_eq_true (hseq e (List.mem_filter.mp he).1)
    rw [hkept]
    exact ⟨rfl, rfl⟩

/-- Two entries in one millisecond. -/
def oneMilli : StreamValue where
  entries := [⟨⟨5, 0⟩, [("f", [97])]⟩, ⟨⟨5, 1⟩, [("f", [98])]⟩]
  lastGeneratedId := ⟨5, 1⟩
  entriesAdded := 2

theorem xrange_millis_iff_on_oneMilli :
    (answered "k" (some ⟨none, .stream oneMilli⟩) 0 (handleXrange false
          [Rdb.asBytes "k", Decimal.natBytes (4 : UInt64).toNat, Decimal.natBytes (5 : UInt64).toNat]) =
        .ok (.array ((millis 4 5 oneMilli.entries).map entryToReply)) ∧
      answered "k" (some ⟨none, .stream oneMilli⟩) 0 (handleXrange true
          [Rdb.asBytes "k", Decimal.natBytes (5 : UInt64).toNat, Decimal.natBytes (4 : UInt64).toNat]) =
        .ok (.array ((millis 4 5 oneMilli.entries).reverse.map entryToReply))) ↔
      ∀ e ∈ oneMilli.entries, e.id.ms = 5 → e.id.seq = 0 :=
  xrange_millis_iff (.inr ⟨none, oneMilli, rfl⟩) "k" (by decide)

/-- `XRANGE k 5 5` finds `5-0` and misses `5-1`. -/
theorem xrange_millis_short :
    answered "k" (some ⟨none, .stream oneMilli⟩) 0 (handleXrange false
        [Rdb.asBytes "k", Decimal.natBytes (5 : UInt64).toNat, Decimal.natBytes (5 : UInt64).toNat]) =
      .ok (.array [entryToReply ⟨⟨5, 0⟩, [("f", [97])]⟩]) ∧
    millis 5 5 oneMilli.entries = [⟨⟨5, 0⟩, [("f", [97])]⟩, ⟨⟨5, 1⟩, [("f", [98])]⟩] := by
  have hanswer := xrange_millis_answer (.inr ⟨none, oneMilli, rfl⟩) "k" 5 5 false
  have hbetween : between (.inclusive ⟨5, 0⟩) (.inclusive ⟨5, 0⟩) false oneMilli.entries =
      [⟨⟨5, 0⟩, [("f", [97])]⟩] := by decide
  refine ⟨?_, by decide⟩
  rw [if_neg (by decide)] at hanswer
  rw [hanswer]
  exact congrArg (fun es => Except.ok (RespReply.array (es.map entryToReply))) hbetween

/-! ## Pending rows -/

/-- What the extended form of `XPENDING` asks for. -/
structure PendingQuery where
  start : RangeId
  stop : RangeId
  count : Nat
  consumer : Option String
  idleMs : Option Int

/-- `start end count [consumer]` -/
def parsePendingRange (idleMs : Option Int) : List Bytes → Result PendingQuery
  | start :: stop :: count :: rest => do
      let start ← rangeIdArg start
      let stop ← rangeIdArg stop
      let count ← parseStreamCount count "count"
      let consumer ← optionalStr rest.head?
      return ⟨start, stop, count, consumer, idleMs⟩
  | _ => .error syntaxError

/-- `[IDLE ms] start end count [consumer]` -/
def parsePendingQuery : List Bytes → Result PendingQuery
  | [] => .error syntaxError
  | first :: rest => do
      if ← isWord first "IDLE" then
        match rest with
        | [] => .error syntaxError
        | ms :: rest => do
            let ms ← parseI64 ms "IDLE"
            parsePendingRange (some ms) rest
      else parsePendingRange none (first :: rest)

namespace PendingQuery

variable (q : PendingQuery)

/-- The row lies within the bounds, belongs to the consumer and is idle for long enough. -/
def keeps (idle : Int) (row : StreamId × PendingEntry) : Bool :=
  q.start.geMin row.1 && q.stop.leMax row.1 && q.consumer.all (· == row.2.consumer) &&
    q.idleMs.all fun least => decide (least ≤ idle)

def detail (idle : Int) (row : StreamId × PendingEntry) : XPendingDetailRow :=
  ⟨row.1, row.2.consumer, idle, row.2.deliveryCount⟩

/-- The rows asked for, in id order, when `idle` says how long each has been idle. -/
def rowsBy (idle : PendingEntry → Int) (rows : List (StreamId × PendingEntry)) :
    List XPendingDetailRow :=
  (rows.filter fun row => q.keeps (idle row.2) row).map fun row => detail (idle row.2) row

/-- The rows asked for. -/
def rows (now : Int) (g : ConsumerGroup) : List XPendingDetailRow :=
  q.rowsBy (fun p => max 0 (now - p.deliveryTimeMs)) g.pel.toList

/-- The loop of `xpending_detail`, over the rows left. -/
def detailLoop (now : Int) :
    List (StreamId × PendingEntry) → List XPendingDetailRow → List XPendingDetailRow
  | [], rows => rows
  | (id, p) :: rest, rows =>
      if !q.start.geMin id || !q.stop.leMax id then detailLoop now rest rows
      else if q.consumer.any (· != p.consumer) then detailLoop now rest rows
      else
        let idle := idleSince now p.deliveryTimeMs
        if q.idleMs.any fun minIdle => decide (idle < minIdle) then detailLoop now rest rows
        else
          let rows := rows ++ [⟨id, p.consumer, idle, p.deliveryCount⟩]
          if q.count ≤ rows.length then rows else detailLoop now rest rows

variable {q} {now : Int} {left : List (StreamId × PendingEntry)} {g : ConsumerGroup}

theorem detailLoop_skip {row : StreamId × PendingEntry} {found : List XPendingDetailRow}
    (h : q.keeps (idleSince now row.2.deliveryTimeMs) row = false) :
    q.detailLoop now (row :: left) found = q.detailLoop now left found := by
  unfold keeps at h
  rw [detailLoop]
  split
  · rfl
  rename_i hbounds
  split
  · rfl
  rename_i hconsumer
  dsimp only
  rw [if_pos]
  rw [Bool.not_eq_true, Bool.or_eq_false_iff, Bool.not_eq_false', Bool.not_eq_false'] at hbounds
  have hown : q.consumer.all (· == row.2.consumer) = true := by
    cases hq : q.consumer with
    | none => rfl
    | some c =>
        rw [hq, Option.any_some, bne, Bool.not_eq_true, Bool.not_eq_false'] at hconsumer
        exact hconsumer
  rw [hbounds.1, hbounds.2, hown, Bool.true_and, Bool.true_and, Bool.true_and] at h
  cases hidle : q.idleMs with
  | none =>
      rw [hidle] at h
      cases h
  | some least =>
      rw [hidle, Option.all_some, decide_eq_false_iff_not, not_le] at h
      exact decide_eq_true h

theorem detailLoop_push {row : StreamId × PendingEntry} {found : List XPendingDetailRow}
    (h : q.keeps (idleSince now row.2.deliveryTimeMs) row = true) :
    q.detailLoop now (row :: left) found =
      let found' := found ++ [detail (idleSince now row.2.deliveryTimeMs) row]
      if q.count ≤ found'.length then found' else q.detailLoop now left found' := by
  unfold keeps at h
  rw [Bool.and_eq_true, Bool.and_eq_true, Bool.and_eq_true] at h
  obtain ⟨⟨⟨hstart, hstop⟩, hconsumer⟩, hidle⟩ := h
  have hown : q.consumer.any (· != row.2.consumer) = false := by
    cases hq : q.consumer with
    | none => rfl
    | some c =>
        rw [hq, Option.all_some] at hconsumer
        rw [Option.any_some, bne, hconsumer]
        rfl
  have hlong : (q.idleMs.any fun minIdle =>
      decide (idleSince now row.2.deliveryTimeMs < minIdle)) = false := by
    cases hq : q.idleMs with
    | none => rfl
    | some least =>
        rw [hq, Option.all_some, decide_eq_true_eq] at hidle
        exact decide_eq_false (not_lt.mpr hidle)
  rw [detailLoop, hstart, hstop, hown]
  dsimp only
  rw [hlong]
  rfl

theorem detailLoop_eq (found : List XPendingDetailRow) :
    q.detailLoop now left found = found ++
      (q.rowsBy (fun p => idleSince now p.deliveryTimeMs) left).take
        (max (q.count - found.length) 1) := by
  induction left generalizing found with
  | nil =>
      rw [detailLoop, rowsBy, List.filter_nil, List.map_nil, List.take_nil, List.append_nil]
  | cons row left ih =>
      unfold rowsBy at ih ⊢
      rw [List.filter_cons]
      cases hkeep : q.keeps (idleSince now row.2.deliveryTimeMs) row with
      | false => rw [detailLoop_skip hkeep, ih, if_neg (by decide)]
      | true =>
          rw [detailLoop_push hkeep, if_pos rfl, List.map_cons]
          dsimp only
          rw [List.length_append, List.length_singleton]
          by_cases hfull : q.count ≤ found.length + 1
          · have hone : max (q.count - found.length) 1 = 0 + 1 := by omega
            rw [if_pos hfull, hone, List.take_succ_cons, List.take_zero]
          · have hmore : max (q.count - found.length) 1 =
                max (q.count - (found.length + 1)) 1 + 1 := by omega
            rw [if_neg hfull, ih, hmore, List.take_succ_cons, List.length_append,
              List.length_singleton, List.append_assoc, List.singleton_append]

theorem filterMap_rows (idle : PendingEntry → Int) (rows : List (StreamId × PendingEntry)) :
    (rows.filterMap fun row =>
      if q.keeps (idle row.2) row then some (detail (idle row.2) row) else none) =
      q.rowsBy idle rows := by
  unfold rowsBy
  induction rows with
  | nil => rfl
  | cons row rows ih =>
      cases hkeep : q.keeps (idle row.2) row with
      | false => rw [List.filterMap_cons, hkeep, if_neg (by decide), ih, List.filter_cons, hkeep,
          if_neg (by decide)]
      | true => rw [List.filterMap_cons, hkeep, if_pos rfl, ih, List.filter_cons, hkeep, if_pos rfl,
          List.map_cons]

theorem pendingDetail_eq_loop (q : PendingQuery) (g : ConsumerGroup) (now : Int) :
    Storage.pendingDetail g q.start q.stop q.count q.consumer q.idleMs now =
      q.detailLoop now g.pel.toList [] := by
  have hrows := filterMap_rows (q := q) (fun p => idleSince now p.deliveryTimeMs) g.pel.toList
  rw [detailLoop_eq, List.nil_append, List.length_nil, Nat.sub_zero, ← hrows]
  rfl

/-- The clock can be compared to every delivery time. -/
def IdleFits (now : Int) (g : ConsumerGroup) : Prop :=
  ∀ (id : StreamId) (p : PendingEntry), g.pel[id]? = some p → InI64 (now - p.deliveryTimeMs)

theorem detailLoop_rows (h : IdleFits now g) :
    q.detailLoop now g.pel.toList [] = (q.rows now g).take (max q.count 1) := by
  rw [detailLoop_eq, List.nil_append, List.length_nil, Nat.sub_zero, rows, ← filterMap_rows,
    ← filterMap_rows]
  congr 1
  apply List.filterMap_congr
  intro row hrow
  have hp := Std.ExtTreeMap.mem_toList_iff_getElem?_eq_some.mp hrow
  rw [idleSince_eq (h row.1 row.2 hp)]

end PendingQuery

/-- A row of the extended reply. -/
def pendingRowReply (r : XPendingDetailRow) : RespReply :=
  .array [streamIdBulk r.id, .text r.consumer, .integer r.idleMs, count64 r.deliveryCount]

section Page

variable {q : PendingQuery} {key group : String} {exp : Option Int} {s : StreamValue}
  {g : ConsumerGroup} {now : Int} {args : List Bytes}

theorem answered_parse {α β : Type} {r : Result α} {f : α → KV β} {a : α}
    {entry : Option StoredValue} (h : r = .ok a) :
    answered key entry now ((Prog.ofExcept r).bind f) = answered key entry now (f a) := by
  rw [h]
  rfl

theorem answered_pendingRange (hg : s.groups[group]? = some g) {idleMs : Option Int}
    (hq : parsePendingRange idleMs args = .ok q) :
    answered key (some ⟨exp, .stream s⟩) now (pendingDetailReply key group idleMs args) =
      .ok (.array ((q.detailLoop now g.pel.toList []).map pendingRowReply)) := by
  rcases args with _ | ⟨start, _ | ⟨stop, _ | ⟨count, rest⟩⟩⟩
  · cases hq
  · cases hq
  · cases hq
  · obtain ⟨start', hstart, hq⟩ := Result.bind_eq_ok.mp hq
    obtain ⟨stop', hstop, hq⟩ := Result.bind_eq_ok.mp hq
    obtain ⟨count', hcount, hq⟩ := Result.bind_eq_ok.mp hq
    obtain ⟨consumer', hconsumer, hq⟩ := Result.bind_eq_ok.mp hq
    rw [Result.pure_eq_ok, Except.ok.injEq] at hq
    rw [← PendingQuery.pendingDetail_eq_loop, ← hq]
    refine (answered_parse hstart).trans ?_
    refine (answered_parse hstop).trans ?_
    refine (answered_parse hcount).trans ?_
    refine (answered_parse hconsumer).trans ?_
    show answered key _ now ((Storage.xpendingDetail key group start' stop' count' consumer' idleMs
      now).bind _) = _
    unfold Storage.xpendingDetail
    rw [Prog.bind_eq, Prog.bind_assoc, answered_loadEntry, Storage.groupOf_stream hg]
    rfl

theorem answered_handleXpending {keyArg groupArg : Bytes} (hkey : argAsStr keyArg = .ok key)
    (hgroup : argAsStr groupArg = .ok group) (hg : s.groups[group]? = some g)
    (hq : parsePendingQuery args = .ok q) :
    answered key (some ⟨exp, .stream s⟩) now (handleXpending (keyArg :: groupArg :: args)) =
      .ok (.array ((q.detailLoop now g.pel.toList []).map pendingRowReply)) := by
  cases args with
  | nil => cases hq
  | cons first rest =>
      obtain ⟨idle, hidle, hq⟩ := Result.bind_eq_ok.mp hq
      refine (answered_parse hkey).trans ?_
      refine (answered_parse hgroup).trans ?_
      refine (answered_parse hidle).trans ?_
      cases idle with
      | false =>
          rw [if_neg (by decide)] at hq ⊢
          exact answered_pendingRange hg hq
      | true =>
          rw [if_pos rfl] at hq ⊢
          cases rest with
          | nil => cases hq
          | cons ms rest =>
              obtain ⟨least, hleast, hq⟩ := Result.bind_eq_ok.mp hq
              refine (answered_parse hleast).trans ?_
              exact answered_pendingRange hg hq

/-- A page of pending rows is exact unless it is to be empty and a row matches. -/
theorem pending_page_iff {keyArg groupArg : Bytes} (hkey : argAsStr keyArg = .ok key)
    (hgroup : argAsStr groupArg = .ok group) (hg : s.groups[group]? = some g)
    (hidle : PendingQuery.IdleFits now g)
    (hq : parsePendingQuery args = .ok q) :
    answered key (some ⟨exp, .stream s⟩) now (handleXpending (keyArg :: groupArg :: args)) =
        .ok (.array (((q.rows now g).take q.count).map pendingRowReply)) ↔
      (q.count = 0 → q.rows now g = []) := by
  rw [answered_handleXpending hkey hgroup hg hq, PendingQuery.detailLoop_rows hidle]
  constructor
  · intro hpage hzero
    have hlen := congrArg (fun r => (rangeItems r).length) hpage
    dsimp only [rangeItems] at hlen
    rw [List.length_map, List.length_map, List.length_take, List.length_take, hzero] at hlen
    apply List.eq_nil_of_length_eq_zero
    omega
  · intro hempty
    by_cases hzero : q.count = 0
    · rw [hempty hzero, List.take_nil, List.take_nil]
    · rw [max_eq_left (by omega)]

end Page

/-- One row is pending. -/
def oneRow : ConsumerGroup where
  lastDeliveredId := ⟨1, 0⟩
  consumers := (∅ : BTreeMap _ _).insert "alice" ⟨0⟩
  pel := (∅ : BTreeMap _ _).insert ⟨1, 0⟩ ⟨"alice", 0, 1⟩

def oneRowStream : StreamValue where
  entries := [⟨⟨1, 0⟩, [("f", [97])]⟩]
  lastGeneratedId := ⟨1, 0⟩
  entriesAdded := 1
  groups := (∅ : BTreeMap _ _).insert "g" oneRow

theorem oneRow_fits : PendingQuery.IdleFits 10 oneRow := by
  intro id p hp
  rw [oneRow, Std.ExtTreeMap.getElem?_insert] at hp
  split at hp
  · cases hp
    exact ⟨by decide, by decide⟩
  · cases hp

theorem oneRowStream_group : oneRowStream.groups["g"]? = some oneRow :=
  Std.ExtTreeMap.getElem?_insert_self

/-- `- + count` -/
def wholeRange (count : Nat) : PendingQuery := ⟨.minInf, .maxInf, count, none, none⟩

theorem pending_page_iff_on_oneRow :
    answered "k" (some ⟨none, .stream oneRowStream⟩) 10
        (handleXpending (Rdb.asBytes "k" :: Rdb.asBytes "g" :: [[45], [43], [49]])) =
        .ok (.array ((((wholeRange 1).rows 10 oneRow).take (wholeRange 1).count).map
          pendingRowReply)) ↔
      ((wholeRange 1).count = 0 → (wholeRange 1).rows 10 oneRow = []) :=
  pending_page_iff (argAsStr_asBytes "k") (argAsStr_asBytes "g") oneRowStream_group oneRow_fits rfl

/-- `XPENDING k g - + 0` returns a row. -/
theorem pending_page_overfull :
    answered "k" (some ⟨none, .stream oneRowStream⟩) 10
        (handleXpending (Rdb.asBytes "k" :: Rdb.asBytes "g" :: [[45], [43], [48]])) =
      .ok (.array [pendingRowReply ⟨⟨1, 0⟩, "alice", 10, 1⟩]) ∧
    ((wholeRange 0).rows 10 oneRow).take (wholeRange 0).count = [] := by
  have hq : parsePendingQuery [[45], [43], [48]] = .ok (wholeRange 0) := rfl
  have hanswer : answered "k" (some ⟨none, .stream oneRowStream⟩) 10
      (handleXpending (Rdb.asBytes "k" :: Rdb.asBytes "g" :: [[45], [43], [48]])) = _ :=
    answered_handleXpending (argAsStr_asBytes "k") (argAsStr_asBytes "g") oneRowStream_group hq
  have hloop : (wholeRange 0).detailLoop 10 oneRow.pel.toList [] = [⟨⟨1, 0⟩, "alice", 10, 1⟩] := by
    decide +kernel
  rw [hloop] at hanswer
  exact ⟨hanswer, rfl⟩

end Commands
end RustyAnt
