import RustyAnt.Commands.Following
import RustyAnt.Commands.Hashes
import RustyAnt.Commands.Sets
import RustyAnt.Commands.ZSets
import RustyAnt.Lib.OffsetScan

/-!
# Iterating a collection

A client repeats `HSCAN`, `SSCAN` or `ZSCAN` with the cursor of the last reply until the
cursor is `0`.  The cursor is an offset into the sorted collection.
-/

namespace RustyAnt

open Lib

namespace Commands

inductive ScanCommand where
  | hscan
  | sscan
  | zscan
  deriving DecidableEq

namespace ScanCommand

def handle (x : Externs) : ScanCommand → List Bytes → KV RespReply
  | hscan => handleHscan x.wild
  | sscan => handleSscan x
  | zscan => handleZscan x.fo x.wild

/-- The name of a row and the replies it is rendered by. -/
abbrev Row := String × List RespReply

/-- The rows of the collection, in key order. -/
def rows (x : Externs) : ScanCommand → Option StoredValue → List Row
  | hscan, some ⟨_, .hash m⟩ => m.toList.map fun p => (p.1, [.text p.1, .bulkString (some p.2)])
  | sscan, some ⟨_, .set s⟩ => s.toList.map fun member => (member, [.text member])
  | zscan, some ⟨_, .zset m⟩ => m.toList.map fun p => (p.1, [.text p.1, scoreReply x.fo p.2])
  | _, _ => []

/-- The key holds a collection of the command's kind, or nothing. -/
def Reads : ScanCommand → Option StoredValue → Prop
  | _, none => True
  | hscan, some e => e.kind = .hash
  | sscan, some e => e.kind = .set
  | zscan, some e => e.kind = .zset

def wanted (x : Externs) (pattern : Option String) (row : Row) : Bool :=
  pattern.elim true fun p => x.wild p row.1

def word : ScanCommand → String
  | hscan => "HSCAN"
  | sscan => "SSCAN"
  | zscan => "ZSCAN"

/-- `key cursor [MATCH pattern] COUNT n`. -/
def args (key : String) (cursor : Bytes) (pattern : Option String) (n : Nat) : List Bytes :=
  Rdb.asBytes key :: cursor ::
    ((pattern.elim [] fun p => [Rdb.asBytes "MATCH", Rdb.asBytes p]) ++
      [Rdb.asBytes "COUNT", Decimal.natBytes n])

end ScanCommand

/-! ## The arguments -/

theorem word_match : optionWord (Rdb.asBytes "MATCH") = .ok "MATCH" := by
  rw [optionWord_asBytes]
  decide +kernel

theorem parseScanOpts_match {tok v : Bytes} {rest : List Bytes} {cmd : String}
    {pattern : Option String} {count : Nat} (h : optionWord tok = .ok "MATCH") :
    parseScanOpts cmd (tok :: v :: rest) (pattern, count) =
      argAsStr v >>= fun p => parseScanOpts cmd rest (some p, count) := by
  delta parseScanOpts
  dsimp only [List.brecOn, List.brecOn.go, List.rec]
  show (optionWord tok >>= _) = _
  rw [h]
  rfl

theorem parseScanOpts_count {tok v : Bytes} {rest : List Bytes} {cmd : String}
    {pattern : Option String} {count : Nat} (h : optionWord tok = .ok "COUNT") :
    parseScanOpts cmd (tok :: v :: rest) (pattern, count) =
      parseI64 v "COUNT" >>= fun c =>
        if c ≤ 0 then .error (.parse "COUNT must be positive")
        else parseScanOpts cmd rest (pattern, c.toNat) := by
  delta parseScanOpts
  dsimp only [List.brecOn, List.brecOn.go, List.rec]
  show (optionWord tok >>= _) = _
  rw [h]
  rfl

theorem parseScanCursor_natBytes {c : Nat} (hc : (c : Int) ≤ i64Max) :
    parseScanCursor (Decimal.natBytes c) = .ok (UInt64.ofNat c) := by
  unfold parseScanCursor
  rw [parseI64_natBytes hc, Result.ok_bind, if_neg (by omega)]
  exact congrArg (fun n => Except.ok (UInt64.ofNat n)) (Int.toNat_natCast c)

theorem parseScanOpts_args {n : Nat} (cmd : String) (pattern : Option String) :
    parseScanOpts cmd ((pattern.elim [] fun p => [Rdb.asBytes "MATCH", Rdb.asBytes p]) ++
      [Rdb.asBytes "COUNT", Decimal.natBytes n]) (none, 10) =
    parseI64 (Decimal.natBytes n) "COUNT" >>= fun c =>
      if c ≤ 0 then .error (.parse "COUNT must be positive") else .ok (pattern, c.toNat) := by
  cases pattern with
  | none => exact parseScanOpts_count word_count
  | some p =>
      show parseScanOpts cmd (_ :: _ :: _) _ = _
      rw [parseScanOpts_match word_match, argAsStr_asBytes, Result.ok_bind]
      exact parseScanOpts_count word_count

theorem parseCollectionScan_args {c n : Nat} (cmd key : String) (pattern : Option String)
    (hc : (c : Int) ≤ i64Max) (hn : (n : Int) ≤ i64Max) (hpos : 1 ≤ n) :
    parseCollectionScan cmd (ScanCommand.args key (Decimal.natBytes c) pattern n) =
      .ok (key, UInt64.ofNat c, pattern, n) := by
  unfold ScanCommand.args parseCollectionScan
  dsimp only
  rw [argAsStr_asBytes, Result.ok_bind, parseScanCursor_natBytes hc, Result.ok_bind,
    parseScanOpts_args, parseI64_natBytes hn, Result.ok_bind, if_neg (by omega)]
  rfl

/-- A cursor or a count past `i64` is refused, and so is a count of zero. -/
theorem parseCollectionScan_refused {c n : Nat} (cmd key : String) (pattern : Option String)
    (h : ¬ ((c : Int) ≤ i64Max ∧ (n : Int) ≤ i64Max ∧ 1 ≤ n)) :
    ∃ e, parseCollectionScan cmd (ScanCommand.args key (Decimal.natBytes c) pattern n) =
      .error e := by
  unfold ScanCommand.args parseCollectionScan
  dsimp only
  rw [argAsStr_asBytes, Result.ok_bind]
  by_cases hc : (c : Int) ≤ i64Max
  · rw [parseScanCursor_natBytes hc, Result.ok_bind, parseScanOpts_args]
    by_cases hn : (n : Int) ≤ i64Max
    · rw [parseI64_natBytes hn, Result.ok_bind, if_pos (by omega)]
      exact ⟨_, rfl⟩
    · rw [parseI64_beyond hn]
      exact ⟨_, rfl⟩
  · unfold parseScanCursor
    rw [parseI64_beyond hc]
    exact ⟨_, rfl⟩

/-! ## One call -/

section Call

variable {x : Externs} {α : Type}

theorem applyCollectionScan_eq (wild : String → String → Bool) (hstar : ∀ name, wild "*" name = true)
    (items : List α) (cursor : UInt64) (count : Nat) (pattern : Option String) (name : α → String) :
    Storage.applyCollectionScan wild items cursor count pattern name =
      (if items.length ≤ cursor.toNat + count then 0 else UInt64.ofNat (cursor.toNat + count),
        ((items.drop cursor.toNat).take count).filter fun a =>
          pattern.elim true fun p => wild p (name a)) := by
  unfold Storage.applyCollectionScan
  dsimp only
  by_cases hend : items.length ≤ cursor.toNat
  · rw [if_pos hend, if_pos (by omega), List.drop_of_length_le hend,
      List.take_nil, List.filter_nil]
  · rw [if_neg hend]
    have hbatch : (items.drop cursor.toNat).take (min (cursor.toNat + count) items.length -
        cursor.toNat) = (items.drop cursor.toNat).take count := by
      rw [List.take_eq_take_iff, List.length_drop]
      omega
    have hnext : (if items.length ≤ min (cursor.toNat + count) items.length then 0
        else UInt64.ofNat (min (cursor.toNat + count) items.length)) =
        if items.length ≤ cursor.toNat + count then 0
        else UInt64.ofNat (cursor.toNat + count) := by
      by_cases hlast : items.length ≤ cursor.toNat + count
      · rw [if_pos hlast, if_pos (by omega)]
      · rw [if_neg hlast, if_neg (by omega), min_eq_left (by omega)]
    rw [hbatch, hnext]
    cases pattern with
    | none => exact congrArg (Prod.mk _) (List.filter_true _).symm
    | some p =>
        dsimp only
        by_cases hp : p = "*"
        · subst hp
          have hall : ∀ a, (some "*").elim true (fun p => wild p (name a)) = true :=
            fun a => hstar (name a)
          rw [if_pos rfl, List.filter_eq_self.mpr fun a _ => hall a]
        · rw [if_neg hp]
          rfl

def replyOn (x : Externs) (pattern : Option String) (rows : List ScanCommand.Row) (c n : Nat) :
    RespReply :=
  scanReply (if rows.length ≤ c + n then 0 else UInt64.ofNat (c + n))
    ((((rows.drop c).take n).filter (ScanCommand.wanted x pattern)).flatMap Prod.snd)

theorem replyOn_map (hstar : ∀ name, x.wild "*" name = true) (items : List α)
    (row : α → ScanCommand.Row) (pattern : Option String) {c : Nat} (hc : (c : Int) ≤ i64Max)
    (n : Nat) :
    scanReply
      (Storage.applyCollectionScan x.wild items (UInt64.ofNat c) n pattern fun a => (row a).1).1
      ((Storage.applyCollectionScan x.wild items (UInt64.ofNat c) n pattern
        fun a => (row a).1).2.flatMap fun a => (row a).2) =
      replyOn x pattern (items.map row) c n := by
  have hoffset : (UInt64.ofNat c).toNat = c := by
    apply UInt64.toNat_ofNat_of_lt'
    unfold i64Max at hc
    have hsize : UInt64.size = 2 ^ 64 := rfl
    omega
  rw [applyCollectionScan_eq x.wild hstar, hoffset]
  unfold replyOn
  rw [List.length_map, ← List.map_drop, ← List.map_take, List.filter_map, List.flatMap_map]
  rfl

theorem answered_viewRead {α β γ : Type} (v : View α) (key : String) (entry : Option StoredValue)
    (absent : β) (f : α → β) (k : β → KV γ) :
    answered key entry 0 ((v.read key absent f).bind k) =
      v.find key entry >>= fun found => answered key entry 0 (k (found.elim absent fun p => f p.1)) := by
  unfold View.read
  rw [Prog.bind_eq, Prog.bind_assoc, answered_loadEntry]
  cases v.find key entry with
  | error e => rfl
  | ok found => cases found <;> rfl

theorem replyOn_nil (x : Externs) (pattern : Option String) (c n : Nat) :
    replyOn x pattern [] c n = scanReply 0 [] := by
  unfold replyOn
  rw [List.length_nil, if_pos (Nat.zero_le _), List.drop_nil, List.take_nil]
  rfl

/-- A scan of a collection whose items are `items`. -/
theorem answered_scan {β : Type} (hstar : ∀ name, x.wild "*" name = true) (v : View β)
    (items : β → List α) (row : α → ScanCommand.Row) (key : String) (pattern : Option String)
    {c : Nat} (hc : (c : Int) ≤ i64Max) (n : Nat) {entry : Option StoredValue}
    {found : Option (β × Option Int)} (hfind : v.find key entry = .ok found)
    (render : List α → List RespReply)
    (hrender : ∀ as, render as = as.flatMap fun a => (row a).2) :
    answered key entry 0 ((v.read key (0, []) fun m => Storage.applyCollectionScan x.wild (items m)
        (UInt64.ofNat c) n pattern fun a => (row a).1).bind fun out =>
      .done (.ok (scanReply out.1 (render out.2)))) =
      .ok (replyOn x pattern (found.elim [] fun p => (items p.1).map row) c n) := by
  rw [answered_viewRead, hfind, Result.ok_bind]
  cases found with
  | none =>
      rw [Option.elim_none, Option.elim_none, replyOn_nil, hrender]
      rfl
  | some p =>
      rw [Option.elim_some, Option.elim_some, ← replyOn_map hstar (items p.1) row pattern hc n,
        hrender]
      rfl

/-- A call whose arguments are read is answered with a page of the rows. -/
theorem scan_answer (hstar : ∀ name, x.wild "*" name = true) {cmd : ScanCommand}
    {entry : Option StoredValue} (h : cmd.Reads entry) (key : String) (pattern : Option String)
    {c n : Nat} (hc : (c : Int) ≤ i64Max) (hn : (n : Int) ≤ i64Max) (hpos : 1 ≤ n) :
    answered key entry 0 (cmd.handle x (ScanCommand.args key (Decimal.natBytes c) pattern n)) =
      .ok (replyOn x pattern (cmd.rows x entry) c n) := by
  have hargs := fun word => parseCollectionScan_args word key pattern hc hn hpos
  cases cmd with
  | hscan =>
      show answered key entry 0 ((Prog.ofExcept (parseCollectionScan "HSCAN" _)).bind _) = _
      rw [hargs]
      have hscan : ∀ found, View.hash.find key entry = .ok found → _ := fun found hfind =>
        answered_scan hstar View.hash (fun m => m.toList)
          (fun p => (p.1, [.text p.1, .bulkString (some p.2)])) key pattern hc n hfind
          fieldsReply fun _ => rfl
      rcases entry with - | ⟨exp, value⟩
      · exact hscan none rfl
      · cases value with
        | hash m => exact hscan (some (m, exp)) rfl
        | _ => cases h
  | sscan =>
      show answered key entry 0 ((Prog.ofExcept (parseCollectionScan "SSCAN" _)).bind _) = _
      rw [hargs]
      have hscan : ∀ found, View.set.find key entry = .ok found → _ := fun found hfind =>
        answered_scan hstar View.set (fun s => s.toList)
          (fun member => (member, [.text member])) key pattern hc n hfind
          (List.map .text) fun as => List.map_eq_flatMap
      rcases entry with - | ⟨exp, value⟩
      · exact hscan none rfl
      · cases value with
        | set s => exact hscan (some (s, exp)) rfl
        | _ => cases h
  | zscan =>
      show answered key entry 0 ((Prog.ofExcept (parseCollectionScan "ZSCAN" _)).bind _) = _
      rw [hargs]
      have hscan : ∀ found, View.zset.find key entry = .ok found → _ := fun found hfind =>
        answered_scan hstar View.zset (fun m => m.toList)
          (fun p => (p.1, [.text p.1, scoreReply x.fo p.2])) key pattern hc n hfind
          (fun pairs => pairs.flatMap fun p => [.text p.1, scoreReply x.fo p.2]) fun _ => rfl
      rcases entry with - | ⟨exp, value⟩
      · exact hscan none rfl
      · cases value with
        | zset m => exact hscan (some (m, exp)) rfl
        | _ => cases h

/-- A call whose cursor or count is out of range is refused. -/
theorem scan_refused (cmd : ScanCommand) (entry : Option StoredValue) (key : String)
    (pattern : Option String) {c n : Nat}
    (h : ¬ ((c : Int) ≤ i64Max ∧ (n : Int) ≤ i64Max ∧ 1 ≤ n)) :
    ∃ e, answered key entry 0
      (cmd.handle x (ScanCommand.args key (Decimal.natBytes c) pattern n)) = .error e := by
  obtain ⟨e, hargs⟩ := parseCollectionScan_refused cmd.word key pattern h
  refine ⟨e, ?_⟩
  cases cmd with
  | hscan =>
      show answered key entry 0 ((Prog.ofExcept (parseCollectionScan ScanCommand.hscan.word _)).bind _) = _
      rw [hargs]
      rfl
  | sscan =>
      show answered key entry 0 ((Prog.ofExcept (parseCollectionScan ScanCommand.sscan.word _)).bind _) = _
      rw [hargs]
      rfl
  | zscan =>
      show answered key entry 0 ((Prog.ofExcept (parseCollectionScan ScanCommand.zscan.word _)).bind _) = _
      rw [hargs]
      rfl

end Call

/-! ## The client -/

/-- What a client has of an iteration: the cursor of the last reply and the items so far. -/
structure ScanClient where
  cursor : Bytes := [48]
  items : List RespReply := []
  finished : Bool := false

/-- The next call, with the cursor as it was received; the iteration ends when it is `0`. -/
def ScanClient.call (x : Externs) (cmd : ScanCommand) (key : String) (pattern : Option String)
    (entry : Option StoredValue) (client : ScanClient) (n : Nat) : ScanClient :=
  if client.finished then client
  else
    match answered key entry 0 (cmd.handle x (ScanCommand.args key client.cursor pattern n)) with
    | .ok (.array [.bulkString (some next), .array items]) =>
        ⟨next, client.items ++ items, next == [48]⟩
    | _ => client

structure ScanClient.Follows (x : Externs) (pattern : Option String) (client : ScanClient)
    (o : OffsetScan ScanCommand.Row) : Prop where
  cursor : client.cursor = Decimal.natBytes o.offset
  items : client.items = (o.out.filter (ScanCommand.wanted x pattern)).flatMap Prod.snd
  finished : client.finished = o.finished

theorem follows_start (x : Externs) (pattern : Option String) :
    ScanClient.Follows x pattern {} {} := ⟨by decide, rfl, rfl⟩

theorem natBytes_eq_zero {n : Nat} : (Decimal.natBytes n == [48]) = decide (n = 0) := by
  by_cases h : n = 0
  · subst h
    decide
  · rw [decide_eq_false h]
    apply beq_eq_false_iff_ne.mpr
    intro heq
    have hval := congrArg Decimal.digitsVal heq
    rw [Decimal.digitsVal_natBytes] at hval
    exact h hval

section Client

variable {x : Externs} {cmd : ScanCommand} {entry : Option StoredValue} {pattern : Option String}
variable {client : ScanClient} {o : OffsetScan ScanCommand.Row}

theorem follows_call (hstar : ∀ name, x.wild "*" name = true) (hreads : cmd.Reads entry)
    (h : client.Follows x pattern o) (key : String) {n : Nat} (hoffset : (o.offset : Int) ≤ i64Max)
    (hn : (n : Int) ≤ i64Max) (hpos : 1 ≤ n) :
    (client.call x cmd key pattern entry n).Follows x pattern (o.page (cmd.rows x entry) n) := by
  unfold ScanClient.call
  by_cases hfin : o.finished = true
  · rw [if_pos (h.finished.trans hfin), OffsetScan.page_finished hfin]
    exact h
  · rw [if_neg (by rw [h.finished]; exact hfin), h.cursor,
      scan_answer hstar hreads key pattern hoffset hn hpos]
    rw [Bool.not_eq_true] at hfin
    unfold replyOn scanReply
    dsimp only
    by_cases hlast : (cmd.rows x entry).length ≤ o.offset + n
    · have hpage : ((cmd.rows x entry).drop o.offset).take n = (cmd.rows x entry).drop o.offset := by
        apply List.take_of_length_le
        rw [List.length_drop]
        omega
      rw [if_pos hlast, OffsetScan.page_last hfin hlast, hpage, h.items]
      refine ⟨rfl, ?_, ?_⟩
      · rw [List.filter_append, List.flatMap_append]
      · show (Decimal.natBytes 0 == [48]) = true
        decide
    · have hnext : (UInt64.ofNat (o.offset + n)).toNat = o.offset + n := by
        apply UInt64.toNat_ofNat_of_lt'
        unfold i64Max at hoffset hn
        have hsize : UInt64.size = 2 ^ 64 := rfl
        omega
      rw [if_neg hlast, OffsetScan.page_next hfin hlast, hnext, h.items]
      refine ⟨rfl, ?_, ?_⟩
      · rw [List.filter_append, List.flatMap_append]
      · dsimp only
        rw [natBytes_eq_zero]
        exact decide_eq_false (by omega)

theorem call_refused (h : client.Follows x pattern o) (key : String) {n : Nat}
    (hrange : ¬ ((o.offset : Int) ≤ i64Max ∧ (n : Int) ≤ i64Max ∧ 1 ≤ n)) :
    client.call x cmd key pattern entry n = client := by
  obtain ⟨e, hrefused⟩ := scan_refused (x := x) cmd entry key pattern hrange
  unfold ScanClient.call
  split
  · rfl
  · rw [h.cursor, hrefused]

end Client

/-! ## An iteration of an unchanging collection -/

/-- The calls of an iteration, one for each count. -/
def ScanClient.calls (x : Externs) (cmd : ScanCommand) (key : String) (pattern : Option String)
    (entry : Option StoredValue) (counts : List Nat) : ScanClient :=
  counts.foldl (fun client n => client.call x cmd key pattern entry n) {}

theorem follows_calls {x : Externs} {cmd : ScanCommand} {entry : Option StoredValue}
    (hstar : ∀ name, x.wild "*" name = true) (hreads : cmd.Reads entry)
    (hsize : ((cmd.rows x entry).length : Int) ≤ i64Max) (key : String) (pattern : Option String)
    {counts : List Nat} (hcounts : ∀ n ∈ counts, 1 ≤ n ∧ (n : Int) ≤ i64Max) :
    (ScanClient.calls x cmd key pattern entry counts).Follows x pattern
      (OffsetScan.pages (cmd.rows x entry) counts) := by
  induction counts using List.reverseRecOn with
  | nil => exact follows_start x pattern
  | append_singleton counts n ih =>
      have hprev := ih fun m hm => hcounts m (List.mem_append_left _ hm)
      have hle := OffsetScan.offset_pages_le (cmd.rows x entry) counts
      obtain ⟨hpos, hn⟩ := hcounts n (by simp)
      rw [OffsetScan.pages_snoc]
      unfold ScanClient.calls
      rw [List.foldl_append]
      exact follows_call hstar hreads hprev key (by omega) hn hpos

/-- The names of a collection, each once and in key order. -/
theorem rows_ordered (x : Externs) (cmd : ScanCommand) (entry : Option StoredValue) :
    ((cmd.rows x entry).map Prod.fst).Pairwise fun a b => compare a b = .lt := by
  rw [List.pairwise_map]
  unfold ScanCommand.rows
  split
  · rw [List.pairwise_map]
    exact Std.ExtTreeMap.ordered_keys_toList
  · rename_i members
    rw [List.pairwise_map]
    show members.toList.Pairwise fun a b => compare a b = .lt
    exact Std.ExtTreeSet.ordered_toList
  · rw [List.pairwise_map]
    exact Std.ExtTreeMap.ordered_keys_toList
  · exact .nil

/-- Iterating from cursor `0` ends, and hands out the matching rows, each once, in key order. -/
theorem scan_iteration_complete (x : Externs) (hstar : ∀ name, x.wild "*" name = true)
    (cmd : ScanCommand) (entry : Option StoredValue) (hreads : cmd.Reads entry)
    (hsize : ((cmd.rows x entry).length : Int) ≤ i64Max) (key : String) (pattern : Option String)
    (counts : Nat → Nat) (hcounts : ∀ i, 1 ≤ counts i ∧ (counts i : Int) ≤ i64Max) :
    (∃ k, let client := ScanClient.calls x cmd key pattern entry ((List.range k).map counts)
      client.finished = true ∧ client.cursor = [48] ∧
        client.items = ((cmd.rows x entry).filter (ScanCommand.wanted x pattern)).flatMap Prod.snd) ∧
      ((cmd.rows x entry).map Prod.fst).Pairwise fun a b => compare a b = .lt := by
  refine ⟨⟨(cmd.rows x entry).length + 1, ?_⟩, rows_ordered x cmd entry⟩
  have hall : ∀ n ∈ (List.range ((cmd.rows x entry).length + 1)).map counts,
      1 ≤ n ∧ (n : Int) ≤ i64Max := by
    intro n hn
    obtain ⟨i, -, rfl⟩ := List.mem_map.mp hn
    exact hcounts i
  have hsum : ∀ k, k ≤ ((List.range k).map counts).sum := by
    intro k
    induction k with
    | zero => exact Nat.zero_le _
    | succ k ih =>
        have hpos := (hcounts k).1
        rw [List.range_succ, List.map_append, List.sum_append, List.map_singleton, List.sum_singleton]
        omega
  have hne : (List.range ((cmd.rows x entry).length + 1)).map counts ≠ [] := by simp
  have hlen := hsum ((cmd.rows x entry).length + 1)
  have hfin : (OffsetScan.pages (cmd.rows x entry)
      ((List.range ((cmd.rows x entry).length + 1)).map counts)).finished = true :=
    OffsetScan.finished_of_sum hne (by omega)
  have hfollows := follows_calls hstar hreads hsize key pattern hall
  have hdone := (OffsetScan.reads_pages (cmd.rows x entry) _).done hfin
  refine ⟨hfollows.finished.trans hfin, ?_, ?_⟩
  · rw [hfollows.cursor, OffsetScan.offset_finished hfin]
    decide
  · rw [hfollows.items, hdone]

namespace ThreeFields

/-- Patterns without wildcards, and `*`. -/
def literal (pattern name : String) : Bool := pattern == "*" || pattern == name

def externs : Externs := ⟨FloatOps.integral, literal⟩

def entry : Option StoredValue :=
  some ⟨none, .hash ((((∅ : BTreeMap String Bytes).insert "a" [1]).insert "b" [2]).insert "c" [3])⟩

theorem literal_star (name : String) : externs.wild "*" name = true := rfl

end ThreeFields

open ThreeFields in
theorem scan_iteration_complete_on_threeFields :
    ∃ k, let client := ScanClient.calls externs .hscan "k" (some "b") entry ((List.range k).map fun _ => 2)
      client.finished = true ∧ client.cursor = [48] ∧
        client.items = ((ScanCommand.hscan.rows externs entry).filter
          (ScanCommand.wanted externs (some "b"))).flatMap Prod.snd :=
  (scan_iteration_complete externs literal_star .hscan entry rfl (by decide +kernel) "k" (some "b")
    (fun _ => 2) fun _ => ⟨by decide, by decide⟩).1

/-! ## An iteration while the collection changes -/

inductive CollectionWrite where
  | hset (pairs : List (String × Bytes))
  | hdel (fields : List String)
  | sadd (members : List String)
  | srem (members : List String)
  | zadd (pairs : List (F64 × String))
  | zrem (members : List String)

namespace CollectionWrite

def modify (key : String) : CollectionWrite → Option StoredValue → Result (CasAction Int)
  | hset pairs => Storage.hsetModify key pairs
  | hdel fields => Storage.hdelModify key fields
  | sadd members => Storage.saddModify key members
  | srem members => Storage.sremModify key members
  | zadd pairs => Storage.zaddModify key pairs
  | zrem members => Storage.zremModify key members

/-- The entry after the write: an error changes nothing. -/
def apply (key : String) (w : CollectionWrite) (entry : Option StoredValue) : Option StoredValue :=
  match w.modify key entry with
  | .ok action => action.apply entry
  | .error _ => entry

def removed : CollectionWrite → List String
  | hdel fields => fields
  | srem members => members
  | zrem members => members
  | _ => []

end CollectionWrite

structure ScanRun where
  entry : Option StoredValue
  client : ScanClient := {}

inductive ScanStep where
  | call (n : Nat)
  | write (w : CollectionWrite)

namespace ScanRun

def step (x : Externs) (cmd : ScanCommand) (key : String) (r : ScanRun) : ScanStep → ScanRun
  | .call n => { r with client := r.client.call x cmd key none r.entry n }
  | .write w => { r with entry := w.apply key r.entry }

def exec (x : Externs) (cmd : ScanCommand) (key : String) (r : ScanRun) (steps : List ScanStep) :
    ScanRun :=
  steps.foldl (step x cmd key) r

end ScanRun

def ScanCommand.names (x : Externs) (cmd : ScanCommand) (entry : Option StoredValue) : List String :=
  (cmd.rows x entry).map Prod.fst

/-! ## What a write does to the names -/

section Writes

instance antisymm_names : Std.Antisymm fun a b : String => compare a b = .lt :=
  ⟨fun a b hab hba => by
    have hswap : compare a b = (compare b a).swap := Std.OrientedCmp.eq_swap
    rw [hba, hab] at hswap
    cases hswap⟩

instance irrefl_names : Std.Irrefl fun a b : String => compare a b = .lt :=
  ⟨fun a h => by
    have hself : compare a a = .eq := Std.ReflCmp.compare_self
    rw [hself] at h
    cases h⟩

theorem sublist_of_ordered {xs ys : List String} (hxs : xs.Pairwise fun a b => compare a b = .lt)
    (hys : ys.Pairwise fun a b => compare a b = .lt) (h : xs ⊆ ys) : xs.Sublist ys :=
  List.sublist_of_subperm_of_pairwise (List.subperm_of_subset hxs.nodup h) hxs hys

theorem eq_filter_of_ordered {xs ys : List String} {p : String → Bool}
    (hxs : xs.Pairwise fun a b => compare a b = .lt)
    (hys : ys.Pairwise fun a b => compare a b = .lt)
    (h : ∀ a, a ∈ ys ↔ a ∈ xs ∧ p a = true) : ys = xs.filter p := by
  apply hys.eq_of_mem_iff (hxs.filter p)
  intro a
  rw [h a, List.mem_filter]

variable (x : Externs)

theorem names_ordered (cmd : ScanCommand) (entry : Option StoredValue) :
    (cmd.names x entry).Pairwise fun a b => compare a b = .lt := rows_ordered x cmd entry

theorem names_none (cmd : ScanCommand) : cmd.names x none = [] := by cases cmd <;> rfl

theorem mem_names_hash {exp : Option Int} {m : BTreeMap String Bytes} {a : String} :
    a ∈ ScanCommand.hscan.names x (some ⟨exp, .hash m⟩) ↔ a ∈ m := by
  unfold ScanCommand.names ScanCommand.rows
  rw [List.map_map]
  show a ∈ m.toList.map Prod.fst ↔ _
  rw [Std.ExtTreeMap.map_fst_toList_eq_keys, Std.ExtTreeMap.mem_keys]

theorem mem_names_zset {exp : Option Int} {m : BTreeMap String F64} {a : String} :
    a ∈ ScanCommand.zscan.names x (some ⟨exp, .zset m⟩) ↔ a ∈ m := by
  unfold ScanCommand.names ScanCommand.rows
  rw [List.map_map]
  show a ∈ m.toList.map Prod.fst ↔ _
  rw [Std.ExtTreeMap.map_fst_toList_eq_keys, Std.ExtTreeMap.mem_keys]

theorem mem_names_set {exp : Option Int} {s : BTreeSet String} {a : String} :
    a ∈ ScanCommand.sscan.names x (some ⟨exp, .set s⟩) ↔ a ∈ s := by
  unfold ScanCommand.names ScanCommand.rows
  rw [List.map_map]
  show a ∈ s.toList.map id ↔ _
  rw [List.map_id, Std.ExtTreeSet.mem_toList]

theorem mem_removeKeys {β : Type} (names : List String) (m : BTreeMap String β) (k : Int)
    (a : String) : a ∈ (names.foldl Storage.removeKey (m, k)).1 ↔ a ∈ m ∧ a ∉ names := by
  induction names generalizing m k with
  | nil => simp
  | cons name names ih =>
      rw [List.foldl_cons, List.mem_cons, not_or]
      by_cases hname : m.contains name = true
      · have hstep : Storage.removeKey (m, k) name = (m.erase name, k + 1) := if_pos hname
        rw [hstep, ih, Std.ExtTreeMap.mem_erase, Ne, Std.LawfulEqCmp.compare_eq_iff_eq]
        tauto
      · have hstep : Storage.removeKey (m, k) name = (m, k) := if_neg hname
        rw [hstep, ih]
        constructor
        · rintro ⟨ha, hrest⟩
          refine ⟨ha, fun heq => hname ?_, hrest⟩
          rw [← heq]
          exact ha
        · rintro ⟨ha, -, hrest⟩
          exact ⟨ha, hrest⟩

theorem mem_sremAll (names : List String) (s : BTreeSet String) (k : Int) (a : String) :
    a ∈ (names.foldl Storage.sremOne (s, k)).1 ↔ a ∈ s ∧ a ∉ names := by
  induction names generalizing s k with
  | nil => simp
  | cons name names ih =>
      rw [List.foldl_cons, List.mem_cons, not_or]
      by_cases hname : s.contains name = true
      · have hstep : Storage.sremOne (s, k) name = (s.erase name, k + 1) := if_pos hname
        rw [hstep, ih, Std.ExtTreeSet.mem_erase, Ne, Std.LawfulEqCmp.compare_eq_iff_eq]
        tauto
      · have hstep : Storage.sremOne (s, k) name = (s, k) := if_neg hname
        rw [hstep, ih]
        constructor
        · rintro ⟨ha, hrest⟩
          refine ⟨ha, fun heq => hname ?_, hrest⟩
          rw [← heq]
          exact ha
        · rintro ⟨ha, -, hrest⟩
          exact ⟨ha, hrest⟩

theorem mem_hsetPairs {pairs : List (String × Bytes)} {m : BTreeMap String Bytes} {k : Int}
    {a : String} (h : a ∈ m) : a ∈ (pairs.foldl Storage.hsetPair (m, k)).1 := by
  induction pairs generalizing m k with
  | nil => exact h
  | cons p pairs ih =>
      rw [List.foldl_cons]
      exact ih (Std.ExtTreeMap.mem_insert.mpr (.inr h))

/-- A write adds names, or removes the ones it says. -/
def NamesChange (x : Externs) (cmd : ScanCommand) (removed : List String)
    (entry entry' : Option StoredValue) : Prop :=
  (∀ a ∈ cmd.names x entry, a ∈ cmd.names x entry') ∨
    ∀ a, a ∈ cmd.names x entry' ↔ a ∈ cmd.names x entry ∧ a ∉ removed

theorem namesChange_refl (cmd : ScanCommand) (removed : List String) (entry : Option StoredValue) :
    NamesChange x cmd removed entry entry := .inl fun _ h => h

theorem namesChange_of_nil {cmd : ScanCommand} {entry : Option StoredValue}
    (h : cmd.names x entry = []) (removed : List String) (entry' : Option StoredValue) :
    NamesChange x cmd removed entry entry' := by
  left
  rw [h]
  exact fun a ha => absurd ha List.not_mem_nil

theorem mem_names_writeOrDelete {β : Type} (v : View β) (cmd : ScanCommand)
    (mem : β → String → Prop)
    (hmem : ∀ exp m a, a ∈ cmd.names x (some ⟨exp, v.wrap m⟩) ↔ mem m a)
    (hempty : ∀ m, v.isEmpty m = true → ∀ a, ¬ mem m a) (exp : Option Int) (m : β) (r : Int)
    (entry : Option StoredValue) (a : String) :
    a ∈ cmd.names x ((v.writeOrDelete exp m r).apply entry) ↔ mem m a := by
  unfold View.writeOrDelete
  by_cases h : v.isEmpty m = true
  · rw [if_pos h]
    show a ∈ cmd.names x none ↔ _
    rw [names_none]
    exact iff_of_false List.not_mem_nil (hempty m h a)
  · rw [if_neg h]
    exact hmem exp m a

theorem apply_ok {key : String} {w : CollectionWrite} {entry : Option StoredValue}
    {action : CasAction Int} (h : w.modify key entry = .ok action) :
    w.apply key entry = action.apply entry := by
  unfold CollectionWrite.apply
  rw [h]

theorem namesChange_hash (cmd : ScanCommand) (key : String) (exp : Option Int)
    (m : BTreeMap String Bytes) (w : CollectionWrite) :
    NamesChange x cmd w.removed (some ⟨exp, .hash m⟩) (w.apply key (some ⟨exp, .hash m⟩)) := by
  cases cmd with
  | sscan => exact namesChange_of_nil x rfl _ _
  | zscan => exact namesChange_of_nil x rfl _ _
  | hscan =>
      cases w with
      | hset pairs =>
          left
          intro a ha
          rw [mem_names_hash] at ha
          exact (mem_names_hash x).mpr (mem_hsetPairs ha)
      | hdel fields =>
          right
          intro a
          have hempty : ∀ m : BTreeMap String Bytes, m.isEmpty = true → ∀ a, a ∉ m := by
            intro m h a
            rw [Std.ExtTreeMap.isEmpty_iff.mp h]
            exact Std.ExtTreeMap.not_mem_empty
          rw [mem_names_hash]
          exact (mem_names_writeOrDelete x View.hash .hscan (fun m a => a ∈ m)
            (fun _ _ _ => mem_names_hash x) hempty exp _ _ _ a).trans (mem_removeKeys fields m 0 a)
      | _ => exact namesChange_refl x .hscan _ _

theorem namesChange_set (cmd : ScanCommand) (key : String) (exp : Option Int)
    (s : BTreeSet String) (w : CollectionWrite) :
    NamesChange x cmd w.removed (some ⟨exp, .set s⟩) (w.apply key (some ⟨exp, .set s⟩)) := by
  cases cmd with
  | hscan => exact namesChange_of_nil x rfl _ _
  | zscan => exact namesChange_of_nil x rfl _ _
  | sscan =>
      cases w with
      | sadd members =>
          left
          intro a ha
          rw [mem_names_set] at ha
          rw [apply_ok (w := .sadd members) (Storage.saddModify_set key members exp s)]
          exact (mem_names_set x).mpr (Std.ExtTreeSet.mem_insertMany_list.mpr (.inl ha))
      | srem members =>
          right
          intro a
          have hempty : ∀ s : BTreeSet String, s.isEmpty = true → ∀ a, a ∉ s := by
            intro s h a
            rw [Std.ExtTreeSet.isEmpty_iff.mp h]
            exact Std.ExtTreeSet.not_mem_empty
          rw [mem_names_set]
          exact (mem_names_writeOrDelete x View.set .sscan (fun s a => a ∈ s)
            (fun _ _ _ => mem_names_set x) hempty exp _ _ _ a).trans (mem_sremAll members s 0 a)
      | _ => exact namesChange_refl x .sscan _ _

theorem namesChange_zset (cmd : ScanCommand) (key : String) (exp : Option Int)
    (m : BTreeMap String F64) (w : CollectionWrite) :
    NamesChange x cmd w.removed (some ⟨exp, .zset m⟩) (w.apply key (some ⟨exp, .zset m⟩)) := by
  cases cmd with
  | hscan => exact namesChange_of_nil x rfl _ _
  | sscan => exact namesChange_of_nil x rfl _ _
  | zscan =>
      cases w with
      | zadd pairs =>
          left
          intro a ha
          rw [mem_names_zset] at ha
          rw [apply_ok (w := .zadd pairs) (Storage.zaddModify_zset key pairs exp m)]
          exact (mem_names_zset x).mpr (Std.ExtTreeMap.mem_insertMany_list.mpr (.inl ha))
      | zrem members =>
          right
          intro a
          have hempty : ∀ m : BTreeMap String F64, m.isEmpty = true → ∀ a, a ∉ m := by
            intro m h a
            rw [Std.ExtTreeMap.isEmpty_iff.mp h]
            exact Std.ExtTreeMap.not_mem_empty
          rw [mem_names_zset]
          exact (mem_names_writeOrDelete x View.zset .zscan (fun m a => a ∈ m)
            (fun _ _ _ => mem_names_zset x) hempty exp _ _ _ a).trans (mem_removeKeys members m 0 a)
      | _ => exact namesChange_refl x .zscan _ _

theorem namesChange_apply (cmd : ScanCommand) (key : String) (w : CollectionWrite)
    (entry : Option StoredValue) : NamesChange x cmd w.removed entry (w.apply key entry) := by
  rcases entry with - | ⟨exp, value⟩
  · exact namesChange_of_nil x (names_none x cmd) _ _
  · cases value with
    | hash m => exact namesChange_hash x cmd key exp m w
    | set s => exact namesChange_set x cmd key exp s w
    | zset m => exact namesChange_zset x cmd key exp m w
    | _ => exact namesChange_of_nil x (by cases cmd <;> rfl) _ _

end Writes

/-! ## What an iteration returns -/

/-- The first of every two. -/
def everyOther {α : Type} : List α → List α
  | a :: _ :: rest => a :: everyOther rest
  | _ => []

/-- The names among the items of a reply. -/
def ScanCommand.returned : ScanCommand → List RespReply → List RespReply
  | sscan, items => items
  | _, items => everyOther items

def ScanCommand.Shaped : ScanCommand → ScanCommand.Row → Prop
  | sscan, row => row.2 = [.text row.1]
  | _, row => ∃ v, row.2 = [.text row.1, v]

theorem shaped_of_mem {x : Externs} {cmd : ScanCommand} {entry : Option StoredValue}
    {row : ScanCommand.Row} (h : row ∈ cmd.rows x entry) : cmd.Shaped row := by
  unfold ScanCommand.rows at h
  split at h
  · obtain ⟨p, -, rfl⟩ := List.mem_map.mp h
    exact ⟨_, rfl⟩
  · obtain ⟨p, -, rfl⟩ := List.mem_map.mp h
    rfl
  · obtain ⟨p, -, rfl⟩ := List.mem_map.mp h
    exact ⟨_, rfl⟩
  · cases h

theorem everyOther_rows {rows : List ScanCommand.Row}
    (h : ∀ row ∈ rows, ∃ v, row.2 = [.text row.1, v]) :
    everyOther (rows.flatMap Prod.snd) = rows.map fun row => .text row.1 := by
  induction rows with
  | nil => rfl
  | cons row rows ih =>
      obtain ⟨v, hrow⟩ := h row List.mem_cons_self
      rw [List.flatMap_cons, hrow, List.map_cons, ← ih fun r hr => h r (List.mem_cons_of_mem _ hr)]
      rfl

theorem returned_rows {cmd : ScanCommand} {rows : List ScanCommand.Row}
    (h : ∀ row ∈ rows, cmd.Shaped row) :
    cmd.returned (rows.flatMap Prod.snd) = rows.map fun row => .text row.1 := by
  cases cmd with
  | hscan => exact everyOther_rows h
  | zscan => exact everyOther_rows h
  | sscan =>
      induction rows with
      | nil => rfl
      | cons row rows ih =>
          have hrow : row.2 = [.text row.1] := h row List.mem_cons_self
          have hrest := ih fun r hr => h r (List.mem_cons_of_mem _ hr)
          show (row :: rows).flatMap Prod.snd = _
          rw [List.flatMap_cons, hrow, List.map_cons]
          exact congrArg (List.cons _) hrest

theorem reads_of_mem {x : Externs} {cmd : ScanCommand} {entry : Option StoredValue} {name : String}
    (h : name ∈ cmd.names x entry) : cmd.Reads entry := by
  rcases entry with - | ⟨exp, value⟩
  · rw [names_none] at h
    cases h
  · cases cmd <;> cases value <;> first | rfl | cases h

namespace ScanRun

variable {x : Externs} {cmd : ScanCommand} {key name : String} {r : ScanRun}

/-- The names in front of the cursor are still there after a write. -/
def Spares (x : Externs) (cmd : ScanCommand) (key : String) (r : ScanRun) : ScanStep → Prop
  | .call _ => True
  | .write w => ∀ name ∈ (cmd.names x r.entry).take (Decimal.digitsVal r.client.cursor),
      name ∈ cmd.names x (w.apply key r.entry)

instance (x : Externs) (cmd : ScanCommand) (key : String) (r : ScanRun) :
    DecidablePred (r.Spares x cmd key)
  | .call _ => inferInstanceAs (Decidable True)
  | .write w => inferInstanceAs (Decidable (∀ name ∈
      (cmd.names x r.entry).take (Decimal.digitsVal r.client.cursor),
      name ∈ cmd.names x (w.apply key r.entry)))

/-- The name has been returned, or is still ahead of the cursor. -/
def Kept (x : Externs) (cmd : ScanCommand) (name : String) (r : ScanRun) : Prop :=
  ∃ o : OffsetScan ScanCommand.Row, r.client.Follows x none o ∧ (∀ row ∈ o.out, cmd.Shaped row) ∧
    (o.map Prod.fst).Covers (cmd.names x r.entry) name

theorem kept_start {entry : Option StoredValue} (h : name ∈ cmd.names x entry) :
    Kept x cmd name ⟨entry, {}⟩ :=
  ⟨{}, follows_start x none, fun _ hrow => absurd hrow List.not_mem_nil, OffsetScan.covers_start h⟩

theorem Kept.call (hstar : ∀ name, x.wild "*" name = true) (h : Kept x cmd name r)
    (hmem : r.client.finished = false → name ∈ cmd.names x r.entry) (key : String) (n : Nat) :
    Kept x cmd name (r.step x cmd key (.call n)) := by
  obtain ⟨o, hfollows, hshaped, hcovers⟩ := h
  show Kept x cmd name ⟨r.entry, r.client.call x cmd key none r.entry n⟩
  by_cases hfin : r.client.finished = true
  · have hsame : r.client.call x cmd key none r.entry n = r.client := if_pos hfin
    rw [hsame]
    exact ⟨o, hfollows, hshaped, hcovers⟩
  · rw [Bool.not_eq_true] at hfin
    by_cases hrange : (o.offset : Int) ≤ i64Max ∧ (n : Int) ≤ i64Max ∧ 1 ≤ n
    · obtain ⟨hoffset, hn, hpos⟩ := hrange
      have hnext := follows_call hstar (reads_of_mem (hmem hfin)) hfollows key hoffset hn hpos
      refine ⟨_, hnext, ?_, ?_⟩
      · intro row hrow
        rcases OffsetScan.mem_page_out hrow with hold | hnew
        · exact hshaped row hold
        · exact shaped_of_mem hnew
      · rw [OffsetScan.map_page]
        exact hcovers.page n
    · rw [call_refused hfollows key hrange]
      exact ⟨o, hfollows, hshaped, hcovers⟩

theorem Kept.write (h : Kept x cmd name r) {w : CollectionWrite}
    (hspares : r.Spares x cmd key (.write w))
    (hmem : r.client.finished = false → name ∈ cmd.names x (w.apply key r.entry)) :
    Kept x cmd name (r.step x cmd key (.write w)) := by
  obtain ⟨o, hfollows, hshaped, hcovers⟩ := h
  refine ⟨o, hfollows, hshaped, ?_⟩
  show (o.map Prod.fst).Covers (cmd.names x (w.apply key r.entry)) name
  by_cases hfin : o.finished = true
  · rcases hcovers with hout | ⟨hgoing, -⟩
    · exact .inl hout
    · rw [show (o.map Prod.fst).finished = o.finished from rfl, hfin] at hgoing
      cases hgoing
  · rw [Bool.not_eq_true] at hfin
    have hstay := hmem (hfollows.finished.trans hfin)
    have hbefore := names_ordered x cmd r.entry
    have hafter := names_ordered x cmd (w.apply key r.entry)
    rcases namesChange_apply x cmd key w r.entry with hadded | hremoved
    · exact hcovers.sublist (sublist_of_ordered hbefore hafter hadded)
    · have hkept : cmd.names x (w.apply key r.entry) =
          (cmd.names x r.entry).filter fun a => decide (a ∉ w.removed) := by
        apply eq_filter_of_ordered hbefore hafter
        intro a
        rw [hremoved a, decide_eq_true_eq]
      rw [hkept]
      apply hcovers.filter
      · exact decide_eq_true ((hremoved name).mp hstay).2
      · intro a ha
        apply decide_eq_true
        apply ((hremoved a).mp (hspares a _)).2
        rw [hfollows.cursor, Decimal.digitsVal_natBytes]
        exact ha

theorem exec_snoc (steps : List ScanStep) (st : ScanStep) :
    r.exec x cmd key (steps ++ [st]) = (r.exec x cmd key steps).step x cmd key st := by
  unfold exec
  rw [List.foldl_append]
  rfl

/-- While the iteration goes on the collection has the name. -/
def Stays (x : Externs) (cmd : ScanCommand) (key name : String) (r : ScanRun)
    (steps : List ScanStep) : Prop :=
  ∀ pre, pre <+: steps → (r.exec x cmd key pre).client.finished = false →
    name ∈ cmd.names x (r.exec x cmd key pre).entry

theorem kept_exec (hstar : ∀ name, x.wild "*" name = true) {entry : Option StoredValue}
    {steps : List ScanStep} (hstays : Stays x cmd key name ⟨entry, {}⟩ steps)
    (hspares : ∀ pre st, pre ++ [st] <+: steps →
      (exec x cmd key ⟨entry, {}⟩ pre).Spares x cmd key st) :
    Kept x cmd name (exec x cmd key ⟨entry, {}⟩ steps) := by
  induction steps using List.reverseRecOn with
  | nil => exact kept_start (hstays [] List.prefix_rfl rfl)
  | append_singleton steps st ih =>
      have hpre := List.prefix_append steps [st]
      have hkept := ih (fun pre h => hstays pre (h.trans hpre))
        fun pre st' h => hspares pre st' (h.trans hpre)
      rw [exec_snoc]
      cases st with
      | call n => exact hkept.call hstar (hstays steps hpre) key n
      | write w =>
          apply hkept.write (hspares steps (.write w) List.prefix_rfl)
          have hafter := hstays (steps ++ [.write w]) List.prefix_rfl
          rw [exec_snoc] at hafter
          exact hafter

/-- A name that is there from the first call to the last is returned, when no write takes away a
name in front of the cursor. -/
theorem iteration_returns_what_stays (x : Externs) (hstar : ∀ name, x.wild "*" name = true)
    (cmd : ScanCommand) (key : String) (entry : Option StoredValue) (steps : List ScanStep)
    (hspares : ∀ pre st, pre ++ [st] <+: steps →
      (exec x cmd key ⟨entry, {}⟩ pre).Spares x cmd key st)
    (hfinished : (exec x cmd key ⟨entry, {}⟩ steps).client.finished = true) (name : String)
    (hstays : Stays x cmd key name ⟨entry, {}⟩ steps) :
    .text name ∈ cmd.returned (exec x cmd key ⟨entry, {}⟩ steps).client.items := by
  obtain ⟨o, hfollows, hshaped, hcovers⟩ := kept_exec hstar hstays hspares
  have hfin : o.finished = true := hfollows.finished.symm.trans hfinished
  have hout : name ∈ o.out.map Prod.fst := by
    rcases hcovers with hout | ⟨hgoing, -⟩
    · exact hout
    · rw [show (o.map Prod.fst).finished = o.finished from rfl, hfin] at hgoing
      cases hgoing
  have hall : o.out.filter (ScanCommand.wanted x none) = o.out := List.filter_true _
  rw [hfollows.items, hall, returned_rows hshaped]
  obtain ⟨row, hrow, rfl⟩ := List.mem_map.mp hout
  exact List.mem_map_of_mem hrow

end ScanRun

namespace RemovedInFront

/-- The first field is removed after it has been handed out. -/
def steps : List ScanStep := [.call 1, .write (.hdel ["a"]), .call 1]

/-- The last field is removed before the cursor comes to it. -/
def spared : List ScanStep := [.call 1, .write (.hdel ["c"]), .call 1]

def after (steps : List ScanStep) : ScanRun :=
  ScanRun.exec ThreeFields.externs .hscan "k" ⟨ThreeFields.entry, {}⟩ steps

def bulk : RespReply → Option Bytes
  | .bulkString b => b
  | _ => none

end RemovedInFront

open RemovedInFront in
/-- The second field is there all along and is not returned. -/
theorem iteration_misses_what_stays :
    (after steps).client.finished = true ∧
      ScanRun.Stays ThreeFields.externs .hscan "k" "b" ⟨ThreeFields.entry, {}⟩ steps ∧
      .text "b" ∉ ScanCommand.hscan.returned (after steps).client.items := by
  refine ⟨by decide +kernel, ?_, ?_⟩
  · intro pre hpre _
    have hall : ∀ pre ∈ steps.inits,
        "b" ∈ ScanCommand.hscan.names ThreeFields.externs (after pre).entry := by decide +kernel
    exact hall pre ((List.mem_inits _ _).mpr hpre)
  · intro hmem
    have hbulk := List.mem_map_of_mem (f := bulk) hmem
    have hall : some (Rdb.asBytes "b") ∉
        (ScanCommand.hscan.returned (after steps).client.items).map bulk := by decide +kernel
    exact hall hbulk

open RemovedInFront in
theorem iteration_returns_what_stays_on_spared :
    .text "b" ∈ ScanCommand.hscan.returned (after spared).client.items := by
  apply ScanRun.iteration_returns_what_stays ThreeFields.externs ThreeFields.literal_star .hscan "k"
    ThreeFields.entry spared
  · intro pre st hpre
    have hall : ∀ pre ∈ spared.inits, ∀ st ∈ spared,
        (after pre).Spares ThreeFields.externs .hscan "k" st := by decide +kernel
    apply hall pre
    · exact (List.mem_inits _ _).mpr ((List.prefix_append pre [st]).trans hpre)
    · exact hpre.subset (List.mem_append_right pre List.mem_cons_self)
  · decide +kernel
  · intro pre hpre _
    have hall : ∀ pre ∈ spared.inits,
        "b" ∈ ScanCommand.hscan.names ThreeFields.externs (after pre).entry := by decide +kernel
    exact hall pre ((List.mem_inits _ _).mpr hpre)

end Commands
end RustyAnt
