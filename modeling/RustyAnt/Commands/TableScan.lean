import RustyAnt.Commands.Keys
import RustyAnt.DynamoDb.Alone
import RustyAnt.Lib.Paging

/-!
# SCAN over DynamoDB

The cursor of a reply is the key on which the page has ended, and `0` when there is none;
the request takes `0` for the start.  A client that repeats SCAN until the cursor is `0`
walks the pages of the index table, and stops on a page that ends on the key `0`.
-/

namespace RustyAnt

open Lib

namespace Commands

def matchesPattern (wild : String → String → Bool) (pattern : Option String) (key : String) :
    Bool :=
  pattern.all fun p => wild p key

/-- What a client takes from the reply to its `i`-th SCAN: the keys, and the cursor to go on from
unless it is `0`. -/
def takeReply {σ : Type} (i : Nat) :
    Result RespReply × σ → (Nat × σ) × List RespReply × Option Bytes
  | (.ok (.array [.bulkString (some next), .array items]), d) =>
      ((i + 1, d), items, if next = [48] then none else some next)
  | (_, d) => ((i + 1, d), [], none)

section Calls

variable {σ : Type} (wild : String → String → Bool) (fo : FloatOps)
  (serve : (op : DdbOp) → σ → Result op.Res × σ)

/-- One SCAN on the DynamoDB backend. -/
def scanOnTable (args : List Bytes) (d : σ) : Result RespReply × σ :=
  ((handleScan wild args).interp (DynamoDb.impl fo)).run serve d

/-- The `i`-th SCAN of a client, which is done when the cursor of the reply is `0`. -/
def scanCall (opts : Nat → List Bytes) (st : Nat × σ) (cursor : Bytes) :
    (Nat × σ) × List RespReply × Option Bytes :=
  takeReply st.1 (scanOnTable wild fo serve (cursor :: opts st.1) st.2)

/-- A client that repeats SCAN from cursor `0` until the cursor of the reply is `0` stops and
has received each of the keys once, and nothing else. -/
def ScanReceives (opts : Nat → List Bytes) (d : σ) (keys : List String) : Prop :=
  ∃ fuel st ps, pages (scanCall wild fo serve opts) fuel (0, d) [48] = some (st, ps) ∧
    ps.flatten.Perm (keys.map RespReply.text)

end Calls

/-- The cursor as the client passes it on. -/
def cursorToken (cursor : Option String) : Bytes := Rdb.asBytes (cursor.getD "0")

theorem asBytes_zero : Rdb.asBytes "0" = [48] := rfl

theorem takeReply_page {σ : Type} (i : Nat) (next : Option String) (keys : List String) (d : σ) :
    takeReply i (.ok (.array [.text (next.getD "0"), .texts keys]), d) =
      ((i + 1, d), keys.map RespReply.text,
        ((next.map some).filter fun c => !decide (c = some "0")).map cursorToken) := by
  unfold takeReply RespReply.text RespReply.texts
  dsimp only
  cases next with
  | none => rfl
  | some next =>
      by_cases hnext : next = "0"
      · rw [hnext, Option.getD_some, if_pos asBytes_zero, Option.map_some, Option.filter_some]
        rfl
      · have hbytes : Rdb.asBytes next ≠ [48] := by
          rw [← asBytes_zero]
          exact fun heq => hnext (asBytes_injective heq)
        have hgoes : (!decide (some next = some "0")) = true := by simpa using hnext
        rw [Option.getD_some, if_neg hbytes, Option.map_some, Option.filter_some, hgoes]
        rfl

/-- A cursor that is not the text `0` is taken as it is. -/
theorem getD_zero {cursor : Option String} (h : cursor ≠ some "0") :
    (if cursor.getD "0" = "0" then none else some (cursor.getD "0")) = cursor := by
  cases cursor with
  | none => rfl
  | some text =>
      have htext : text ≠ "0" := fun heq => h (congrArg some heq)
      exact if_neg htext

section Table

variable {σ : Type} {wild : String → String → Bool} {fo : FloatOps}
  {serve : (op : DdbOp) → σ → Result op.Res × σ} {d : σ}
  {pager : Option String → Nat → List String × Option String} {pattern : Option String}
  {opts : Nat → List Bytes} {counts : Nat → Nat}

theorem handleScan_eq {token : Bytes} {args : List Bytes} {cursor : String} {count : Nat}
    (htoken : argAsStr token = .ok cursor)
    (hargs : parseScanOpts "SCAN" args (none, 10) = .ok (pattern, count)) :
    handleScan wild (token :: args) =
      (Storage.scan wild (if cursor = "0" then none else some cursor) pattern count).bind fun r =>
        pure (.array [.text (r.2.getD "0"), .texts r.1]) := by
  show (Prog.ofExcept (argAsStr token)).bind _ = _
  rw [htoken]
  show (Prog.ofExcept (parseScanOpts "SCAN" args (none, 10))).bind _ = _
  rw [hargs]
  rfl

theorem scanOnTable_eq (hserve : ∀ c n, serve (.scan c n) d = (.ok (pager c n), d))
    {args : List Bytes} {count : Nat}
    (hargs : parseScanOpts "SCAN" args (none, 10) = .ok (pattern, count)) (cursor : Option String)
    (hcursor : cursor ≠ some "0") :
    scanOnTable wild fo serve (cursorToken cursor :: args) d =
      (.ok (.array [.text ((pager cursor count).2.getD "0"),
        .texts ((pager cursor count).1.filter (matchesPattern wild pattern))]), d) := by
  have harg : argAsStr (cursorToken cursor) = .ok (cursor.getD "0") := argAsStr_asBytes _
  have hback := getD_zero hcursor
  have hpage : (KV.listPage cursor count).run (fun op => (DynamoDb.impl fo op).run serve) d =
      (.ok ⟨(pager cursor count).1, (pager cursor count).2⟩, d) := by
    show (DynamoDb.listPage cursor count).run serve d = _
    unfold DynamoDb.listPage
    rw [Prog.bind_eq, Prog.run_bind, Prog.run_perform, hserve]
    rfl
  unfold scanOnTable
  rw [Prog.run_interp, handleScan_eq harg hargs, hback, Prog.run_bind]
  unfold Storage.scan
  rw [Prog.bind_eq, Prog.run_bind, hpage]
  rfl

/-- One SCAN of the client is one page of the walk, up to the words for the cursor. -/
theorem scanCall_eq (hserve : ∀ c n, serve (.scan c n) d = (.ok (pager c n), d))
    (hopts : ∀ i, parseScanOpts "SCAN" (opts i) (none, 10) = .ok (pattern, counts i))
    (i : Nat) (cursor : Option String) (hcursor : cursor ≠ some "0") :
    scanCall wild fo serve opts (i, d) (cursorToken cursor) =
      let page := stopAt (fun c => decide (c = some "0"))
        (walk (matchesPattern wild pattern) pager counts) i cursor
      ((page.1, d), page.2.1.map RespReply.text, page.2.2.map cursorToken) := by
  unfold scanCall
  rw [scanOnTable_eq hserve (hopts i) cursor hcursor, takeReply_page]
  rfl

/-- The client walks the pages of the table, and takes the key `0` for the end. -/
theorem scanReceives_iff_stopped (hserve : ∀ c n, serve (.scan c n) d = (.ok (pager c n), d))
    (hopts : ∀ i, parseScanOpts "SCAN" (opts i) (none, 10) = .ok (pattern, counts i))
    (keys : List String) :
    ScanReceives wild fo serve opts d keys ↔
      ∃ fuel i ps, pages (stopAt (fun c => decide (c = some "0"))
        (walk (matchesPattern wild pattern) pager counts)) fuel 0 none = some (i, ps) ∧
        ps.flatten.Perm keys := by
  have hpages : ∀ fuel, pages (scanCall wild fo serve opts) fuel (0, d) [48] =
      (pages (stopAt (fun c => decide (c = some "0"))
        (walk (matchesPattern wild pattern) pager counts)) fuel 0 none).map
        fun r => ((r.1, d), r.2.map (List.map RespReply.text)) := by
    intro fuel
    refine pages_map (fun i => (i, d)) cursorToken (List.map RespReply.text) (· ≠ some "0")
      ?_ (fun i c hc => scanCall_eq hserve hopts i c hc) fuel 0 none nofun
    intro i c c' _ hc'
    unfold stopAt at hc'
    obtain ⟨-, hgoes⟩ := Option.filter_eq_some_iff.mp hc'
    simpa using hgoes
  unfold ScanReceives
  constructor
  · rintro ⟨fuel, st, ps, hrun, hperm⟩
    rw [hpages] at hrun
    obtain ⟨r, hr, heq⟩ := Option.map_eq_some_iff.mp hrun
    cases heq
    rw [← List.map_flatten, List.map_perm_map_iff text_injective] at hperm
    exact ⟨fuel, r.1, r.2, hr, hperm⟩
  · rintro ⟨fuel, i, ps, hrun, hperm⟩
    refine ⟨fuel, (i, d), ps.map (List.map RespReply.text), ?_, ?_⟩
    · rw [hpages, hrun]
      rfl
    · rw [← List.map_flatten]
      exact hperm.map _

/-- Where a page that returns a cursor ends on the key `0`, no matching key follows it. -/
def NothingBehindZero (keys : List String)
    (pager : Option String → Nat → List String × Option String) (counts : Nat → Nat) (p : String → Bool) : Prop :=
  ∀ i, Reaches (walk p pager counts) 0 none i (some "0") → (behind keys (some "0")).filter p = []

/-- SCAN brings the matching keys of the table once each iff no matching key follows a page that
ends on the key `0`. -/
theorem scan_complete_iff (wild : String → String → Bool) (fo : FloatOps)
    (serve : (op : DdbOp) → σ → Result op.Res × σ) (d : σ) (keys : List String)
    (pager : Option String → Nat → List String × Option String) (pattern : Option String)
    (opts : Nat → List Bytes) (counts : Nat → Nat)
    (hkeys : keys.Nodup) (hpager : Pager keys pager)
    (hserve : ∀ c n, serve (.scan c n) d = (.ok (pager c n), d))
    (hopts : ∀ i, parseScanOpts "SCAN" (opts i) (none, 10) = .ok (pattern, counts i))
    (hcounts : ∀ i, 1 ≤ counts i) :
    ScanReceives wild fo serve opts d (keys.filter (matchesPattern wild pattern)) ↔
      NothingBehindZero keys pager counts (matchesPattern wild pattern) := by
  rw [scanReceives_iff_stopped hserve hopts]
  exact stopped_complete_iff hkeys hpager hcounts "0"

end Table

theorem serve_scan (order : ScanOrder) (clock : Clock) (d : DdbWorld) (c : Option String)
    (n : Nat) : DdbWorld.serve order clock (.scan c n) d =
      (.ok (cutPager (order.arrange d.tables.index.keys) c n), d) := by
  cases c <;> rfl

namespace KeyZero

/-- COUNT 1. -/
def oneByOne (_ : Nat) : List Bytes := [[67, 79, 85, 78, 84], [49]]

theorem parse_oneByOne (i : Nat) :
    parseScanOpts "SCAN" (oneByOne i) (none, 10) = .ok (none, 1) := by
  show parseScanOpts "SCAN" [[67, 79, 85, 78, 84], [49]] (none, 10) = .ok (none, 1)
  decide +kernel

def order : ScanOrder := ⟨id, List.Perm.refl⟩

def clock : Clock := ⟨fun _ => 0, 0⟩

/-- The index rows of two keys, of which one is `0`. -/
def table : DdbWorld :=
  let zero : BTreeMap String IndexRow := (∅ : BTreeMap String IndexRow).insert "0" ⟨"string", none⟩
  ⟨{ Tables.empty with index := zero.insert "a" ⟨"string", none⟩ }, 0⟩

theorem keys_table : table.tables.index.keys = ["0", "a"] := by decide +kernel

end KeyZero

open KeyZero in
/-- Both keys on one page. -/
theorem scan_complete_iff_on_onePage :
    ScanReceives (fun _ _ => true) .integral (DdbWorld.serve order clock) (fun _ => []) table
      ["0", "a"] := by
  have hcomplete := scan_complete_iff (fun _ _ => true) .integral (DdbWorld.serve order clock) table
    ["0", "a"] (cutPager ["0", "a"]) none (fun _ => []) (fun _ => 10) (by decide)
    (cutPager_pager _) (fun c n => by rw [serve_scan, keys_table]; rfl) (fun _ => rfl)
    (fun _ => by decide)
  apply hcomplete.mpr
  intro i hreach
  cases hreach with
  | next h => cases h
  | later h _ => cases h

open KeyZero in
/-- With one key on a page, the page of the key `0` looks like the last one. -/
theorem scan_stops_on_keyZero :
    ¬ ∀ (σ : Type) (wild : String → String → Bool) (fo : FloatOps)
      (serve : (op : DdbOp) → σ → Result op.Res × σ) (d : σ) (keys : List String)
      (pager : Option String → Nat → List String × Option String) (pattern : Option String)
      (opts : Nat → List Bytes) (counts : Nat → Nat), keys.Nodup → Pager keys pager →
      (∀ c n, serve (.scan c n) d = (.ok (pager c n), d)) →
      (∀ i, parseScanOpts "SCAN" (opts i) (none, 10) = .ok (pattern, counts i)) →
      (∀ i, 1 ≤ counts i) →
      ScanReceives wild fo serve opts d (keys.filter (matchesPattern wild pattern)) := by
  intro h
  have hserve : ∀ c n, DdbWorld.serve order clock (.scan c n) table =
      (.ok (cutPager ["0", "a"] c n), table) := by
    intro c n
    rw [serve_scan, keys_table]
    rfl
  have hopts := parse_oneByOne
  have hreceives := h DdbWorld (fun _ _ => true) .integral (DdbWorld.serve order clock) table
    ["0", "a"] (cutPager ["0", "a"]) none oneByOne (fun _ => 1) (by decide) (cutPager_pager _)
    hserve hopts fun _ => le_refl 1
  rw [scanReceives_iff_stopped hserve hopts] at hreceives
  have hbehind := (stopped_complete_iff (by decide) (cutPager_pager _) (fun _ => le_refl 1)
    "0").mp hreceives 1 (.next rfl)
  revert hbehind
  decide

end Commands

end RustyAnt
