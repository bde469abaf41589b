import RustyAnt.Commands.CreateOnly
import RustyAnt.Commands.TableScan
import RustyAnt.Storage.Mixing

/-!
# Listing and lookup

KEYS, SCAN and RANDOMKEY list the keys that are stored, without their values, and EXISTS looks
a key up.  The two agree iff nothing that is stored has expired and no page of SCAN can end,
with keys behind it, on a key whose cursor is the text `0`.

DynamoDB hands out the key itself as the cursor, S3 a continuation token whose text only the
service can read.
-/

namespace RustyAnt

open Lib

/-- The text in which a service hands out the key on which a page has ended.  Among the keys that
are listed, it is read back as that key. -/
structure CursorText where
  write : String → String
  read : List String → String → Option String
  read_write : ∀ {keys : List String} {key : String}, key ∈ keys → read keys (write key) = some key

namespace CursorText

/-- DynamoDB: `ExclusiveStartKey` is the key. -/
def raw : CursorText := ⟨id, fun _ text => some text, fun _ => rfl⟩

theorem write_injective (T : CursorText) : Function.Injective T.write := by
  intro a b h
  have ha : T.read [a, b] (T.write a) = some a := T.read_write (by simp)
  have hb : T.read [a, b] (T.write b) = some b := T.read_write (by simp)
  rw [h, hb] at ha
  exact (Option.some.inj ha).symm

end CursorText

/-- The cursors of a backend, with the tokens of S3 as they are. -/
def BackendName.cursorText (tokens : CursorText) : BackendName → CursorText
  | s3 => tokens
  | dynamoDb => .raw

namespace OneClient

variable {now : Int} {B : OneClient now} {nanos : UInt64} {s : B.State}
  {wild : String → String → Bool}

/-- Everything that is stored can be read and has not expired. -/
def AllLive (now : Int) (m : Entries) : Prop :=
  ∀ key x, m key = some x → ∃ e, x = .ok e ∧ e.isExpired now = false

theorem allLive_iff (hs : B.Valid s) :
    AllLive now (B.entries s) ↔ ∀ key, key ∈ B.listing s → B.Exists nanos s key := by
  unfold AllLive
  constructor
  · intro h key hkey
    obtain ⟨x, hx⟩ := Option.ne_none_iff_exists'.mp ((B.listed hs).mp hkey)
    obtain ⟨e, rfl, hlive⟩ := h key x hx
    rw [exists_iff hs key]
    refine ⟨e, ?_⟩
    rw [Entries.view_ok hx, if_neg (by rw [hlive]; decide)]
  · intro h key x hx
    have hlisted : key ∈ B.listing s := (B.listed hs).mpr (by rw [hx]; exact Option.some_ne_none _)
    obtain ⟨e, he⟩ := (exists_iff hs key).mp (h key hlisted)
    obtain ⟨hkey, hlive⟩ := Entries.entry_of_live he
    exact ⟨e, Option.some.inj (hx.symm.trans hkey), hlive⟩

theorem listed_of_exists (hs : B.Valid s) {key : String} (h : B.Exists nanos s key) :
    key ∈ B.listing s := by
  obtain ⟨e, he⟩ := (exists_iff hs key).mp h
  rw [B.listed hs, (Entries.entry_of_live he).1]
  exact Option.some_ne_none _

theorem run_keys (pattern : String) :
    B.run nanos (Storage.keys wild pattern) s =
      (.ok ((B.listing s).filter (wild pattern)), s) := by
  have hwalk : KV.walk.run (B.serve nanos) s = (.ok (B.listing s), s) := B.walk s nanos
  unfold run Storage.keys
  rw [Prog.bind_eq, Prog.run_bind, hwalk]
  rfl

theorem run_randomKey (hstar : ∀ key, wild "*" key = true) :
    B.run nanos (Storage.randomKey wild) s =
      (.ok (if (B.listing s).isEmpty then none
        else (B.listing s)[(pseudoRandU64 nanos).toNat % (B.listing s).length]?), s) := by
  have hkeys := @run_keys now B nanos s wild "*"
  have hall : (B.listing s).filter (wild "*") = B.listing s :=
    List.filter_eq_self.mpr fun key _ => hstar key
  have hdraw : KV.nanos.run (B.serve nanos) s = (.ok nanos, s) := B.draw s nanos
  rw [hall] at hkeys
  unfold run at hkeys ⊢
  unfold Storage.randomKey
  rw [Prog.bind_eq, Prog.run_bind, hkeys]
  dsimp only
  split
  · rfl
  · rw [Prog.bind_eq, Prog.run_bind, hdraw]
    rfl

variable (B) in
/-- The pages that the client gets from this state. -/
def statePager (nanos : UInt64) (s : B.State) (c : Option String) (n : Nat) :
    List String × Option String :=
  match (B.serve nanos (.listPage c n) s).1 with
  | .ok page => (page.keys, page.nextCursor)
  | .error _ => ([], none)

theorem serve_listPage (hs : B.Valid s) {c : Option String} {n : Nat} (hn : 1 ≤ n)
    (hc : Listed (B.listing s) 0 c) : B.serve nanos (.listPage c n) s =
      (.ok ⟨(B.statePager nanos s c n).1, (B.statePager nanos s c n).2⟩, s) := by
  obtain ⟨page, hserve, -⟩ := B.page nanos c hs hn hc
  unfold statePager
  rw [hserve]
  rfl

theorem statePager_pager (hs : B.Valid s) : Pager (B.listing s) (B.statePager nanos s) := by
  intro c n hn hc
  obtain ⟨page, hserve, hpage⟩ := B.page nanos c hs hn hc
  unfold statePager
  rw [hserve]
  exact hpage

variable (B) in
/-- The server with the cursors of pages as texts; a token it cannot read is refused. -/
def servePages (T : CursorText) (nanos : UInt64) :
    (op : KVOp) → B.State → Result op.Res × B.State
  | .listPage none n, s =>
      let answer := B.serve nanos (.listPage none n) s
      (answer.1.map fun page => (⟨page.keys, page.nextCursor.map T.write⟩ : ListPage), answer.2)
  | .listPage (some text) n, s =>
      match T.read (B.listing s) text with
      | some key =>
          let answer := B.serve nanos (.listPage (some key) n) s
          (answer.1.map fun page => (⟨page.keys, page.nextCursor.map T.write⟩ : ListPage), answer.2)
      | none => (.error (.s3 "InvalidArgument"), s)
  | op, s => B.serve nanos op s

theorem servePages_listPage (hs : B.Valid s) (T : CursorText) {c : Option String} {n : Nat}
    (hn : 1 ≤ n) (hc : Listed (B.listing s) 0 c) :
    B.servePages T nanos (.listPage (c.map T.write) n) s =
      (.ok ⟨(B.statePager nanos s c n).1, (B.statePager nanos s c n).2.map T.write⟩, s) := by
  have hserve := @serve_listPage now B nanos s hs c n hn hc
  cases c with
  | none =>
      unfold servePages
      dsimp only [Option.map_none]
      rw [hserve]
      rfl
  | some key =>
      have hread : T.read (B.listing s) (T.write key) = some key := T.read_write (hc key rfl)
      unfold servePages
      dsimp only [Option.map_some]
      rw [hread]
      dsimp only
      rw [hserve]
      rfl

end OneClient

/-! ## The commands -/

namespace Commands

section Listing

variable {now : Int} (B : OneClient now) (wild : String → String → Bool) (nanos : UInt64)

/-- The `i`-th SCAN of a client, which is done when the cursor of the reply is `0`. -/
def scanStep (T : CursorText) (opts : Nat → List Bytes) (st : Nat × B.State) (cursor : Bytes) :
    (Nat × B.State) × List RespReply × Option Bytes :=
  takeReply st.1 ((handleScan wild (cursor :: opts st.1)).run (B.servePages T nanos) st.2)

/-- The keys are those that `EXISTS` reports, each listed once. -/
def ListsLive (s : B.State) (keys : List String) : Prop :=
  keys.Nodup ∧ ∀ key, key ∈ keys ↔ B.Exists nanos s key

/-- `KEYS *`, a complete iteration of SCAN and the possible results of RANDOMKEY are the keys
that `EXISTS` reports.  The iteration goes from cursor `0` until the reply has the cursor `0`,
with any COUNT in each call. -/
structure ListingAgrees (T : CursorText) (s : B.State) : Prop where
  keys : ∃ ks, (B.run nanos (handleKeys wild [[42]]) s).1 = .ok (.texts ks) ∧
    ListsLive B nanos s ks
  scan : ∀ (opts : Nat → List Bytes) (counts : Nat → Nat),
    (∀ i, parseScanOpts "SCAN" (opts i) (none, 10) = .ok (none, counts i)) →
    (∀ i, 1 ≤ counts i) →
    ∃ fuel st ps ks, pages (scanStep B wild nanos T opts) fuel (0, s) [48] = some (st, ps) ∧
      ps.flatten = ks.map RespReply.text ∧ ListsLive B nanos s ks
  random : ∀ key, (∃ draw, (B.run draw (handleRandomkey wild []) s).1 = .ok (.text key)) ↔
    B.Exists nanos s key

/-- No key stands behind the key whose cursor is the text `0`, if there is one. -/
def LastIfZero (T : CursorText) (keys : List String) : Prop :=
  ∀ key ∈ keys, T.write key = "0" → behind keys (some key) = []

variable {B wild nanos} {T : CursorText} {s : B.State}

theorem run_handleKeys (hstar : ∀ key, wild "*" key = true) :
    (B.run nanos (handleKeys wild [[42]]) s).1 = .ok (.texts (B.listing s)) := by
  have hkeys := @OneClient.run_keys now B nanos s wild "*"
  have hall : (B.listing s).filter (wild "*") = B.listing s :=
    List.filter_eq_self.mpr fun key _ => hstar key
  have harg : argAsStr [42] = .ok "*" := rfl
  have hunfold : handleKeys wild [[42]] =
      (Storage.keys wild "*").bind fun ks => pure (RespReply.texts ks) := by
    unfold handleKeys
    rfl
  rw [hall] at hkeys
  unfold OneClient.run at hkeys ⊢
  rw [hunfold, Prog.run_bind, hkeys]
  rfl

theorem run_handleRandomkey (hstar : ∀ key, wild "*" key = true) (draw : UInt64) :
    (B.run draw (handleRandomkey wild []) s).1 =
      .ok ((if (B.listing s).isEmpty then none
        else (B.listing s)[(pseudoRandU64 draw).toNat % (B.listing s).length]?).elim .nil
          .text) := by
  have hrun := @OneClient.run_randomKey now B draw s wild hstar
  have hunfold : handleRandomkey wild [] =
      (Storage.randomKey wild).bind fun key => pure (key.elim .nil .text) := rfl
  unfold OneClient.run at hrun ⊢
  rw [hunfold, Prog.run_bind, hrun]
  rfl

theorem randomkey_iff (hstar : ∀ key, wild "*" key = true)
    (hsize : (B.listing s).length ≤ 2 ^ 64) (key : String) :
    (∃ draw, (B.run draw (handleRandomkey wild []) s).1 = .ok (.text key)) ↔
      key ∈ B.listing s := by
  constructor
  · rintro ⟨draw, hreply⟩
    rw [run_handleRandomkey hstar] at hreply
    generalize hchoice : (if (B.listing s).isEmpty then none else _ : Option String) = choice
      at hreply
    cases choice with
    | none => cases hreply
    | some key' =>
        rw [← text_injective (Except.ok.inj hreply)]
        split at hchoice
        · cases hchoice
        · exact List.mem_of_getElem? hchoice
  · intro hkey
    obtain ⟨i, hi, hget⟩ := List.mem_iff_getElem.mp hkey
    obtain ⟨draw, hdraw⟩ := exists_draw hi hsize
    refine ⟨draw, ?_⟩
    have hsome : ¬ (B.listing s).isEmpty := by
      rw [List.isEmpty_iff]
      intro hnil
      rw [hnil] at hkey
      cases hkey
    rw [run_handleRandomkey hstar, if_neg hsome, hdraw, List.getElem?_eq_getElem hi, hget]
    rfl

theorem run_handleScan (hs : B.Valid s) {args : List Bytes} {count : Nat}
    (hargs : parseScanOpts "SCAN" args (none, 10) = .ok (none, count)) (hcount : 1 ≤ count)
    {c : Option String} (hc : Listed (B.listing s) 0 c) (hzero : c.map T.write ≠ some "0") :
    (handleScan wild (cursorToken (c.map T.write) :: args)).run (B.servePages T nanos) s =
      (.ok (.array [.text (((B.statePager nanos s c count).2.map T.write).getD "0"),
        .texts (B.statePager nanos s c count).1]), s) := by
  have harg : argAsStr (cursorToken (c.map T.write)) = .ok ((c.map T.write).getD "0") :=
    argAsStr_asBytes _
  have hback : (if (c.map T.write).getD "0" = "0" then none
      else some ((c.map T.write).getD "0")) = c.map T.write := getD_zero hzero
  have hpage : (KV.listPage (c.map T.write) count).run (B.servePages T nanos) s =
      (.ok ⟨(B.statePager nanos s c count).1, (B.statePager nanos s c count).2.map T.write⟩, s) :=
    OneClient.servePages_listPage hs T hcount hc
  have hall : ((B.statePager nanos s c count).1.filter
      fun k => (none : Option String).all fun p => wild p k) = (B.statePager nanos s c count).1 :=
    List.filter_eq_self.mpr fun _ _ => rfl
  rw [handleScan_eq harg hargs, hback, Prog.run_bind]
  unfold Storage.scan
  rw [Prog.bind_eq, Prog.run_bind, hpage]
  dsimp only
  rw [hall]
  rfl

/-- One SCAN of the client is one page of the walk, up to the words for keys and cursor. -/
theorem scanStep_eq (hs : B.Valid s) {opts : Nat → List Bytes} {counts : Nat → Nat}
    (hopts : ∀ i, parseScanOpts "SCAN" (opts i) (none, 10) = .ok (none, counts i))
    (hcounts : ∀ i, 1 ≤ counts i) (i : Nat) {c : Option String}
    (hc : Listed (B.listing s) 0 c) (hzero : c.map T.write ≠ some "0") :
    scanStep B wild nanos T opts (i, s) (cursorToken (c.map T.write)) =
      let page := stopAt (fun c => decide (c.map T.write = some "0"))
        (walk (fun _ => true) (B.statePager nanos s) counts) i c
      ((page.1, s), page.2.1.map RespReply.text,
        page.2.2.map fun c => cursorToken (c.map T.write)) := by
  have hall : (B.statePager nanos s c (counts i)).1.filter (fun _ => true) =
      (B.statePager nanos s c (counts i)).1 := List.filter_eq_self.mpr fun _ _ => rfl
  unfold scanStep
  rw [run_handleScan hs (hopts i) (hcounts i) hc hzero, takeReply_page]
  unfold stopAt walk
  dsimp only
  rw [hall]
  refine Prod.ext rfl (Prod.ext rfl ?_)
  cases (B.statePager nanos s c (counts i)).2 with
  | none => rfl
  | some key =>
      simp only [Option.map_some, Option.filter_some]
      split <;> rfl

/-- The client walks the pages of the state, and takes a cursor with the text `0` for the end. -/
theorem pages_scanStep (hs : B.Valid s) {opts : Nat → List Bytes} {counts : Nat → Nat}
    (hopts : ∀ i, parseScanOpts "SCAN" (opts i) (none, 10) = .ok (none, counts i))
    (hcounts : ∀ i, 1 ≤ counts i) (fuel : Nat) :
    pages (scanStep B wild nanos T opts) fuel (0, s) [48] =
      (pages (stopAt (fun c => decide (c.map T.write = some "0"))
        (walk (fun _ => true) (B.statePager nanos s) counts)) fuel 0 none).map
        fun r => ((r.1, s), r.2.map (List.map RespReply.text)) := by
  have hpager := @OneClient.statePager_pager now B nanos s hs
  refine pages_map (fun i => (i, s)) (fun c => cursorToken (c.map T.write))
    (List.map RespReply.text)
    (fun c => Listed (B.listing s) 0 c ∧ c.map T.write ≠ some "0") ?_
    (fun i c hc => scanStep_eq hs hopts hcounts i hc.1 hc.2) fuel 0 none ⟨listed_none 0, nofun⟩
  intro i c c' hc hc'
  unfold stopAt at hc'
  obtain ⟨hnext, hgoes⟩ := Option.filter_eq_some_iff.mp hc'
  have hreach : Reaches (walk (fun _ => true) (B.statePager nanos s) counts) i c (i + 1) c' :=
    .next (Prod.ext rfl (Prod.ext rfl hnext))
  have hlisted : Listed (B.listing s) (i + 1) c' :=
    listed_of_reaches (B.nodup s) hpager hcounts (show Listed (B.listing s) i c from hc.1) hreach
  exact ⟨hlisted, by simpa using hgoes⟩

/-- Where the listing is that of the live keys, an iteration lists them iff no key follows a page
that ends on the cursor `0`. -/
theorem scan_lists_iff (hs : B.Valid s) (hlive : ListsLive B nanos s (B.listing s))
    {opts : Nat → List Bytes} {counts : Nat → Nat}
    (hopts : ∀ i, parseScanOpts "SCAN" (opts i) (none, 10) = .ok (none, counts i))
    (hcounts : ∀ i, 1 ≤ counts i) :
    (∃ fuel st ps ks, pages (scanStep B wild nanos T opts) fuel (0, s) [48] = some (st, ps) ∧
      ps.flatten = ks.map RespReply.text ∧ ListsLive B nanos s ks) ↔
    ∀ i c, Reaches (walk (fun _ => true) (B.statePager nanos s) counts) 0 none i c →
      c.map T.write = some "0" → behind (B.listing s) c = [] := by
  have hone : ∀ c c' : Option String, decide (c.map T.write = some "0") = true →
      decide (c'.map T.write = some "0") = true → c = c' := fun c c' hc hc' =>
    Option.map_injective T.write_injective ((of_decide_eq_true hc).trans (of_decide_eq_true hc').symm)
  have hcomplete := complete_iff_of_stop (p := fun _ => true) (B.nodup s)
    (@OneClient.statePager_pager now B nanos s hs) hcounts hone
  simp only [List.filter_true, decide_eq_true_iff] at hcomplete
  rw [← hcomplete]
  constructor
  · rintro ⟨fuel, st, ps, ks, hpages, hks, hlists⟩
    rw [pages_scanStep hs hopts hcounts] at hpages
    obtain ⟨r, hr, heq⟩ := Option.map_eq_some_iff.mp hpages
    cases heq
    rw [← List.map_flatten] at hks
    rw [← text_injective.list_map hks] at hlists
    refine ⟨fuel, r.1, r.2, hr, ?_⟩
    rw [List.perm_ext_iff_of_nodup hlists.1 hlive.1]
    intro key
    rw [hlists.2 key, hlive.2 key]
  · rintro ⟨fuel, i, ps, hpages, hperm⟩
    refine ⟨fuel, (i, s), ps.map (List.map RespReply.text), ps.flatten, ?_, ?_, ?_, ?_⟩
    · rw [pages_scanStep hs hopts hcounts, hpages]
      rfl
    · rw [← List.map_flatten]
    · exact hperm.nodup_iff.mpr hlive.1
    · intro key
      rw [hperm.mem_iff]
      exact hlive.2 key

theorem listsLive_listing_iff (hs : B.Valid s) :
    ListsLive B nanos s (B.listing s) ↔ OneClient.AllLive now (B.entries s) := by
  rw [OneClient.allLive_iff hs]
  constructor
  · intro h key hkey
    exact (h.2 key).mp hkey
  · intro h
    exact ⟨B.nodup s, fun key => ⟨h key, OneClient.listed_of_exists hs⟩⟩

theorem allLive_of_agrees (hstar : ∀ key, wild "*" key = true) (hs : B.Valid s)
    (h : ListingAgrees B wild nanos T s) : OneClient.AllLive now (B.entries s) := by
  obtain ⟨ks, hreply, hlive⟩ := h.keys
  rw [run_handleKeys hstar] at hreply
  have hks : B.listing s = ks :=
    text_injective.list_map (RespReply.array.inj (Except.ok.inj hreply))
  rw [← hks] at hlive
  exact (listsLive_listing_iff hs).mp hlive

/-- SCAN with COUNT 1 makes a request from every key but the last. -/
theorem lastIfZero_of_agrees (hs : B.Valid s) (hlive : ListsLive B nanos s (B.listing s))
    (h : ListingAgrees B wild nanos T s) : LastIfZero T (B.listing s) := by
  intro key hkey hzero
  by_contra hmore
  have hopts : ∀ i, parseScanOpts "SCAN" (KeyZero.oneByOne i) (none, 10) = .ok (none, 1) :=
    KeyZero.parse_oneByOne
  obtain ⟨before, rest, hsplit⟩ := List.append_of_mem hkey
  have hnodup := B.nodup s
  rw [hsplit] at hnodup
  have hnotin : key ∉ before := fun hmem =>
    (List.nodup_append.mp hnodup).2.2 key hmem key List.mem_cons_self rfl
  rw [behind_of_split hsplit hnotin] at hmore
  obtain ⟨i, hreach⟩ := reaches_of_ones (p := fun _ => true) (B.nodup s)
    (@OneClient.statePager_pager now B nanos s hs) (fun _ => rfl) (listed_none 0) hsplit hmore 0
  have hlists := h.scan KeyZero.oneByOne (fun _ => 1) hopts fun _ => le_refl 1
  have hlast := (scan_lists_iff hs hlive hopts fun _ => le_refl 1).mp hlists i (some key) hreach
    (congrArg some hzero)
  rw [behind_of_split hsplit hnotin] at hlast
  exact hmore hlast

/-- Whatever the counts, a page that ends on the cursor `0` is then the last one. -/
theorem scan_of_lastIfZero (hs : B.Valid s) (hlive : ListsLive B nanos s (B.listing s))
    (hlast : LastIfZero T (B.listing s)) {opts : Nat → List Bytes} {counts : Nat → Nat}
    (hopts : ∀ i, parseScanOpts "SCAN" (opts i) (none, 10) = .ok (none, counts i))
    (hcounts : ∀ i, 1 ≤ counts i) :
    ∃ fuel st ps ks, pages (scanStep B wild nanos T opts) fuel (0, s) [48] = some (st, ps) ∧
      ps.flatten = ks.map RespReply.text ∧ ListsLive B nanos s ks := by
  apply (scan_lists_iff hs hlive hopts hcounts).mpr
  intro i c hreach hzero
  obtain ⟨key, rfl, hkey⟩ := Option.map_eq_some_iff.mp hzero
  have hlisted : Listed (B.listing s) i (some key) := listed_of_reaches (B.nodup s)
    (@OneClient.statePager_pager now B nanos s hs) hcounts (listed_none 0) hreach
  exact hlast key (hlisted key rfl) hkey

end Listing

/-- On either backend, the keys that are listed are those that EXISTS reports iff no entry that is
stored has expired or is unreadable, and no key follows the one whose cursor is `0`. -/
theorem listing_agrees_iff (S : Setup) (tokens : CursorText) (b : BackendName) (now : Int)
    (nanos : UInt64) (wild : String → String → Bool) (hstar : ∀ key, wild "*" key = true)
    (s : (S.client now b).State) (hs : (S.client now b).Valid s)
    (hsize : ((S.client now b).listing s).length ≤ 2 ^ 64) :
    ListingAgrees (S.client now b) wild nanos (b.cursorText tokens) s ↔
      OneClient.AllLive now ((S.client now b).entries s) ∧
        LastIfZero (b.cursorText tokens) ((S.client now b).listing s) := by
  constructor
  · intro h
    have hall := allLive_of_agrees hstar hs h
    exact ⟨hall, lastIfZero_of_agrees hs ((listsLive_listing_iff hs).mpr hall) h⟩
  · rintro ⟨hall, hlast⟩
    have hlive := (@listsLive_listing_iff now _ nanos s hs).mpr hall
    refine ⟨⟨_, run_handleKeys hstar, hlive⟩, fun opts counts hopts hcounts =>
      scan_of_lastIfZero hs hlive hlast hopts hcounts, fun key => ?_⟩
    rw [randomkey_iff hstar hsize]
    exact hlive.2 key

namespace ExpiredTarget

theorem entries_bucket (key : String) (x : Result StoredValue)
    (h : bucket.entries key = some x) : x = .ok entry := by
  by_cases hk : key = "k"
  · rw [hk, entries_k] at h
    exact (Option.some.inj h).symm
  · have hnone : bucket.objects[key]? = none := by
      simp [bucket, Ne.symm hk]
    rw [S3World.entries_absent hnone] at h
    cases h

theorem marked_injective {key key' : String} (h : "1" ++ key = "1" ++ key') : key = key' := by
  have hlist := congrArg String.toList h
  rw [String.toList_append, String.toList_append] at hlist
  exact String.toList_inj.mp (List.append_cancel_left hlist)

/-- Tokens of a service that never hands out the text `0`. -/
def tokens : CursorText where
  write key := "1" ++ key
  read keys text := keys.find? fun key => "1" ++ key = text
  read_write := by
    intro keys key hkey
    cases hfind : keys.find? fun key' => decide ("1" ++ key' = "1" ++ key) with
    | none =>
        rw [List.find?_eq_none] at hfind
        exact absurd (decide_eq_true rfl) (hfind key hkey)
    | some key' =>
        have hsame := List.find?_some hfind
        rw [marked_injective (of_decide_eq_true hsame)]

theorem tokens_ne_zero (key : String) : tokens.write key ≠ "0" := by
  intro h
  have hlist := congrArg String.toList h
  rw [show tokens.write key = "1" ++ key from rfl, String.toList_append] at hlist
  exact absurd (List.cons.inj hlist).1 (by decide)

end ExpiredTarget

open ExpiredTarget in
/-- Before the entry has expired. -/
theorem listing_agrees_iff_on_expiredTarget :
    ListingAgrees (setup.client 3 .s3) (fun _ _ => true) 0 (BackendName.s3.cursorText tokens)
      bucket := by
  have hsize : ((setup.client 3 .s3).listing bucket).length ≤ 2 ^ 64 := by
    show bucket.objects.keys.length ≤ 2 ^ 64
    decide +kernel
  apply (listing_agrees_iff setup tokens .s3 3 0 (fun _ _ => true) (fun _ => rfl) bucket
    holdsDocuments hsize).mpr
  refine ⟨fun key x hx => ⟨entry, entries_bucket key x hx, by decide⟩, fun key _ hzero => ?_⟩
  exact absurd hzero (tokens_ne_zero key)

open ExpiredTarget in
/-- After it has expired, and before a lookup collects it. -/
theorem listing_disagrees_on_expired :
    ¬ ∀ (S : Setup) (tokens : CursorText) (b : BackendName) (now : Int) (nanos : UInt64)
      (wild : String → String → Bool) (s : (S.client now b).State),
      (∀ key, wild "*" key = true) → (S.client now b).Valid s →
      ((S.client now b).listing s).length ≤ 2 ^ 64 →
      ListingAgrees (S.client now b) wild nanos (b.cursorText tokens) s := by
  intro h
  have hsize : ((setup.client 10 .s3).listing bucket).length ≤ 2 ^ 64 := by
    show bucket.objects.keys.length ≤ 2 ^ 64
    decide +kernel
  have hagrees := h setup tokens .s3 10 0 (fun _ _ => true) bucket (fun _ => rfl) holdsDocuments
    hsize
  obtain ⟨e, he, hlive⟩ := allLive_of_agrees (fun _ => rfl) holdsDocuments hagrees "k" _ entries_k
  rw [← Except.ok.inj he] at hlive
  revert hlive
  decide

end Commands

end RustyAnt
