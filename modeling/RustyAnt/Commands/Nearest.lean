import RustyAnt.Commands.Stores
import RustyAnt.Commands.ZaddFlags
import RustyAnt.Lib.KeySort
import RustyAnt.Lib.Selection

/-!
# GEOSEARCH with COUNT

A search sorts what it matches only when it is told to, and then cuts it.  Without `ASC` and
`DESC` the cut leaves the first members by name, whichever are the nearest.
-/

namespace RustyAnt

open Lib
open Lib.Selection (Selects)

namespace Commands

open Storage (ZMap)

variable {env : Solo} {s : Keyspace} {key : String} {found : Option (ZMap × Option Int)}
  {fo : FloatOps} {lm : Libm} {opts : GeoSearchOpts} {c : F64 × F64} {matched : List GeoMatch}

/-! ## What is selected -/

/-- The match that an order puts first: the farther one under `DESC`, else the nearer one. -/
def precedes : Option GeoSort → GeoMatch → GeoMatch → Prop
  | some .desc, a, b => b.distanceM.lt a.distanceM = true
  | _, a, b => a.distanceM.lt b.distanceM = true

/-- `n` of the matches, or all: none that is left out is nearer, or with `DESC` farther, than a
selected one, and they are sorted as the search asks. -/
structure Nearest (sort : Option GeoSort) (n : Nat) (matched selected : List GeoMatch) : Prop where
  selects : Selects (precedes sort) n matched selected
  sorted : sort ≠ none → selected.Pairwise fun a b => ¬ precedes sort b a

/-- Where a distance stands in an order. -/
def sortRank : GeoSort → GeoMatch → Int
  | .asc, m => m.distanceM.rank
  | .desc, m => -m.distanceM.rank

/-- All distances are numbers. -/
def Measured (matched : List GeoMatch) : Prop := ∀ m ∈ matched, m.distanceM.isNan = false

theorem lt_iff_rank {a b : F64} (ha : a.isNan = false) (hb : b.isNan = false) :
    a.lt b = true ↔ a.rank < b.rank := by
  unfold F64.lt
  rw [ha, hb]
  simp

theorem not_precedes_iff (h : Measured matched) (sort : GeoSort) {a b : GeoMatch}
    (ha : a ∈ matched) (hb : b ∈ matched) :
    ¬ precedes (some sort) b a ↔ sortRank sort a ≤ sortRank sort b := by
  cases sort with
  | asc =>
      show ¬ b.distanceM.lt a.distanceM = true ↔ a.distanceM.rank ≤ b.distanceM.rank
      rw [lt_iff_rank (h b hb) (h a ha), not_lt]
  | desc =>
      show ¬ a.distanceM.lt b.distanceM = true ↔ -a.distanceM.rank ≤ -b.distanceM.rank
      rw [lt_iff_rank (h a ha) (h b hb), not_lt, neg_le_neg_iff]

theorem pairwise_sortMatches (h : Measured matched) (sort : GeoSort) :
    (sortMatches matched (some sort)).Pairwise fun a b => ¬ precedes (some sort) b a := by
  have hranks : (sortMatches matched (some sort)).Pairwise
      fun a b => sortRank sort a ≤ sortRank sort b := by
    cases sort with
    | asc =>
        apply KeySort.pairwise_insertionSort
        intro a ha b hb
        rw [← not_precedes_iff h .asc ha hb]
        show (!b.distanceM.lt a.distanceM) = true ↔ ¬ b.distanceM.lt a.distanceM = true
        simp
    | desc =>
        apply KeySort.pairwise_insertionSort
        intro a ha b hb
        rw [← not_precedes_iff h .desc ha hb]
        show (!a.distanceM.lt b.distanceM) = true ↔ ¬ a.distanceM.lt b.distanceM = true
        simp
  have hin : ∀ {m}, m ∈ sortMatches matched (some sort) → m ∈ matched := fun hm =>
    (sortMatches_perm matched (some sort)).subset hm
  exact hranks.imp_of_mem fun ha hb hle => (not_precedes_iff h sort (hin ha) (hin hb)).mpr hle

/-- No match past the first `n` is strictly nearer than one of them. -/
def CutsFarther (n : Nat) (matched : List GeoMatch) : Prop :=
  ∀ r ∈ matched.take n, ∀ o ∈ matched.drop n, ¬ o.distanceM.lt r.distanceM = true

/-- The cut of the search is right when it sorts, or happens to leave the nearest. -/
theorem nearest_take (h : Measured matched) {sort : Option GeoSort} {n : Nat}
    (hcut : sort ≠ none ∨ CutsFarther n matched) :
    Nearest sort n matched ((sortMatches matched sort).take n) := by
  have hperm := sortMatches_perm matched sort
  cases sort with
  | none =>
      exact ⟨Selection.selects_take hperm (hcut.resolve_left fun hne => hne rfl),
        fun hne => absurd rfl hne⟩
  | some sort =>
      have hsorted := pairwise_sortMatches h sort
      exact ⟨Selection.selects_take hperm (Selection.cross_of_pairwise hsorted n),
        fun _ => hsorted.sublist (List.take_sublist n _)⟩

theorem Nearest.cuts {sort : Option GeoSort} {n : Nat} {selected : List GeoMatch}
    (h : Nearest sort n matched selected) (hnames : (matched.map GeoMatch.member).Nodup)
    (hsame : ∀ m, m ∈ selected.map GeoMatch.member ↔
      m ∈ ((sortMatches matched sort).take n).map GeoMatch.member) :
    sort ≠ none ∨ CutsFarther n matched := by
  cases sort with
  | none => exact .inr (h.selects.cross hnames hsame)
  | some sort => exact .inl (Option.some_ne_none sort)

/-! ## The search -/

/-- The centre of the search, when its member is there. -/
def centreOf (fo : FloatOps) (lm : Libm) (map : ZMap) : GeoCentre → Option (F64 × F64)
  | .lonLat lon lat => some (lon, lat)
  | .member m => map[m]?.map (position fo lm)

/-- The members within the shape, by name. -/
def matchesOf (fo : FloatOps) (lm : Libm) (map : ZMap) (opts : GeoSearchOpts) (c : F64 × F64) :
    List GeoMatch := map.toList.filterMap (matchOf fo lm c opts.shape)

theorem matchesOf_nodup (map : ZMap) (opts : GeoSearchOpts) (c : F64 × F64) :
    ((matchesOf fo lm map opts c).map GeoMatch.member).Nodup := by
  apply (filterMap_member_sublist fo lm c opts.shape map.toList).nodup
  rw [Std.ExtTreeMap.map_fst_toList_eq_keys]
  exact Std.ExtTreeMap.nodup_keys

theorem zitems_runs (h : env.Faultless) {n : Nat} (hsees : env.Sees n s key View.zset found) :
    ∃ w, env.runFrom n (Storage.zitems key) s = (.ok (zmapOf found).toList, w) := by
  refine ⟨(n + 1, env.swept n s key), (hsees.read h _ _).trans ?_⟩
  cases found <;> rfl

theorem resolveCentre_runs (h : env.Faultless) (hsees : ∀ n, env.Sees n s key View.zset found)
    {centre : GeoCentre} (hcentre : centreOf fo lm (zmapOf found) centre = some c) :
    ∃ w, env.runFrom 0 (resolveCentre fo lm key centre) s = (.ok c, w) ∧
      env.Sees w.1 w.2 key View.zset found := by
  cases centre with
  | lonLat lon lat =>
      cases hcentre
      exact ⟨_, rfl, hsees 0⟩
  | member m =>
      obtain ⟨score, hscore, rfl⟩ := Option.map_eq_some_iff.mp hcentre
      have hread : env.runFrom 0 (Storage.zscore key m) s =
          (.ok (some score), 1, env.swept 0 s key) := by
        refine ((hsees 0).read h _ _).trans ?_
        cases found with
        | none => cases hscore
        | some p => rw [← hscore]; rfl
      refine ⟨(1, env.swept 0 s key), (Solo.runFrom_step hread).trans ?_,
        Solo.sees_after_load hsees 1 0⟩
      rfl

theorem runGeoSearch_runs (h : env.Faultless) (hsees : ∀ n, env.Sees n s key View.zset found)
    (hcentre : centreOf fo lm (zmapOf found) opts.centre = some c) :
    ∃ w, env.runFrom 0 (runGeoSearch fo lm key opts) s =
      (.ok (selectMatches fo lm opts c (zmapOf found).toList), w) := by
  obtain ⟨w, hresolve, hthere⟩ := resolveCentre_runs h hsees hcentre
  obtain ⟨w', hitems⟩ := zitems_runs h hthere
  exact ⟨w', (Solo.runFrom_step hresolve).trans (Solo.runFrom_step hitems)⟩

theorem selectMatches_count {n : Nat} {any : Bool} (hcount : opts.count = some (n, any))
    (map : ZMap) :
    selectMatches fo lm opts c map.toList =
      (sortMatches (matchesOf fo lm map opts c) opts.sort).take n := by
  unfold selectMatches
  rw [hcount]
  rfl

/-! ## The reply -/

/-- The first word of an entry of the reply. -/
def entryHead : RespReply → RespReply
  | .array (head :: _) => head
  | reply => reply

theorem members_of_reply {a b : List GeoMatch}
    (h : formatGeosearchReply fo lm a opts = formatGeosearchReply fo lm b opts) :
    a.map GeoMatch.member = b.map GeoMatch.member := by
  have htexts : (a.map GeoMatch.member).map RespReply.text =
      (b.map GeoMatch.member).map RespReply.text := by
    unfold formatGeosearchReply at h
    by_cases hplain : (!(opts.withCoord || opts.withDist || opts.withHash)) = true
    · rw [if_pos hplain, if_pos hplain] at h
      exact RespReply.array.inj h
    · rw [if_neg hplain, if_neg hplain] at h
      have hheads := congrArg (List.map entryHead) (RespReply.array.inj h)
      rw [List.map_map, List.map_map] at hheads ⊢
      exact hheads
  exact List.map_injective_iff.mpr text_injective htexts

/-- `GEOSEARCH` replies `n` nearest matches. -/
def RepliesNearest (env : Solo) (s : Keyspace) (fo : FloatOps) (lm : Libm) (opts : GeoSearchOpts)
    (n : Nat) (matched : List GeoMatch) (args : List Bytes) : Prop :=
  ∃ selected, Nearest opts.sort n matched selected ∧
    (env.run (handleGeosearch fo lm args) s).1 = .ok (formatGeosearchReply fo lm selected opts)

theorem handleGeosearch_replies (h : env.Faultless)
    (hsees : ∀ n, env.Sees n s key View.zset found)
    (hcentre : centreOf fo lm (zmapOf found) opts.centre = some c) {args : List Bytes}
    (hargs : 5 ≤ args.length) (hparse : parseGeosearchOpts fo lm false args = .ok opts) :
    ∃ w, env.run (handleGeosearch fo lm (Rdb.asBytes key :: args)) s =
      (.ok (formatGeosearchReply fo lm (selectMatches fo lm opts c (zmapOf found).toList) opts),
        w) := by
  obtain ⟨w, hrun⟩ := runGeoSearch_runs h hsees hcentre
  refine ⟨w, ?_⟩
  unfold handleGeosearch
  dsimp only
  rw [if_neg (by omega)]
  calc
    _ = _ := Solo.runFrom_parse (argAsStr_asBytes key)
    _ = _ := Solo.runFrom_parse hparse
    _ = (.ok (formatGeosearchReply fo lm _ opts), w) := Solo.runFrom_step hrun

/-! ## The destination -/

def storedAs (fo : FloatOps) (opts : GeoSearchOpts) : List GeoMatch → Option StoredValue
  | [] => none
  | m :: ms => some ⟨none, .zset (Computed.pairMap ((m :: ms).map (storedPair fo opts)))⟩

/-- `GEOSEARCHSTORE` counts and stores `n` nearest matches. -/
def StoresNearest (env : Solo) (s : Keyspace) (fo : FloatOps) (lm : Libm) (opts : GeoSearchOpts)
    (n : Nat) (matched : List GeoMatch) (dest : String) (args : List Bytes) : Prop :=
  ∃ selected, Nearest opts.sort n matched selected ∧
    (env.run (handleGeosearchstore fo lm args) s).1 = .ok (.integer (toI64 selected.length)) ∧
    ((env.run (handleGeosearchstore fo lm args) s).2.2 dest).map Prod.fst =
      storedAs fo opts selected

theorem mem_pairMap (m : String) (ps : List (F64 × String)) :
    m ∈ Computed.pairMap ps ↔ m ∈ ps.map Prod.snd := by
  unfold Computed.pairMap
  rw [← Std.ExtTreeMap.contains_iff_mem, Std.ExtTreeMap.contains_ofList, List.contains_iff_mem,
    List.map_map]
  rfl

theorem members_of_stored {a b : List GeoMatch} (h : storedAs fo opts a = storedAs fo opts b)
    (m : String) : m ∈ a.map GeoMatch.member ↔ m ∈ b.map GeoMatch.member := by
  cases a with
  | nil =>
      cases b with
      | nil => rfl
      | cons _ _ => cases h
  | cons x xs =>
      cases b with
      | nil => cases h
      | cons y ys =>
          have hmaps := Value.zset.inj (congrArg StoredValue.value (Option.some.inj h))
          have hx := mem_pairMap m ((x :: xs).map (storedPair fo opts))
          have hy := mem_pairMap m ((y :: ys).map (storedPair fo opts))
          rw [List.map_map] at hx hy
          rw [hmaps] at hx
          exact hx.symm.trans hy

theorem overwriteGeo_leaves (h : env.Faultless) (n : Nat) (dest : String) (s : Keyspace)
    (matched : List GeoMatch) :
    ∃ w, env.runFrom n (overwriteGeo fo dest opts matched) s =
        (.ok (.integer (toI64 matched.length)), w) ∧
      (w.2 dest).map Prod.fst = storedAs fo opts matched := by
  obtain ⟨b, w, hdelete, hnone⟩ := Solo.delete_leaves h n dest s
  cases matched with
  | nil =>
      refine ⟨w, Solo.runFrom_step hdelete, ?_⟩
      rw [hnone]
      rfl
  | cons m ms =>
      have hzadd : env.runFrom w.1 (Storage.zadd dest ((m :: ms).map (storedPair fo opts))) w.2 =
          env.casRuns w.1 w.2 dest (Storage.zaddModify dest ((m :: ms).map (storedPair fo opts))
            none) := Solo.Sees.cas (V := View.zset) (.of_none hnone) h _
      rw [Storage.zaddModify_none] at hzadd
      refine ⟨_, (Solo.runFrom_step hdelete).trans (Solo.runFrom_step hzadd), ?_⟩
      dsimp only [Solo.casRuns]
      rw [Function.update_self]
      rfl

theorem handleGeosearchstore_leaves (h : env.Faultless)
    (hsees : ∀ n, env.Sees n s key View.zset found)
    (hcentre : centreOf fo lm (zmapOf found) opts.centre = some c) {args : List Bytes}
    (hargs : 5 ≤ args.length) (hparse : parseGeosearchOpts fo lm true args = .ok opts)
    (dest : String) :
    ∃ w, env.run (handleGeosearchstore fo lm (Rdb.asBytes dest :: Rdb.asBytes key :: args)) s =
        (.ok (.integer (toI64 (selectMatches fo lm opts c (zmapOf found).toList).length)), w) ∧
      (w.2 dest).map Prod.fst =
        storedAs fo opts (selectMatches fo lm opts c (zmapOf found).toList) := by
  obtain ⟨w, hrun⟩ := runGeoSearch_runs h hsees hcentre
  obtain ⟨w', hstore, hleft⟩ := @overwriteGeo_leaves env fo opts h w.1 dest w.2
    (selectMatches fo lm opts c (zmapOf found).toList)
  refine ⟨w', ?_, hleft⟩
  unfold handleGeosearchstore
  dsimp only
  rw [if_neg (by omega)]
  calc
    _ = _ := Solo.runFrom_parse (argAsStr_asBytes dest)
    _ = _ := Solo.runFrom_parse (argAsStr_asBytes key)
    _ = _ := Solo.runFrom_parse hparse
    _ = _ := Solo.runFrom_step hrun
    _ = _ := hstore

theorem repliesNearest_iff (h : env.Faultless) (hsees : ∀ n, env.Sees n s key View.zset found)
    (hcentre : centreOf fo lm (zmapOf found) opts.centre = some c)
    (hmeasured : Measured (matchesOf fo lm (zmapOf found) opts c)) {n : Nat}
    (hcount : opts.count = some (n, false)) {args : List Bytes} (hargs : 5 ≤ args.length)
    (hparse : parseGeosearchOpts fo lm false args = .ok opts) :
    RepliesNearest env s fo lm opts n (matchesOf fo lm (zmapOf found) opts c)
        (Rdb.asBytes key :: args) ↔
      opts.sort ≠ none ∨ CutsFarther n (matchesOf fo lm (zmapOf found) opts c) := by
  obtain ⟨w, hrun⟩ := handleGeosearch_replies h hsees hcentre hargs hparse
  rw [selectMatches_count hcount] at hrun
  constructor
  · rintro ⟨selected, hnearest, hreplied⟩
    rw [hrun] at hreplied
    have hmembers := members_of_reply (Except.ok.inj hreplied)
    exact hnearest.cuts (matchesOf_nodup _ _ _) fun m => by rw [hmembers]
  · intro hcut
    exact ⟨_, nearest_take hmeasured hcut, by rw [hrun]⟩

theorem storesNearest_iff (h : env.Faultless) (hsees : ∀ n, env.Sees n s key View.zset found)
    (hcentre : centreOf fo lm (zmapOf found) opts.centre = some c)
    (hmeasured : Measured (matchesOf fo lm (zmapOf found) opts c)) {n : Nat}
    (hcount : opts.count = some (n, false)) {args : List Bytes} (hargs : 5 ≤ args.length)
    (hparse : parseGeosearchOpts fo lm true args = .ok opts) (dest : String) :
    StoresNearest env s fo lm opts n (matchesOf fo lm (zmapOf found) opts c) dest
        (Rdb.asBytes dest :: Rdb.asBytes key :: args) ↔
      opts.sort ≠ none ∨ CutsFarther n (matchesOf fo lm (zmapOf found) opts c) := by
  obtain ⟨w, hrun, hleft⟩ := handleGeosearchstore_leaves h hsees hcentre hargs hparse dest
  rw [selectMatches_count hcount] at hrun hleft
  constructor
  · rintro ⟨selected, hnearest, -, hstored⟩
    rw [hrun] at hstored
    exact hnearest.cuts (matchesOf_nodup _ _ _) (members_of_stored (hstored.symm.trans hleft))
  · intro hcut
    refine ⟨_, nearest_take hmeasured hcut, ?_, ?_⟩
    · rw [hrun]
    · rw [hrun]
      exact hleft

/-- `COUNT n` gives nearest matches exactly when the search is told to sort, or no match past
the first `n` by name is nearer than one of them. -/
theorem geosearch_nearest_iff (h : env.Faultless) (hsees : ∀ n, env.Sees n s key View.zset found)
    (hcentre : centreOf fo lm (zmapOf found) opts.centre = some c)
    (hmeasured : Measured (matchesOf fo lm (zmapOf found) opts c)) {n : Nat}
    (hcount : opts.count = some (n, false)) {args : List Bytes} (hargs : 5 ≤ args.length) :
    (parseGeosearchOpts fo lm false args = .ok opts →
      (RepliesNearest env s fo lm opts n (matchesOf fo lm (zmapOf found) opts c)
          (Rdb.asBytes key :: args) ↔
        opts.sort ≠ none ∨ CutsFarther n (matchesOf fo lm (zmapOf found) opts c))) ∧
    (parseGeosearchOpts fo lm true args = .ok opts → ∀ dest,
      (StoresNearest env s fo lm opts n (matchesOf fo lm (zmapOf found) opts c) dest
          (Rdb.asBytes dest :: Rdb.asBytes key :: args) ↔
        opts.sort ≠ none ∨ CutsFarther n (matchesOf fo lm (zmapOf found) opts c))) :=
  ⟨repliesNearest_iff h hsees hcentre hmeasured hcount hargs,
    storesNearest_iff h hsees hcentre hmeasured hcount hargs⟩

/-! ## Two members next to each other -/

deriving instance DecidableEq for GeoCentre, GeoShape, GeoSearchOpts

namespace TwoCells

/-- A function by its values at some operands, given by their bits. -/
def tabled (table : List (List UInt64 × UInt64)) (other : F64) (operands : List F64) : F64 :=
  (table.lookup (operands.map F64.bits)).elim other F64.mk

/-- IEEE arithmetic on the operands of the search below that are not integers. -/
def ops : FloatOps where
  add a b := tabled [([0, 0x3fe0000000000000], 0x3fe0000000000000),
    ([0x3ff0000000000000, 0x3fe0000000000000], 0x3ff8000000000000)] (FloatOps.integral.add a b) [a, b]
  sub a b := tabled [([0x40554345b1a57f00, 0xc0554345b1a57f00], 0x40654345b1a57f00),
    ([0xc0554345ac54ad94, 0xc0554345a1b30abb], 0xbec54345b2000000),
    ([0x3ff0000000000000, 0x3cc1a0c983ff948d], 0x3feffffffffffffc)] (FloatOps.integral.sub a b) [a, b]
  mul a b := tabled [([0x4000000000000000, 0x3e57c0318688b61e], 0x3e67c0318688b61e),
    ([0x41584f6f63e51090, 0x3e67c0318688b61e], 0x3fd20b1a4bfb11a8)] (FloatOps.integral.mul a b) [a, b]
  div a b := tabled [([0x4076800000000000, 0x4190000000000000], 0x3ed6800000000000),
    ([0x40654345b1a57f00, 0x4190000000000000], 0x3ec54345b1a57f00),
    ([0xbe67c0318688b61f, 0x4000000000000000], 0xbe57c0318688b61f)] (FloatOps.integral.div a b) [a, b]
  ln := FloatOps.integral.ln
  ofU64 := FloatOps.integral.ofU64
  roundU64 := FloatOps.integral.roundU64
  parse := FloatOps.integral.parse
  display := FloatOps.integral.display
  jsonLen := FloatOps.integral.jsonLen

/-- The trigonometry of the search below; the values not listed are those at zero and one. -/
def lib : Libm where
  mulAdd x a b := tabled [
    ([0x3fe0000000000000, 0x3ed6800000000000, 0xc066800000000000], 0xc0667ffffa600000),
    ([0x3fe0000000000000, 0x3ec54345b1a57f00, 0xc0554345b1a57f00], 0xc0554345ac54ad94),
    ([0x3ff8000000000000, 0x3ec54345b1a57f00, 0xc0554345b1a57f00], 0xc0554345a1b30abb)] b [x, a, b]
  toRadians x := tabled [([0xc0554345a1b30abb], 0xbff7c031745378f5),
    ([0xc0554345ac54ad94], 0xbff7c031803391b9), ([0xbec54345b2000000], 0xbe67c0318688b61f)] x [x]
  sin x := tabled [([0xbe57c0318688b61f], 0xbe57c0318688b61e)] x [x]
  cos x := tabled [([0xbff7c031745378f5], 0x3fb61594cfcf3a65),
    ([0xbff7c031803391b9], 0x3fb615941283032e)] .one [x]
  sqrt x := tabled [([0x3cc1a0c983ff948d], 0x3e57c0318688b61e),
    ([0x3feffffffffffffc], 0x3feffffffffffffe)] x [x]
  square x := tabled [([0xbe57c0318688b61e], 0x3cc1a0c983ff948d)] x [x]
  atan2 y x := tabled [([0x3e57c0318688b61e, 0x3feffffffffffffe], 0x3e57c0318688b61e)] y [y, x]
  fixed _ _ := []
  fixedText _ _ := ""

def cells : ZMap := ((∅ : ZMap).insert "a" F64.zero).insert "b" F64.one

def keyspace : Keyspace :=
  Function.update (fun _ => none) "z" (some (⟨none, .zset cells⟩, "t"))

theorem keyspace_sees (n : Nat) :
    (Solo.still 0).Sees n keyspace "z" View.zset (some (cells, none)) :=
  Solo.Sees.of_live (V := View.zset) rfl rfl

/-- `FROMMEMBER b BYRADIUS 100 m`, with `COUNT 1`. -/
def searchOpts (sort : Option GeoSort) : GeoSearchOpts :=
  ⟨.member "b", .radius ⟨0x4059000000000000⟩, .meters, sort, some (1, false), false, false, false,
    false⟩

def centre : F64 × F64 := (⟨0xc0667ffffa600000⟩, ⟨0xc0554345a1b30abb⟩)

def words : List Bytes := ["FROMMEMBER", "b", "BYRADIUS", "100", "m", "COUNT", "1"].map Rdb.asBytes

theorem centreOf_b : centreOf ops lib cells (.member "b") = some centre := by decide +kernel

theorem measured (sort : Option GeoSort) :
    Measured (matchesOf ops lib cells (searchOpts sort) centre) := by
  show Measured (matchesOf ops lib cells (searchOpts none) centre)
  unfold Measured
  decide +kernel

/-- The centre of the search comes second, by its name. -/
theorem not_cutsFarther : ¬ CutsFarther 1 (matchesOf ops lib cells (searchOpts none) centre) := by
  unfold CutsFarther
  decide +kernel

theorem parse_words : parseGeosearchOpts ops lib false words = .ok (searchOpts none) := by
  decide +kernel

end TwoCells

open TwoCells

/-- `GEOSEARCH z FROMMEMBER b BYRADIUS 100 m COUNT 1` replies the neighbour of `b`. -/
theorem geosearch_omits_centre :
    ((Solo.still 0).run (handleGeosearch ops lib (Rdb.asBytes "z" :: words)) keyspace).1 =
        .ok (.texts ["a"]) ∧
      ¬ RepliesNearest (Solo.still 0) keyspace ops lib (searchOpts none) 1
        (matchesOf ops lib cells (searchOpts none) centre) (Rdb.asBytes "z" :: words) := by
  have hfault := Solo.still_faultless 0
  have hcentre : centreOf ops lib cells (searchOpts none).centre = some centre := centreOf_b
  constructor
  · obtain ⟨w, hrun⟩ := handleGeosearch_replies hfault keyspace_sees hcentre (by decide) parse_words
    have hmembers : (selectMatches ops lib (searchOpts none) centre cells.toList).map
        GeoMatch.member = ["a"] := by decide +kernel
    rw [hrun, ← hmembers]
    rfl
  · have hiff := repliesNearest_iff hfault keyspace_sees hcentre (measured none) rfl (by decide)
      parse_words
    intro hnearest
    rcases hiff.mp hnearest with hsort | hcut
    · exact hsort rfl
    · exact not_cutsFarther hcut

/-- With `ASC` it replies `b`. -/
theorem geosearch_asc_nearest :
    RepliesNearest (Solo.still 0) keyspace ops lib (searchOpts (some .asc)) 1
      (matchesOf ops lib cells (searchOpts (some .asc)) centre)
      (Rdb.asBytes "z" :: (words ++ [Rdb.asBytes "ASC"])) :=
  ((geosearch_nearest_iff (Solo.still_faultless 0) keyspace_sees centreOf_b (measured _) rfl
    (by decide)).1 (by decide +kernel)).mpr (.inl (Option.some_ne_none _))

end Commands
end RustyAnt
