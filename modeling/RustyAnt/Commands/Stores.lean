import RustyAnt.Commands.Geo
import RustyAnt.Commands.Sets

/-!
# The commands that store a result

`SUNIONSTORE` and its kin compute a result from their sources and put it at a
destination: they delete what is there and add the result to nothing.  Each of
them is its computation followed by that overwrite.
-/

namespace RustyAnt

open Lib

namespace Commands

inductive StoreCommand where
  | set (op : SetOp)
  | zset (op : ZStoreOp)
  | geosearch

/-- What a command has computed for its destination. -/
inductive Computed where
  | members (members : List String)
  | pairs (pairs : List (F64 × String))
  | found (pairs : List (F64 × String))

namespace Computed

def isEmpty : Computed → Bool
  | members ms => ms.isEmpty
  | pairs ps => ps.isEmpty
  | found ps => ps.isEmpty

def kind : Computed → ValueKind
  | members _ => .set
  | pairs _ => .zset
  | found _ => .zset

def pairMap (ps : List (F64 × String)) : Storage.ZMap :=
  Std.ExtTreeMap.ofList (ps.map Prod.swap) compare

def value : Computed → Value
  | members ms => .set (Std.ExtTreeSet.ofList ms compare)
  | pairs ps => .zset (pairMap ps)
  | found ps => .zset (pairMap ps)

def count : Computed → Int
  | members ms => (Std.ExtTreeSet.ofList ms compare).size
  | pairs ps => (pairMap ps).size
  | found ps => toI64 (pairMap ps).size

/-- The members found by a search are different. -/
def Distinct : Computed → Prop
  | members _ => True
  | pairs _ => True
  | found ps => (ps.map Prod.snd).Nodup

def modify (dest : String) : Computed → Option StoredValue → Result (CasAction Int)
  | members ms => Storage.saddModify dest ms
  | pairs ps => Storage.zaddModify dest ps
  | found ps => Storage.zaddModify dest ps

/-- The reply to a write that has added `n` members. -/
def reply (n : Int) : Computed → Int
  | members _ => n
  | pairs _ => n
  | found ps => toI64 ps.length

def overwrite (dest : String) (result : Computed) : KV RespReply :=
  (Storage.delete dest).bind fun _ =>
    if result.isEmpty then .done (.ok (.integer 0))
    else (cas dest (result.modify dest)).bind fun n => .done (.ok (.integer (result.reply n)))

end Computed

section Float

variable (fo : FloatOps) (lm : Libm)

theorem overwriteGeo_eq (dest : String) (opts : GeoSearchOpts) (matched : List GeoMatch) :
    overwriteGeo fo dest opts matched =
      (Computed.found (matched.map (storedPair fo opts))).overwrite dest := by
  unfold overwriteGeo Computed.overwrite Computed.isEmpty Computed.reply Computed.modify
  simp only [List.isEmpty_map, List.length_map]
  rfl

namespace StoreCommand

def handle : StoreCommand → List Bytes → KV RespReply
  | set op => handleSstore op
  | zset op => handleZstore fo op
  | geosearch => handleGeosearchstore fo lm

/-- The handler up to its first write: the destination and the result. -/
def compute : StoreCommand → List Bytes → KV (String × Computed)
  | set op, dest :: k :: ks => do
      let dest ← argAsStr dest
      let srcKeys ← argsAsStrings (k :: ks)
      let members ← op.compute srcKeys
      return (dest, .members members)
  | set op, _ => Prog.fail (.wrongArity (op.name ++ "STORE"))
  | zset op, dest :: numkeys :: k :: rest => do
      let dest ← argAsStr dest
      let pairs ← computeZsetAggregate fo op (op.name ++ "STORE") false (numkeys :: k :: rest)
      return (dest, .pairs pairs)
  | zset op, _ => Prog.fail (.wrongArity (op.name ++ "STORE"))
  | geosearch, destination :: source :: args =>
      if args.length < 5 then Prog.fail (.wrongArity "GEOSEARCHSTORE")
      else do
        let destination ← argAsStr destination
        let source ← argAsStr source
        let opts ← parseGeosearchOpts fo lm true args
        let matched ← runGeoSearch fo lm source opts
        return (destination, .found (matched.map (storedPair fo opts)))
  | geosearch, _ => Prog.fail (.wrongArity "GEOSEARCHSTORE")

theorem handle_eq (cmd : StoreCommand) (args : List Bytes) :
    cmd.handle fo lm args = (cmd.compute fo lm args).bind fun p => p.2.overwrite p.1 := by
  cases cmd with
  | set op =>
      match args with
      | [] => rfl
      | [_] => rfl
      | dest :: k :: ks =>
          simp only [handle, handleSstore, compute, Prog.bind_eq, Prog.bind_assoc]
          rfl
  | zset op =>
      match args with
      | [] => rfl
      | [_] => rfl
      | [_, _] => rfl
      | dest :: numkeys :: k :: rest =>
          simp only [handle, handleZstore, compute, Prog.bind_eq, Prog.bind_assoc]
          rfl
  | geosearch =>
      match args with
      | [] => rfl
      | [_] => rfl
      | destination :: source :: args =>
          simp only [handle, handleGeosearchstore, compute]
          split
          · rfl
          · simp only [Prog.bind_eq, Prog.bind_assoc, overwriteGeo_eq]
            rfl

end StoreCommand

end Float

/-! ## What the computations do -/

theorem loadSetsSeq_onlyLoads (keys : List String) : OnlyLoads (Storage.loadSetsSeq keys) := by
  induction keys with
  | nil => exact .done _
  | cons k ks ih =>
      exact .bind (.read _ _ _ _) fun _ => .bind ih fun _ => .done _

theorem compute_onlyLoads (op : SetOp) (keys : List String) : OnlyLoads (op.compute keys) := by
  cases op with
  | inter => exact .bind (loadSetsSeq_onlyLoads keys) fun _ => .done _
  | union => exact .bind (loadSetsSeq_onlyLoads keys) fun _ => .done _
  | diff => exact .bind (loadSetsSeq_onlyLoads keys) fun _ => .done _

theorem kind_onlyLoads (key : String) : OnlyLoads (Storage.kind key) :=
  .bind (.loadEntry key) fun _ => .done _

theorem loadZsetOrSet_onlyLoads (key : String) : OnlyLoads (loadZsetOrSet key) := by
  refine .bind (kind_onlyLoads key) fun kind => ?_
  split
  · exact .read _ _ _ _
  · exact .bind (.read _ _ _ _) fun _ => .done _
  · exact .done _
  · exact .done _

section Float

variable (fo : FloatOps) (lm : Libm)

theorem loadWeighted_onlyLoads (inputs : List (String × F64)) :
    OnlyLoads (loadWeighted fo inputs) := by
  induction inputs with
  | nil => exact .done _
  | cons input inputs ih =>
      exact .bind (loadZsetOrSet_onlyLoads _) fun _ => .bind ih fun _ => .done _

theorem computeZsetAggregate_onlyLoads (op : ZStoreOp) (cmdName : String) (allow : Bool)
    (args : List Bytes) : OnlyLoads (computeZsetAggregate fo op cmdName allow args) := by
  cases args with
  | nil => exact .done _
  | cons numkeys rest =>
      exact .bind (.done _) fun _ => .bind (.done _) fun _ => .bind (.done _) fun _ =>
        .bind (loadWeighted_onlyLoads fo _) fun _ => .done _

theorem runGeoSearch_onlyLoads (key : String) (opts : GeoSearchOpts) :
    OnlyLoads (runGeoSearch fo lm key opts) := by
  refine .bind ?_ fun centre => .bind (.read _ _ _ _) fun _ => .done _
  cases opts.centre with
  | lonLat lon lat => exact .done _
  | member m =>
      refine .bind (.read _ _ _ _) fun score => ?_
      cases score with
      | none => exact .done _
      | some score => exact .done _

theorem StoreCommand.compute_onlyLoads (cmd : StoreCommand) (args : List Bytes) :
    OnlyLoads (cmd.compute fo lm args) := by
  unfold StoreCommand.compute
  split
  · exact .bind (.done _) fun _ => .bind (.done _) fun _ =>
      .bind (Commands.compute_onlyLoads _ _) fun _ => .done _
  · exact .done _
  · exact .bind (.done _) fun _ => .bind (computeZsetAggregate_onlyLoads fo _ _ _ _) fun _ => .done _
  · exact .done _
  · split
    · exact .done _
    · exact .bind (.done _) fun _ => .bind (.done _) fun _ => .bind (.done _) fun _ =>
        .bind (runGeoSearch_onlyLoads fo lm _ _) fun _ => .done _
  · exact .done _

theorem sortMatches_perm (matched : List GeoMatch) (sort : Option GeoSort) :
    (sortMatches matched sort).Perm matched := by
  cases sort with
  | none => exact .refl _
  | some sort =>
      cases sort with
      | asc => exact List.perm_insertionSort _ _
      | desc => exact List.perm_insertionSort _ _

theorem matchOf_member {centre : F64 × F64} {shape : GeoShape} {item : String × F64}
    {m : GeoMatch} (h : matchOf fo lm centre shape item = some m) : m.member = item.1 := by
  unfold matchOf at h
  rw [Option.map_eq_some_iff] at h
  obtain ⟨d, -, rfl⟩ := h
  rfl

theorem filterMap_member_sublist (centre : F64 × F64) (shape : GeoShape)
    (items : List (String × F64)) :
    ((items.filterMap (matchOf fo lm centre shape)).map GeoMatch.member).Sublist
      (items.map Prod.fst) := by
  induction items with
  | nil => exact .refl _
  | cons item items ih =>
      rw [List.filterMap_cons, List.map_cons]
      cases hmatch : matchOf fo lm centre shape item with
      | none => exact ih.cons _
      | some m =>
          dsimp only
          rw [List.map_cons, matchOf_member fo lm hmatch]
          exact ih.cons_cons _

theorem selectMatches_nodup (opts : GeoSearchOpts) (centre : F64 × F64)
    {items : List (String × F64)} (h : (items.map Prod.fst).Nodup) :
    ((selectMatches fo lm opts centre items).map GeoMatch.member).Nodup := by
  have hfound := filterMap_member_sublist fo lm centre opts.shape items
  have hsorted := ((sortMatches_perm (items.filterMap (matchOf fo lm centre opts.shape))
    opts.sort).map GeoMatch.member).nodup_iff.mpr (hfound.nodup h)
  unfold selectMatches
  cases opts.count with
  | none => exact hsorted
  | some p => exact ((List.take_sublist p.1 _).map GeoMatch.member).nodup hsorted

theorem runGeoSearch_distinct (key : String) (opts : GeoSearchOpts) :
    (runGeoSearch fo lm key opts).Returns fun matched =>
      (matched.map GeoMatch.member).Nodup := by
  have hitems : (Storage.zitems key).Returns fun items => (items.map Prod.fst).Nodup := by
    refine View.read_returns _ key List.nodup_nil fun m => ?_
    rw [Std.ExtTreeMap.map_fst_toList_eq_keys]
    exact Std.ExtTreeMap.nodup_keys
  exact .bind (.any _) fun centre _ => .bind hitems fun items h => .ok (selectMatches_nodup fo lm _ _ h)

/-- What `GEOSEARCHSTORE` computes has no member twice. -/
theorem StoreCommand.compute_distinct (cmd : StoreCommand) (args : List Bytes) :
    (cmd.compute fo lm args).Returns fun p => p.2.Distinct := by
  unfold StoreCommand.compute
  split
  · exact .bind (.any _) fun _ _ => .bind (.any _) fun _ _ => .bind (.any _) fun _ _ => .ok trivial
  · exact .error _ _
  · exact .bind (.any _) fun _ _ => .bind (.any _) fun _ _ => .ok trivial
  · exact .error _ _
  · split
    · exact .error _ _
    · refine .bind (.any _) fun _ _ => .bind (.any _) fun _ _ => .bind (.any _) fun opts _ =>
        .bind (runGeoSearch_distinct fo lm _ _) fun matched h => .ok ?_
      show ((matched.map (storedPair fo opts)).map Prod.snd).Nodup
      rw [List.map_map]
      exact h
  · exact .error _ _

end Float

end Commands

end RustyAnt
