import RustyAnt.Commands.ZSets
import RustyAnt.Geo

/-!
# Geo commands

The geo handlers of `src/commands.rs`: a geo member is a sorted-set member whose score
is its geohash.
-/

namespace RustyAnt

open Lib

namespace Commands

section Float

variable (fo : FloatOps) (lm : Libm)

/-! ## GEOADD, GEOPOS, GEODIST, GEOHASH -/

def parseGeoaddFlags : List Bytes → ZAddFlags → Result (ZAddFlags × List Bytes)
  | [], flags => .ok (flags, [])
  | arg :: rest, flags => do
      match ← optionWord arg with
      | "NX" => parseGeoaddFlags rest { flags with nx := true }
      | "XX" => parseGeoaddFlags rest { flags with xx := true }
      | "CH" => parseGeoaddFlags rest { flags with ch := true }
      | _ => return (flags, arg :: rest)

def parseGeoaddTriples : List Bytes → Result (List (F64 × String))
  | lon :: lat :: member :: rest => do
      let lon ← parseF64 fo lon "longitude"
      let lat ← parseF64 fo lat "latitude"
      Geo.validateLonLat lm lon lat
      let member ← argAsStr member
      let pairs ← parseGeoaddTriples rest
      return (fo.ofU64 (Geo.encodeScore fo lon lat), member) :: pairs
  | _ => .ok []

def handleGeoadd : List Bytes → KV RespReply
  | key :: a :: b :: c :: args => do
      let key ← argAsStr key
      let (flags, remaining) ← parseGeoaddFlags (a :: b :: c :: args) {}
      if flags.nx && flags.xx then Prog.fail incompatibleXxNx
      else if remaining.length < 3 ∨ remaining.length % 3 ≠ 0 then
        Prog.fail (.wrongArity "GEOADD")
      else
        let pairs ← parseGeoaddTriples fo lm remaining
        let count ← Storage.zaddExt key pairs flags
        return .integer count
  | _ => Prog.fail (.wrongArity "GEOADD")

def formatLonLat (v : F64) : RespReply := .bulkString (some (lm.fixed 17 v))

def position (score : F64) : F64 × F64 := Geo.decodeScore fo lm (Geo.scoreToU64 score)

def coordReply (p : F64 × F64) : RespReply := .array [formatLonLat lm p.1, formatLonLat lm p.2]

def handleGeopos : List Bytes → KV RespReply
  | key :: m :: ms => do
      let key ← argAsStr key
      let members ← argsAsStrings (m :: ms)
      let scores ← Storage.zmscore key members
      return .array (scores.map fun s => s.elim .nil fun score => coordReply lm (position fo lm score))
  | _ => Prog.fail (.wrongArity "GEOPOS")

def geodist (key m1 m2 : String) (unit : GeoUnit) : KV RespReply := do
  let scores ← Storage.zmscore key [m1, m2]
  match scores with
  | [some s1, some s2] =>
      let (lon1, lat1) := position fo lm s1
      let (lon2, lat2) := position fo lm s2
      let meters := Geo.haversineMeters fo lm lon1 lat1 lon2 lat2
      return .bulkString (some (lm.fixed 4 (fo.div meters unit.toMeters)))
  | _ => return .nil

def handleGeodist : List Bytes → KV RespReply
  | [key, m1, m2] => do
      geodist fo lm (← argAsStr key) (← argAsStr m1) (← argAsStr m2) .meters
  | [key, m1, m2, unit] => do
      let key ← argAsStr key
      let m1 ← argAsStr m1
      let m2 ← argAsStr m2
      let unit ← argAsStr unit
      geodist fo lm key m1 m2 (← GeoUnit.parse unit)
  | _ => Prog.fail (.wrongArity "GEODIST")

def handleGeohash : List Bytes → KV RespReply
  | key :: m :: ms => do
      let key ← argAsStr key
      let members ← argsAsStrings (m :: ms)
      let scores ← Storage.zmscore key members
      return .array (scores.map fun s => s.elim .nil fun score => .text (Geo.geohashString fo lm score))
  | _ => Prog.fail (.wrongArity "GEOHASH")

/-! ## GEOSEARCH and GEOSEARCHSTORE -/

inductive GeoSort where
  | asc
  | desc
  deriving DecidableEq

inductive GeoCentre where
  | member (m : String)
  | lonLat (lon lat : F64)

/-- Sizes in metres. -/
inductive GeoShape where
  | radius (r : F64)
  | box (w h : F64)

structure GeoSearchOpts where
  centre : GeoCentre
  shape : GeoShape
  unit : GeoUnit
  sort : Option GeoSort
  /-- with the advisory `ANY` -/
  count : Option (Nat × Bool)
  withCoord : Bool
  withDist : Bool
  withHash : Bool
  storeDist : Bool

structure GeoMatch where
  member : String
  score : F64
  lon : F64
  lat : F64
  distanceM : F64

/-- The options read so far. -/
structure GeoSearchArgs where
  centre : Option GeoCentre := none
  shape : Option (GeoShape × GeoUnit) := none
  sort : Option GeoSort := none
  count : Option (Nat × Bool) := none
  withCoord : Bool := false
  withDist : Bool := false
  withHash : Bool := false
  storeDist : Bool := false

def parseRadius (radius unit : Bytes) : Result (GeoShape × GeoUnit) := do
  let radius ← parseF64 fo radius "radius"
  if !radius.isFinite || radius.lt .zero then
    .error (.parse "radius must be a non-negative number")
  else
    let unit ← GeoUnit.parse (← argAsStr unit)
    return (.radius (fo.mul radius unit.toMeters), unit)

def parseBox (w h unit : Bytes) : Result (GeoShape × GeoUnit) := do
  let w ← parseF64 fo w "width"
  let h ← parseF64 fo h "height"
  if !w.isFinite || !h.isFinite || w.lt .zero || h.lt .zero then
    .error (.parse "BYBOX width and height must be non-negative")
  else
    let unit ← GeoUnit.parse (← argAsStr unit)
    return (.box (fo.mul w unit.toMeters) (fo.mul h unit.toMeters), unit)

def parseLonLat (lon lat : Bytes) : Result GeoCentre := do
  let lon ← parseF64 fo lon "longitude"
  let lat ← parseF64 fo lat "latitude"
  Geo.validateLonLat lm lon lat
  return .lonLat lon lat

def parsePositiveCount (arg : Bytes) : Result Nat := do
  let n ← parseI64 arg "COUNT"
  if n ≤ 0 then .error (.parse "COUNT must be positive") else return n.toNat

/-- `arg_as_str(arg).is_ok_and(|s| s.eq_ignore_ascii_case("ANY"))` -/
def isAny (arg : Bytes) : Bool :=
  match isWord arg "ANY" with
  | .ok b => b
  | .error _ => false

def parseGeosearchWords (isStore : Bool) :
    List Bytes → GeoSearchArgs → Result GeoSearchArgs
  | [], acc => .ok acc
  | arg :: rest, acc => do
      match ← optionWord arg, isStore with
      | "FROMMEMBER", _ =>
          match rest with
          | m :: rest => do
              parseGeosearchWords isStore rest { acc with centre := some (.member (← argAsStr m)) }
          | _ => .error (.parse "FROMMEMBER requires a member")
      | "FROMLONLAT", _ =>
          match rest with
          | lon :: lat :: rest => do
              let centre ← parseLonLat fo lm lon lat
              parseGeosearchWords isStore rest { acc with centre := some centre }
          | _ => .error (.parse "FROMLONLAT requires lon and lat")
      | "BYRADIUS", _ =>
          match rest with
          | radius :: unit :: rest => do
              let shape ← parseRadius fo radius unit
              parseGeosearchWords isStore rest { acc with shape := some shape }
          | _ => .error (.parse "BYRADIUS requires radius and unit")
      | "BYBOX", _ =>
          match rest with
          | w :: h :: unit :: rest => do
              let shape ← parseBox fo w h unit
              parseGeosearchWords isStore rest { acc with shape := some shape }
          | _ => .error (.parse "BYBOX requires width, height and unit")
      | "ASC", _ => parseGeosearchWords isStore rest { acc with sort := some .asc }
      | "DESC", _ => parseGeosearchWords isStore rest { acc with sort := some .desc }
      | "COUNT", _ =>
          match rest with
          | [] => .error (.parse "COUNT requires a value")
          | [n] => do
              let n ← parsePositiveCount n
              return { acc with count := some (n, false) }
          | n :: next :: rest => do
              let n ← parsePositiveCount n
              if isAny next then parseGeosearchWords isStore rest { acc with count := some (n, true) }
              else parseGeosearchWords isStore (next :: rest) { acc with count := some (n, false) }
      | "WITHCOORD", false => parseGeosearchWords isStore rest { acc with withCoord := true }
      | "WITHDIST", false => parseGeosearchWords isStore rest { acc with withDist := true }
      | "WITHHASH", false => parseGeosearchWords isStore rest { acc with withHash := true }
      | "STOREDIST", true => parseGeosearchWords isStore rest { acc with storeDist := true }
      | other, _ => .error (.parse ("unsupported GEOSEARCH option: " ++ other))

def parseGeosearchOpts (isStore : Bool) (args : List Bytes) : Result GeoSearchOpts := do
  let acc ← parseGeosearchWords fo lm isStore args {}
  match acc.centre, acc.shape with
  | none, _ => .error (.parse "exactly one of FROMMEMBER | FROMLONLAT is required")
  | _, none => .error (.parse "exactly one of BYRADIUS | BYBOX is required")
  | some centre, some (shape, unit) =>
      return ⟨centre, shape, unit, acc.sort, acc.count, acc.withCoord, acc.withDist, acc.withHash,
        acc.storeDist⟩

/-- The centre of the search; a member must be in the source. -/
def resolveCentre (key : String) : GeoCentre → KV (F64 × F64)
  | .lonLat lon lat => return (lon, lat)
  | .member m => do
      match ← Storage.zscore key m with
      | none => Prog.fail (.parse ("could not decode requested zset member '" ++ m ++ "'"))
      | some score => return position fo lm score

def distanceWithin (centre point : F64 × F64) : GeoShape → Option F64
  | .radius r =>
      let d := Geo.haversineMeters fo lm centre.1 centre.2 point.1 point.2
      if r.lt d then none else some d
  | .box w h => Geo.pointInBox fo lm centre.1 centre.2 w h point.1 point.2

def matchOf (centre : F64 × F64) (shape : GeoShape) (item : String × F64) : Option GeoMatch :=
  let point := position fo lm item.2
  (distanceWithin fo lm centre point shape).map fun d => ⟨item.1, item.2, point.1, point.2, d⟩

/-- `sort_by(partial_cmp(..).unwrap_or(Equal))`, which is stable. -/
def sortMatches (matched : List GeoMatch) : Option GeoSort → List GeoMatch
  | none => matched
  | some .asc => matched.insertionSort fun a b => !b.distanceM.lt a.distanceM
  | some .desc => matched.insertionSort fun a b => !a.distanceM.lt b.distanceM

/-- The matches of a search, sorted and limited. -/
def selectMatches (opts : GeoSearchOpts) (centre : F64 × F64) (items : List (String × F64)) :
    List GeoMatch :=
  let sorted := sortMatches (items.filterMap (matchOf fo lm centre opts.shape)) opts.sort
  opts.count.elim sorted fun p => sorted.take p.1

def runGeoSearch (key : String) (opts : GeoSearchOpts) : KV (List GeoMatch) := do
  let centre ← resolveCentre fo lm key opts.centre
  let items ← Storage.zitems key
  return selectMatches fo lm opts centre items

def geoMatchReply (opts : GeoSearchOpts) (m : GeoMatch) : RespReply :=
  .array ([.text m.member] ++
    (if opts.withDist then
      [.bulkString (some (lm.fixed 4 (fo.div m.distanceM opts.unit.toMeters)))] else []) ++
    (if opts.withHash then [.integer (wrapI64 (Geo.scoreToU64 m.score).toNat)] else []) ++
    (if opts.withCoord then [coordReply lm (m.lon, m.lat)] else []))

def formatGeosearchReply (matched : List GeoMatch) (opts : GeoSearchOpts) : RespReply :=
  if !(opts.withCoord || opts.withDist || opts.withHash) then .texts (matched.map GeoMatch.member)
  else .array (matched.map (geoMatchReply fo lm opts))

def handleGeosearch : List Bytes → KV RespReply
  | key :: args =>
      if args.length < 5 then Prog.fail (.wrongArity "GEOSEARCH")
      else do
        let key ← argAsStr key
        let opts ← parseGeosearchOpts fo lm false args
        let matched ← runGeoSearch fo lm key opts
        return formatGeosearchReply fo lm matched opts
  | [] => Prog.fail (.wrongArity "GEOSEARCH")

def storedPair (opts : GeoSearchOpts) (m : GeoMatch) : F64 × String :=
  (if opts.storeDist then fo.div m.distanceM opts.unit.toMeters else m.score, m.member)

/-- What `GEOSEARCHSTORE` does with the matches. -/
def overwriteGeo (dest : String) (opts : GeoSearchOpts) (matched : List GeoMatch) :
    KV RespReply := do
  let _ ← Storage.delete dest
  if matched.isEmpty then return .integer 0
  else
    let _ ← Storage.zadd dest (matched.map (storedPair fo opts))
    return .integer (toI64 matched.length)

def handleGeosearchstore : List Bytes → KV RespReply
  | destination :: source :: args =>
      if args.length < 5 then Prog.fail (.wrongArity "GEOSEARCHSTORE")
      else do
        let destination ← argAsStr destination
        let source ← argAsStr source
        let opts ← parseGeosearchOpts fo lm true args
        let matched ← runGeoSearch fo lm source opts
        overwriteGeo fo destination opts matched
  | _ => Prog.fail (.wrongArity "GEOSEARCHSTORE")

end Float

end Commands

end RustyAnt
