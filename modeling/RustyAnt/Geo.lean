import RustyAnt.Error
import RustyAnt.Float64

/-!
# Geohash and distance

`src/geo.rs`.  The bit interleaving and the cell arithmetic are computed here; the
trigonometric functions and the fixed-point rendering of a double belong to the Rust
standard library and are the fields of `Libm`.
-/

namespace RustyAnt

/-- The functions of `f64` behind the geographic distance, as the Rust standard
library provides them. -/
structure Libm where
  /-- `x.mul_add(a, b)` -/
  mulAdd : F64 → F64 → F64 → F64
  /-- `x.to_radians()` -/
  toRadians : F64 → F64
  sin : F64 → F64
  cos : F64 → F64
  sqrt : F64 → F64
  /-- `x.powi(2)` -/
  square : F64 → F64
  /-- `y.atan2(x)` -/
  atan2 : F64 → F64 → F64
  /-- `format!("{x:.digits$}")` -/
  fixed : Nat → F64 → List UInt8
  /-- the same as text -/
  fixedText : Nat → F64 → String

namespace F64

/-- `x as u32` and `x as u64`: truncated towards zero and clamped to the type. -/
def truncNat (max : Nat) (x : F64) : Nat :=
  if x.isNan || x.negative then 0
  else if x.isInfinite then max
  else min max (x.scaled / 2 ^ 1074)

end F64

namespace Geo

def lonMin : F64 := ⟨0xc066800000000000⟩
def lonMax : F64 := ⟨0x4066800000000000⟩
/-- `-85.051_128_78` -/
def latMin : F64 := ⟨0xc0554345b1a57f00⟩
def latMax : F64 := ⟨0x40554345b1a57f00⟩
def stdLatMin : F64 := ⟨0xc056800000000000⟩
def stdLatMax : F64 := ⟨0x4056800000000000⟩
/-- `6_372_797.560_856` -/
def earthRadiusM : F64 := ⟨0x41584f6f63e51090⟩
def two : F64 := ⟨0x4000000000000000⟩
def half : F64 := ⟨0x3fe0000000000000⟩

def geoBits : Nat := 26

def base32Alphabet : List Char := "0123456789bcdefghjkmnpqrstuvwxyz".toList

end Geo

inductive GeoUnit where
  | meters
  | kilometers
  | miles
  | feet
  deriving DecidableEq

namespace GeoUnit

/-- `to_ascii_lowercase` -/
def toLower (s : String) : String := String.ofList (s.toList.map Char.toLower)

def parse (s : String) : Result GeoUnit :=
  match toLower s with
  | "m" => .ok meters
  | "km" => .ok kilometers
  | "mi" => .ok miles
  | "ft" => .ok feet
  | other => .error (.parse ("unsupported unit of distance: " ++ other))

/-- Metres per one unit. -/
def toMeters : GeoUnit → F64
  | meters => .one
  | kilometers => ⟨0x408f400000000000⟩
  | miles => ⟨0x409925604189374c⟩
  | feet => ⟨0x3fd381d7dbf487fd⟩

end GeoUnit

namespace Geo

/-! ## Bit interleaving -/

def spreadBits (v : UInt32) : UInt64 :=
  let x := v.toUInt64 &&& 0x0000000003ffffff
  let x := (x ||| (x <<< 16)) &&& 0x0000ffff0000ffff
  let x := (x ||| (x <<< 8)) &&& 0x00ff00ff00ff00ff
  let x := (x ||| (x <<< 4)) &&& 0x0f0f0f0f0f0f0f0f
  let x := (x ||| (x <<< 2)) &&& 0x3333333333333333
  (x ||| (x <<< 1)) &&& 0x5555555555555555

def gatherBits (v : UInt64) : UInt32 :=
  let x := v &&& 0x5555555555555555
  let x := (x ||| (x >>> 1)) &&& 0x3333333333333333
  let x := (x ||| (x >>> 2)) &&& 0x0f0f0f0f0f0f0f0f
  let x := (x ||| (x >>> 4)) &&& 0x00ff00ff00ff00ff
  let x := (x ||| (x >>> 8)) &&& 0x0000ffff0000ffff
  let x := (x ||| (x >>> 16)) &&& 0x00000000ffffffff
  (x &&& 0xffffffff).toUInt32

section Float

variable (fo : FloatOps) (lm : Libm)

def validateLonLat (lon lat : F64) : Result Unit :=
  if !(lonMin.le lon && lon.le lonMax) || !(latMin.le lat && lat.le latMax) then
    .error (.parse ("invalid longitude,latitude pair " ++ lm.fixedText 6 lon ++ "," ++
      lm.fixedText 6 lat))
  else .ok ()

/-- The cell of a value, the last one at the upper boundary. -/
def quantize (value min max : F64) (bits : Nat) : UInt32 :=
  let frac := fo.div (fo.sub value min) (fo.sub max min)
  let cells := 2 ^ bits
  let cell := (fo.mul frac (fo.ofU64 (UInt64.ofNat cells))).truncNat (2 ^ 32 - 1)
  UInt32.ofNat (Nat.min cell (cells - 1))

/-- The centre of a cell. -/
def dequantize (cell : UInt32) (min max : F64) (bits : Nat) : F64 :=
  let span := fo.sub max min
  let step := fo.div span (fo.ofU64 (UInt64.ofNat (2 ^ bits)))
  lm.mulAdd (fo.add (fo.ofU64 cell.toUInt64) half) step min

def encodeInterleaved (lon lat lonMin lonMax latMin latMax : F64) : UInt64 :=
  let lonCell := quantize fo lon lonMin lonMax geoBits
  let latCell := quantize fo lat latMin latMax geoBits
  spreadBits latCell ||| (spreadBits lonCell <<< 1)

def decodeInterleaved (hash : UInt64) (lonMin lonMax latMin latMax : F64) : F64 × F64 :=
  let latCell := gatherBits hash
  let lonCell := gatherBits (hash >>> 1)
  (dequantize fo lm lonCell lonMin lonMax geoBits, dequantize fo lm latCell latMin latMax geoBits)

def encodeScore (lon lat : F64) : UInt64 :=
  encodeInterleaved fo lon lat lonMin lonMax latMin latMax

def decodeScore (score : UInt64) : F64 × F64 :=
  decodeInterleaved fo lm score lonMin lonMax latMin latMax

def scoreToU64 (score : F64) : UInt64 := UInt64.ofNat (score.truncNat (2 ^ 64 - 1))

/-- The `i`-th five-bit group of the top 50 bits. -/
def base32Digit (hash : UInt64) (i : Nat) : Char :=
  base32Alphabet.getD ((hash.toNat / 2 ^ (52 - (i + 1) * 5)) % 32) '0'

def geohashString (score : F64) : String :=
  let (lon, lat) := decodeScore fo lm (scoreToU64 score)
  let standard := encodeInterleaved fo lon lat lonMin lonMax stdLatMin stdLatMax
  String.ofList ((List.range 10).map (base32Digit standard) ++ ['0'])

/-! ## Distance -/

def haversineMeters (lon1 lat1 lon2 lat2 : F64) : F64 :=
  let lat1r := lm.toRadians lat1
  let lat2r := lm.toRadians lat2
  let dlat := fo.div (lm.toRadians (fo.sub lat2 lat1)) two
  let dlon := fo.div (lm.toRadians (fo.sub lon2 lon1)) two
  let latTerm := lm.square (lm.sin dlat)
  let lonTerm := lm.square (lm.sin dlon)
  let a := lm.mulAdd (lm.cos lat1r) (fo.mul (lm.cos lat2r) lonTerm) latTerm
  let c := fo.mul two (lm.atan2 (lm.sqrt a) (lm.sqrt (fo.sub .one a)))
  fo.mul earthRadiusM c

/-- The distance of a point inside the box. -/
def pointInBox (centreLon centreLat widthM heightM pointLon pointLat : F64) : Option F64 :=
  let latDistance := haversineMeters fo lm .zero centreLat .zero pointLat
  let lonDistance := haversineMeters fo lm centreLon centreLat pointLon centreLat
  if (fo.div heightM two).lt latDistance || (fo.div widthM two).lt lonDistance then none
  else some (haversineMeters fo lm centreLon centreLat pointLon pointLat)

end Float

end Geo

end RustyAnt
