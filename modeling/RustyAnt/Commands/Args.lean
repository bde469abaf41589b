import RustyAnt.Resp
import RustyAnt.Storage.Strings

/-!
# Command arguments

The argument helpers of `src/commands.rs`.  A handler is a program over the
storage backend; its parsing is a fallible computation that is lifted into it.
A loop over `args` with an index is a recursion over the arguments left.
-/

namespace RustyAnt

open Lib

instance : MonadLift (Except RustyAntError) (Prog KVOp KVOp.Res RustyAntError) where
  monadLift := Prog.ofExcept

namespace Commands

/-- `arg_as_str` and `arg_as_string`. -/
def argAsStr (arg : Bytes) : Result String :=
  match String.fromUTF8? arg.toByteArray with
  | some s => .ok s
  | none => .error (.respParse "argument not utf8")

theorem argAsStr_asBytes (s : String) : argAsStr (Rdb.asBytes s) = .ok s := by
  rw [argAsStr, Rdb.fromUTF8?_asBytes]

theorem asBytes_injective : Function.Injective Rdb.asBytes := by
  intro s t h
  have hread := argAsStr_asBytes s
  rw [h, argAsStr_asBytes] at hread
  exact (Except.ok.inj hread).symm

theorem text_injective : Function.Injective RespReply.text := by
  intro s t h
  unfold RespReply.text at h
  exact asBytes_injective (Option.some.inj (RespReply.bulkString.inj h))

theorem asBytes_ofAscii {bs : Bytes} (h : ∀ b ∈ bs, b.toNat < 128) :
    Rdb.asBytes (String.ofList (bs.map fun b => Char.ofNat b.toNat)) = bs := by
  have hlist : ∀ bs : Bytes, (∀ b ∈ bs, b.toNat < 128) →
      (bs.map fun b => Char.ofNat b.toNat).utf8Encode = bs.toByteArray := by
    intro bs
    induction bs with
    | nil => intro _; rfl
    | cons b bs ih =>
        intro h
        have hb := h b List.mem_cons_self
        have hvalid : b.toNat.isValidChar := .inl (by omega)
        have hval : (Char.ofNat b.toNat).val.toNat = b.toNat := by
          rw [Char.ofNat, dif_pos hvalid]
          rfl
        have hsize : (Char.ofNat b.toNat).utf8Size = 1 := by
          rw [Char.utf8Size, if_pos]
          rw [UInt32.le_iff_toNat_le, hval]
          exact Nat.lt_succ_iff.mp hb
        have hchar : String.utf8EncodeChar (Char.ofNat b.toNat) = [b] := by
          rw [String.utf8EncodeChar_eq_singleton hsize]
          congr 1
          apply UInt8.toNat_inj.mp
          rw [UInt32.toNat_toUInt8, hval]
          omega
        rw [List.map_cons, List.utf8Encode_cons, ih fun b hb => h b (List.mem_cons_of_mem _ hb),
          List.utf8Encode_singleton, hchar]
        apply ByteArray.ext
        simp
  unfold Rdb.asBytes
  rw [String.toByteArray_ofList, hlist bs h, List.data_toByteArray]

theorem argAsStr_ascii {bs : Bytes} (h : ∀ b ∈ bs, b.toNat < 128) :
    argAsStr bs = .ok (String.ofList (bs.map fun b => Char.ofNat b.toNat)) := by
  have hs := argAsStr_asBytes (String.ofList (bs.map fun b => Char.ofNat b.toNat))
  rw [asBytes_ofAscii h] at hs
  exact hs

/-- `args.iter().map(arg_as_string).collect()` -/
def argsAsStrings (args : List Bytes) : Result (List String) := args.mapM argAsStr

def arity (command : String) (expected : Bool) : Result Unit :=
  if expected then .ok () else .error (.wrongArity command)

/-- `to_ascii_uppercase`. -/
def toUpper (s : String) : String := String.ofList (s.toList.map Char.toUpper)

/-- The option word that `arg_as_str(arg)?.to_ascii_uppercase()` reads. -/
def optionWord (arg : Bytes) : Result String := do return toUpper (← argAsStr arg)

theorem optionWord_of_text {arg : Bytes} {t : String} (h : argAsStr arg = .ok t) :
    optionWord arg = .ok (toUpper t) := by
  unfold optionWord
  rw [h]
  rfl

theorem optionWord_asBytes (s : String) : optionWord (Rdb.asBytes s) = .ok (toUpper s) :=
  optionWord_of_text (argAsStr_asBytes s)

/-- `arg_as_str(arg)?.eq_ignore_ascii_case(word)` for an upper-case word. -/
def isWord (arg : Bytes) (word : String) : Result Bool := do return (← optionWord arg) == word

def parseI64 (arg : Bytes) (label : String) : Result Int := do
  let _ ← argAsStr arg
  match Storage.parseI64 arg with
  | some n => return n
  | none => .error (.parse (label ++ " is not an integer"))

theorem parseI64_intBytes {n : Int} (hmin : i64Min ≤ n) (hmax : n ≤ i64Max) (label : String) :
    parseI64 (Decimal.intBytes n) label = .ok n := by
  unfold parseI64
  rw [argAsStr_ascii (Decimal.intBytes_ascii n), Result.ok_bind,
    Storage.parseI64_intBytes hmin hmax]
  rfl

theorem parseI64_inI64 {arg : Bytes} {label : String} {n : Int}
    (h : parseI64 arg label = .ok n) : InI64 n := by
  unfold parseI64 at h
  obtain ⟨_, -, h⟩ := Result.bind_eq_ok.mp h
  unfold Storage.parseI64 at h
  split at h
  · rename_i m hm
    cases h
    rw [Option.filter_eq_some_iff, decide_eq_true_iff] at hm
    exact hm.2
  · cases h

def parseF64 (fo : FloatOps) (arg : Bytes) (label : String) : Result F64 := do
  let _ ← argAsStr arg
  match fo.parse arg with
  | some x => return x
  | none => .error (.parse (label ++ " is not a float"))

/-- The `[count]` of a pop: one element without it, and not negative. -/
def parseCount (arg : Bytes) : Result Nat := do
  let count ← parseI64 arg "count"
  if count < 0 then .error (.parse "count must be >= 0") else return count.toNat

/-- `count.checked_abs()`. -/
def checkedAbs (count : Int) : Result Int :=
  if count = i64Min then .error (.parse "count overflow") else .ok count.natAbs

/-- Match Redis's score formatting. -/
def formatScore (fo : FloatOps) (s : F64) : Bytes :=
  if s.isNan then [110, 97, 110]
  else if s.isInfinite then if s.negative then [45, 105, 110, 102] else [105, 110, 102]
  else if s.isIntegral && s.absBelowExact then Decimal.intBytes s.toInt
  else fo.display s

def scoreReply (fo : FloatOps) (s : F64) : RespReply := .bulkString (some (formatScore fo s))

/-! ## Scan options -/

/-- The `[MATCH pattern] [COUNT n]` tail of the scan commands. -/
def parseScanOpts (cmd : String) :
    List Bytes → Option String × Nat → Result (Option String × Nat)
  | [], opts => .ok opts
  | arg :: rest, (pattern, count) => do
      match ← optionWord arg, rest with
      | "MATCH", [] => .error (.parse "MATCH requires a pattern")
      | "MATCH", v :: rest => do parseScanOpts cmd rest (some (← argAsStr v), count)
      | "COUNT", [] => .error (.parse "COUNT requires a value")
      | "COUNT", v :: rest => do
          let c ← parseI64 v "COUNT"
          if c ≤ 0 then .error (.parse "COUNT must be positive")
          else parseScanOpts cmd rest (pattern, c.toNat)
      | other, _ => .error (.parse ("unsupported " ++ cmd ++ " option: " ++ other))

def parseScanCursor (arg : Bytes) : Result UInt64 := do
  let n ← parseI64 arg "cursor"
  if n < 0 then .error (.parse "cursor must be >= 0") else return UInt64.ofNat n.toNat

def scanReply (nextCursor : UInt64) (items : List RespReply) : RespReply :=
  .array [.bulkString (some (Decimal.natBytes nextCursor.toNat)), .array items]

def parseCollectionScan (cmd : String) :
    List Bytes → Result (String × UInt64 × Option String × Nat)
  | key :: cursor :: opts => do
      let key ← argAsStr key
      let cursor ← parseScanCursor cursor
      let (pattern, count) ← parseScanOpts cmd opts (none, 10)
      return (key, cursor, pattern, count)
  | _ => .error (.wrongArity cmd)

end Commands

end RustyAnt
