import RustyAnt.Lib.Decimal
import RustyAnt.Stream.Ops

/-!
# Stream ids as text

The parsers and the `Display` of `src/stream.rs`, on the bytes of a text.  An id that
is written is read back as itself.
-/

namespace RustyAnt

open Lib

namespace Stream

def invalidId : RustyAntError := .parse "Invalid stream ID specified as stream command argument"

/-- `str::parse::<u64>`. -/
def parseU64 (text : Bytes) : Option UInt64 :=
  let digits := match text with
    | 43 :: rest => rest
    | _ => text
  match Decimal.parseNat digits with
  | some n => if n < 2 ^ 64 then some (UInt64.ofNat n) else none
  | none => none

def readU64 (text : Bytes) : Result UInt64 :=
  match parseU64 text with
  | some n => .ok n
  | none => .error invalidId

/-- `str::split_once`, at an ASCII separator. -/
def splitOnce (sep : UInt8) : Bytes → Option (Bytes × Bytes)
  | [] => none
  | b :: text =>
      if b = sep then some ([], text) else (splitOnce sep text).map fun p => (b :: p.1, p.2)

end Stream

open RustyAnt.Stream

/-- `<ms>-<seq>` or just `<ms>`. -/
def StreamId.parse (text : Bytes) : Result StreamId :=
  match splitOnce 45 text with
  | some (ms, seq) => do
      let ms ← readU64 ms
      let seq ← readU64 seq
      return ⟨ms, seq⟩
  | none => do
      let ms ← readU64 text
      return ⟨ms, 0⟩

/-- `StreamId::to_string`. -/
def StreamId.display (id : StreamId) : Bytes :=
  Decimal.natBytes id.ms.toNat ++ 45 :: Decimal.natBytes id.seq.toNat

def AddIdSpec.parse (text : Bytes) : Result AddIdSpec :=
  if text = [42] then .ok .auto
  else
    match splitOnce 45 text with
    | some (ms, seq) => do
        let ms ← readU64 ms
        if seq = [42] then return .partialMs ms
        else
          let seq ← readU64 seq
          return .concrete ⟨ms, seq⟩
    | none => do
        let ms ← readU64 text
        return .concrete ⟨ms, 0⟩

def RangeId.parse : Bytes → Result RangeId
  | [45] => .ok .minInf
  | [43] => .ok .maxInf
  | 40 :: rest => .exclusive <$> StreamId.parse rest
  | text => .inclusive <$> StreamId.parse text

def GroupStartId.parse (text : Bytes) : Result GroupStartId :=
  if text = [36] then .ok .latest else .concrete <$> StreamId.parse text

def XReadGroupId.parse (text : Bytes) : Result XReadGroupId :=
  if text = [62] then .ok .newEntries else .pending <$> StreamId.parse text

/-! ## Writing, then reading -/

namespace Stream

theorem parseU64_natBytes (n : UInt64) : parseU64 (Decimal.natBytes n.toNat) = some n := by
  have hplus : ∀ rest, Decimal.natBytes n.toNat ≠ 43 :: rest := by
    intro rest h
    have hmem := Decimal.mem_natBytes (n := n.toNat) (b := 43) (by rw [h]; exact List.mem_cons_self)
    exact absurd hmem.1 (by decide)
  unfold parseU64
  dsimp only
  split
  · rename_i m hm
    split at hm
    · rename_i rest heq
      exact absurd heq (hplus rest)
    · rw [Decimal.parseNat_natBytes] at hm
      cases hm
      rw [if_pos n.toNat_lt, UInt64.ofNat_toNat]
  · rename_i hm
    split at hm
    · rename_i rest heq
      exact absurd heq (hplus rest)
    · rw [Decimal.parseNat_natBytes] at hm
      cases hm

theorem readU64_natBytes (n : UInt64) : readU64 (Decimal.natBytes n.toNat) = .ok n := by
  unfold readU64
  rw [parseU64_natBytes]

theorem splitOnce_append {sep : UInt8} {front : Bytes} (h : sep ∉ front) (rest : Bytes) :
    splitOnce sep (front ++ sep :: rest) = some (front, rest) := by
  induction front with
  | nil => simp [splitOnce]
  | cons b front ih =>
      rw [List.mem_cons, not_or] at h
      rw [List.cons_append, splitOnce, if_neg (Ne.symm h.1), ih h.2]
      rfl

theorem dash_not_mem (n : Nat) : (45 : UInt8) ∉ Decimal.natBytes n := by
  intro h
  exact absurd (Decimal.mem_natBytes h).1 (by decide)

end Stream

theorem StreamId.parse_display (id : StreamId) : StreamId.parse id.display = .ok id := by
  unfold StreamId.parse StreamId.display
  rw [splitOnce_append (dash_not_mem _)]
  dsimp only
  rw [readU64_natBytes, Result.ok_bind, readU64_natBytes]
  rfl

theorem RangeId.parse_exclusive (id : StreamId) :
    RangeId.parse (40 :: id.display) = .ok (.exclusive id) := by
  show RangeId.exclusive <$> StreamId.parse id.display = _
  rw [StreamId.parse_display]
  rfl

end RustyAnt
