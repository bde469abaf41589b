import Std.Data.ExtTreeMap
import Std.Data.ExtTreeSet
import Mathlib.Algebra.Group.Int.Defs
import Mathlib.Algebra.GroupWithZero.Nat
import Mathlib.Order.Compare
import Mathlib.Data.Nat.Basic
import Mathlib.Tactic.SplitIfs

/-!
# Stream values

The data model of `src/stream.rs`: ids, entries, consumer groups and their
pending lists.  `BTreeMap` and `BTreeSet` of the source are the extensional
tree maps of the standard library, iterated in key order.
-/

namespace RustyAnt

/-- `Vec<u8>` / `Bytes`. -/
abbrev Bytes := List UInt8

/-- `std::collections::BTreeMap`. -/
abbrev BTreeMap (α β : Type) [Ord α] := Std.ExtTreeMap α β compare

/-- `std::collections::BTreeSet`. -/
abbrev BTreeSet (α : Type) [Ord α] := Std.ExtTreeSet α compare

/-- Monotonic stream id `<ms>-<seq>`. -/
structure StreamId where
  ms : UInt64
  seq : UInt64
  deriving DecidableEq, Repr

namespace StreamId

def min : StreamId := ⟨0, 0⟩
def max : StreamId := ⟨UInt64.ofNat (2 ^ 64 - 1), UInt64.ofNat (2 ^ 64 - 1)⟩

instance : Inhabited StreamId := ⟨min⟩

/-- `Ord::cmp`: by milliseconds, then by sequence number. -/
def cmp (a b : StreamId) : Ordering := (compare a.ms b.ms).then (compare a.seq b.seq)

/-- The id read as one 128-bit number. -/
def val (i : StreamId) : Nat := i.ms.toNat * 2 ^ 64 + i.seq.toNat

theorem val_injective : Function.Injective val := by
  intro a b h
  have ha := a.seq.toNat_lt
  have hb := b.seq.toNat_lt
  simp only [val] at h
  have hms : a.ms.toNat = b.ms.toNat := by omega
  have hseq : a.seq.toNat = b.seq.toNat := by omega
  cases a
  cases b
  simp only [mk.injEq]
  exact ⟨UInt64.toNat_inj.mp hms, UInt64.toNat_inj.mp hseq⟩

theorem cmp_eq_compare_val (a b : StreamId) :
    cmp a b = compareOfLessAndEq a.val b.val := by
  have ha := a.seq.toNat_lt
  have hb := b.seq.toNat_lt
  simp only [cmp, compare, compareOfLessAndEq, UInt64.lt_iff_toNat_lt,
    ← UInt64.toNat_inj]
  rcases Nat.lt_trichotomy a.ms.toNat b.ms.toNat with h | h | h
  · have hlt : a.val < b.val := by
      simp only [val]
      omega
    rw [if_pos hlt]
    simp [h]
  · have hlt : a.val < b.val ↔ a.seq.toNat < b.seq.toNat := by
      simp only [val]
      omega
    have heq : a.val = b.val ↔ a.seq.toNat = b.seq.toNat := by
      simp only [val]
      omega
    simp [h, hlt, heq]
  · have hgt : ¬ a.val < b.val := by
      simp only [val]
      omega
    have hne : a.val ≠ b.val := by
      simp only [val]
      omega
    rw [if_neg hgt, if_neg hne]
    simp [Nat.lt_asymm h, h.ne']

instance : LE StreamId := ⟨fun a b => a.val ≤ b.val⟩
instance : LT StreamId := ⟨fun a b => a.val < b.val⟩
instance : Ord StreamId := ⟨cmp⟩
instance (a b : StreamId) : Decidable (a ≤ b) := inferInstanceAs (Decidable (a.val ≤ b.val))
instance (a b : StreamId) : Decidable (a < b) := inferInstanceAs (Decidable (a.val < b.val))
instance : Min StreamId := ⟨fun a b => if a ≤ b then a else b⟩
instance : Max StreamId := ⟨fun a b => if a ≤ b then b else a⟩

instance : LinearOrder StreamId where
  le_refl _ := Nat.le_refl _
  le_trans _ _ _ := Nat.le_trans
  lt_iff_le_not_ge _ _ := Nat.lt_iff_le_and_not_ge
  le_antisymm _ _ h h' := val_injective (Nat.le_antisymm h h')
  le_total _ _ := Nat.le_total _ _
  toDecidableLE := inferInstance
  toDecidableLT := inferInstance
  toDecidableEq := inferInstance
  compare_eq_compareOfLessAndEq a b := by
    show cmp a b = _
    rw [cmp_eq_compare_val]
    simp only [compareOfLessAndEq, val_injective.eq_iff]
    congr

instance : Std.LawfulEqOrd StreamId where
  eq_of_compare h := compare_eq_iff_eq.mp h

instance transCmp : Std.TransCmp (compare : StreamId → StreamId → Ordering) := inferInstance

theorem lt_iff_val {a b : StreamId} : a < b ↔ a.val < b.val := Iff.rfl

theorem le_iff_val {a b : StreamId} : a ≤ b ↔ a.val ≤ b.val := Iff.rfl

/-- `StreamId::next`: the sequence number carries into the milliseconds, which
wrap at the top. -/
def next (i : StreamId) : StreamId :=
  if i.seq = UInt64.ofNat (2 ^ 64 - 1) then ⟨i.ms + 1, 0⟩ else ⟨i.ms, i.seq + 1⟩

end StreamId

/-- An appended entry; fields keep the order of the arguments. -/
structure StreamEntry where
  id : StreamId
  fields : List (String × Bytes)
  deriving DecidableEq

structure Consumer where
  seenMs : Int := 0
  deriving DecidableEq

/-- One row of a pending-entries list. -/
structure PendingEntry where
  consumer : String
  deliveryTimeMs : Int
  deliveryCount : Nat
  deriving DecidableEq

structure ConsumerGroup where
  lastDeliveredId : StreamId := .min
  consumers : BTreeMap String Consumer := ∅
  pel : BTreeMap StreamId PendingEntry := ∅
  deriving DecidableEq

/-- The stream value-kind; the default value is an empty stream. -/
structure StreamValue where
  entries : List StreamEntry := []
  lastGeneratedId : StreamId := .min
  maxDeletedEntryId : StreamId := .min
  entriesAdded : Nat := 0
  groups : BTreeMap String ConsumerGroup := ∅
  deriving DecidableEq

end RustyAnt
