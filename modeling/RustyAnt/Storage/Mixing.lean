import RustyAnt.Lib.Xorshift
import RustyAnt.Storage.Backend

/-!
# The mixed clock

`pseudo_rand_u64` loses nothing of the reading it mixes, and every word is mixed of one.
-/

namespace RustyAnt

open Lib

theorem toBitVec_pseudoRandU64 (n : UInt64) : (pseudoRandU64 n).toBitVec =
    (fun x : BitVec 64 => x ^^^ (x <<< 17)) ((fun x : BitVec 64 => x ^^^ (x >>> 7))
      ((fun x : BitVec 64 => x ^^^ (x <<< 13)) (n.toBitVec ^^^ 0x2545F4914F6CDD1D#64))) := by
  unfold pseudoRandU64
  simp only [UInt64.toBitVec_xor, UInt64.toBitVec_shiftLeft, UInt64.toBitVec_shiftRight]
  rfl

theorem pseudoRandU64_injective : Function.Injective pseudoRandU64 := by
  intro a b h
  have hbits := congrArg UInt64.toBitVec h
  rw [toBitVec_pseudoRandU64, toBitVec_pseudoRandU64] at hbits
  have hmixed := xor_shiftLeft_injective (by decide) (xor_ushiftRight_injective (by decide)
    (xor_shiftLeft_injective (by decide) hbits))
  exact UInt64.toBitVec_inj.mp ((BitVec.xor_left_inj _).mp hmixed)

theorem pseudoRandU64_surjective : Function.Surjective pseudoRandU64 := by
  have hfinite : Finite UInt64 := Finite.of_injective UInt64.toFin fun _ _ => UInt64.toFin_inj.mp
  exact Finite.surjective_of_injective pseudoRandU64_injective

theorem exists_draw {len i : Nat} (hi : i < len) (hlen : len ≤ 2 ^ 64) :
    ∃ nanos, (pseudoRandU64 nanos).toNat % len = i := by
  obtain ⟨nanos, hdraw⟩ := pseudoRandU64_surjective (UInt64.ofNat i)
  have hword : i < 2 ^ 64 := by omega
  refine ⟨nanos, ?_⟩
  rw [hdraw, UInt64.toNat_ofNat', Nat.mod_eq_of_lt hword, Nat.mod_eq_of_lt hi]

end RustyAnt
