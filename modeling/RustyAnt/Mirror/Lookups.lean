import RustyAnt.Mirror.OneClient
import RustyAnt.Storage.Refusal

/-!
# Lookups on both backends

The S3 bucket and the DynamoDB tables for a client that only looks, under a clock that moves.
-/

namespace RustyAnt

open Lib

section Bucket

variable {etagOf : Json → String} {clock : Clock}

theorem S3World.readings_serve (op : S3Op) (w : S3World) :
    w.readings ≤ (S3World.serve etagOf clock op w).2.readings := by
  cases op with
  | putObject key body cond =>
      unfold serve
      dsimp only
      split
      · exact le_refl _
      · exact le_refl _
      · exact le_refl _
      · exact le_refl _
      · split <;> exact le_refl _
  | deleteObject key cond =>
      unfold serve
      dsimp only
      split
      · exact le_refl _
      · exact le_refl _
      · split <;> exact le_refl _
  | nowMs => exact Nat.le_succ _
  | _ => exact le_refl _

/-- The bucket for a client that only looks. -/
def S3Storage.lookups (etagOf : Json → String) (clock : Clock) : Lookups clock where
  State := S3World
  serve op := (S3Storage.impl op).run (S3World.serve etagOf clock)
  Valid := S3World.HoldsDocuments
  entries := S3World.entries
  readings := S3World.readings
  load key hw := S3Storage.run_load_view hw key rfl
  look := by
    intro w op hw hop hother
    cases op with
    | load key => exact absurd rfl (hother key)
    | save key e cond => exact hop.elim
    | delete key cond => exact hop.elim
    | flushAll => exact hop.elim
    | _ => exact ⟨hw, rfl⟩
  later op w := Prog.run_mono S3World.readings (fun op w => S3World.readings_serve op w) _ w

end Bucket

namespace DynamoDb

variable {order : ScanOrder} {clock : Clock}

theorem readings_serve (op : DdbOp) (d : DdbWorld) :
    d.readings ≤ (DdbWorld.serve order clock op d).2.readings := by
  cases op with
  | nowMs => exact Nat.le_succ _
  | _ => exact le_refl _

/-- The tables for a client that only looks. -/
def lookups (fo : FloatOps) (order : ScanOrder) (clock : Clock) : Lookups clock where
  State := DdbWorld
  serve op := (impl fo op).run (DdbWorld.serve order clock)
  Valid d := d.tables.IsKeyspace
  entries d := d.tables.entries
  readings := DdbWorld.readings
  load key hd := run_load_view hd key rfl
  look := by
    intro d op hd hop hother
    cases op with
    | load key => exact absurd rfl (hother key)
    | save key e cond => exact hop.elim
    | delete key cond => exact hop.elim
    | flushAll => exact hop.elim
    | _ => exact ⟨hd, rfl⟩
  later op d := Prog.run_mono DdbWorld.readings (fun op d => readings_serve op d) _ d

end DynamoDb

/-- `KVStorage` on either backend, for a client that only looks. -/
def Setup.lookups (S : Setup) (clock : Clock) : BackendName → Lookups clock
  | .s3 => S3Storage.lookups S.etagOf clock
  | .dynamoDb => DynamoDb.lookups S.fo S.order clock

end RustyAnt
