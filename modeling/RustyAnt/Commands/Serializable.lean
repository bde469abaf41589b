import RustyAnt.Commands.OneCall
import RustyAnt.DynamoDb.Serializable
import RustyAnt.S3.Refinement

/-!
# Commands are serializable

Clients that send commands about one key each, at the same time and to the same bucket or the
same tables, get the replies and leave the entries of a run in which the commands are carried out
one after the other.
-/

namespace RustyAnt

open Lib

namespace Commands

section Theorems

variable {ι : Type} [DecidableEq ι]

/-- On S3.  A command that is not in the order has changed nothing: it has not ended, it has
failed, or it was answered before it had asked for anything. -/
theorem s3_commands_serializable (x : Process) (content : String → StoredValue)
    (gone : String → Bool) (tokens : ι → List Bytes) (hkey : ∀ i, AboutOneKey (tokens i))
    (b : Bucket) (evs : List (S3Event ι))
    (d : Pool S3Op S3Op.Res RustyAntError Bucket fun _ => RespReply)
    (hrun : Pool.Run s3Service (S3Storage.compiled (fun i => run x (tokens i)) b) evs d)
    (htagged : ∀ ev ∈ evs, S3Storage.Tagged content ev.before ∧ S3Storage.Tagged content ev.after)
    (htimely : S3Storage.Timely content gone evs)
    (hspares : ∀ i, S3Storage.Spares content gone (evs.filter fun ev => ev.who = i)) :
    ∃ order e, Pool.Serial (lapsingService content gone)
        ⟨S3Storage.view content gone b, fun i => run x (tokens i)⟩ order e ∧
      e.state = S3Storage.view content gone d.state ∧ order.Sublist (evs.map Event.who) ∧
      (∀ i ∈ order, ∀ r, d.prog i = .done r ↔ e.prog i = .done r) ∧
      ∀ i, i ∉ order → ∀ r, d.prog i = .done r →
        (∃ err, r = .error err) ∨ run x (tokens i) = .done r :=
  S3Storage.calls_serial content gone _ (fun i => run_oneCall x (hkey i)) b evs d hrun htagged
    htimely hspares

/-- On the tables, where an entry over the item limit is refused before anything is sent. -/
theorem ddb_commands_serializable (x : Process) (kinds : String → ValueKind)
    (content : String → StoredValue) (gone : String → Bool)
    (hgone : ∀ token, gone token = false → ∃ k v, token = DynamoDb.encodeToken k v)
    (tokens : ι → List Bytes) (hkey : ∀ i, AboutOneKey (tokens i)) (t : Tables) (ht : t.Agree)
    (evs : List (DynamoDb.DdbEvent ι))
    (d : Pool DdbOp DdbOp.Res RustyAntError Tables fun _ => RespReply)
    (hrun : Pool.Run ddbService
      (DynamoDb.compiled x.externs.fo (fun i => run x (tokens i)) t) evs d)
    (hsettled : ∀ ev ∈ evs,
      DynamoDb.Settled kinds content ev.before ∧ DynamoDb.Settled kinds content ev.after)
    (htimely : DynamoDb.Timely content gone evs) :
    ∃ order e, Pool.Serial (lapsingService content gone)
        ⟨DynamoDb.view content gone t, fun i =>
          (run x (tokens i)).resolve (DynamoDb.tooLarge x.externs.fo)⟩ order e ∧
      e.state = DynamoDb.view content gone d.state ∧ order.Sublist (evs.map Event.who) ∧
      (∀ i ∈ order, ∀ r, d.prog i = .done r ↔ e.prog i = .done r) ∧
      ∀ i, i ∉ order → ∀ r, d.prog i = .done r →
        (∃ err, r = .error err) ∨
          (run x (tokens i)).resolve (DynamoDb.tooLarge x.externs.fo) = .done r :=
  DynamoDb.calls_serial x.externs.fo kinds content gone hgone _ (fun i => run_oneCall x (hkey i)) t
    ht evs d hrun hsettled htimely

end Theorems

/-! ## `INCR k` beside `INCRBY k 2` -/

namespace TwoCounters

def process : Process where
  externs := ⟨.integral, fun _ _ => true⟩
  libm := ⟨fun _ _ _ => .zero, id, id, id, id, id, fun _ => id, fun _ _ => [], fun _ _ => ""⟩
  info := ⟨1, 0⟩

def tokens (i : Fin 2) : List Bytes :=
  if i = 0 then ["INCR", "k"].map Rdb.asBytes else ["incrby", "k", "2"].map Rdb.asBytes

theorem tokens_oneKey (i : Fin 2) : AboutOneKey (tokens i) := by
  have hincr : commandName (Rdb.asBytes "INCR") = .ok "INCR" := by decide +kernel
  have hincrby : commandName (Rdb.asBytes "incrby") = .ok "INCRBY" := by decide +kernel
  intro cmdBytes args cmd htokens hname
  unfold tokens at htokens
  split at htokens
  · obtain ⟨rfl, -⟩ := List.cons.inj htokens
    cases hincr.symm.trans hname
    decide
  · obtain ⟨rfl, -⟩ := List.cons.inj htokens
    cases hincrby.symm.trans hname
    decide

def integerOf : RespReply → Option Int
  | .integer n => some n
  | _ => none

/-- The bucket and the clients after both have read nothing, the first one's create has won and
the second one has read again. -/
def onS3 : Pool S3Op S3Op.Res RustyAntError Bucket (fun _ : Fin 2 => RespReply) :=
  Pool.exec (S3Storage.still TwoIncrements.content TwoIncrements.tokenOf) [0, 1, 0, 1, 1, 1, 1]
    (S3Storage.compiled (fun i => run process (tokens i)) S3Storage.TwoIncrementsOnS3.empty)

open S3Storage.TwoIncrementsOnS3 in
theorem s3_commands_serializable_on_twoCounters :
    ∃ evs, Pool.Run s3Service (S3Storage.compiled (fun i => run process (tokens i)) empty) evs
        onS3 ∧
      (onS3.prog 0).returned.bind integerOf = some 1 ∧
      (onS3.prog 1).returned.bind integerOf = some 3 ∧
      ∃ order e, Pool.Serial (lapsingService TwoIncrements.content goneNow)
          ⟨S3Storage.view TwoIncrements.content goneNow empty, fun i => run process (tokens i)⟩
          order e ∧
        e.state = S3Storage.view TwoIncrements.content goneNow onS3.state ∧
        order.Sublist (evs.map Event.who) ∧
        ∀ i ∈ order, ∀ r, onS3.prog i = .done r ↔ e.prog i = .done r := by
  obtain ⟨evs, hrun, htagged, htimely, hspares⟩ :=
    orderly_run (fun i => run process (tokens i)) [0, 1, 0, 1, 1, 1, 1]
  obtain ⟨order, e, hserial, hstate, hsub, hin, -⟩ := s3_commands_serializable process
    TwoIncrements.content goneNow tokens tokens_oneKey empty evs onS3 hrun htagged htimely hspares
  exact ⟨evs, hrun, by decide +kernel, by decide +kernel, order, e, hserial, hstate, hsub, hin⟩

/-- The tables and the clients after the same. -/
def onTables : Pool DdbOp DdbOp.Res RustyAntError Tables (fun _ : Fin 2 => RespReply) :=
  DynamoDb.TwoIncrementsOnTables.twoPhases (fun i => run process (tokens i)) [0, 1, 0, 0, 0]
    [1, 1, 1, 1, 1, 1, 1]

open DynamoDb.TwoIncrementsOnTables in
theorem ddb_commands_serializable_on_twoCounters :
    ∃ evs, Pool.Run ddbService
        (DynamoDb.compiled .integral (fun i => run process (tokens i)) Tables.empty) evs onTables ∧
      (onTables.prog 0).returned.bind integerOf = some 1 ∧
      (onTables.prog 1).returned.bind integerOf = some 3 ∧
      ∃ order e, Pool.Serial (lapsingService content gone)
          ⟨DynamoDb.view content gone Tables.empty, fun i =>
            (run process (tokens i)).resolve (DynamoDb.tooLarge .integral)⟩ order e ∧
        e.state = DynamoDb.view content gone onTables.state ∧
        order.Sublist (evs.map Event.who) ∧
        ∀ i ∈ order, ∀ r, onTables.prog i = .done r ↔ e.prog i = .done r := by
  obtain ⟨evs, hrun, hsettled, htimely⟩ := settled_start (fun i => run process (tokens i))
    [0, 1, 0, 0, 0] [1, 1, 1, 1, 1, 1, 1]
  obtain ⟨order, e, hserial, hstate, hsub, hin, -⟩ := ddb_commands_serializable process kinds
    content gone token_of_not_gone tokens tokens_oneKey Tables.empty Tables.agree_empty evs onTables
    hrun hsettled htimely
  exact ⟨evs, hrun, by decide +kernel, by decide +kernel, order, e, hserial, hstate, hsub, hin⟩

end TwoCounters

end Commands

end RustyAnt
