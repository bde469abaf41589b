import RustyAnt.Commands.ZSets
import RustyAnt.DynamoDb.Kept

/-!
# What is saved is read back

Between a save and a later load of the key lies whatever leaves the key alone.  The load gives
the entry back exactly when the entry holds no score that JSON has no number for.
-/

namespace RustyAnt

open Lib

/-- The document of an entry is read as that entry, or not at all. -/
theorem Codec.storedValue_dec_cases (e : StoredValue) :
    (storedValue.dec (storedValue.enc e) = .ok e ∧ e.value.scoresFinite = true) ∨
      ∃ err, storedValue.dec (storedValue.enc e) = .error err ∧ e.value.scoresFinite = false := by
  by_cases hfinite : e.value.scoresFinite = true
  · exact .inl ⟨(storedValue_dec_enc e).mpr hfinite, hfinite⟩
  · right
    cases hdec : storedValue.dec (storedValue.enc e) with
    | error err => exact ⟨err, rfl, Bool.not_eq_true _ ▸ hfinite⟩
    | ok e' =>
        rw [storedValue_dec_ok hdec] at hdec
        exact absurd ((storedValue_dec_enc e).mp hdec) hfinite

namespace S3Storage

variable {etagOf : Json → String} {clock : Clock} {key : String} {e : StoredValue}

theorem save_stores {cond : WriteCondition} {w saved : S3World}
    (h : (save key e cond).run (S3World.serve etagOf clock) w = (.ok (), saved)) :
    saved.objects[key]? =
      some ⟨Codec.storedValue.enc e, etagOf (Codec.storedValue.enc e)⟩ := by
  have hput : (S3World.serve etagOf clock (.putObject key (Codec.storedValue.enc e) cond) w) =
      (.ok S3Outcome.done, saved) := by
    rw [run_save] at h
    generalize S3World.serve etagOf clock _ w = put at h
    obtain ⟨answer, w'⟩ := put
    have hstate := congrArg Prod.snd h
    dsimp only at hstate
    subst hstate
    cases answer with
    | error err => cases h
    | ok out =>
        cases out with
        | done => rfl
        | preconditionFailed => cases h
  have hsaved : saved = ⟨w.objects.insert key
      ⟨Codec.storedValue.enc e, etagOf (Codec.storedValue.enc e)⟩, w.readings⟩ := by
    unfold S3World.serve at hput
    dsimp only at hput
    split at hput
    · exact (congrArg Prod.snd hput).symm
    · exact (congrArg Prod.snd hput).symm
    · cases congrArg Prod.fst hput
    · cases congrArg Prod.fst hput
    · split at hput
      · exact (congrArg Prod.snd hput).symm
      · cases congrArg Prod.fst hput
  rw [hsaved]
  exact Std.ExtTreeMap.getElem?_insert_self

theorem load_saved_iff {w : S3World} {etag : String}
    (hobj : w.objects[key]? = some ⟨Codec.storedValue.enc e, etag⟩)
    (hlive : e.isExpired (clock.now w.readings) = false) :
    (∃ token, ((load key).run (S3World.serve etagOf clock) w).1 = .ok (some (e, token))) ↔
      e.value.scoresFinite = true := by
  rw [run_load, hobj]
  dsimp only
  rcases Codec.storedValue_dec_cases e with ⟨hdec, hfinite⟩ | ⟨err, hdec, hfinite⟩
  · rw [hdec]
    dsimp only
    rw [hlive]
    exact iff_of_true ⟨etag, rfl⟩ hfinite
  · rw [hdec, hfinite]
    exact iff_of_false nofun Bool.false_ne_true

end S3Storage

namespace DynamoDb

variable {fo : FloatOps} {order : ScanOrder} {clock : Clock} {key : String} {e : StoredValue}

theorem save_stores {cond : WriteCondition} {d saved : DdbWorld}
    (h : (save fo key e cond).run (DdbWorld.serve order clock) d = (.ok (), saved)) :
    StoresAt saved.tables key e := by
  unfold save at h
  dsimp only at h
  split at h
  · cases congrArg Prod.fst h
  · obtain ⟨nanos, d₁, -, h⟩ := Prog.run_bind_ok _ h
    obtain ⟨observed, d₂, -, h⟩ := Prog.run_bind_ok _ h
    split at h
    · cases congrArg Prod.fst h
    · obtain ⟨old, d₃, -, h⟩ := Prog.run_bind_ok _ h
      rw [run_sendTransact] at h
      split at h
      · have hstate := congrArg Prod.snd h
        dsimp only at hstate
        rw [← hstate]
        exact (written_saveItems _ _ _ _ _ _).2.1
      · cases congrArg Prod.fst h

theorem load_saved_iff {d : DdbWorld} (hstored : StoresAt d.tables key e)
    (hlive : e.isExpired (clock.now d.readings) = false) :
    (∃ token, ((load key).run (DdbWorld.serve order clock) d).1 = .ok (some (e, token))) ↔
      e.value.scoresFinite = true := by
  obtain ⟨hidx, version, hrow⟩ := hstored
  have hobs : Observes d.tables key (some e.kind) := ⟨_, hidx⟩
  unfold load
  rw [Prog.bind_eq, Prog.run_bind, run_readIndexKind_of_observes order clock hobs]
  dsimp only
  rw [run_getOne, hrow]
  dsimp only
  rcases Codec.storedValue_dec_cases e with ⟨hdec, hfinite⟩ | ⟨err, hdec, hfinite⟩
  · rw [hdec]
    dsimp only
    rw [hlive]
    exact iff_of_true ⟨_, rfl⟩ hfinite
  · rw [hdec, hfinite]
    exact iff_of_false nofun Bool.false_ne_true

end DynamoDb

namespace Commands

/-- On both backends, whatever else has happened to the other keys since the save. -/
theorem saved_reads_back_iff (fo : FloatOps) (order : ScanOrder) (etagOf : Json → String)
    (clock : Clock) (key : String) (entry : StoredValue) (cond : WriteCondition) :
    (∀ w saved later : S3World,
      (S3Storage.save key entry cond).run (S3World.serve etagOf clock) w = (.ok (), saved) →
      later.objects[key]? = saved.objects[key]? →
      entry.isExpired (clock.now later.readings) = false →
      ((∃ token, ((S3Storage.load key).run (S3World.serve etagOf clock) later).1 =
        .ok (some (entry, token))) ↔ entry.value.scoresFinite = true)) ∧
    ∀ d saved later : DdbWorld,
      (DynamoDb.save fo key entry cond).run (DdbWorld.serve order clock) d = (.ok (), saved) →
      saved.tables.SameAt later.tables key →
      entry.isExpired (clock.now later.readings) = false →
      ((∃ token, ((DynamoDb.load key).run (DdbWorld.serve order clock) later).1 =
        .ok (some (entry, token))) ↔ entry.value.scoresFinite = true) := by
  constructor
  · intro w saved later hsave hsame hlive
    exact S3Storage.load_saved_iff (hsame.trans (S3Storage.save_stores hsave)) hlive
  · intro d saved later hsave hsame hlive
    exact DynamoDb.load_saved_iff ((DynamoDb.save_stores hsave).of_same hsame) hlive

namespace InfiniteScore

def clock : Clock := ⟨fun _ => 0, 0⟩

def serve := S3World.serve (fun _ => "etag") clock

/-- `ZADD k inf m` on an empty bucket. -/
def added : Result RespReply × S3World :=
  ((handleZadd .integral [[107], [105, 110, 102], [109]]).interp S3Storage.impl).run serve ⟨∅, 0⟩

def entry : StoredValue := ⟨none, .zset {("m", .infinity)}⟩

/-- What `RPUSH k a` saves. -/
def readable : StoredValue := ⟨none, .list [[97]]⟩

def saved : S3World := ⟨{("k", ⟨Codec.storedValue.enc readable, "etag"⟩)}, 0⟩

end InfiniteScore

open InfiniteScore in
/-- The command succeeds and has saved its entry, and no load of the key succeeds after it. -/
theorem zadd_infinity_unreadable :
    added.1.isOk = true ∧
      added.2.objects["k"]?.map S3Object.body = some (Codec.storedValue.enc entry) ∧
      ((S3Storage.load "k").run serve added.2).1.isOk = false := by
  refine ⟨by decide +kernel, rfl, by decide +kernel⟩

open InfiniteScore in
theorem saved_reads_back_iff_on_readable :
    ∃ token, ((S3Storage.load "k").run serve saved).1 = .ok (some (readable, token)) := by
  have hboth := saved_reads_back_iff .integral ⟨id, fun _ => .rfl⟩ (fun _ => "etag") clock "k"
    readable .any
  have hsave : (S3Storage.save "k" readable .any).run serve ⟨∅, 0⟩ = (.ok (), saved) := rfl
  exact (hboth.1 ⟨∅, 0⟩ saved saved hsave rfl rfl).mpr rfl

end Commands

end RustyAnt
