import RustyAnt.Storage.Serde

/-!
# Persisted values read back

Every derived codec is faithful except that of a double: what it writes for a
double that is not finite cannot be read.  So a stored value survives the trip
through its JSON form exactly when all its scores are finite.
-/

namespace RustyAnt

section Maps

variable {α β : Type} [Ord α] [Std.TransOrd α] [Std.LawfulEqOrd α] [BEq α] [Std.LawfulBEqOrd α]

/-- Collecting a map's entries, in any order, gives the map back. -/
theorem btreeMap_ofList_perm {m : BTreeMap α β} {entries : List (α × β)}
    (h : entries.Perm m.toList) : Std.ExtTreeMap.ofList entries compare = m := by
  have hdistinct : entries.Pairwise fun a b => ¬ compare a.1 b.1 = .eq := by
    apply (h.pairwise_iff ?_).mpr Std.ExtTreeMap.distinct_keys_toList
    intro a b hab heq
    exact hab (Std.OrientedCmp.eq_symm heq)
  apply Std.ExtTreeMap.ext_getElem?
  intro k
  cases hk : m[k]? with
  | none =>
      rw [Std.ExtTreeMap.getElem?_ofList_of_contains_eq_false]
      have hkeys : ¬ k ∈ entries.map Prod.fst := by
        rw [(h.map Prod.fst).mem_iff, Std.ExtTreeMap.map_fst_toList_eq_keys]
        simpa using hk
      simpa using hkeys
  | some v =>
      exact Std.ExtTreeMap.getElem?_ofList_of_mem (k := k) Std.ReflCmp.compare_self hdistinct
        (h.mem_iff.mpr (Std.ExtTreeMap.mem_toList_iff_getElem?_eq_some.mpr hk))

theorem btreeMap_ofList_toList (m : BTreeMap α β) :
    Std.ExtTreeMap.ofList m.toList compare = m := btreeMap_ofList_perm (.refl _)

theorem btreeSet_ofList_toList (s : BTreeSet α) :
    Std.ExtTreeSet.ofList s.toList compare = s := by
  apply Std.ExtTreeSet.ext_mem
  intro k
  simp

end Maps

namespace Codec

variable {α β : Type}

theorem int_faithful : int.Faithful := fun _ => rfl

theorem string_faithful : string.Faithful := fun _ => rfl

theorem nat_faithful : nat.Faithful := by
  intro n
  simp [nat, int]

theorem byte_faithful : byte.Faithful := by
  intro b
  have hb := b.toNat_lt
  have hdec : nat.dec (.int b.toNat) = .ok b.toNat := nat_faithful b.toNat
  simp only [byte, hdec, Result.ok_bind]
  rw [if_pos hb]
  simp

theorem u64_faithful : u64.Faithful := by
  intro n
  have hn := n.toNat_lt
  have hdec : nat.dec (.int n.toNat) = .ok n.toNat := nat_faithful n.toNat
  simp only [u64, hdec, Result.ok_bind]
  rw [if_pos hn]
  simp

theorem vec_faithful {c : Codec α} (hc : c.Faithful) : (vec c).Faithful := by
  intro xs
  have h : (xs.map c.enc).mapM c.dec = .ok (xs.map id) :=
    Result.mapM_map_ok fun x _ => hc x
  simpa [vec] using h

theorem pair_faithful {c : Codec α} {d : Codec β} (hc : c.Faithful) (hd : d.Faithful) :
    (pair c d).Faithful := by
  rintro ⟨a, b⟩
  simp [pair, hc a, hd b]

theorem bytes_faithful : bytes.Faithful := vec_faithful byte_faithful

theorem map_dec_enc {c : Codec α} (m : BTreeMap String α)
    (hc : ∀ p ∈ m.toList, c.dec (c.enc p.2) = .ok p.2) :
    (map c).dec ((map c).enc m) = .ok m := by
  have h : (m.toList.map fun p : String × α => (p.1, c.enc p.2)).mapM
      (fun p => do return (p.1, ← c.dec p.2)) = (.ok (m.toList.map id) : Result _) :=
    Result.mapM_map_ok fun p hp => by simp [hc p hp]
  simp only [map, h, List.map_id, Result.ok_bind]
  exact congrArg _ (btreeMap_ofList_toList m)

theorem map_faithful {c : Codec α} (hc : c.Faithful) : (map c).Faithful :=
  fun m => map_dec_enc m fun p _ => hc p.2

theorem set_faithful : set.Faithful := by
  intro s
  have h := vec_faithful string_faithful s.toList
  simp only [vec] at h
  simp only [set, vec, h, Result.ok_bind]
  exact congrArg _ (btreeSet_ofList_toList s)

theorem streamId_faithful : streamId.Faithful := by
  rintro ⟨ms, seq⟩
  simp [streamId, required, Json.field?, List.lookup_cons, u64_faithful ms, u64_faithful seq]

theorem streamEntry_faithful : streamEntry.Faithful := by
  rintro ⟨id, fields⟩
  have hf := vec_faithful (pair_faithful string_faithful bytes_faithful) fields
  simp [streamEntry, required, Json.field?, List.lookup_cons, streamId_faithful id, hf]

theorem consumer_faithful : consumer.Faithful := by
  rintro ⟨seen⟩
  simp [consumer, required, Json.field?, int_faithful seen]

theorem pendingEntry_faithful : pendingEntry.Faithful := by
  rintro ⟨c, t, n⟩
  simp [pendingEntry, required, Json.field?, List.lookup_cons, string_faithful c,
    int_faithful t, nat_faithful n]

theorem pel_faithful : pel.Faithful := by
  intro m
  have h := vec_faithful (pair_faithful streamId_faithful pendingEntry_faithful) m.toList
  simp only [pel, h, Result.ok_bind]
  exact congrArg _ (btreeMap_ofList_toList m)

theorem consumerGroup_faithful : consumerGroup.Faithful := by
  rintro ⟨last, consumers, rows⟩
  simp [consumerGroup, required, defaulted, Json.field?, List.lookup_cons,
    streamId_faithful last, map_faithful consumer_faithful consumers, pel_faithful rows]

theorem streamValue_faithful : streamValue.Faithful := by
  rintro ⟨entries, last, deleted, added, groups⟩
  have he := vec_faithful streamEntry_faithful entries
  have hg := map_faithful consumerGroup_faithful groups
  by_cases hempty : groups.isEmpty
  · have hgroups : groups = ∅ := Std.ExtTreeMap.isEmpty_iff.mp hempty
    subst hgroups
    simp [streamValue, required, defaulted, Json.field?, List.lookup_cons, List.lookup_nil, he,
      streamId_faithful last, streamId_faithful deleted, nat_faithful added]
  · have hgroups : groups ≠ ∅ := fun h => hempty (Std.ExtTreeMap.isEmpty_iff.mpr h)
    simp [streamValue, required, defaulted, Json.field?, List.lookup_cons, he, hgroups,
      streamId_faithful last, streamId_faithful deleted, nat_faithful added, hg]

/-! ## Doubles -/

theorem f64_dec_enc (x : F64) : f64.dec (f64.enc x) = .ok x ↔ x.isFinite = true := by
  by_cases hx : x.isFinite
  · simp [f64, hx]
  · simp [f64, hx, serdeError]

/-- A sorted set that can be read at all has finite scores only. -/
theorem zset_finite_of_dec {m m' : BTreeMap String F64}
    (h : (map f64).dec ((map f64).enc m) = .ok m') : ∀ p ∈ m.toList, p.2.isFinite = true := by
  intro p hp
  simp only [map] at h
  obtain ⟨pairs, hpairs, -⟩ := Result.bind_eq_ok.mp h
  obtain ⟨y, hy⟩ := Result.mapM_ok_mem hpairs (p.1, f64.enc p.2)
    (List.mem_map.mpr ⟨p, hp, rfl⟩)
  by_contra hfin
  simp [f64, hfin, serdeError] at hy

/-- A sorted set is read back exactly when its scores are finite. -/
theorem zset_dec_enc (m : BTreeMap String F64) :
    (map f64).dec ((map f64).enc m) = .ok m ↔ ∀ p ∈ m.toList, p.2.isFinite = true :=
  ⟨zset_finite_of_dec, fun h => map_dec_enc m fun p hp => (f64_dec_enc p.2).mpr (h p hp)⟩

/-! ## Stored values -/

/-- The content of a value is read back exactly when its scores are finite. -/
theorem decodeData_valueData (v : Value) :
    decodeData (valueTag v) (valueData v) = .ok v ↔ v.scoresFinite = true := by
  cases v with
  | string d => simp [decodeData, valueTag, valueData, bytes_faithful d, Value.scoresFinite]
  | hash m =>
      simp [decodeData, valueTag, valueData, map_faithful bytes_faithful m, Value.scoresFinite]
  | list l =>
      simp [decodeData, valueTag, valueData, vec_faithful bytes_faithful l, Value.scoresFinite]
  | set s => simp [decodeData, valueTag, valueData, set_faithful s, Value.scoresFinite]
  | stream s =>
      simp [decodeData, valueTag, valueData, streamValue_faithful s, Value.scoresFinite]
  | zset m =>
      have hm := zset_dec_enc m
      simp only [Value.scoresFinite, List.all_eq_true]
      rw [← hm]
      simp only [decodeData, valueTag, valueData]
      cases hdec : (map f64).dec ((map f64).enc m) with
      | error e => simp
      | ok m' => simp

theorem scoresFinite_of_decodeData {v v' : Value}
    (h : decodeData (valueTag v) (valueData v) = .ok v') : v.scoresFinite = true := by
  cases v with
  | zset m =>
      simp only [decodeData, valueTag, valueData] at h
      obtain ⟨m', hm', -⟩ := Result.bind_eq_ok.mp h
      simp only [Value.scoresFinite, List.all_eq_true]
      exact zset_finite_of_dec hm'
  | string d => rfl
  | hash m => rfl
  | list l => rfl
  | set s => rfl
  | stream s => rfl

/-- The document of a stored value is read as far as its content is. -/
theorem storedValue_dec_eq (e : StoredValue) :
    storedValue.dec (storedValue.enc e) =
      (decodeData (valueTag e.value) (valueData e.value)).map fun v => ⟨e.expiresAtMs, v⟩ := by
  obtain ⟨exp, v⟩ := e
  cases exp with
  | none =>
      simp only [storedValue, Json.field?, List.lookup_cons, List.lookup_nil, required, string, List.nil_append]
      cases hdec : decodeData (valueTag v) (valueData v) <;> simp [hdec, Except.map]
  | some t =>
      simp only [storedValue, Json.field?, List.lookup_cons, List.lookup_nil, required, string, int, List.cons_append,
        List.nil_append]
      cases hdec : decodeData (valueTag v) (valueData v) <;> simp [hdec, Except.map]

/-- A stored value survives the trip through its JSON form exactly when all its
scores are finite. -/
theorem storedValue_dec_enc (e : StoredValue) :
    storedValue.dec (storedValue.enc e) = .ok e ↔ e.value.scoresFinite = true := by
  rw [← decodeData_valueData, storedValue_dec_eq]
  cases hdec : decodeData (valueTag e.value) (valueData e.value) with
  | error err => simp [Except.map]
  | ok v =>
      obtain ⟨exp, w⟩ := e
      simp [Except.map]

theorem storedValue_dec_ok {e e' : StoredValue}
    (h : storedValue.dec (storedValue.enc e) = .ok e') : e' = e := by
  have hfin : e.value.scoresFinite = true := by
    rw [storedValue_dec_eq] at h
    cases hdec : decodeData (valueTag e.value) (valueData e.value) with
    | error err => simp [hdec, Except.map] at h
    | ok v => exact scoresFinite_of_decodeData hdec
  rw [(storedValue_dec_enc e).mpr hfin] at h
  exact (Except.ok.inj h).symm

end Codec

end RustyAnt
