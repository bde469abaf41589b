import RustyAnt.DynamoDb.Agreement

/-!
# What a transaction does at its key

The tokens that name a row, and the rows of a key after each of the three
transactions.
-/

namespace RustyAnt

open Lib

/-! ## Version tokens -/

namespace DynamoDb

theorem parseKind_asStr (k : ValueKind) : parseKind k.asStr = .ok k := by
  cases k <;> rfl

theorem splitOnce_append {pre : String} (post : String) (h : ':' ∉ pre.toList) :
    splitOnce (pre ++ ":" ++ post) = some (pre, post) := by
  have hspan : (pre ++ ":" ++ post).toList.span (· ≠ ':') = (pre.toList, ':' :: post.toList) := by
    rw [List.span_eq_takeWhile_dropWhile, String.toList_append, String.toList_append,
      List.append_assoc]
    have hpre : ∀ c ∈ pre.toList, decide (c ≠ ':') = true := by
      intro c hc
      have hne : c ≠ ':' := fun heq => h (heq ▸ hc)
      exact decide_eq_true hne
    rw [List.takeWhile_append_of_pos hpre, List.dropWhile_append_of_pos hpre]
    simp
  unfold splitOnce
  rw [hspan]
  simp

theorem parseToken_encodeToken (k : ValueKind) (version : String) :
    parseToken (encodeToken k version) = .ok (k, version) := by
  have hcolon : ':' ∉ k.asStr.toList := by
    cases k <;> decide
  rw [parseToken, encodeToken, splitOnce_append version hcolon]
  simp [parseKind_asStr]

end DynamoDb

/-! ## Transactions at their key -/

namespace Tables

open DynamoDb TransactItem

theorem applyAll_saveItems_index (t : Tables) (key : String) (entry : StoredValue) (body : Json)
    (version : String) (old : Option String) (observed : Option ValueKind) :
    (t.applyAll (saveItems key entry body version old observed)).index[key]? =
      some ⟨entry.kind.asStr, ttlOf entry⟩ := by
  cases observed with
  | none => simp [saveItems, applyAll, apply]
  | some k => by_cases hk : k = entry.kind <;> simp [saveItems, applyAll, apply, hk]

theorem applyAll_saveItems_data (t : Tables) (key : String) (entry : StoredValue) (body : Json)
    (version : String) (old : Option String) (observed : Option ValueKind) (k : ValueKind) :
    ((t.applyAll (saveItems key entry body version old observed)).data k)[key]? =
      if k = entry.kind then some ⟨body, version, ttlOf entry⟩
      else if observed = some k then none
      else (t.data k)[key]? := by
  by_cases hk : k = entry.kind
  · subst hk
    cases observed with
    | none => simp [saveItems, applyAll, apply]
    | some k₀ =>
        by_cases hk₀ : k₀ = entry.kind
        · simp [saveItems, applyAll, apply, hk₀]
        · simp [saveItems, applyAll, apply, hk₀, Function.update_of_ne (Ne.symm hk₀)]
  · cases observed with
    | none => simp [saveItems, applyAll, apply, hk]
    | some k₀ =>
        by_cases hk₀ : k₀ = entry.kind
        · simp [saveItems, applyAll, apply, hk₀, hk, Ne.symm hk]
        · by_cases hkk : k₀ = k
          · simp [saveItems, applyAll, apply, hkk, hk]
          · simp [saveItems, applyAll, apply, hk₀, hkk, hk,
              Function.update_of_ne (Ne.symm hkk)]

theorem applyAll_deleteAnyItems (t : Tables) (key : String) (kind : ValueKind) :
    (t.applyAll (deleteAnyItems key kind)).index[key]? = none ∧
      ∀ k, ((t.applyAll (deleteAnyItems key kind)).data k)[key]? =
        if k = kind then none else (t.data k)[key]? := by
  refine ⟨by simp [deleteAnyItems, applyAll, apply], fun k => ?_⟩
  by_cases hk : k = kind
  · subst hk
    simp [deleteAnyItems, applyAll, apply]
  · simp [deleteAnyItems, applyAll, apply, hk]

theorem applyAll_deleteIfMatchItems (t : Tables) (key : String) (kind : ValueKind)
    (version : String) :
    t.applyAll (deleteIfMatchItems key kind version) = t.applyAll (deleteAnyItems key kind) := rfl

end Tables

namespace DynamoDb

/-- The version an index row of kind `observed` stands with. -/
def Observes (t : Tables) (key : String) : Option ValueKind → Prop
  | none => t.index[key]? = none
  | some k => ∃ ttl, t.index[key]? = some ⟨k.asStr, ttl⟩

theorem saveItems_hold {t : Tables} {key : String} {e : StoredValue} {body : Json}
    {version : String} {old : Option String} {observed : Option ValueKind}
    (hold : ∀ v, old = some v → ∃ row, (t.data e.kind)[key]? = some row ∧ row.version = v)
    (hobs : Observes t key observed) :
    (saveItems key e body version old observed).all (TransactItem.holds t) = true := by
  have hdata : TransactItem.versionIs (t.data e.kind)[key]? old = true := by
    cases old with
    | none => rfl
    | some v =>
        obtain ⟨row, hrow, hver⟩ := hold v rfl
        simp [TransactItem.versionIs, hrow, hver]
  cases observed with
  | none =>
      have hidx : t.index.contains key = false := by
        rw [Std.ExtTreeMap.contains_eq_isSome_getElem?, show t.index[key]? = none from hobs]
        rfl
      simp [saveItems, TransactItem.holds, hdata, hidx]
  | some k =>
      obtain ⟨ttl, hidx⟩ := hobs
      by_cases hk : k = e.kind <;>
        simp_all [saveItems, TransactItem.holds, TransactItem.kindIs, TransactItem.versionIs]

end DynamoDb

end RustyAnt
