import RustyAnt.Commands.Named

/-!
# Handlers that refuse an entry

A handler parses its arguments before it asks the storage for anything, and each method
checks the kind of every entry it loads before it writes.  So a handler refuses an entry of
a kind it does not accept, at each of the keys it names.
-/

namespace RustyAnt

open Lib

namespace Commands

variable {args : List Bytes} {key : String} {e : StoredValue}

/-! ## Strings -/

section Strings

variable (fo : FloatOps) (hkind : e.kind ≠ .string)
include hkind

theorem loadStrings_refuses {keys : List String} (hmem : key ∈ keys) :
    (loadStrings keys).Refuses key e := by
  induction keys with
  | nil => exact absurd hmem List.not_mem_nil
  | cons k keys ih =>
      apply refuses_round hmem (.read _ _ _ _)
      · rintro rfl
        exact .read hkind _ _
      · intro hlater data
        exact .head (ih hlater)

theorem mergeKeys_refuses {merged : Bytes} {keys : List String} (hmem : key ∈ keys) :
    (Storage.mergeKeys merged keys).Refuses key e := by
  induction keys generalizing merged with
  | nil => exact absurd hmem List.not_mem_nil
  | cons k keys ih =>
      rcases List.mem_cons.mp hmem with rfl | hlater
      · apply KV.Refuses.loadEntry
        exact .head (.ofExcept (RefusesEntry.hllOf hkind))
      · apply KV.Refuses.after (.loadEntry k)
        intro entry
        apply KV.Refuses.parse
        intro found _
        cases found with
        | none => exact ih hlater
        | some p => exact .parse fun _ _ => ih hlater

theorem pfcount_refuses {keys : List String} (hmem : key ∈ keys) :
    (Storage.pfcount fo keys).Refuses key e := by
  unfold Storage.pfcount
  split
  · rw [List.mem_singleton.mp hmem]
    apply KV.Refuses.loadEntry
    exact .head (.ofExcept (RefusesEntry.hllOf hkind))
  · exact .head (mergeKeys_refuses hkind hmem)

theorem pfmerge_refuses {dest : String} {sources : List String} (hmem : key ∈ dest :: sources) :
    (Storage.pfmerge dest sources).Refuses key e := by
  unfold Storage.pfmerge
  rcases List.mem_cons.mp hmem with rfl | hlater
  · apply KV.Refuses.after (Storage.mergeKeys_readOnly _ _)
    intro merged
    exact .cas (.bind (.hllOf hkind))
  · exact .head (mergeKeys_refuses hkind hlater)

theorem handleGetbit_refuses (h : Named key (args.take 1)) : (handleGetbit args).Refuses key e := by
  unfold handleGetbit
  split
  · exact h.one (.parse fun _ _ => .head (.read hkind _ _))
  · exact .error _

theorem handleSetbit_refuses (h : Named key (args.take 1)) : (handleSetbit args).Refuses key e := by
  unfold handleSetbit
  split
  · exact h.one (.parse fun _ _ => .parse fun _ _ =>
      .head (.cas (.bind (.findOr hkind _))))
  · exact .error _

theorem handleBitcount_refuses (h : Named key (args.take 1)) :
    (handleBitcount args).Refuses key e := by
  unfold handleBitcount
  split
  · exact h.one (.head (.read hkind _ _))
  · split
    · exact .error _
    · exact h.one (.head (.read hkind _ _))
  · exact .error _

theorem handleBitpos_refuses (h : Named key (args.take 1)) : (handleBitpos args).Refuses key e := by
  unfold handleBitpos
  split
  · split
    · exact .error _
    · exact h.one (.parse fun _ _ => .head (.read hkind _ _))
  · exact .error _

/-- The sources come before anything is written to the destination. -/
theorem handleBitop_refuses (h : Named key (args.drop 2)) : (handleBitop args).Refuses key e := by
  unfold handleBitop
  split
  · apply KV.Refuses.parse
    intro op _
    apply KV.Refuses.parse
    intro dest _
    apply KV.Refuses.parse
    intro srcKeys hparse
    dsimp only
    split
    · exact .error _
    · exact .head (loadStrings_refuses hkind (h.mem hparse))
  · exact .error _

theorem handlePfadd_refuses (h : Named key (args.take 1)) : (handlePfadd args).Refuses key e := by
  unfold handlePfadd
  split
  · exact h.one (.head (.cas (.bind (.hllOf hkind))))
  · exact .error _

theorem handlePfcount_refuses (h : Named key args) : (handlePfcount fo args).Refuses key e := by
  unfold handlePfcount
  split
  · exact .parse fun _ hparse => .head (pfcount_refuses fo hkind (h.mem hparse))
  · exact .error _

theorem handlePfmerge_refuses (h : Named key args) : (handlePfmerge args).Refuses key e := by
  unfold handlePfmerge
  split
  · apply KV.Refuses.parse
    intro dest hdest
    apply KV.Refuses.parse
    intro sources hsources
    apply KV.Refuses.head
    apply pfmerge_refuses hkind
    rcases h.cons with hkey | hkey
    · cases hkey.symm.trans hdest
      exact List.mem_cons_self
    · exact List.mem_cons_of_mem _ (hkey.mem hsources)
  · exact .error _

theorem handleGet_refuses (h : Named key (args.take 1)) : (handleGet args).Refuses key e := by
  unfold handleGet
  split
  · exact h.one (.head (.read hkind _ _))
  · exact .error _

theorem handleGetex_refuses (h : Named key (args.take 1)) : (handleGetex args).Refuses key e := by
  unfold handleGetex
  split
  · split
    · exact .error _
    · apply h.one
      apply KV.Refuses.after (parseGetexOp_readOnly _)
      intro op
      cases op with
      | leave => exact .head (.read hkind _ _)
      | setExpireAtMs t => exact .head (.cas (.bind (.find hkind)))
      | persist => exact .head (.cas (.bind (.find hkind)))
  · exact .error _

theorem handleGetset_refuses (h : Named key (args.take 1)) : (handleGetset args).Refuses key e := by
  unfold handleGetset
  split
  · exact h.one (.head (.cas (.bind (.find hkind))))
  · exact .error _

theorem handleGetdel_refuses (h : Named key (args.take 1)) : (handleGetdel args).Refuses key e := by
  unfold handleGetdel
  split
  · exact h.one (.head (.cas (.bind (.find hkind))))
  · exact .error _

theorem handleGetrange_refuses (h : Named key (args.take 1)) :
    (handleGetrange args).Refuses key e := by
  unfold handleGetrange
  split
  · exact h.one (.parse fun _ _ => .parse fun _ _ => .head (.read hkind _ _))
  · exact .error _

theorem handleSetrange_refuses (h : Named key (args.take 1)) :
    (handleSetrange args).Refuses key e := by
  unfold handleSetrange
  split
  · exact h.one (.parse fun _ _ => .head (.cas (.bind (.findOr hkind _))))
  · exact .error _

theorem handleStrlen_refuses (h : Named key (args.take 1)) : (handleStrlen args).Refuses key e := by
  unfold handleStrlen
  split
  · exact h.one (.head (.read hkind _ _))
  · exact .error _

theorem handleLcs_refuses (h : Named key (args.take 2)) : (handleLcs args).Refuses key e := by
  unfold handleLcs
  split
  · apply h.two
    · intro keyB
      exact .parse fun _ _ => .parse fun _ _ => .head (.read hkind _ _)
    · intro keyA
      exact .parse fun _ _ => .parse fun _ _ => .after (.read _ _ _ _) fun _ =>
        .head (.read hkind _ _)
  · exact .error _

theorem handleAppend_refuses (h : Named key (args.take 1)) : (handleAppend args).Refuses key e := by
  unfold handleAppend
  split
  · exact h.one (.head (.cas (.bind (.findOr hkind _))))
  · exact .error _

theorem handleIncrby_refuses {delta : Int} (h : Named key (args.take 1)) :
    (handleIncrby delta args).Refuses key e := by
  unfold handleIncrby
  split
  · exact h.one (.head (.cas (.bind (.counterOf hkind))))
  · exact .error _

theorem handleDecrby_refuses (h : Named key (args.take 1)) : (handleDecrby args).Refuses key e := by
  unfold handleDecrby
  apply KV.Refuses.parse
  intro delta _
  split
  · exact .error _
  · exact handleIncrby_refuses hkind h

theorem handleIncrbyfloat_refuses (h : Named key (args.take 1)) :
    (handleIncrbyfloat fo args).Refuses key e := by
  unfold handleIncrbyfloat
  split
  · exact h.one (.parse fun _ _ => .head (.cas (.bind (.parseStringAsF64 fo hkind))))
  · exact .error _

end Strings

/-! ## Hashes -/

section Hashes

variable (fo : FloatOps) (hkind : e.kind ≠ .hash)
include hkind

theorem handleHset_refuses (h : Named key (args.take 1)) : (handleHset args).Refuses key e := by
  unfold handleHset
  split
  · split
    · exact .error _
    · exact h.one (.parse fun _ _ => .head (.cas (.bind (.findOr hkind _))))
  · exact .error _

theorem handleHsetnx_refuses (h : Named key (args.take 1)) : (handleHsetnx args).Refuses key e := by
  unfold handleHsetnx
  split
  · exact h.one (.parse fun _ _ => .head (.cas (.bind (.findOr hkind _))))
  · exact .error _

theorem handleHget_refuses (h : Named key (args.take 1)) : (handleHget args).Refuses key e := by
  unfold handleHget
  split
  · exact h.one (.parse fun _ _ => .head (.read hkind _ _))
  · exact .error _

theorem handleHdel_refuses (h : Named key (args.take 1)) : (handleHdel args).Refuses key e := by
  unfold handleHdel
  split
  · exact h.one (.parse fun _ _ => .head (.cas (.bind (.find hkind))))
  · exact .error _

theorem handleHgetall_refuses (h : Named key (args.take 1)) :
    (handleHgetall args).Refuses key e := by
  unfold handleHgetall
  split
  · exact h.one (.head (.read hkind _ _))
  · exact .error _

theorem handleHlen_refuses (h : Named key (args.take 1)) : (handleHlen args).Refuses key e := by
  unfold handleHlen
  split
  · exact h.one (.head (.read hkind _ _))
  · exact .error _

theorem handleHkeys_refuses (h : Named key (args.take 1)) : (handleHkeys args).Refuses key e := by
  unfold handleHkeys
  split
  · exact h.one (.head (.read hkind _ _))
  · exact .error _

theorem handleHvals_refuses (h : Named key (args.take 1)) : (handleHvals args).Refuses key e := by
  unfold handleHvals
  split
  · exact h.one (.head (.read hkind _ _))
  · exact .error _

theorem handleHexists_refuses (h : Named key (args.take 1)) :
    (handleHexists args).Refuses key e := by
  unfold handleHexists
  split
  · exact h.one (.parse fun _ _ => .head (.read hkind _ _))
  · exact .error _

theorem handleHstrlen_refuses (h : Named key (args.take 1)) :
    (handleHstrlen args).Refuses key e := by
  unfold handleHstrlen
  split
  · exact h.one (.parse fun _ _ => .head (.read hkind _ _))
  · exact .error _

theorem handleHmget_refuses (h : Named key (args.take 1)) : (handleHmget args).Refuses key e := by
  unfold handleHmget
  split
  · exact h.one (.parse fun _ _ => .head (.read hkind _ _))
  · exact .error _

theorem handleHincrby_refuses (h : Named key (args.take 1)) :
    (handleHincrby args).Refuses key e := by
  unfold handleHincrby
  split
  · exact h.one (.parse fun _ _ => .parse fun _ _ => .head (.cas (.bind (.findOr hkind _))))
  · exact .error _

theorem handleHincrbyfloat_refuses (h : Named key (args.take 1)) :
    (handleHincrbyfloat fo args).Refuses key e := by
  unfold handleHincrbyfloat
  split
  · apply h.one
    apply KV.Refuses.parse
    intro field _
    apply KV.Refuses.parse
    intro delta _
    split
    · exact .error _
    · exact .head (.cas (.bind (.findOr hkind _)))
  · exact .error _

theorem hrandfield_refuses {count : Int} {withValues : Bool} :
    (hrandfield key count withValues).Refuses key e := .parse fun _ _ => .head (.readRand hkind _ _)

theorem handleHrandfield_refuses (h : Named key (args.take 1)) :
    (handleHrandfield args).Refuses key e := by
  unfold handleHrandfield
  split
  · exact h.one (.head (.readRand hkind _ _))
  · exact h.one (.parse fun _ _ => hrandfield_refuses hkind)
  · apply h.one
    apply KV.Refuses.parse
    intro count _
    apply KV.Refuses.parse
    intro isWord _
    split
    · exact hrandfield_refuses hkind
    · exact .error _
  · exact .error _

theorem handleHscan_refuses {wild : String → String → Bool} (h : Named key (args.take 1)) :
    (handleHscan wild args).Refuses key e :=
  collectionScan_refuses h fun _ _ _ => .head (.read hkind _ _)

end Hashes

/-! ## Lists -/

section Lists

variable (hkind : e.kind ≠ .list)
include hkind

theorem handlePush_refuses {left : Bool} (h : Named key (args.take 1)) :
    (handlePush left args).Refuses key e := by
  unfold handlePush
  split
  · exact h.one (.head (.cas (.bind (.findOr hkind _))))
  · exact .error _

theorem handlePushx_refuses {left : Bool} (h : Named key (args.take 1)) :
    (handlePushx left args).Refuses key e := by
  unfold handlePushx
  split
  · exact h.one (.head (.cas (.bind (.find hkind))))
  · exact .error _

theorem handlePop_refuses {left : Bool} (h : Named key (args.take 1)) :
    (handlePop left args).Refuses key e := by
  unfold handlePop
  split
  · exact h.one (.head (.cas (.bind (.find hkind))))
  · exact h.one (.parse fun _ _ => .head (.cas (.bind (.find hkind))))
  · exact .error _

theorem handleLrange_refuses (h : Named key (args.take 1)) : (handleLrange args).Refuses key e := by
  unfold handleLrange
  split
  · exact h.one (.parse fun _ _ => .parse fun _ _ => .head (.read hkind _ _))
  · exact .error _

theorem handleLlen_refuses (h : Named key (args.take 1)) : (handleLlen args).Refuses key e := by
  unfold handleLlen
  split
  · exact h.one (.head (.read hkind _ _))
  · exact .error _

theorem handleLindex_refuses (h : Named key (args.take 1)) : (handleLindex args).Refuses key e := by
  unfold handleLindex
  split
  · exact h.one (.parse fun _ _ => .head (.read hkind _ _))
  · exact .error _

theorem handleLset_refuses (h : Named key (args.take 1)) : (handleLset args).Refuses key e := by
  unfold handleLset
  split
  · exact h.one (.parse fun _ _ => .head (.cas (.bind (.find hkind))))
  · exact .error _

theorem handleLrem_refuses (h : Named key (args.take 1)) : (handleLrem args).Refuses key e := by
  unfold handleLrem
  split
  · exact h.one (.parse fun _ _ => .head (.cas (.bind (.find hkind))))
  · exact .error _

theorem handleLinsert_refuses (h : Named key (args.take 1)) :
    (handleLinsert args).Refuses key e := by
  unfold handleLinsert
  split
  · exact h.one (.parse fun _ _ => .head (.cas (.bind (.find hkind))))
  · exact .error _

theorem handleLtrim_refuses (h : Named key (args.take 1)) : (handleLtrim args).Refuses key e := by
  unfold handleLtrim
  split
  · exact h.one (.parse fun _ _ => .parse fun _ _ => .head (.cas (.bind (.find hkind))))
  · exact .error _

/-- The destination is looked at before the pop, which looks at the source. -/
theorem listMove_refuses {source dest : String} {fromLeft toLeft : Bool}
    (hmem : key = source ∨ key = dest) :
    (Storage.listMove source dest fromLeft toLeft).Refuses key e := by
  unfold Storage.listMove
  split
  · rename_i heq
    rw [← heq, or_self] at hmem
    subst hmem
    exact .cas (.bind (.find hkind))
  · rcases hmem with rfl | rfl
    · exact .after (.loadEntry dest) fun _ => .parse fun _ _ => .head (.cas (.bind (.find hkind)))
    · apply KV.Refuses.loadEntry
      exact .head (.ofExcept (RefusesEntry.find hkind))

theorem moveElement_refuses {parsed : Result (String × String × Bool × Bool)}
    (h : ∀ source dest fromLeft toLeft, parsed = .ok (source, dest, fromLeft, toLeft) →
      key = source ∨ key = dest) : (moveElement parsed).Refuses key e := by
  apply KV.Refuses.parse
  intro move hparse
  exact .head (listMove_refuses hkind (h _ _ _ _ hparse))

theorem handleLmove_refuses (h : Named key (args.take 2)) : (handleLmove args).Refuses key e := by
  apply moveElement_refuses hkind
  intro source dest fromLeft toLeft hparse
  unfold parseLmove at hparse
  split at hparse
  · obtain ⟨source', hsource, hparse⟩ := Result.bind_eq_ok.mp hparse
    obtain ⟨dest', hdest, hparse⟩ := Result.bind_eq_ok.mp hparse
    obtain ⟨fromLeft', -, hparse⟩ := Result.bind_eq_ok.mp hparse
    obtain ⟨toLeft', -, hparse⟩ := Result.bind_eq_ok.mp hparse
    cases hparse
    exact h.either hsource hdest
  · cases hparse

theorem handleRpoplpush_refuses (h : Named key (args.take 2)) :
    (handleRpoplpush args).Refuses key e := by
  apply moveElement_refuses hkind
  intro source dest fromLeft toLeft hparse
  unfold parseRpoplpush at hparse
  split at hparse
  · obtain ⟨source', hsource, hparse⟩ := Result.bind_eq_ok.mp hparse
    obtain ⟨dest', hdest, hparse⟩ := Result.bind_eq_ok.mp hparse
    cases hparse
    exact h.either hsource hdest
  · cases hparse

theorem handleLpos_refuses (h : Named key (args.take 1)) : (handleLpos args).Refuses key e := by
  unfold handleLpos
  split
  · exact h.one (.parse fun _ _ => .head (.read hkind _ _))
  · exact .error _

end Lists

/-! ## Sets -/

section Sets

variable (hkind : e.kind ≠ .set)
include hkind

theorem handleSadd_refuses (h : Named key (args.take 1)) : (handleSadd args).Refuses key e := by
  unfold handleSadd
  split
  · exact h.one (.parse fun _ _ => .head (.cas (.bind (.findOr hkind _))))
  · exact .error _

theorem handleSrem_refuses (h : Named key (args.take 1)) : (handleSrem args).Refuses key e := by
  unfold handleSrem
  split
  · exact h.one (.parse fun _ _ => .head (.cas (.bind (.find hkind))))
  · exact .error _

theorem handleSmembers_refuses (h : Named key (args.take 1)) :
    (handleSmembers args).Refuses key e := by
  unfold handleSmembers
  split
  · exact h.one (.head (.read hkind _ _))
  · exact .error _

theorem handleSismember_refuses (h : Named key (args.take 1)) :
    (handleSismember args).Refuses key e := by
  unfold handleSismember
  split
  · exact h.one (.parse fun _ _ => .head (.read hkind _ _))
  · exact .error _

theorem handleSmismember_refuses (h : Named key (args.take 1)) :
    (handleSmismember args).Refuses key e := by
  unfold handleSmismember
  split
  · exact h.one (.parse fun _ _ => .head (.read hkind _ _))
  · exact .error _

theorem handleScard_refuses (h : Named key (args.take 1)) : (handleScard args).Refuses key e := by
  unfold handleScard
  split
  · exact h.one (.head (.read hkind _ _))
  · exact .error _

theorem loadSetsSeq_refuses {keys : List String} (hmem : key ∈ keys) :
    (Storage.loadSetsSeq keys).Refuses key e := by
  induction keys with
  | nil => exact absurd hmem List.not_mem_nil
  | cons k keys ih =>
      apply refuses_round hmem (.read _ _ _ _)
      · rintro rfl
        exact .read hkind _ _
      · intro hlater members
        exact .head (ih hlater)

theorem compute_refuses {op : SetOp} {keys : List String} (hmem : key ∈ keys) :
    (op.compute keys).Refuses key e := by
  cases op with
  | inter => exact .head (loadSetsSeq_refuses hkind hmem)
  | union => exact .head (loadSetsSeq_refuses hkind hmem)
  | diff => exact .head (loadSetsSeq_refuses hkind hmem)

theorem handleSetAlgebra_refuses {op : SetOp} (h : Named key args) :
    (handleSetAlgebra op args).Refuses key e := by
  unfold handleSetAlgebra
  split
  · exact .error _
  · exact .parse fun _ hparse => .head (compute_refuses hkind (h.mem hparse))

theorem handleSintercard_refuses (h : Named key (numkeysArgs args)) :
    (handleSintercard args).Refuses key e := by
  unfold handleSintercard
  split
  · exact .error _
  · exact numkeys_refuses h fun keys tail hmem => .parse fun _ _ =>
      .head (.head (loadSetsSeq_refuses hkind hmem))

/-- The sources come before anything is written to the destination. -/
theorem handleSstore_refuses {op : SetOp} (h : Named key (args.drop 1)) :
    (handleSstore op args).Refuses key e := by
  unfold handleSstore
  split
  · exact .parse fun _ _ => .parse fun _ hparse => .head (compute_refuses hkind (h.mem hparse))
  · exact .error _

theorem handleSmove_refuses (h : Named key (args.take 2)) : (handleSmove args).Refuses key e := by
  unfold handleSmove
  split
  · apply h.two
    · intro destination
      apply KV.Refuses.parse
      intro member _
      apply KV.Refuses.after (kind_readOnly destination)
      intro kind
      split
      · exact .head (.read hkind _ _)
      · exact .head (.read hkind _ _)
      · exact .error _
    · intro source
      apply KV.Refuses.parse
      intro member _
      apply kind_refuses
      have hstr : e.kind.asStr ≠ "set" := fun heq => hkind (ValueKind.asStr_injective heq)
      split
      · rename_i hset
        exact absurd (Option.some.inj hset) hstr
      · rename_i hnone
        cases hnone
      · exact .error _
  · exact .error _

theorem handleSpop_refuses (h : Named key (args.take 1)) : (handleSpop args).Refuses key e := by
  have hspop : ∀ count, (Storage.spop key count).Refuses key e := by
    intro count
    unfold Storage.spop
    split
    · exact .read hkind _ _
    · exact .casWith .nanos fun _ => .bind (.find hkind)
  unfold handleSpop
  split
  · exact h.one (.head (hspop 1))
  · exact h.one (.parse fun count _ => .head (hspop count))
  · exact .error _

theorem handleSrandmember_refuses (h : Named key (args.take 1)) :
    (handleSrandmember args).Refuses key e := by
  unfold handleSrandmember
  split
  · exact h.one (.head (.readRand hkind _ _))
  · exact h.one (.parse fun _ _ => .parse fun _ _ => .head (.readRand hkind _ _))
  · exact .error _

theorem handleSscan_refuses {x : Externs} (h : Named key (args.take 1)) :
    (handleSscan x args).Refuses key e :=
  collectionScan_refuses h fun _ _ _ => .head (.read hkind _ _)

end Sets

end Commands

end RustyAnt
