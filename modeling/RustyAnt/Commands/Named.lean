import RustyAnt.Commands.Writers
import RustyAnt.Storage.Refusal

/-!
# The keys that a command names

Where the keys of a command stand among its arguments, and that its parser finds the same
ones.
-/

namespace RustyAnt

open Lib

namespace Commands

def Named (key : String) (args : List Bytes) : Prop := ∃ arg ∈ args, argAsStr arg = .ok key

namespace Named

variable {key : String} {arg : Bytes} {args : List Bytes}

theorem single (h : Named key [arg]) : argAsStr arg = .ok key := by
  obtain ⟨a, ha, hkey⟩ := h
  rw [List.mem_singleton.mp ha] at hkey
  exact hkey

theorem cons (h : Named key (arg :: args)) : argAsStr arg = .ok key ∨ Named key args := by
  obtain ⟨a, ha, hkey⟩ := h
  rcases List.mem_cons.mp ha with rfl | hrest
  · exact .inl hkey
  · exact .inr ⟨a, hrest, hkey⟩

theorem not_nil : ¬ Named key [] := fun ⟨_, ha, _⟩ => List.not_mem_nil ha

theorem mem {texts : List String} (h : Named key args) (hparse : argsAsStrings args = .ok texts) :
    key ∈ texts := by
  induction args generalizing texts with
  | nil => exact absurd h not_nil
  | cons arg args ih =>
      unfold argsAsStrings at hparse
      rw [List.mapM_cons] at hparse
      obtain ⟨text, htext, hparse⟩ := Result.bind_eq_ok.mp hparse
      obtain ⟨rest, hrest, hparse⟩ := Result.bind_eq_ok.mp hparse
      cases hparse
      rcases h.cons with hkey | hkey
      · rw [htext] at hkey
        cases hkey
        exact List.mem_cons_self
      · exact List.mem_cons_of_mem _ (ih hkey hrest)

theorem either {other : Bytes} {first second : String} (h : Named key [arg, other])
    (hfirst : argAsStr arg = .ok first) (hsecond : argAsStr other = .ok second) :
    key = first ∨ key = second := by
  rcases h.cons with hkey | hkey
  · cases hkey.symm.trans hfirst
    exact .inl rfl
  · cases hkey.single.symm.trans hsecond
    exact .inr rfl

theorem one {β : Type} {e : StoredValue} {f : String → KV β} (h : Named key [arg])
    (hf : (f key).Refuses key e) : KV.Refuses key e ((Prog.ofExcept (argAsStr arg)).bind f) := by
  rw [h.single]
  exact hf

/-- The arguments of two keys, of which one holds the entry. -/
theorem two {β : Type} {e : StoredValue} {dst : Bytes} {f : String → String → KV β}
    (h : Named key [arg, dst]) (hsrc : ∀ other, (f key other).Refuses key e)
    (hdst : ∀ other, (f other key).Refuses key e) :
    KV.Refuses key e ((Prog.ofExcept (argAsStr arg)).bind fun a =>
      (Prog.ofExcept (argAsStr dst)).bind fun b => f a b) := by
  rcases h.cons with hkey | hkey
  · rw [hkey]
    show KV.Refuses key e ((Prog.ofExcept (argAsStr dst)).bind fun b => f key b)
    exact .parse fun other _ => hsrc other
  · exact .parse fun other _ => hkey.one (hdst other)

end Named

theorem refuses_round {α β : Type} {key k : String} {ks : List String} {e : StoredValue} {p : KV α}
    {f : α → KV β} (hmem : key ∈ k :: ks) (hread : p.ReadOnly)
    (hfirst : k = key → p.Refuses key e) (hrest : key ∈ ks → ∀ a, (f a).Refuses key e) :
    KV.Refuses key e (p.bind f) := by
  rcases List.mem_cons.mp hmem with hhere | hlater
  · exact .head (hfirst hhere.symm)
  · exact .after hread (hrest hlater)

/-- The arguments that `numkeys key [key ...]` names. -/
def numkeysArgs : List Bytes → List Bytes
  | [] => []
  | numkeys :: rest =>
      match parseI64 numkeys "numkeys" with
      | .ok n => rest.take n.toNat
      | .error _ => []

/-- The keys of a `STREAMS` clause. -/
def streamsArgs (args : List Bytes) : List Bytes :=
  match parseXreadOpts args none with
  | .ok (_, rest) => rest.take (rest.length / 2)
  | .error _ => []

/-- The key after a subcommand, `HELP` aside. -/
def subcommandArgs : List Bytes → List Bytes
  | sub :: key :: _ => if optionWord sub = .ok "HELP" then [] else [key]
  | _ => []

section Arguments

variable {β : Type} {args : List Bytes} {key : String} {e : StoredValue}

theorem numkeys_refuses {tooFew : RustyAntError} {numkeys : Bytes} {rest : List Bytes}
    {f : List String × List Bytes → KV β} (h : Named key (numkeysArgs (numkeys :: rest)))
    (hf : ∀ keys tail, key ∈ keys → (f (keys, tail)).Refuses key e) :
    KV.Refuses key e ((Prog.ofExcept (parseNumkeys tooFew numkeys rest)).bind f) := by
  apply KV.Refuses.parse
  intro parsed hparse
  unfold parseNumkeys at hparse
  obtain ⟨n, hn, hparse⟩ := Result.bind_eq_ok.mp hparse
  unfold numkeysArgs at h
  dsimp only at h
  rw [hn] at h
  split at hparse
  · cases hparse
  · split at hparse
    · cases hparse
    · obtain ⟨keys, hkeys, hparse⟩ := Result.bind_eq_ok.mp hparse
      cases hparse
      exact hf keys _ (h.mem hkeys)

theorem collectionScan_refuses {cmd : String}
    {f : String × UInt64 × Option String × Nat → KV β} (h : Named key (args.take 1))
    (hf : ∀ cursor pattern count, (f (key, cursor, pattern, count)).Refuses key e) :
    KV.Refuses key e ((Prog.ofExcept (parseCollectionScan cmd args)).bind f) := by
  apply KV.Refuses.parse
  intro parsed hparse
  unfold parseCollectionScan at hparse
  split at hparse
  · obtain ⟨key', hkey, hparse⟩ := Result.bind_eq_ok.mp hparse
    obtain ⟨cursor, -, hparse⟩ := Result.bind_eq_ok.mp hparse
    obtain ⟨⟨pattern, count⟩, -, hparse⟩ := Result.bind_eq_ok.mp hparse
    cases hparse
    cases (Named.single h).symm.trans hkey
    exact hf cursor pattern count
  · cases hparse

theorem parseZadd_key {fo : FloatOps} {key' : String} {flags : ZAddFlags} {incr : Bool}
    {pairs : List (F64 × String)} (h : Named key (args.take 1))
    (hparse : parseZadd fo args = .ok (key', flags, incr, pairs)) : key' = key := by
  unfold parseZadd at hparse
  split at hparse
  · obtain ⟨key'', hkey, hparse⟩ := Result.bind_eq_ok.mp hparse
    obtain ⟨⟨⟨flags', incr'⟩, remaining⟩, -, hparse⟩ := Result.bind_eq_ok.mp hparse
    dsimp only at hparse
    cases (Named.single h).symm.trans hkey
    split at hparse
    · cases hparse
    · split at hparse
      · cases hparse
      · split at hparse
        · cases hparse
        · split at hparse
          · cases hparse
          · obtain ⟨pairs', -, hparse⟩ := Result.bind_eq_ok.mp hparse
            cases hparse
            rfl
  · cases hparse

theorem parseWeightsAggregate_length {fo : FloatOps} {n : Nat} :
    ∀ (skip : Nat) (left : List Bytes) (acc : List F64 × Aggregate) {out : List F64 × Aggregate},
      acc.1.length = n → parseWeightsAggregate fo n skip left acc = .ok out → out.1.length = n
  | _, [], acc, out, hacc, h => by
      unfold parseWeightsAggregate at h
      cases h
      exact hacc
  | skip + 1, _ :: rest, acc, out, hacc, h => by
      unfold parseWeightsAggregate at h
      exact parseWeightsAggregate_length skip rest acc hacc h
  | 0, arg :: rest, (weights, aggregate), out, hacc, h => by
      unfold parseWeightsAggregate at h
      obtain ⟨word, -, h⟩ := Result.bind_eq_ok.mp h
      split at h
      · split at h
        · cases h
        · rename_i hmany
          obtain ⟨weights', hweights, h⟩ := Result.bind_eq_ok.mp h
          apply parseWeightsAggregate_length n rest _ _ h
          rw [Result.mapM_ok_length hweights, List.length_take]
          omega
      · split at h
        · cases h
        · obtain ⟨mode, -, h⟩ := Result.bind_eq_ok.mp h
          exact parseWeightsAggregate_length 0 _ (weights, mode) hacc h
      · cases h

theorem parseAggregateTail_length {fo : FloatOps} {op : ZStoreOp} {tail : List Bytes} {n : Nat}
    {weights : List F64} {agg : Aggregate}
    (h : parseAggregateTail fo op tail n = .ok (weights, agg)) : n ≤ weights.length := by
  unfold parseAggregateTail at h
  dsimp only at h
  split at h
  · cases h
    rw [List.length_replicate]
  · obtain ⟨arg, -, h⟩ := Result.bind_eq_ok.mp h
    cases h
  · exact (parseWeightsAggregate_length 0 _ _ List.length_replicate h).ge

/-- Only `HELP` asks for no operation. -/
theorem parseXgroup_none {sub : String} {left : List Bytes}
    (h : parseXgroup sub left = .ok none) : sub = "HELP" := by
  unfold parseXgroup at h
  split at h
  · obtain ⟨group, -, h⟩ := Result.bind_eq_ok.mp h
    obtain ⟨start, -, h⟩ := Result.bind_eq_ok.mp h
    obtain ⟨mkstream, -, h⟩ := Result.bind_eq_ok.mp h
    cases h
  · cases h
  · obtain ⟨group, -, h⟩ := Result.bind_eq_ok.mp h
    obtain ⟨start, -, h⟩ := Result.bind_eq_ok.mp h
    cases h
  · cases h
  · obtain ⟨group, -, h⟩ := Result.bind_eq_ok.mp h
    cases h
  · cases h
  · obtain ⟨group, -, h⟩ := Result.bind_eq_ok.mp h
    obtain ⟨consumer, -, h⟩ := Result.bind_eq_ok.mp h
    cases h
  · cases h
  · obtain ⟨group, -, h⟩ := Result.bind_eq_ok.mp h
    obtain ⟨consumer, -, h⟩ := Result.bind_eq_ok.mp h
    cases h
  · cases h
  · rfl
  · cases h

theorem kind_refuses {f : Option String → KV β} (h : (f (some e.kind.asStr)).Refuses key e) :
    KV.Refuses key e ((Storage.kind key).bind f) := by
  unfold Storage.kind
  rw [Prog.bind_eq, Prog.bind_assoc]
  exact .loadEntry h

theorem subcommandArgs_cases {sub arg : Bytes} {rest : List Bytes} {word : String}
    (h : Named key (subcommandArgs (sub :: arg :: rest))) (hword : optionWord sub = .ok word) :
    word ≠ "HELP" ∧ Named key [arg] := by
  unfold subcommandArgs at h
  dsimp only at h
  rw [hword] at h
  split at h
  · exact absurd h Named.not_nil
  · rename_i hhelp
    refine ⟨?_, h⟩
    rintro rfl
    exact hhelp rfl

end Arguments

end Commands

end RustyAnt
