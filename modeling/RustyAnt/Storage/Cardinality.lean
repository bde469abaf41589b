import RustyAnt.Storage.Found
import RustyAnt.Storage.Sketch
import RustyAnt.Storage.Strings

/-!
# PFADD, PFMERGE and PFCOUNT

What the HyperLogLog operations come to on the semilattice of registers.
-/

namespace RustyAnt

open Lib
open Lib.Joins (Joined joinAll joinAll_congr joinAll_append joinAll_le_iff)

namespace Hll

theorem regs_empty : Sketch.empty.regs = ⊥ := by
  have hbody : emptyDense.drop headerBytes = List.replicate 12288 0 := rfl
  funext i
  unfold Sketch.regs
  show (if i < registerCount then (readRegister (emptyDense.drop headerBytes) i).toNat else 0) = 0
  split
  · apply Nat.eq_of_testBit_eq
    intro j
    rw [testBit_readRegister, hbody, Packed.bitAt_zeros, Bool.and_false]
    exact (Nat.zero_testBit j).symm
  · rfl

/-- The loop of `pfadd`. -/
theorem addElements_goesUp (s : Sketch) (changed : Bool) (xs : List Bytes) :
    ∃ (s' : Sketch) (changed' : Bool), Storage.addElements s.1 changed xs = .ok (s'.1, changed') ∧
      (changed' = true ↔ changed = true ∨ ¬ joinAll spike xs ≤ s.regs) ∧
      GoesUp s (joinAll spike xs) s' := by
  induction xs generalizing s changed with
  | nil =>
      have hbot : joinAll spike [] ≤ s.regs := bot_le
      exact ⟨s, changed, rfl, by simp [hbot], .of_le hbot⟩
  | cons x xs ih =>
      obtain ⟨s₁, updated, hadd, hupdated, hup⟩ := add_goesUp s x
      obtain ⟨s₂, changed', hrest, hchanged, hup'⟩ := ih s₁ (changed || updated)
      have hjoin : joinAll spike (x :: xs) = spike x ⊔ joinAll spike xs := rfl
      refine ⟨s₂, changed', ?_, ?_, hup.trans stale_stale hup'⟩
      · rw [Storage.addElements, hadd]
        exact hrest
      · rw [hchanged, Bool.or_eq_true, hupdated, hjoin, sup_le_iff, hup.value_eq, or_assoc]
        by_cases hx : spike x ≤ s.regs
        · rw [sup_of_le_left hx]
          simp [hx]
        · simp [hx]

theorem joined_unique {s s₁ s₂ : Sketch} {r : Nat → Nat} (h : GoesUp s r s₁) (h' : GoesUp s r s₂) :
    s₁ = s₂ := h.unique Sketch.ext h'

/-- What the module's operations promise of any buffers. -/
structure SketchLaws : Prop where
  /-- order and repetition do not matter -/
  elements : ∀ xs ys : List Bytes, (∀ x, x ∈ xs ↔ x ∈ ys) →
    Storage.addElements emptyDense false xs = Storage.addElements emptyDense false ys
  unchanged : ∀ buf x, isHll buf = true →
    ∃ buf' changed, add buf x = .ok (buf', changed) ∧ (changed = false ↔ buf' = buf)
  append : ∀ xs ys : List Bytes, ∃ (buf buf' all : Bytes) (changed changed' changed'' : Bool),
    Storage.addElements emptyDense false xs = .ok (buf, changed) ∧
      Storage.addElements emptyDense false ys = .ok (buf', changed') ∧
      Storage.addElements emptyDense false (xs ++ ys) = .ok (all, changed'') ∧
      mergeInto buf buf' = .ok all
  idempotent : ∀ a b, isHll a = true → isHll b = true → mergeInto a a = .ok a ∧
    ∃ m, mergeInto a b = .ok m ∧ mergeInto m b = .ok m
  comm : ∀ a b, isHll a = true → isHll b = true → ∃ m m', mergeInto a b = .ok m ∧
    mergeInto b a = .ok m' ∧ m.drop headerBytes = m'.drop headerBytes
  assoc : ∀ a b c, isHll a = true → isHll b = true → isHll c = true → ∃ ab abc bc abc',
    mergeInto a b = .ok ab ∧ mergeInto ab c = .ok abc ∧ mergeInto b c = .ok bc ∧
      mergeInto a bc = .ok abc' ∧ abc.drop headerBytes = abc'.drop headerBytes
  frame : ∀ (regs : Bytes) (i j : Nat) (v : UInt8), regs.length = denseBytes - headerBytes →
    i < registerCount → j < registerCount → j ≠ i →
    readRegister (writeRegister regs i v) j = readRegister regs j

theorem sketchLaws : SketchLaws where
  elements xs ys h := by
    obtain ⟨s, changed, hrun, hchanged, hup⟩ := addElements_goesUp .empty false xs
    obtain ⟨s', changed', hrun', hchanged', hup'⟩ := addElements_goesUp .empty false ys
    rw [joinAll_congr h] at hchanged hup
    have hflag : changed = changed' := Bool.eq_iff_iff.mpr (hchanged.trans hchanged'.symm)
    show Storage.addElements Sketch.empty.1 false xs = Storage.addElements Sketch.empty.1 false ys
    rw [hrun, hrun', joined_unique hup hup', hflag]
  unchanged buf x hbuf := by
    obtain ⟨s', changed, hadd, hchanged, hup⟩ := add_goesUp ⟨buf, hbuf⟩ x
    refine ⟨s'.1, changed, hadd, ?_⟩
    rw [← Bool.not_eq_true, hchanged, not_not, ← hup.eq_iff Sketch.ext, Subtype.ext_iff]
  append xs ys := by
    obtain ⟨s, changed, hrun, -, hup⟩ := addElements_goesUp .empty false xs
    obtain ⟨s', changed', hrun', -, hup'⟩ := addElements_goesUp .empty false ys
    obtain ⟨all, changed'', hrun'', -, hup''⟩ := addElements_goesUp .empty false (xs ++ ys)
    obtain ⟨m, hmerge, hmerged⟩ := mergeInto_goesUp s s'
    have hregs : s'.regs = joinAll spike ys := by
      rw [hup'.value_eq, regs_empty, bot_sup_eq]
    rw [hregs] at hmerged
    rw [joinAll_append] at hup''
    rw [joined_unique (hup.trans stale_stale hmerged) hup''] at hmerge
    exact ⟨_, _, _, _, _, _, hrun, hrun', hrun'', hmerge⟩
  idempotent a b ha hb := by
    obtain ⟨m, hmerge, hup⟩ := mergeInto_goesUp ⟨a, ha⟩ ⟨b, hb⟩
    have hself : ∀ s src : Sketch, src.regs ≤ s.regs → mergeInto s.1 src.1 = .ok s.1 := by
      intro s src hle
      obtain ⟨s', hmerge, hup⟩ := mergeInto_goesUp s src
      rw [hmerge, (hup.eq_iff Sketch.ext).mpr hle]
    refine ⟨hself ⟨a, ha⟩ ⟨a, ha⟩ le_rfl, m.1, hmerge, hself m ⟨b, hb⟩ ?_⟩
    rw [hup.value_eq]
    exact le_sup_right
  comm a b ha hb := by
    obtain ⟨m, hmerge, hup⟩ := mergeInto_goesUp ⟨a, ha⟩ ⟨b, hb⟩
    obtain ⟨m', hmerge', hup'⟩ := mergeInto_goesUp ⟨b, hb⟩ ⟨a, ha⟩
    refine ⟨m.1, m'.1, hmerge, hmerge', Sketch.body_eq ?_⟩
    rw [hup.value_eq, hup'.value_eq, sup_comm]
  assoc a b c ha hb hc := by
    obtain ⟨ab, hab, hupab⟩ := mergeInto_goesUp ⟨a, ha⟩ ⟨b, hb⟩
    obtain ⟨abc, habc, hupabc⟩ := mergeInto_goesUp ab ⟨c, hc⟩
    obtain ⟨bc, hbc, hupbc⟩ := mergeInto_goesUp ⟨b, hb⟩ ⟨c, hc⟩
    obtain ⟨abc', habc', hupabc'⟩ := mergeInto_goesUp ⟨a, ha⟩ bc
    refine ⟨ab.1, abc.1, bc.1, abc'.1, hab, habc, hbc, habc', Sketch.body_eq ?_⟩
    rw [hupabc.value_eq, hupab.value_eq, hupabc'.value_eq, hupbc.value_eq, sup_assoc]
  frame regs i j v hlength hi hj hne := by
    have hbits : ∀ {k}, k < registerCount → 6 * k + 6 ≤ 8 * regs.length := by
      intro k hk
      rw [hlength]
      unfold registerCount at hk
      show 6 * k + 6 ≤ 8 * 12288
      omega
    apply UInt8.toNat_inj.mp
    rw [readRegister_writeRegister (hbits hi) (hbits hj), if_neg hne]

theorem count_congr (fo : FloatOps) {s s' : Sketch} (h : s.regs = s'.regs) :
    count fo s.1 = count fo s'.1 := by
  unfold count
  rw [if_pos s.2, if_pos s'.2, Sketch.body_eq h]

end Hll

namespace Solo

open Hll (Sketch GoesUp)

variable {env : Solo} {n : Nat} {s : Keyspace} {key dest : String} {keys : List String}
  {found : String → Option (Sketch × Option Int)} {fo : FloatOps}

/-- A HyperLogLog that is found as a string. -/
def asString (found : Option (Sketch × Option Int)) : Option (Bytes × Option Int) :=
  found.map fun p => (p.1.1, p.2)

/-- The keys hold HyperLogLogs or nothing, which do not expire meanwhile. -/
def HoldSketches (env : Solo) (s : Keyspace) (keys : List String)
    (found : String → Option (Sketch × Option Int)) : Prop :=
  ∀ k ∈ keys, ∀ n, env.Sees n s k View.string (asString (found k))

/-- The registers found at a key, none without a HyperLogLog. -/
def contents (found : String → Option (Sketch × Option Int)) (k : String) : Nat → Nat :=
  (found k).elim ⊥ fun p => p.1.regs

theorem contents_of_none {k : String} (h : found k = none) : contents found k = ⊥ := by
  unfold contents
  rw [h]
  rfl

theorem contents_of_some {k : String} {p : Sketch × Option Int} (h : found k = some p) :
    contents found k = p.1.regs := by
  unfold contents
  rw [h]
  rfl

theorem hllOf_entry (k : String) (p : Option (Sketch × Option Int)) :
    Storage.hllOf k (View.string.entry (asString p)) = .ok (asString p) := by
  unfold Storage.hllOf
  rw [View.find_entry]
  cases p with
  | none => rfl
  | some p =>
      show (if Hll.isHll p.1.1 then _ else _) = _
      rw [if_pos p.1.2]
      rfl

theorem HoldSketches.loaded (h : env.HoldSketches s keys found) (n : Nat) (key : String) :
    env.HoldSketches (env.swept n s key) keys found := by
  intro k hk m
  by_cases hkey : k = key
  · subst hkey
    exact sees_after_load (h k hk) m n
  · exact (h k hk m).of_ne hkey n

theorem loadEntry_sketch (hf : env.Faultless) (h : env.HoldSketches s keys found) (n : Nat)
    (hk : key ∈ keys) :
    env.runFrom n (KV.loadEntry key) s =
      (.ok (View.string.entry (asString (found key))), (n + 1, env.swept n s key)) := by
  rw [loadEntry_runs hf, show _ = View.string.entry _ from h key hk n]

theorem mergeKeys_runs (hf : env.Faultless) {within : List String}
    (h : env.HoldSketches s within found) (hsub : ∀ k ∈ keys, k ∈ within) (m : Sketch) (n : Nat) :
    ∃ (m' : Sketch) (w : Nat × Keyspace),
      env.runFrom n (Storage.mergeKeys m.1 keys) s = (.ok m'.1, w) ∧
      GoesUp m (joinAll (contents found) keys) m' ∧ env.HoldSketches w.2 within found := by
  induction keys generalizing m n s with
  | nil => exact ⟨m, (n, s), rfl, .of_le bot_le, h⟩
  | cons k keys ih =>
      have hload := loadEntry_sketch hf h n (hsub k List.mem_cons_self)
      have hrest : ∀ k' ∈ keys, k' ∈ within := fun k' hk' => hsub k' (List.mem_cons_of_mem k hk')
      have hjoin : joinAll (contents found) (k :: keys) =
          contents found k ⊔ joinAll (contents found) keys := rfl
      rw [Storage.mergeKeys, hjoin]
      cases hfound : found k with
      | none =>
          obtain ⟨m', w, hrun, hup, hheld⟩ := ih (h.loaded n k) hrest m (n + 1)
          refine ⟨m', w, (runFrom_step hload).trans ?_, ?_, hheld⟩
          · refine (runFrom_parse (hllOf_entry k (found k))).trans ?_
            rw [hfound]
            exact hrun
          · rwa [contents_of_none hfound, bot_sup_eq]
      | some p =>
          obtain ⟨m₁, hmerge, hup₁⟩ := Hll.mergeInto_goesUp m p.1
          obtain ⟨m', w, hrun, hup, hheld⟩ := ih (h.loaded n k) hrest m₁ (n + 1)
          refine ⟨m', w, (runFrom_step hload).trans ?_, ?_, hheld⟩
          · refine (runFrom_parse (hllOf_entry k (found k))).trans ?_
            rw [hfound]
            exact (runFrom_parse hmerge).trans hrun
          · rw [contents_of_some hfound]
            exact hup₁.trans Hll.stale_stale hup

theorem pfcount_many (hf : env.Faultless) (h : env.HoldSketches s keys found)
    (hmany : ∀ k, keys ≠ [k]) {union : Sketch}
    (hunion : union.regs = joinAll (contents found) keys) :
    (env.runFrom n (Storage.pfcount fo keys) s).1 = Hll.count fo union.1 := by
  obtain ⟨m, w, hrun, hup, -⟩ := mergeKeys_runs hf h (fun k hk => hk) Sketch.empty n
  have hregs : m.regs = union.regs := by
    rw [hup.value_eq, Hll.regs_empty, bot_sup_eq, hunion]
  have hpath : Storage.pfcount fo keys =
      (Storage.mergeKeys Sketch.empty.1 keys).bind fun merged =>
        Prog.ofExcept (Hll.count fo merged) := by
    cases keys with
    | nil => rfl
    | cons k rest =>
        cases rest with
        | nil => exact absurd rfl (hmany k)
        | cons k' rest => rfl
  rw [hpath, runFrom_step hrun, ← Hll.count_congr fo hregs]
  rfl

theorem pfcount_one (hf : env.Faultless) (h : env.HoldSketches s [key] found)
    {p : Sketch × Option Int} (hfound : found key = some p) :
    (env.runFrom n (Storage.pfcount fo [key]) s).1 = Hll.count fo p.1.1 := by
  have hload := loadEntry_sketch hf h n List.mem_cons_self
  have hrun : env.runFrom n (Storage.pfcount fo [key]) s = _ :=
    (runFrom_step hload).trans (runFrom_parse (hllOf_entry key (found key)))
  rw [hrun, hfound]
  rfl

theorem pfmerge_runs (hf : env.Faultless) (h : env.HoldSketches s (dest :: keys) found) :
    ∃ (d : Sketch) (w : Nat × Keyspace), env.run (Storage.pfmerge dest keys) s = (.ok (), w) ∧
      d.regs = contents found dest ⊔ joinAll (contents found) keys ∧
      env.HoldSketches w.2 [dest] fun _ => some (d, (found dest).bind Prod.snd) := by
  obtain ⟨m, w, hrun, hup, hheld⟩ :=
    @mergeKeys_runs env s keys found hf (dest :: keys) h
      (fun k hk => List.mem_cons_of_mem dest hk) Sketch.empty 0
  have hunion : m.regs = joinAll (contents found) keys := by
    rw [hup.value_eq, Hll.regs_empty, bot_sup_eq]
  have hdest := hheld dest List.mem_cons_self
  have hbefore : ∃ (s₀ : Sketch), ((asString (found dest)).getD (Hll.emptyDense, none)) =
      (s₀.1, (found dest).bind Prod.snd) ∧ s₀.regs = contents found dest := by
    unfold contents
    cases found dest with
    | none => exact ⟨Sketch.empty, rfl, Hll.regs_empty⟩
    | some p => exact ⟨p.1, rfl, rfl⟩
  obtain ⟨s₀, hgetD, hregs₀⟩ := hbefore
  obtain ⟨d, hmerge, hupd⟩ := Hll.mergeInto_goesUp s₀ m
  let store : Bytes × Option Int → Result (CasAction Unit) := fun p => do
    let buf ← Hll.mergeInto p.1 m.1
    return View.string.write p.2 buf ()
  have hcas : env.runFrom w.1 (cas dest fun entry => do
      store ((← Storage.hllOf dest entry).getD (Hll.emptyDense, none))) w.2 =
        env.casRuns w.1 w.2 dest
          (.ok (View.string.write ((found dest).bind Prod.snd) d.1 ())) := by
    refine ((hdest w.1).cas hf _).trans ?_
    rw [hllOf_entry]
    show env.casRuns w.1 w.2 dest
      (store ((asString (found dest)).getD (Hll.emptyDense, none))) = _
    rw [hgetD]
    show env.casRuns w.1 w.2 dest (Hll.mergeInto s₀.1 m.1 >>= fun buf => _) = _
    rw [hmerge]
    rfl
  refine ⟨d, _, (runFrom_step hrun).trans hcas, ?_, ?_⟩
  · rw [hupd.value_eq, hregs₀, hunion]
  · intro k hk n
    obtain rfl := List.mem_singleton.mp hk
    have hstored : ∀ x : Option (StoredValue × String), Function.update w.2 k x k = x := fun x =>
      Function.update_self k x w.2
    refine Sees.of_live (V := View.string) (hstored _) ?_
    have hlive := hdest n
    cases hfound : found k with
    | none => rfl
    | some p =>
        rw [hfound] at hlive
        exact hlive.live

/-- What `PFMERGE` and `PFCOUNT` promise of keys that hold HyperLogLogs or nothing. -/
structure CountLaws (env : Solo) (fo : FloatOps) : Prop where
  /-- Without sources and without anything at the destination the estimate of no element counts. -/
  merged : ∀ (s : Keyspace) (found : String → Option (Sketch × Option Int)) (dest : String)
    (keys : List String), env.HoldSketches s (dest :: keys) found →
    (keys = [] → found dest = none → Hll.count fo Hll.emptyDense = .ok 0) →
    ∃ w, env.run (Storage.pfmerge dest keys) s = (.ok (), w) ∧
      (env.runFrom w.1 (Storage.pfcount fo [dest]) w.2).1 =
        (env.run (Storage.pfcount fo (dest :: keys)) s).1
  single : ∀ (s : Keyspace) (found : String → Option (Sketch × Option Int)) (key : String)
    (keys : List String), env.HoldSketches s keys found → found key ≠ none → key ∈ keys →
    (∀ k ∈ keys, k = key ∨ found k = none) →
    (env.run (Storage.pfcount fo [key]) s).1 = (env.run (Storage.pfcount fo keys) s).1

theorem countLaws (hf : env.Faultless) (fo : FloatOps) : CountLaws env fo where
  merged s found dest keys h hempty := by
    obtain ⟨d, w, hrun, hregs, hheld⟩ := pfmerge_runs hf h
    refine ⟨w, hrun, ?_⟩
    rw [pfcount_one hf hheld rfl]
    cases keys with
    | nil =>
        have hcontents : d.regs = contents found dest := by
          rw [hregs]
          exact sup_bot_eq _
        cases hfound : found dest with
        | none =>
            have hload := loadEntry_sketch hf h 0 List.mem_cons_self
            have hcount : env.run (Storage.pfcount fo [dest]) s = _ :=
              (runFrom_step hload).trans (runFrom_parse (hllOf_entry dest (found dest)))
            have hnone : d.regs = Sketch.empty.regs := by
              rw [hcontents, contents_of_none hfound, Hll.regs_empty]
            rw [hcount, hfound, Hll.count_congr fo hnone]
            exact hempty rfl hfound
        | some p =>
            have hsome : d.regs = p.1.regs := by
              rw [hcontents, contents_of_some hfound]
            calc
              Hll.count fo d.1 = Hll.count fo p.1.1 := Hll.count_congr fo hsome
              _ = (env.run (Storage.pfcount fo [dest]) s).1 := (pfcount_one hf h hfound).symm
    | cons k keys =>
        have hmany : ∀ k', dest :: k :: keys ≠ [k'] := fun k' heq => nomatch heq
        exact (pfcount_many hf h hmany hregs).symm
  single s found key keys h hsome hkey hothers := by
    obtain ⟨p, hfound⟩ := Option.ne_none_iff_exists'.mp hsome
    have hone : env.HoldSketches s [key] found := fun k hk => by
      rw [List.mem_singleton.mp hk]
      exact h key hkey
    have hjoin : p.1.regs = joinAll (contents found) keys := by
      rw [← contents_of_some hfound]
      apply le_antisymm
      · exact joinAll_le_iff.mp le_rfl key hkey
      · refine joinAll_le_iff.mpr fun k hk => ?_
        rcases hothers k hk with rfl | hnone
        · exact le_rfl
        · rw [contents_of_none hnone]
          exact bot_le
    by_cases hmany : ∀ k, keys ≠ [k]
    · calc
        (env.run (Storage.pfcount fo [key]) s).1 = Hll.count fo p.1.1 := pfcount_one hf hone hfound
        _ = (env.run (Storage.pfcount fo keys) s).1 := (pfcount_many hf h hmany hjoin).symm
    · obtain ⟨k, hk⟩ := not_forall.mp hmany
      obtain rfl := not_not.mp hk
      rw [List.mem_singleton.mp hkey]

/-- HyperLogLogs are a semilattice image of the elements added, and the commands keep to it. -/
theorem hll_semilattice (hf : env.Faultless) (fo : FloatOps) :
    Hll.SketchLaws ∧ CountLaws env fo := ⟨Hll.sketchLaws, countLaws hf fo⟩

/-- A HyperLogLog at `a` and nothing at `b`. -/
def oneSketch (sketch : Sketch) : Keyspace :=
  Function.update (fun _ => none) "a" (some (⟨none, .string sketch.1⟩, "t"))

theorem oneSketch_holds (sketch : Sketch) : (Solo.still 0).HoldSketches (oneSketch sketch)
    ["b", "a"] fun k => if k = "a" then some (sketch, none) else none := by
  intro k hk n
  rcases List.mem_cons.mp hk with rfl | hk
  · exact Sees.of_none rfl
  · rw [List.mem_singleton.mp hk]
    exact Sees.of_live (V := View.string) rfl rfl

/-- With `x` and `y` added, `PFCOUNT a` is `PFCOUNT b a`. -/
theorem pfcount_on_oneSketch :
    ∃ sketch : Sketch,
      Storage.addElements Hll.emptyDense false [[120], [121]] = .ok (sketch.1, true) ∧
      ((Solo.still 0).run (Storage.pfcount .integral ["a"]) (oneSketch sketch)).1 =
        ((Solo.still 0).run (Storage.pfcount .integral ["b", "a"]) (oneSketch sketch)).1 := by
  obtain ⟨sketch, changed, hadd, hchanged, -⟩ :=
    Hll.addElements_goesUp Sketch.empty false [[120], [121]]
  have hsome : ¬ joinAll Hll.spike [[120], [121]] ≤ Sketch.empty.regs := by
    intro hle
    have hfirst := Hll.spike_le_iff.mp (le_sup_left.trans hle)
    rw [Hll.regs_empty] at hfirst
    revert hfirst
    decide +kernel
  rw [hchanged.mpr (.inr hsome)] at hadd
  have hothers : ∀ k ∈ ["b", "a"],
      k = "a" ∨ (if k = "a" then some (sketch, (none : Option Int)) else none) = none := by
    simp
  refine ⟨sketch, hadd, ?_⟩
  exact (hll_semilattice (Solo.still_faultless 0) .integral).2.single (oneSketch sketch) _ "a"
    ["b", "a"] (oneSketch_holds sketch) (Option.some_ne_none _) (by decide) hothers

end Solo
end RustyAnt
