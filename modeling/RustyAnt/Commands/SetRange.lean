import RustyAnt.Commands.Strings
import RustyAnt.Storage.Found

/-!
# SETRANGE

It writes its value over a window of the string.  A string that ends before the window is padded
with zeros first, and an empty value should change nothing.
-/

namespace RustyAnt

open Lib

namespace Storage

variable {d : Bytes} {o : Nat} {v : Bytes}

theorem length_padTo (d : Bytes) (n : Nat) : (padTo d n).length = max d.length n := by
  unfold padTo
  rw [List.length_append, List.length_replicate]
  omega

theorem padTo_eq_self {n : Nat} (h : n ≤ d.length) : padTo d n = d := by
  unfold padTo
  rw [Nat.sub_eq_zero_of_le h, List.replicate_zero, List.append_nil]

theorem getElem?_padTo (d : Bytes) (n i : Nat) :
    (padTo d n)[i]? = if i < d.length then d[i]? else if i < n then some 0 else none := by
  unfold padTo
  rw [List.getElem?_append]
  by_cases hold : i < d.length
  · rw [if_pos hold, if_pos hold]
  · rw [if_neg hold, if_neg hold, List.getElem?_replicate]
    by_cases hpad : i < n
    · rw [if_pos hpad, if_pos (by omega)]
    · rw [if_neg hpad, if_neg (by omega)]

/-- The value lies over its window, and zeros fill up to it. -/
structure Overwritten (d : Bytes) (o : Nat) (v d' : Bytes) : Prop where
  length : d'.length = max d.length (o + v.length)
  window : ∀ i < v.length, d'[o + i]? = v[i]?
  outside : ∀ i < d.length, i < o ∨ o + v.length ≤ i → d'[i]? = d[i]?
  padding : ∀ i, d.length ≤ i → i < o → d'[i]? = some 0

theorem length_applySetrange (d : Bytes) (o : Nat) (v : Bytes) :
    (applySetrange d o v).length = max d.length (o + v.length) := by
  unfold applySetrange
  simp only [List.length_append, List.length_take, List.length_drop, length_padTo]
  omega

theorem getElem?_applySetrange_window {i : Nat} (h : i < v.length) :
    (applySetrange d o v)[o + i]? = v[i]? := by
  have hfront : ((padTo d (o + v.length)).take o).length = o := by
    rw [List.length_take, length_padTo]
    omega
  unfold applySetrange
  dsimp only
  rw [List.append_assoc, List.getElem?_append_right (by omega), hfront, Nat.add_sub_cancel_left,
    List.getElem?_append_left h]

theorem getElem?_applySetrange_outside {i : Nat} (h : i < o ∨ o + v.length ≤ i) :
    (applySetrange d o v)[i]? = (padTo d (o + v.length))[i]? := by
  have hfront : ((padTo d (o + v.length)).take o).length = o := by
    rw [List.length_take, length_padTo]
    omega
  unfold applySetrange
  dsimp only
  rcases h with hbefore | hafter
  · rw [List.append_assoc, List.getElem?_append_left (by omega), List.getElem?_take,
      if_pos hbefore]
  · rw [List.getElem?_append_right (by rw [List.length_append]; omega), List.length_append, hfront,
      List.getElem?_drop, Nat.add_sub_of_le hafter]

theorem applySetrange_overwritten (d : Bytes) (o : Nat) (v : Bytes) :
    Overwritten d o v (applySetrange d o v) where
  length := length_applySetrange d o v
  window _ h := getElem?_applySetrange_window h
  outside i hold h := by rw [getElem?_applySetrange_outside h, getElem?_padTo, if_pos hold]
  padding i hpast h := by
    rw [getElem?_applySetrange_outside (.inl h), getElem?_padTo, if_neg (by omega),
      if_pos (by omega)]

theorem applySetrange_nil (h : o ≤ d.length) : applySetrange d o [] = d := by
  unfold applySetrange
  dsimp only [List.length_nil]
  rw [Nat.add_zero, padTo_eq_self h, List.append_nil, List.take_append_drop]

theorem sliceStringRange_applySetrange (hv : v ≠ [])
    (hlen : ((max d.length (o + v.length) : Nat) : Int) ≤ i64Max) :
    sliceStringRange (applySetrange d o v) o (o + v.length - 1) = v := by
  have hpos : 0 < v.length := List.length_pos_iff.mpr hv
  have hlength := length_applySetrange d o v
  have hcons : ¬ (applySetrange d o v).isEmpty = true := by
    rw [List.isEmpty_iff_length_eq_zero]
    omega
  have hsize : toI64 (applySetrange d o v).length = (applySetrange d o v).length := by
    apply toI64_of_le
    rw [hlength]
    exact hlen
  unfold sliceStringRange
  rw [if_neg hcons]
  dsimp only
  rw [hsize, hlength, if_neg (by omega), if_neg (by omega), if_neg (by omega)]
  have hend : (min ((o : Int) + v.length - 1) (((max d.length (o + v.length) : Nat) : Int) - 1)).toNat =
      o + v.length - 1 := by omega
  have hcount : o + v.length - 1 + 1 - o = v.length := by omega
  have hfront : ((padTo d (o + v.length)).take o).length = o := by
    rw [List.length_take, length_padTo]
    omega
  rw [hend, Int.toNat_natCast, sliceInclusive, hcount]
  unfold applySetrange
  dsimp only
  rw [List.append_assoc, List.drop_left' hfront, List.take_left]

end Storage

namespace Commands

open Storage (applySetrange Overwritten)

variable {env : Solo} {s : Keyspace} {k : String} {found : Option (Bytes × Option Int)} {o : Nat}
  {v : Bytes}

/-- The string that is found, empty when there is none. -/
def stringOf (found : Option (Bytes × Option Int)) : Bytes := found.elim [] Prod.fst

theorem getD_eq_stringOf (found : Option (Bytes × Option Int)) :
    (found.map Prod.fst).getD [] = stringOf found := by
  cases found <;> rfl

/-- The value has been written over its window; an empty one leaves what was found. -/
def WindowWritten (found : Option (Bytes × Option Int)) (o : Nat) (v : Bytes)
    (after : Option (Bytes × Option Int)) : Prop :=
  if v = [] then after = found
  else ∃ d', after = some (d', found.bind Prod.snd) ∧ Overwritten (stringOf found) o v d'

/-- `SETRANGE` writes its window and nothing else, replies the length, and the window can be read
back as long as the entry lives. -/
def SetrangeExact (env : Solo) (s : Keyspace) (k : String) (found : Option (Bytes × Option Int))
    (o : Nat) (v : Bytes) (out : Result RespReply × (Nat × Keyspace)) : Prop :=
  ∃ (after : Option (Bytes × Option Int)) (token : String) (n : Int),
    WindowWritten found o v after ∧
    out.1 = .ok (.integer n) ∧
    out.2.2 = Function.update s k (View.string.holding after token) ∧
    ∀ m, env.seen m out.2.2 k = out.2.2 k →
      (env.runFrom m (handleStrlen [Rdb.asBytes k]) out.2.2).1 = .ok (.integer n) ∧
      ∀ first last, v ≠ [] → parseI64 first "start" = .ok (o : Int) →
        parseI64 last "end" = .ok ((o : Int) + v.length - 1) →
        (env.runFrom m (handleGetrange [Rdb.asBytes k, first, last]) out.2.2).1 =
          .ok (.bulkString (some v))

theorem handleStrlen_runs (h : env.Faultless) {n : Nat} (hsees : env.Sees n s k View.string found) :
    (env.runFrom n (handleStrlen [Rdb.asBytes k]) s).1 =
      .ok (.integer (toI64 (stringOf found).length)) := by
  have hread : env.runFrom n (Storage.strlen k) s = _ := hsees.read h 0 fun data => toI64 data.length
  have hrun : env.runFrom n (handleStrlen [Rdb.asBytes k]) s =
      env.runFrom n ((Storage.strlen k).bind fun len => .done (.ok (.integer len))) s :=
    Solo.runFrom_parse (argAsStr_asBytes k)
  rw [hrun, Solo.runFrom_step hread]
  cases found <;> rfl

theorem handleGetrange_runs (h : env.Faultless) {n : Nat} (hsees : env.Sees n s k View.string found)
    {first last : Bytes} {start stop : Int} (hfirst : parseI64 first "start" = .ok start)
    (hlast : parseI64 last "end" = .ok stop) :
    (env.runFrom n (handleGetrange [Rdb.asBytes k, first, last]) s).1 =
      .ok (.bulkString (some (Storage.sliceStringRange (stringOf found) start stop))) := by
  have hread : env.runFrom n (Storage.getrange k start stop) s = _ :=
    hsees.read h [] fun data => Storage.sliceStringRange data start stop
  have hrun : env.runFrom n (handleGetrange [Rdb.asBytes k, first, last]) s =
      env.runFrom n ((Storage.getrange k start stop).bind fun slice =>
        .done (.ok (.bulkString (some slice)))) s :=
    calc
      env.runFrom n (handleGetrange [Rdb.asBytes k, first, last]) s = _ :=
        Solo.runFrom_parse (argAsStr_asBytes k)
      _ = _ := Solo.runFrom_parse hfirst
      _ = _ := Solo.runFrom_parse hlast
  rw [hrun, Solo.runFrom_step hread]
  cases found <;> rfl

/-- What `SETRANGE` leaves: an empty value on an empty string is the one case it passes over. -/
def setrangeLeaves (found : Option (Bytes × Option Int)) (o : Nat) (v : Bytes) :
    Option (Bytes × Option Int) :=
  if v = [] ∧ stringOf found = [] then found
  else some (applySetrange (stringOf found) o v, found.bind Prod.snd)

theorem handleSetrange_runs (h : env.Faultless) (hsees : env.Sees 0 s k View.string found)
    {arg : Bytes} (harg : parseOffset arg = .ok o) (v : Bytes) :
    let out := env.run (handleSetrange [Rdb.asBytes k, arg, v]) s
    out.1 = .ok (.integer (toI64 (stringOf (setrangeLeaves found o v)).length)) ∧
      ∃ token, out.2.2 =
        Function.update s k (View.string.holding (setrangeLeaves found o v) token) := by
  have hrun : env.run (handleSetrange [Rdb.asBytes k, arg, v]) s =
      env.runFrom 0 ((Storage.setrange k o v).bind fun len => .done (.ok (.integer len))) s :=
    (Solo.runFrom_parse (argAsStr_asBytes k)).trans (Solo.runFrom_parse harg)
  have hcas : env.runFrom 0 (Storage.setrange k o v) s = env.casRuns 0 s k
      (if v.isEmpty && (stringOf found).isEmpty then .ok (.noOp 0)
        else .ok (View.string.write (found.bind Prod.snd) (applySetrange (stringOf found) o v)
          (toI64 (applySetrange (stringOf found) o v).length))) := by
    refine (hsees.cas h _).trans ?_
    rw [View.findOr_entry]
    cases found <;> rfl
  have hskips : (v.isEmpty && (stringOf found).isEmpty) = true ↔ v = [] ∧ stringOf found = [] := by
    rw [Bool.and_eq_true, List.isEmpty_iff, List.isEmpty_iff]
  dsimp only
  rw [hrun, Solo.runFrom_bind, hcas]
  unfold setrangeLeaves
  by_cases hskip : v = [] ∧ stringOf found = []
  · rw [if_pos (hskips.mpr hskip), if_pos hskip, hskip.2]
    exact ⟨rfl, hsees.swept⟩
  · rw [if_neg fun h => hskip (hskips.mp h), if_neg hskip]
    exact ⟨rfl, _, rfl⟩

theorem windowWritten_leaves_iff (found : Option (Bytes × Option Int)) (o : Nat) (v : Bytes) :
    WindowWritten found o v (setrangeLeaves found o v) ↔
      v ≠ [] ∨ stringOf found = [] ∨ o ≤ (stringOf found).length := by
  unfold WindowWritten setrangeLeaves
  by_cases hv : v = []
  · subst hv
    rw [if_pos rfl]
    by_cases hempty : stringOf found = []
    · rw [if_pos ⟨rfl, hempty⟩]
      exact iff_of_true rfl (.inr (.inl hempty))
    · rw [if_neg fun h => hempty h.2]
      obtain ⟨p, rfl⟩ : ∃ p, found = some p := by
        cases found with
        | none => exact absurd rfl hempty
        | some p => exact ⟨p, rfl⟩
      constructor
      · intro hsame
        have hlength := congrArg (fun q => (stringOf q).length) hsame
        have hgrown : (applySetrange p.1 o []).length = p.1.length := hlength
        rw [Storage.length_applySetrange, List.length_nil, Nat.add_zero] at hgrown
        exact .inr (.inr (by show o ≤ p.1.length; omega))
      · intro h
        have hle : o ≤ p.1.length := by
          rcases h with hne | hnil | hle
          · exact absurd rfl hne
          · exact absurd hnil hempty
          · exact hle
        show some (applySetrange p.1 o [], p.2) = some p
        rw [Storage.applySetrange_nil hle]
  · rw [if_neg hv, if_neg fun h => hv h.1]
    exact iff_of_true ⟨_, rfl, Storage.applySetrange_overwritten _ _ _⟩ (.inl hv)

theorem holding_injective {V : View Bytes} {a b : Option (Bytes × Option Int)} {t t' : String}
    (h : V.holding a t = V.holding b t') : a = b := by
  have hentry := congrArg (Option.map Prod.fst) h
  rw [View.map_fst_holding, View.map_fst_holding] at hentry
  have hfind := V.find_entry "" a
  rw [hentry, V.find_entry "" b] at hfind
  exact (Except.ok.inj hfind).symm

theorem windowWritten_of_exact (h : env.Faultless) (hsees : env.Sees 0 s k View.string found)
    {arg : Bytes} (harg : parseOffset arg = .ok o)
    (hexact : SetrangeExact env s k found o v
      (env.run (handleSetrange [Rdb.asBytes k, arg, v]) s)) :
    WindowWritten found o v (setrangeLeaves found o v) := by
  obtain ⟨-, token, hstate⟩ := handleSetrange_runs h hsees harg v
  obtain ⟨after, token', n, hwritten, -, hafter, -⟩ := hexact
  have hsame := congrFun (hafter.symm.trans hstate) k
  rw [Function.update_self, Function.update_self] at hsame
  rwa [holding_injective hsame] at hwritten

/-- An empty value for an offset past the end of a string pads the string; everywhere else
`SETRANGE` is exact. -/
theorem setrange_exact_iff (h : env.Faultless) (hsees : env.Sees 0 s k View.string found)
    (hlen : ((max (stringOf found).length (o + v.length) : Nat) : Int) ≤ i64Max)
    {arg : Bytes} (harg : parseOffset arg = .ok o) :
    SetrangeExact env s k found o v (env.run (handleSetrange [Rdb.asBytes k, arg, v]) s) ↔
      v ≠ [] ∨ stringOf found = [] ∨ o ≤ (stringOf found).length := by
  obtain ⟨hreply, token, hstate⟩ := handleSetrange_runs h hsees harg v
  rw [← windowWritten_leaves_iff]
  constructor
  · exact windowWritten_of_exact h hsees harg
  · intro hwritten
    refine ⟨_, token, _, hwritten, hreply, hstate, fun m hlive => ?_⟩
    have hkey : (env.run (handleSetrange [Rdb.asBytes k, arg, v]) s).2.2 k =
        View.string.holding (setrangeLeaves found o v) token := by
      rw [hstate, Function.update_self]
    have hsees' := Solo.Sees.of_holding hkey hlive
    refine ⟨handleStrlen_runs h hsees', fun first last hv hfirst hlast => ?_⟩
    have hleaves : stringOf (setrangeLeaves found o v) = applySetrange (stringOf found) o v := by
      unfold setrangeLeaves
      rw [if_neg fun h => hv h.1]
      rfl
    rw [handleGetrange_runs h hsees' hfirst hlast, hleaves,
      Storage.sliceStringRange_applySetrange hv hlen]

/-- A string `ab`. -/
def abString : Keyspace :=
  Function.update (fun _ => none) "k" (some (⟨none, .string [97, 98]⟩, "t"))

theorem abString_sees : (Solo.still 0).Sees 0 abString "k" View.string (some ([97, 98], none)) :=
  Solo.Sees.of_live (V := View.string) rfl rfl

theorem setrange_exact_on_abString :
    SetrangeExact (Solo.still 0) abString "k" (some ([97, 98], none)) 3 [120]
      ((Solo.still 0).run (handleSetrange [Rdb.asBytes "k", Decimal.intBytes 3, [120]]) abString) :=
  (setrange_exact_iff (Solo.still_faultless 0) abString_sees (by decide) (by decide)).mpr
    (.inl (by decide))

/-- `SETRANGE k 4 ""` makes the string longer. -/
theorem setrange_inexact_on_abString :
    ¬ SetrangeExact (Solo.still 0) abString "k" (some ([97, 98], none)) 4 []
      ((Solo.still 0).run (handleSetrange [Rdb.asBytes "k", Decimal.intBytes 4, []]) abString) := by
  intro hexact
  have hwritten := windowWritten_of_exact (Solo.still_faultless 0) abString_sees (by decide) hexact
  rw [windowWritten_leaves_iff] at hwritten
  revert hwritten
  decide

end Commands
end RustyAnt
