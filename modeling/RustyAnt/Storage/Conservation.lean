import RustyAnt.Storage.Linearizable
import RustyAnt.Storage.Lists
import Mathlib.Algebra.BigOperators.Group.Multiset.Basic
import Mathlib.Algebra.BigOperators.Ring.Finset
import Mathlib.Algebra.Order.Group.Multiset
import Mathlib.Tactic.Abel

/-!
# List elements are conserved

Clients push, pop and move elements of any lists.  Every commit of a `cas` loop
changes one list by what its closure decides, so along a run the elements of all
lists, together with those a move has popped and not yet pushed, are those of the
start and those pushed, less those that pops have returned.
-/

namespace RustyAnt

open Lib

namespace Storage

/-! ## What the closures do to a list -/

/-- The list an entry holds; anything else counts as the empty list. -/
def listOf : Option StoredValue → List Bytes
  | some ⟨_, .list l⟩ => l
  | _ => []

theorem listOf_find_some {key : String} {entry : Option StoredValue} {l : List Bytes}
    {exp : Option Int} (h : View.list.find key entry = .ok (some (l, exp))) : listOf entry = l := by
  rw [View.list.find_some h]
  rfl

theorem listOf_findOr {key : String} {entry : Option StoredValue} {l : List Bytes}
    {exp : Option Int} (h : View.list.findOr key [] entry = .ok (l, exp)) : listOf entry = l := by
  rcases View.list.findOr_ok h with ⟨rfl, rfl, -⟩ | rfl
  · rfl
  · rfl

theorem listOf_writeOrDelete {R : Type} (exp : Option Int) (l : List Bytes) (r : R)
    (entry : Option StoredValue) :
    listOf ((View.list.writeOrDelete exp l r).apply entry) = l ∧
      (View.list.writeOrDelete exp l r).result = r := by
  unfold View.writeOrDelete
  cases l with
  | nil => exact ⟨rfl, rfl⟩
  | cons v l => exact ⟨rfl, rfl⟩

/-! ## As multisets -/

theorem pushOne_coe (left : Bool) (l : List Bytes) (v : Bytes) :
    (↑(pushOne left l v) : Multiset Bytes) = {v} + ↑l := by
  unfold pushOne
  cases left with
  | true => rfl
  | false =>
      rw [if_neg Bool.false_ne_true, ← Multiset.coe_add, add_comm]
      rfl

theorem pushAll_coe (left : Bool) (l values : List Bytes) :
    (↑(values.foldl (pushOne left) l) : Multiset Bytes) = ↑values + ↑l := by
  induction values generalizing l with
  | nil => exact (zero_add _).symm
  | cons v values ih =>
      rw [List.foldl_cons, ih, pushOne_coe, ← Multiset.cons_coe, ← Multiset.singleton_add,
        ← add_assoc, add_comm (values : Multiset Bytes)]

theorem popOne_coe {left : Bool} {l rest : List Bytes} {v : Bytes}
    (h : popOne left l = some (v, rest)) : (l : Multiset Bytes) = {v} + ↑rest := by
  unfold popOne at h
  cases left with
  | true =>
      cases l with
      | nil => cases h
      | cons w l =>
          cases h
          rfl
  | false =>
      rw [if_neg Bool.false_ne_true, Option.map_eq_some_iff] at h
      obtain ⟨w, hw, heq⟩ := h
      cases heq
      rw [← List.dropLast_append_getLast? v hw, List.dropLast_concat, ← Multiset.coe_add, add_comm]
      rfl

theorem popMany_coe (left : Bool) (take : Nat) (l : List Bytes) :
    (l : Multiset Bytes) = ↑(popMany left take l).2 + ↑(popMany left take l).1 := by
  induction take generalizing l with
  | zero => exact (zero_add _).symm
  | succ take ih =>
      rw [popMany]
      cases hpop : popOne left l with
      | none => exact (zero_add _).symm
      | some p =>
          obtain ⟨v, rest⟩ := p
          rw [popOne_coe hpop]
          dsimp only
          rw [← Multiset.cons_coe, ← Multiset.singleton_add, add_assoc, ← ih rest]

/-! ## What a decision does to the elements -/

theorem pushAllModify_list {key : String} {values : List Bytes} {left : Bool}
    {entry : Option StoredValue} {action : CasAction Int}
    (h : pushAllModify key values left entry = .ok action) :
    listOf (action.apply entry) = values.foldl (pushOne left) (listOf entry) := by
  unfold pushAllModify at h
  rw [Result.bind_eq_ok] at h
  obtain ⟨⟨list, exp⟩, hfind, hrest⟩ := h
  cases hrest
  rw [listOf_findOr hfind]
  rfl

/-- What `LPUSHX` has pushed: its reply is `0` when there was no list. -/
def pushedx (values : List Bytes) (reply : Int) : Multiset Bytes :=
  if reply = 0 then 0 else values

theorem toI64_eq_zero {n : Nat} : toI64 n = 0 ↔ n = 0 := by
  unfold toI64 i64Max
  omega

theorem pushxModify_list {key : String} {values : List Bytes} {left : Bool}
    {entry : Option StoredValue} {action : CasAction Int}
    (h : pushxModify key values left entry = .ok action) :
    (↑(listOf (action.apply entry)) : Multiset Bytes) =
      pushedx values action.result + ↑(listOf entry) := by
  unfold pushxModify at h
  rw [Result.bind_eq_ok] at h
  obtain ⟨found, hfind, hrest⟩ := h
  cases found with
  | none =>
      cases hrest
      exact (zero_add _).symm
  | some p =>
      obtain ⟨list, exp⟩ := p
      cases hrest
      have happly : listOf ((View.list.write exp (values.foldl (pushOne left) list)
        (toI64 (values.foldl (pushOne left) list).length)).apply entry) =
          values.foldl (pushOne left) list := rfl
      rw [happly, pushAll_coe, listOf_find_some hfind]
      congr 1
      unfold pushedx
      split
      · rename_i hzero
        have hlength := congrArg Multiset.card (pushAll_coe left list values)
        rw [Multiset.card_add, Multiset.coe_card, Multiset.coe_card, Multiset.coe_card] at hlength
        have hempty : (values.foldl (pushOne left) list).length = 0 := toI64_eq_zero.mp hzero
        have hvalues : values.length = 0 := by omega
        rw [List.eq_nil_of_length_eq_zero hvalues]
        rfl
      · rfl

theorem popAllModify_list {key : String} {count : Nat} {left : Bool}
    {entry : Option StoredValue} {action : CasAction (List Bytes)}
    (h : popAllModify key count left entry = .ok action) :
    (↑(listOf entry) : Multiset Bytes) = ↑action.result + ↑(listOf (action.apply entry)) := by
  unfold popAllModify at h
  rw [Result.bind_eq_ok] at h
  obtain ⟨found, hfind, hrest⟩ := h
  cases found with
  | none =>
      cases hrest
      exact (zero_add _).symm
  | some p =>
      obtain ⟨list, exp⟩ := p
      cases hrest
      obtain ⟨hlist, hresult⟩ := listOf_writeOrDelete exp (popMany left (min count list.length) list).1
        (popMany left (min count list.length) list).2 entry
      rw [hlist, hresult, listOf_find_some hfind]
      exact popMany_coe left _ list

/-- A closure that pops one element has nothing to pop, or acts on it and on the rest. -/
theorem popOne_cases (key : String) (fromLeft : Bool) {entry : Option StoredValue}
    {action : CasAction (Option Bytes)}
    (f : Bytes → List Bytes → Option Int → CasAction (Option Bytes))
    (h : (do
      match ← View.list.find key entry with
      | none => return .noOp none
      | some (list, exp) =>
          match popOne fromLeft list with
          | none => return .noOp none
          | some (v, rest) => return f v rest exp) = (.ok action : Result _)) :
    action = .noOp none ∨
      ∃ v rest exp, popOne fromLeft (listOf entry) = some (v, rest) ∧ action = f v rest exp := by
  obtain ⟨found, hfind, hrest⟩ := Result.bind_eq_ok.mp h
  cases found with
  | none =>
      cases hrest
      exact .inl rfl
  | some p =>
      obtain ⟨list, exp⟩ := p
      rw [listOf_find_some hfind]
      dsimp only at hrest
      cases hpop : popOne fromLeft list with
      | none =>
          rw [hpop] at hrest
          cases hrest
          exact .inl rfl
      | some q =>
          rw [hpop] at hrest
          cases hrest
          exact .inr ⟨q.1, q.2, exp, rfl, rfl⟩

theorem rotateModify_list {key : String} {fromLeft toLeft : Bool}
    {entry : Option StoredValue} {action : CasAction (Option Bytes)}
    (h : rotateModify key fromLeft toLeft entry = .ok action) :
    (action.result = none ∧ action.apply entry = entry) ∨
      ∃ v rest, action.result = some v ∧ popOne fromLeft (listOf entry) = some (v, rest) ∧
        listOf (action.apply entry) = pushOne toLeft rest v := by
  rcases popOne_cases key fromLeft
    (fun v rest exp => View.list.write exp (pushOne toLeft rest v) (some v)) h
    with rfl | ⟨v, rest, exp, hpop, rfl⟩
  · exact .inl ⟨rfl, rfl⟩
  · exact .inr ⟨v, rest, rfl, hpop, rfl⟩

theorem popModify_list {key : String} {fromLeft : Bool}
    {entry : Option StoredValue} {action : CasAction (Option Bytes)}
    (h : popModify key fromLeft entry = .ok action) :
    (action.result = none ∧ action.apply entry = entry) ∨
      ∃ v, action.result = some v ∧
        popOne fromLeft (listOf entry) = some (v, listOf (action.apply entry)) := by
  rcases popOne_cases key fromLeft (fun v rest exp => View.list.writeOrDelete exp rest (some v)) h
    with rfl | ⟨v, rest, exp, hpop, rfl⟩
  · exact .inl ⟨rfl, rfl⟩
  · obtain ⟨hlist, hresult⟩ := listOf_writeOrDelete exp rest (some v) entry
    exact .inr ⟨v, hresult, by rw [hlist, hpop]⟩

theorem pushModify_list {key : String} {toLeft : Bool} {v : Bytes}
    {entry : Option StoredValue} {action : CasAction Unit}
    (h : pushModify key toLeft v entry = .ok action) :
    listOf (action.apply entry) = pushOne toLeft (listOf entry) v := by
  unfold pushModify at h
  rw [Result.bind_eq_ok] at h
  obtain ⟨⟨list, exp⟩, hfind, hrest⟩ := h
  cases hrest
  rw [listOf_findOr hfind]
  rfl

end Storage

/-! ## List commands -/

inductive ListCommand where
  | push (key : String) (values : List Bytes) (left : Bool)
  | pushx (key : String) (values : List Bytes) (left : Bool)
  | pop (key : String) (count : Nat) (left : Bool)
  /-- `RPOPLPUSH` is the move from the right end to the left one -/
  | move (source dest : String) (fromLeft toLeft : Bool)

namespace ListCommand

def Reply : ListCommand → Type
  | push _ _ _ => Int
  | pushx _ _ _ => Int
  | pop _ _ _ => List Bytes
  | move _ _ _ _ => Option Bytes

def prog : (t : ListCommand) → KV t.Reply
  | push key values left => Storage.listPush key values left
  | pushx key values left => Storage.listPushx key values left
  | pop key count left => Storage.listPop key count left
  | move source dest fromLeft toLeft => Storage.listMove source dest fromLeft toLeft

def keys : ListCommand → Finset String
  | push key _ _ => {key}
  | pushx key _ _ => {key}
  | pop key _ _ => {key}
  | move source dest _ _ => {source, dest}

def pushed : (t : ListCommand) → t.Reply → Multiset Bytes
  | push _ values _, _ => values
  | pushx _ values _, reply => Storage.pushedx values reply
  | pop _ _ _, _ => 0
  | move _ _ _ _, _ => 0

def popped : (t : ListCommand) → t.Reply → Multiset Bytes
  | pop _ _ _, out => show List Bytes from out
  | _, _ => 0

end ListCommand

def Keyspace.listAt (s : Keyspace) (key : String) : List Bytes := Storage.listOf (s.entryAt key)

def Keyspace.elements (keys : Finset String) (s : Keyspace) : Multiset Bytes :=
  ∑ key ∈ keys, ↑(s.listAt key)

section Events

variable {ι : Type} {content : String → StoredValue}

/-- The element that the event has taken from the list, if it has changed it. -/
def taken (source : String) (fromLeft : Bool) (ev : KVEvent ι) : Option Bytes :=
  if ev.after.listAt source = ev.before.listAt source then none
  else (Storage.popOne fromLeft (ev.before.listAt source)).map Prod.fst

/-- What a command's events have taken from its source, unless one of them has
changed its destination. -/
def ListCommand.held : ListCommand → List (KVEvent ι) → Multiset Bytes
  | .move source dest fromLeft _, evs =>
      if ∃ ev ∈ evs, ev.after.listAt dest ≠ ev.before.listAt dest then 0
      else evs.filterMap (taken source fromLeft)
  | _, _ => 0

def PopsFrom (source : String) (fromLeft : Bool) (v : Bytes) (ev : KVEvent ι) : Prop :=
  Storage.popOne fromLeft (ev.before.listAt source) = some (v, ev.after.listAt source) ∧
    ∀ key, key ≠ source → ev.after key = ev.before key

def PushesTo (dest : String) (toLeft : Bool) (v : Bytes) (ev : KVEvent ι) : Prop :=
  ev.after.listAt dest = Storage.pushOne toLeft (ev.before.listAt dest) v ∧
    ∀ key, key ≠ dest → ev.after key = ev.before key

/-- `v` is popped from the list and pushed back to it. -/
def Rotates (key : String) (fromLeft toLeft : Bool) (v : Bytes) (ev : KVEvent ι) : Prop :=
  (∃ rest, Storage.popOne fromLeft (ev.before.listAt key) = some (v, rest) ∧
    ev.after.listAt key = Storage.pushOne toLeft rest v) ∧
    ∀ key', key' ≠ key → ev.after key' = ev.before key'

/-- All entries stay as they are. -/
def Keeps (ev : KVEvent ι) : Prop := ∀ key, ev.after.entryAt key = ev.before.entryAt key

/-- What a move that has replied did: nothing if its source was empty, otherwise the
returned element left the source and was pushed exactly once, at the requested end. -/
def ListCommand.Delivered : (t : ListCommand) → t.Reply → List (KVEvent ι) → Prop
  | .move source dest fromLeft toLeft, reply, evs =>
      match (reply : Option Bytes) with
      | none => ∀ ev ∈ evs, Keeps ev
      | some v =>
          if source = dest then
            ∃ pre ev post, evs = pre ++ ev :: post ∧ Rotates source fromLeft toLeft v ev ∧
              ∀ x ∈ pre ++ post, Keeps x
          else
            ∃ pre pop mid push post, evs = pre ++ pop :: (mid ++ push :: post) ∧
              PopsFrom source fromLeft v pop ∧ PushesTo dest toLeft v push ∧
              ∀ x ∈ pre ++ mid ++ post, Keeps x
  | _, _, _ => True

/-! ## One command's events -/

theorem Silent.keeps {ev : KVEvent ι} (h : Silent ev) : Keeps ev := by
  intro key
  rw [show ev.after = ev.before from h]

theorem Keeps.listAt {ev : KVEvent ι} (h : Keeps ev) (key : String) :
    ev.after.listAt key = ev.before.listAt key :=
  congrArg Storage.listOf (h key)

/-- What can be said of a `cas` call whose closure only reads the entry. -/
theorem cas_accounted {key : String} {R : Type} {modify : Option StoredValue → Result (CasAction R)}
    {evs : List (KVEvent ι)} {q : KV R} (h : Pool.Follows (cas key modify) evs q)
    (hserved : ∀ ev ∈ evs, Served content ev) :
    ((∀ r, q ≠ .done (.ok r)) ∧ ∀ ev ∈ evs, Keeps ev) ∨
      ∃ r pre ev post action, q = .done (.ok r) ∧ evs = pre ++ ev :: post ∧
        (∀ x ∈ pre ++ post, Keeps x) ∧
        modify (ev.before.entryAt key) = .ok action ∧ action.result = r ∧
        ev.after.entryAt key = action.apply (ev.before.entryAt key) ∧
        ∀ key', key' ≠ key → ev.after key' = ev.before key' := by
  have hclock : ReadsClock (pure () : KV Unit) := trivial
  have hacc : Accounted (δ := Unit) key (fun _ _ => modify) evs q :=
    casFrom_accounted hclock maxCasRetries [] h hserved
  rcases hacc with ⟨r, rfl, pre, ev, post, rfl, ⟨seen, d, action, hdec⟩, hrest⟩ | ⟨hq, hall⟩
  · exact .inr ⟨r, pre, ev, post, action, rfl, rfl, fun x hx => (hrest x hx).keeps, hdec⟩
  · exact .inl ⟨hq, fun ev hev => (hall ev hev).keeps⟩

/-- The events of a move from one list to another, as far as it has come. -/
inductive MoveTrace (source dest : String) (fromLeft toLeft : Bool) :
    List (KVEvent ι) → KV (Option Bytes) → Prop
  | idle (evs : List (KVEvent ι)) (q : KV (Option Bytes)) (hkeeps : ∀ ev ∈ evs, Keeps ev)
      (hq : ∀ v, q ≠ .done (.ok (some v))) : MoveTrace source dest fromLeft toLeft evs q
  | holding (pre post : List (KVEvent ι)) (pop : KVEvent ι) (v : Bytes) (q : KV (Option Bytes))
      (hpop : PopsFrom source fromLeft v pop) (hkeeps : ∀ ev ∈ pre ++ post, Keeps ev)
      (hq : q.returned = none) :
      MoveTrace source dest fromLeft toLeft (pre ++ pop :: post) q
  | moved (pre mid post : List (KVEvent ι)) (pop push : KVEvent ι) (v : Bytes)
      (hpop : PopsFrom source fromLeft v pop) (hpush : PushesTo dest toLeft v push)
      (hkeeps : ∀ ev ∈ pre ++ mid ++ post, Keeps ev) :
      MoveTrace source dest fromLeft toLeft (pre ++ pop :: (mid ++ push :: post))
        (.done (.ok (some v)))

/-- From the pop of `v` on. -/
theorem push_trace {source dest : String} {fromLeft toLeft : Bool} {v : Bytes}
    {pre post evs : List (KVEvent ι)} {pop : KVEvent ι} {q : KV (Option Bytes)}
    (hpop : PopsFrom source fromLeft v pop) (hkeeps : ∀ ev ∈ pre ++ post, Keeps ev)
    (h : Pool.Follows ((cas dest (Storage.pushModify dest toLeft v)).bind fun _ =>
      Prog.done (.ok (some v))) evs q)
    (hserved : ∀ ev ∈ evs, Served content ev) (hq : ∀ e, q ≠ .done (.error e)) :
    MoveTrace source dest fromLeft toLeft (pre ++ pop :: (post ++ evs)) q := by
  rcases h.bind_inv with ⟨op, k, hcas, rfl⟩ | ⟨evs₁, evs₂, r, rfl, hcas, hrest⟩
  · rcases cas_accounted hcas hserved with ⟨-, hall⟩ | ⟨r, _, _, _, _, hdone, -⟩
    · refine .holding pre (post ++ evs) pop v _ hpop ?_ rfl
      rw [← List.append_assoc, List.forall_mem_append]
      exact ⟨hkeeps, hall⟩
    · cases hdone
  · rw [List.forall_mem_append] at hserved
    cases r with
    | error e =>
        obtain ⟨-, rfl⟩ := Pool.Follows.done_inv hrest
        exact absurd rfl (hq e)
    | ok u =>
        obtain ⟨rfl, rfl⟩ := Pool.Follows.done_inv hrest
        rcases cas_accounted hcas hserved.1 with
          ⟨hnot, -⟩ | ⟨r, pre', push, post', action, -, rfl, hrest', hmodify, -, happly, hframe⟩
        · exact absurd rfl (hnot u)
        · have hpush : PushesTo dest toLeft v push := by
            refine ⟨?_, hframe⟩
            rw [Keyspace.listAt, happly]
            exact Storage.pushModify_list hmodify
          have hsplit : pre ++ pop :: (post ++ (pre' ++ push :: post' ++ [])) =
            pre ++ pop :: ((post ++ pre') ++ push :: post') := by simp
          rw [hsplit]
          refine .moved pre (post ++ pre') post' pop push v hpop hpush ?_
          simp only [List.forall_mem_append] at hkeeps hrest' ⊢
          exact ⟨⟨hkeeps.1, hkeeps.2, hrest'.1⟩, hrest'.2⟩

/-- What a move does with the outcome of its pop. -/
def moveEnd (dest : String) (toLeft : Bool) : Option Bytes → KV (Option Bytes)
  | none => Prog.done (.ok none)
  | some v => (cas dest (Storage.pushModify dest toLeft v)).bind fun _ => Prog.done (.ok (some v))

theorem pop_trace {source dest : String} {fromLeft toLeft : Bool}
    {pre evs : List (KVEvent ι)} {q : KV (Option Bytes)} (hkeeps : ∀ ev ∈ pre, Keeps ev)
    (h : Pool.Follows ((cas source (Storage.popModify source fromLeft)).bind
      (moveEnd dest toLeft)) evs q)
    (hserved : ∀ ev ∈ evs, Served content ev) (hq : ∀ e, q ≠ .done (.error e)) :
    MoveTrace source dest fromLeft toLeft (pre ++ evs) q := by
  rcases h.bind_inv with ⟨op, k, hcas, rfl⟩ | ⟨evs₁, evs₂, r, rfl, hcas, hrest⟩
  · rcases cas_accounted hcas hserved with ⟨-, hall⟩ | ⟨r, _, _, _, _, hdone, -⟩
    · refine .idle (pre ++ evs) _ ?_ nofun
      rw [List.forall_mem_append]
      exact ⟨hkeeps, hall⟩
    · cases hdone
  · rw [List.forall_mem_append] at hserved
    cases r with
    | error e =>
        obtain ⟨-, rfl⟩ := Pool.Follows.done_inv hrest
        exact absurd rfl (hq e)
    | ok reply =>
        rcases cas_accounted hcas hserved.1 with
          ⟨hnot, -⟩ | ⟨r, pre', pop, post', action, hdone, rfl, hothers, hmodify, hresult, happly, hframe⟩
        · exact absurd rfl (hnot reply)
        cases hdone
        simp only [List.forall_mem_append] at hothers
        rcases Storage.popModify_list hmodify with ⟨hreply, hsame⟩ | ⟨v, hreply, hpop⟩
        · -- nothing to pop: the decision leaves the entry alone
          rw [← hresult, hreply, Prog.done_ok_bind] at hrest
          obtain ⟨rfl, rfl⟩ := Pool.Follows.done_inv hrest
          refine .idle _ _ ?_ nofun
          have hkept : Keeps pop := by
            intro key
            by_cases hkey : key = source
            · rw [hkey, happly, hsame]
            · rw [Keyspace.entryAt, Keyspace.entryAt, hframe key hkey]
          simp only [List.forall_mem_append, List.forall_mem_cons]
          exact ⟨hkeeps, ⟨hothers.1, hkept, hothers.2⟩, by simp⟩
        · rw [← hresult, hreply, Prog.done_ok_bind] at hrest
          have hpops : PopsFrom source fromLeft v pop := by
            refine ⟨?_, hframe⟩
            rw [Keyspace.listAt, Keyspace.listAt, happly]
            exact hpop
          have hsplit : pre ++ (pre' ++ pop :: post' ++ evs₂) =
            (pre ++ pre') ++ pop :: (post' ++ evs₂) := by simp
          rw [hsplit]
          refine push_trace hpops ?_ hrest hserved.2 hq
          simp only [List.forall_mem_append]
          exact ⟨⟨hkeeps, hothers.1⟩, hothers.2⟩

theorem move_trace {source dest : String} (hne : source ≠ dest) {fromLeft toLeft : Bool}
    {evs : List (KVEvent ι)} {q : KV (Option Bytes)}
    (h : Pool.Follows (Storage.listMove source dest fromLeft toLeft) evs q)
    (hserved : ∀ ev ∈ evs, Served content ev) (hq : ∀ e, q ≠ .done (.error e)) :
    MoveTrace source dest fromLeft toLeft evs q := by
  rw [Storage.listMove, if_neg hne] at h
  rcases Pool.Follows.call_inv h with ⟨rfl, rfl⟩ | ⟨who, answer, before, after, rest, rfl, hrest⟩
  · exact .idle [] _ (by simp) nofun
  rw [List.forall_mem_cons] at hserved
  have hload : Keeps (⟨who, .load dest, answer, before, after⟩ : KVEvent ι) :=
    (Silent.of_load hserved.1 rfl).keeps
  cases answer with
  | error e =>
      obtain ⟨-, rfl⟩ := Pool.Follows.done_inv hrest
      exact absurd rfl (hq e)
  | ok loaded =>
      have hcheck : Pool.Follows ((Prog.done (View.list.find dest (loaded.map Prod.fst)) :
          KV (Option (List Bytes × Option Int))).bind fun _ =>
            (cas source (Storage.popModify source fromLeft)).bind (moveEnd dest toLeft)) rest q :=
        hrest
      cases hfind : View.list.find dest (loaded.map Prod.fst) with
      | error e =>
          rw [hfind] at hcheck
          obtain ⟨-, rfl⟩ := Pool.Follows.done_inv hcheck
          exact absurd rfl (hq e)
      | ok found =>
          rw [hfind, Prog.done_ok_bind] at hcheck
          rw [← List.singleton_append]
          refine pop_trace ?_ hcheck hserved.2 hq
          rw [List.forall_mem_singleton]
          exact hload

/-! ## One command's account -/

variable {K : Finset String}

/-- How often `v` occurs. -/
def tally (v : Bytes) (m : Multiset Bytes) : Int := m.count v

theorem tally_add (v : Bytes) (m m' : Multiset Bytes) : tally v (m + m') = tally v m + tally v m' := by
  simp [tally]

@[simp] theorem tally_zero (v : Bytes) : tally v 0 = 0 := by simp [tally]

theorem tally_sum [Fintype ι] (v : Bytes) (m : ι → Multiset Bytes) :
    tally v (∑ i, m i) = ∑ i, tally v (m i) := by
  unfold tally
  rw [Multiset.count_sum', Nat.cast_sum]

/-- Only the list at `key` differs. -/
theorem elements_frame {s s' : Keyspace} {key : String} (hkey : key ∈ K)
    (hframe : ∀ key', key' ≠ key → s' key' = s key') :
    s'.elements K + ↑(s.listAt key) = s.elements K + ↑(s'.listAt key) := by
  unfold Keyspace.elements
  rw [← Finset.add_sum_erase K (fun k => (↑(s.listAt k) : Multiset Bytes)) hkey,
    ← Finset.add_sum_erase K (fun k => (↑(s'.listAt k) : Multiset Bytes)) hkey]
  have hothers : ∑ k ∈ K.erase key, (↑(s'.listAt k) : Multiset Bytes) =
      ∑ k ∈ K.erase key, ↑(s.listAt k) := by
    refine Finset.sum_congr rfl fun k hk => ?_
    rw [Keyspace.listAt, Keyspace.listAt, Keyspace.entryAt, Keyspace.entryAt,
      hframe k (Finset.ne_of_mem_erase hk)]
  rw [hothers]
  abel

theorem Keeps.elements {ev : KVEvent ι} (h : Keeps ev) :
    ev.after.elements K = ev.before.elements K := by
  unfold Keyspace.elements
  simp only [h.listAt]

theorem PopsFrom.elements {source : String} {fromLeft : Bool} {v : Bytes} {ev : KVEvent ι}
    (h : PopsFrom source fromLeft v ev) (hsource : source ∈ K) :
    ev.before.elements K = {v} + ev.after.elements K := by
  have hframe := elements_frame hsource h.2
  rw [Storage.popOne_coe h.1, ← add_assoc] at hframe
  rw [← add_right_cancel hframe, add_comm]

theorem PushesTo.elements {dest : String} {toLeft : Bool} {v : Bytes} {ev : KVEvent ι}
    (h : PushesTo dest toLeft v ev) (hdest : dest ∈ K) :
    ev.after.elements K = {v} + ev.before.elements K := by
  have hframe := elements_frame hdest h.2
  rw [h.1, Storage.pushOne_coe, ← add_assoc] at hframe
  rw [add_right_cancel hframe, add_comm]

/-- A `cas` call changes the elements by what its reply stands for. -/
theorem cas_account {key : String} {R : Type} {modify : Option StoredValue → Result (CasAction R)}
    {evs : List (KVEvent ι)} {q : KV R} {v : Bytes} (change : R → Int) (hkey : key ∈ K)
    (h : Pool.Follows (cas key modify) evs q) (hserved : ∀ ev ∈ evs, Served content ev)
    (hmodify : ∀ entry action, modify entry = .ok action →
      tally v ↑(Storage.listOf (action.apply entry)) - tally v ↑(Storage.listOf entry) =
        change action.result) :
    (evs.map fun ev => tally v (ev.after.elements K) - tally v (ev.before.elements K)).sum =
      q.returned.elim 0 change := by
  have hclock : ReadsClock (pure () : KV Unit) := trivial
  have hacc : Accounted (δ := Unit) key (fun _ _ => modify) evs q :=
    casFrom_accounted hclock maxCasRetries [] h hserved
  refine hacc.sum_change (fun s => tally v (s.elements K)) change fun r ev hdec => ?_
  obtain ⟨seen, d, action, hok, rfl, happly, hframe⟩ := hdec
  have hchange := hmodify _ action hok
  have helements := congrArg (tally v) (elements_frame hkey hframe)
  rw [tally_add, tally_add] at helements
  unfold Keyspace.listAt at helements
  rw [happly] at helements
  omega

theorem sum_keeps {evs : List (KVEvent ι)} (h : ∀ ev ∈ evs, Keeps ev) (v : Bytes) :
    (evs.map fun ev => tally v (ev.after.elements K) - tally v (ev.before.elements K)).sum = 0 := by
  refine List.sum_eq_zero ?_
  simp only [List.mem_map]
  rintro x ⟨ev, hev, rfl⟩
  rw [(h ev hev).elements, sub_self]

theorem taken_keeps {evs : List (KVEvent ι)} (h : ∀ ev ∈ evs, Keeps ev) (source : String)
    (fromLeft : Bool) : evs.filterMap (taken source fromLeft) = [] := by
  rw [List.filterMap_eq_nil_iff]
  intro ev hev
  exact if_pos ((h ev hev).listAt source)

theorem PopsFrom.taken {source : String} {fromLeft : Bool} {v : Bytes} {ev : KVEvent ι}
    (h : PopsFrom source fromLeft v ev) : taken source fromLeft ev = some v := by
  have hne : ev.after.listAt source ≠ ev.before.listAt source := by
    intro heq
    have hcard := congrArg Multiset.card (Storage.popOne_coe h.1)
    rw [heq] at hcard
    simp at hcard
  rw [RustyAnt.taken, if_neg hne, h.1]
  rfl

theorem PushesTo.changes {dest : String} {toLeft : Bool} {v : Bytes} {ev : KVEvent ι}
    (h : PushesTo dest toLeft v ev) : ev.after.listAt dest ≠ ev.before.listAt dest := by
  intro heq
  have hcard := congrArg Multiset.card (Storage.pushOne_coe toLeft (ev.before.listAt dest) v)
  rw [← h.1, heq] at hcard
  simp at hcard

theorem ListCommand.held_move (source dest : String) (fromLeft toLeft : Bool)
    (evs : List (KVEvent ι)) :
    (ListCommand.move source dest fromLeft toLeft).held evs =
      if ∃ ev ∈ evs, ev.after.listAt dest ≠ ev.before.listAt dest then 0
      else ↑(evs.filterMap (RustyAnt.taken source fromLeft)) := rfl

theorem held_same (key : String) (fromLeft toLeft : Bool) (evs : List (KVEvent ι)) :
    (ListCommand.move key key fromLeft toLeft).held evs = 0 := by
  rw [ListCommand.held_move]
  split
  · rfl
  · rename_i hsame
    have hnone : evs.filterMap (taken key fromLeft) = [] := by
      rw [List.filterMap_eq_nil_iff]
      intro ev hev
      refine if_pos ?_
      by_contra hne
      exact hsame ⟨ev, hev, hne⟩
    rw [hnone]
    rfl

/-- What a move has taken out of the lists is what it holds. -/
theorem MoveTrace.account {source dest : String} {fromLeft toLeft : Bool} (hne : source ≠ dest)
    {evs : List (KVEvent ι)} {q : KV (Option Bytes)}
    (h : MoveTrace source dest fromLeft toLeft evs q) (hsource : source ∈ K) (hdest : dest ∈ K)
    (v : Bytes) :
    (evs.map fun ev => tally v (ev.after.elements K) - tally v (ev.before.elements K)).sum =
      - tally v ((ListCommand.move source dest fromLeft toLeft).held evs) := by
  cases h with
  | idle _ _ hkeeps hq =>
      have hheld : (ListCommand.move source dest fromLeft toLeft).held evs = 0 := by
        rw [ListCommand.held_move, taken_keeps hkeeps]
        split <;> rfl
      rw [sum_keeps hkeeps, hheld, tally_zero]
      rfl
  | holding pre post pop w _ hpop hkeeps hq =>
      rw [List.forall_mem_append] at hkeeps
      have hheld : (ListCommand.move source dest fromLeft toLeft).held (pre ++ pop :: post) =
          {w} := by
        have hsame : ¬ ∃ ev ∈ pre ++ pop :: post, ev.after.listAt dest ≠ ev.before.listAt dest := by
          rintro ⟨ev, hev, hchange⟩
          rw [List.mem_append, List.mem_cons] at hev
          rcases hev with hev | rfl | hev
          · exact hchange ((hkeeps.1 ev hev).listAt dest)
          · refine hchange ?_
            rw [Keyspace.listAt, Keyspace.listAt, Keyspace.entryAt, Keyspace.entryAt,
              hpop.2 dest hne.symm]
          · exact hchange ((hkeeps.2 ev hev).listAt dest)
        rw [ListCommand.held_move, if_neg hsame, List.filterMap_append, List.filterMap_cons_some hpop.taken,
          taken_keeps hkeeps.1, taken_keeps hkeeps.2]
        rfl
      rw [List.map_append, List.sum_append, List.map_cons, List.sum_cons, sum_keeps hkeeps.1,
        sum_keeps hkeeps.2, hheld, hpop.elements hsource, tally_add]
      omega
  | moved pre mid post pop push w hpop hpush hkeeps =>
      simp only [List.forall_mem_append] at hkeeps
      obtain ⟨⟨hpre, hmid⟩, hpost⟩ := hkeeps
      have hheld : (ListCommand.move source dest fromLeft toLeft).held
          (pre ++ pop :: (mid ++ push :: post)) = 0 := by
        rw [ListCommand.held_move]
        exact if_pos ⟨push, by simp, hpush.changes⟩
      simp only [List.map_append, List.sum_append, List.map_cons, List.sum_cons, sum_keeps hpre,
        sum_keeps hmid, sum_keeps hpost, hheld, hpop.elements hsource, hpush.elements hdest,
        tally_add, tally_zero]
      omega

def ListCommand.pushedSoFar (t : ListCommand) (q : KV t.Reply) : Multiset Bytes :=
  q.returned.elim 0 t.pushed

/-- What a command has returned so far of popped elements. -/
def ListCommand.poppedSoFar (t : ListCommand) (q : KV t.Reply) : Multiset Bytes :=
  q.returned.elim 0 t.popped

theorem push_account {key : String} {values : List Bytes} {left : Bool} {evs : List (KVEvent ι)}
    {q : KV Int} (hkey : key ∈ K) (h : Pool.Follows (Storage.listPush key values left) evs q)
    (hserved : ∀ ev ∈ evs, Served content ev) (v : Bytes) :
    (evs.map fun ev => tally v (ev.after.elements K) - tally v (ev.before.elements K)).sum =
      q.returned.elim 0 fun _ => tally v values := by
  refine cas_account (fun _ => tally v values) hkey h hserved fun entry action hok => ?_
  rw [Storage.pushAllModify_list hok, Storage.pushAll_coe, tally_add]
  omega

theorem pushx_account {key : String} {values : List Bytes} {left : Bool} {evs : List (KVEvent ι)}
    {q : KV Int} (hkey : key ∈ K) (h : Pool.Follows (Storage.listPushx key values left) evs q)
    (hserved : ∀ ev ∈ evs, Served content ev) (v : Bytes) :
    (evs.map fun ev => tally v (ev.after.elements K) - tally v (ev.before.elements K)).sum =
      q.returned.elim 0 fun reply => tally v (Storage.pushedx values reply) := by
  refine cas_account (fun r => tally v (Storage.pushedx values r)) hkey h hserved
    fun entry action hok => ?_
  rw [Storage.pushxModify_list hok, tally_add]
  omega

theorem pop_account {key : String} {count : Nat} {left : Bool} {evs : List (KVEvent ι)}
    {q : KV (List Bytes)} (hkey : key ∈ K) (h : Pool.Follows (Storage.listPop key count left) evs q)
    (hserved : ∀ ev ∈ evs, Served content ev) (v : Bytes) :
    (evs.map fun ev => tally v (ev.after.elements K) - tally v (ev.before.elements K)).sum =
      - q.returned.elim 0 fun out => tally v ↑out := by
  rw [cas_account (fun out : List Bytes => - tally v ↑out) hkey h hserved
    fun entry action hok => ?_]
  · cases q.returned <;> rfl
  · rw [Storage.popAllModify_list hok, tally_add]
    omega

theorem move_account {source dest : String} {fromLeft toLeft : Bool} {evs : List (KVEvent ι)}
    {q : KV (Option Bytes)} (hsource : source ∈ K) (hdest : dest ∈ K)
    (h : Pool.Follows (Storage.listMove source dest fromLeft toLeft) evs q)
    (hserved : ∀ ev ∈ evs, Served content ev) (hq : ∀ e, q ≠ .done (.error e)) (v : Bytes) :
    (evs.map fun ev => tally v (ev.after.elements K) - tally v (ev.before.elements K)).sum =
      - tally v ((ListCommand.move source dest fromLeft toLeft).held evs) := by
  by_cases hne : source = dest
  · subst hne
    rw [Storage.listMove, if_pos rfl] at h
    rw [held_same, tally_zero, cas_account (fun _ => 0) hsource h hserved fun entry action hok => ?_]
    · cases q.returned <;> rfl
    · rcases Storage.rotateModify_list hok with ⟨-, hsame⟩ | ⟨w, rest, -, hpop, hpush⟩
      · rw [hsame, sub_self]
      · rw [hpush, Storage.pushOne_coe, Storage.popOne_coe hpop, sub_self]
  · exact (move_trace hne h hserved hq).account hne hsource hdest v

theorem tally_elim {R : Type} (v : Bytes) (reply : Option R) (f : R → Multiset Bytes) :
    tally v (reply.elim 0 f) = reply.elim 0 fun r => tally v (f r) := by
  cases reply with
  | none => exact tally_zero v
  | some r => rfl

theorem elim_zero {R M : Type} [Zero M] (reply : Option R) : (reply.elim 0 fun _ => (0 : M)) = 0 := by
  cases reply <;> rfl

theorem ListCommand.account (t : ListCommand) {evs : List (KVEvent ι)} {q : KV t.Reply}
    (h : Pool.Follows t.prog evs q) (hserved : ∀ ev ∈ evs, Served content ev)
    (hq : ∀ e, q ≠ .done (.error e)) (hkeys : t.keys ⊆ K) (v : Bytes) :
    (evs.map fun ev => tally v (ev.after.elements K) - tally v (ev.before.elements K)).sum =
      tally v (t.pushedSoFar q) - tally v (t.poppedSoFar q) - tally v (t.held evs) := by
  unfold pushedSoFar poppedSoFar
  rw [tally_elim, tally_elim]
  cases t with
  | push key values left =>
      have hsum := push_account (hkeys (Finset.mem_singleton_self key)) h hserved v
      simp only [popped, held, tally_zero, elim_zero, sub_zero]
      exact hsum
  | pushx key values left =>
      have hsum := pushx_account (hkeys (Finset.mem_singleton_self key)) h hserved v
      simp only [popped, held, tally_zero, elim_zero, sub_zero]
      exact hsum
  | pop key count left =>
      have hsum := pop_account (hkeys (Finset.mem_singleton_self key)) h hserved v
      simp only [pushed, held, tally_zero, elim_zero, sub_zero, zero_sub]
      exact hsum
  | move source dest fromLeft toLeft =>
      have hsource : source ∈ K := hkeys (Finset.mem_insert_self source {dest})
      have hdest : dest ∈ K := hkeys (Finset.mem_insert_of_mem (Finset.mem_singleton_self dest))
      have hsum := move_account hsource hdest h hserved hq v
      simp only [pushed, popped, tally_zero, elim_zero, sub_zero, zero_sub]
      exact hsum

theorem rotate_delivered {key : String} {fromLeft toLeft : Bool} {evs : List (KVEvent ι)}
    {r : Option Bytes} (h : Pool.Follows (cas key (Storage.rotateModify key fromLeft toLeft)) evs
      (.done (.ok r))) (hserved : ∀ ev ∈ evs, Served content ev) :
    (ListCommand.move key key fromLeft toLeft).Delivered r evs := by
  rcases cas_accounted h hserved with
    ⟨hnot, -⟩ | ⟨r', pre, ev, post, action, hdone, rfl, hothers, hmodify, rfl, happly, hframe⟩
  · exact absurd rfl (hnot r)
  cases hdone
  rcases Storage.rotateModify_list hmodify with ⟨hreply, hsame⟩ | ⟨v, rest, hreply, hpop, hpush⟩
  · rw [hreply]
    have hkept : Keeps ev := by
      intro key'
      by_cases hkey : key' = key
      · rw [hkey, happly, hsame]
      · rw [Keyspace.entryAt, Keyspace.entryAt, hframe key' hkey]
    rw [List.forall_mem_append] at hothers
    show ∀ x ∈ pre ++ ev :: post, Keeps x
    rw [List.forall_mem_append, List.forall_mem_cons]
    exact ⟨hothers.1, hkept, hothers.2⟩
  · rw [hreply]
    show if key = key then _ else _
    rw [if_pos rfl]
    refine ⟨pre, ev, post, rfl, ⟨⟨rest, hpop, ?_⟩, hframe⟩, hothers⟩
    rw [Keyspace.listAt, happly]
    exact hpush

theorem move_delivered {source dest : String} (hne : source ≠ dest) {fromLeft toLeft : Bool}
    {evs : List (KVEvent ι)} {r : Option Bytes}
    (h : MoveTrace source dest fromLeft toLeft evs (.done (.ok r))) :
    (ListCommand.move source dest fromLeft toLeft).Delivered r evs := by
  cases h with
  | idle _ _ hkeeps hq =>
      cases r with
      | none => exact hkeeps
      | some v => exact absurd rfl (hq v)
  | holding pre post pop v _ hpop hkeeps hq => cases hq
  | moved pre mid post pop push v hpop hpush hkeeps =>
      show if source = dest then _ else _
      rw [if_neg hne]
      exact ⟨pre, pop, mid, push, post, rfl, hpop, hpush, hkeeps⟩

theorem ListCommand.delivered (t : ListCommand) {evs : List (KVEvent ι)} {r : t.Reply}
    (h : Pool.Follows t.prog evs (.done (.ok r))) (hserved : ∀ ev ∈ evs, Served content ev) :
    t.Delivered r evs := by
  cases t with
  | push key values left => trivial
  | pushx key values left => trivial
  | pop key count left => trivial
  | move source dest fromLeft toLeft =>
      by_cases hne : source = dest
      · subst hne
        rw [prog, Storage.listMove, if_pos rfl] at h
        exact rotate_delivered h hserved
      · exact move_delivered hne (move_trace hne h hserved nofun)

/-! ## Other keys -/

/-- The event changes no entry outside of `keys`. -/
def Within (keys : Finset String) (ev : KVEvent ι) : Prop :=
  ∀ key, key ∉ keys → ev.after.entryAt key = ev.before.entryAt key

theorem within_of_frame {keys : Finset String} {key : String} (hkey : key ∈ keys) {ev : KVEvent ι}
    (hframe : ∀ key', key' ≠ key → ev.after key' = ev.before key') : Within keys ev := by
  intro key' hout
  have hne : key' ≠ key := by
    rintro rfl
    exact hout hkey
  rw [Keyspace.entryAt, Keyspace.entryAt, hframe key' hne]

theorem cas_within {key : String} {R : Type} {modify : Option StoredValue → Result (CasAction R)}
    {evs : List (KVEvent ι)} {q : KV R} (h : Pool.Follows (cas key modify) evs q)
    (hserved : ∀ ev ∈ evs, Served content ev) {keys : Finset String} (hkey : key ∈ keys) :
    ∀ ev ∈ evs, Within keys ev := by
  rcases cas_accounted h hserved with
    ⟨-, hkeeps⟩ | ⟨r, pre, ev, post, action, -, rfl, hothers, -, -, -, hframe⟩
  · exact fun ev hev key _ => hkeeps ev hev key
  · rw [List.forall_mem_append] at hothers
    rw [List.forall_mem_append, List.forall_mem_cons]
    exact ⟨fun x hx key _ => hothers.1 x hx key, within_of_frame hkey hframe,
      fun x hx key _ => hothers.2 x hx key⟩

theorem ListCommand.within (t : ListCommand) {evs : List (KVEvent ι)} {q : KV t.Reply}
    (h : Pool.Follows t.prog evs q) (hserved : ∀ ev ∈ evs, Served content ev)
    (hq : ∀ e, q ≠ .done (.error e)) : ∀ ev ∈ evs, Within t.keys ev := by
  cases t with
  | push key values left =>
      have hcas : Pool.Follows (cas key (Storage.pushAllModify key values left)) evs q := h
      exact cas_within hcas hserved (Finset.mem_singleton_self key)
  | pushx key values left =>
      have hcas : Pool.Follows (cas key (Storage.pushxModify key values left)) evs q := h
      exact cas_within hcas hserved (Finset.mem_singleton_self key)
  | pop key count left =>
      have hcas : Pool.Follows (cas key (Storage.popAllModify key count left)) evs q := h
      exact cas_within hcas hserved (Finset.mem_singleton_self key)
  | move source dest fromLeft toLeft =>
      have hsource : source ∈ (move source dest fromLeft toLeft).keys :=
        Finset.mem_insert_self source {dest}
      have hdest : dest ∈ (move source dest fromLeft toLeft).keys :=
        Finset.mem_insert_of_mem (Finset.mem_singleton_self dest)
      by_cases hne : source = dest
      · subst hne
        rw [prog, Storage.listMove, if_pos rfl] at h
        exact cas_within h hserved hsource
      · cases move_trace hne h hserved hq with
        | idle _ _ hkeeps _ => exact fun ev hev key _ => hkeeps ev hev key
        | holding pre post pop v _ hpop hkeeps _ =>
            rw [List.forall_mem_append] at hkeeps
            rw [List.forall_mem_append, List.forall_mem_cons]
            exact ⟨fun x hx key _ => hkeeps.1 x hx key, within_of_frame hsource hpop.2,
              fun x hx key _ => hkeeps.2 x hx key⟩
        | moved pre mid post pop push v hpop hpush hkeeps =>
            simp only [List.forall_mem_append] at hkeeps
            simp only [List.forall_mem_append, List.forall_mem_cons]
            exact ⟨fun x hx key _ => hkeeps.1.1 x hx key, within_of_frame hsource hpop.2,
              fun x hx key _ => hkeeps.1.2 x hx key, within_of_frame hdest hpush.2,
              fun x hx key _ => hkeeps.2 x hx key⟩

end Events

section Runs

variable {ι : Type} [DecidableEq ι] {content : String → StoredValue}
variable {commands : ι → ListCommand}
variable {c d : Pool KVOp KVOp.Res RustyAntError Keyspace fun i => (commands i).Reply}
variable {evs : List (KVEvent ι)}

theorem listCommand_run (hc : c.state.Versioned content)
    (hprog : ∀ i, c.prog i = (commands i).prog) (hrun : Pool.Run (casService content) c evs d)
    (i : ι) :
    Pool.Follows (commands i).prog (evs.filter fun ev => ev.who = i) (d.prog i) ∧
      ∀ ev ∈ evs.filter fun ev => ev.who = i, Served content ev := by
  have hfollows := hrun.follows i
  rw [hprog i] at hfollows
  exact ⟨hfollows, run_served hc hrun i⟩

theorem tally_run [Fintype ι] {K : Finset String} (hc : c.state.Versioned content)
    (hprog : ∀ i, c.prog i = (commands i).prog) (hkeys : ∀ i, (commands i).keys ⊆ K)
    (hrun : Pool.Run (casService content) c evs d) (hok : ∀ i e, d.prog i ≠ .done (.error e))
    (v : Bytes) :
    tally v (d.state.elements K) = tally v (c.state.elements K) +
      ∑ i, (tally v ((commands i).pushedSoFar (d.prog i)) -
        tally v ((commands i).poppedSoFar (d.prog i)) -
        tally v ((commands i).held (evs.filter fun ev => ev.who = i))) := by
  rw [hrun.sum_change fun s => tally v (Keyspace.elements K s), Pool.sum_by_program]
  refine congrArg _ (Finset.sum_congr rfl fun i _ => ?_)
  obtain ⟨hfollows, hserved⟩ := listCommand_run hc hprog hrun i
  exact (commands i).account hfollows hserved (hok i) (hkeys i) v

theorem entryAt_run {K : Finset String} (hc : c.state.Versioned content)
    (hprog : ∀ i, c.prog i = (commands i).prog) (hkeys : ∀ i, (commands i).keys ⊆ K)
    (hrun : Pool.Run (casService content) c evs d) (hok : ∀ i e, d.prog i ≠ .done (.error e))
    {key : String} (hkey : key ∉ K) : d.state.entryAt key = c.state.entryAt key := by
  by_contra hne
  obtain ⟨ev, hev, hchange⟩ := hrun.exists_change (fun s => Keyspace.entryAt s key) (Ne.symm hne)
  obtain ⟨hfollows, hserved⟩ := listCommand_run hc hprog hrun ev.who
  have hwithin := (commands ev.who).within hfollows hserved (hok ev.who) ev
    (List.mem_filter.mpr ⟨hev, by simp⟩)
  exact hchange (hwithin key fun hmem => hkey (hkeys ev.who hmem)).symm

end Runs

/-- In every reachable state of pushes, pops and moves that return no errors, the
elements of all lists together with those that moves hold between their pop and
their push are the initial ones and those pushed, less those returned by pops; and
every completed move has pushed the element it returned exactly once, at the
requested end.  `K` is any set of keys with those that the commands name; lists at
other keys stay as they are. -/
theorem list_elements_conserved {ι : Type} [Fintype ι] [DecidableEq ι]
    (commands : ι → ListCommand) (content : String → StoredValue) (K : Finset String)
    (c d : Pool KVOp KVOp.Res RustyAntError Keyspace fun i => (commands i).Reply)
    (evs : List (KVEvent ι)) (hc : c.state.Versioned content)
    (hprog : ∀ i, c.prog i = (commands i).prog) (hkeys : ∀ i, (commands i).keys ⊆ K)
    (hrun : Pool.Run (casService content) c evs d) (hok : ∀ i e, d.prog i ≠ .done (.error e)) :
    (d.state.elements K + ∑ i, (commands i).held (evs.filter fun ev => ev.who = i) +
        ∑ i, (commands i).poppedSoFar (d.prog i) =
      c.state.elements K + ∑ i, (commands i).pushedSoFar (d.prog i)) ∧
    (∀ key, key ∉ K → d.state.entryAt key = c.state.entryAt key) ∧
    ∀ i r, d.prog i = .done (.ok r) →
      (commands i).Delivered r (evs.filter fun ev => ev.who = i) := by
  refine ⟨?_, fun key hkey => entryAt_run hc hprog hkeys hrun hok hkey, fun i r hr => ?_⟩
  · ext v
    have htally := tally_run hc hprog hkeys hrun hok v
    rw [Finset.sum_sub_distrib, Finset.sum_sub_distrib, ← tally_sum, ← tally_sum,
      ← tally_sum] at htally
    rw [Multiset.count_add, Multiset.count_add, Multiset.count_add]
    unfold tally at htally
    omega
  · obtain ⟨hfollows, hserved⟩ := listCommand_run hc hprog hrun i
    rw [hr] at hfollows
    exact (commands i).delivered hfollows hserved

/-! ## A move and a pop on one list -/

namespace MoveAndPop

/-- The lists that are stored, under their own elements. -/
def content : String → StoredValue
  | "xy" => ⟨none, .list [[120], [121]]⟩
  | "y" => ⟨none, .list [[121]]⟩
  | _ => ⟨none, .list [[120]]⟩

def tokenOf (entry : StoredValue) : String :=
  if entry = content "xy" then "xy" else if entry = content "y" then "y" else "x"

/-- `LMOVE a b LEFT RIGHT` and `LPOP a`. -/
def commands : Fin 2 → ListCommand := ![.move "a" "b" true false, .pop "a" 1 true]

def start : Pool KVOp KVOp.Res RustyAntError Keyspace fun i => (commands i).Reply :=
  ⟨Function.update (fun _ => none) "a" (some (content "xy", "xy")), fun i => (commands i).prog⟩

/-- The pop of the move, then the `LPOP`; the move has not pushed yet. -/
def schedule : List (Fin 2) := [0, 0, 0, 1, 1]

theorem start_versioned : start.state.Versioned content := by
  intro key e token hkey
  by_cases hk : key = "a"
  · subst hk
    cases hkey
    rfl
  · dsimp only [start] at hkey
    rw [Function.update_of_ne hk] at hkey
    cases hkey

end MoveAndPop

open MoveAndPop in
theorem list_elements_conserved_on_moveAndPop :
    ∃ evs d, Pool.Run (casService MoveAndPop.content) MoveAndPop.start evs d ∧
      (MoveAndPop.commands 0).held (evs.filter fun ev => ev.who = 0) = {[120]} ∧
      d.prog 1 = .done (.ok [[121]]) ∧
      (d.state.elements {"a", "b"} +
          ∑ i, (MoveAndPop.commands i).held (evs.filter fun ev => ev.who = i) +
          ∑ i, (MoveAndPop.commands i).poppedSoFar (d.prog i) =
        MoveAndPop.start.state.elements {"a", "b"} +
          ∑ i, (MoveAndPop.commands i).pushedSoFar (d.prog i)) := by
  have hrun := Pool.exec_trace (faultless_service MoveAndPop.content MoveAndPop.tokenOf)
    MoveAndPop.schedule MoveAndPop.start
  have hkeys : ∀ i, (MoveAndPop.commands i).keys ⊆ {"a", "b"} := by decide
  have hok : ∀ (i : Fin 2) (e : RustyAntError), (Pool.exec (faultless MoveAndPop.content
      MoveAndPop.tokenOf) MoveAndPop.schedule MoveAndPop.start).prog i ≠ .done (.error e) := by
    intro i e
    match i with
    | 0 => nofun
    | 1 => nofun
  refine ⟨_, _, hrun, by decide +kernel, rfl, ?_⟩
  exact (list_elements_conserved MoveAndPop.commands MoveAndPop.content {"a", "b"} _ _ _
    start_versioned (fun _ => rfl) hkeys hrun hok).1

end RustyAnt
