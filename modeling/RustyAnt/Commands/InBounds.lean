import RustyAnt.Commands.ByIndex

/-!
# Stream parsers stay inside their arguments

Where the parsing of the stream handlers reads an argument that is not there.  The option
loops of `XREAD` and `XREADGROUP` have no bound on their index: they run past the last
argument when all that is given is complete options.
-/

namespace RustyAnt

open Lib Lib.Outcome RustyAnt.Stream

namespace Commands

/-! ## What panics -/

section Panics

variable {α β : Type} {args : List Bytes} {i : Nat}

theorem ofResult_ne_panic (r : Result α) : ofResult r ≠ .panic := by
  cases r <;> simp [ofResult]

theorem bind_ne_panic {x : Parsed α} {f : α → Parsed β} (hx : x ≠ .panic)
    (hf : ∀ a, x = .ok a → f a ≠ .panic) : (x >>= f) ≠ .panic := by
  intro h
  obtain ⟨a, ha, hpanic⟩ := (bind_eq_panic_of hx).mp h
  exact hf a ha hpanic

/-- Reading an argument that is there, and what is made of it, do not panic. -/
theorem lift_ne_panic {r : Result α} {f : α → Parsed β} (hf : ∀ a, r = .ok a → f a ≠ .panic) :
    (ofResult r >>= f) ≠ .panic := by
  apply bind_ne_panic (ofResult_ne_panic r)
  intro a ha
  cases r with
  | error e => cases ha
  | ok b =>
      cases ha
      exact hf _ rfl

theorem read_ne_panic {f : Bytes → Parsed β} (hi : i < args.length)
    (hf : ∀ arg, args[i]? = some arg → f arg ≠ .panic) :
    ((index args i : Parsed Bytes) >>= f) ≠ .panic := by
  rw [index_eq_ok hi]
  exact hf _ (List.getElem?_eq_getElem hi)

theorem eachAt_ne_panic {f : Bytes → Result α} {n : Nat} (h : i + n ≤ args.length) :
    eachAt f args i n ≠ .panic := by
  induction n generalizing i with
  | zero => simp [eachAt]
  | succ n ih =>
      unfold eachAt
      apply read_ne_panic (by omega)
      intro arg _
      apply lift_ne_panic
      intro x _
      apply bind_ne_panic (ih (by omega))
      intro rest _
      simp

/-! ### XADD -/

theorem fieldsAt_ne_panic {pairs : List Bytes} {j : Nat} (hpairs : pairs.length % 2 = 0)
    (hj : j % 2 = 0) : fieldsAt pairs j ≠ .panic := by
  generalize hleft : pairs.length - j = left
  induction left using Nat.strong_induction_on generalizing j with
  | h left ih =>
      rw [fieldsAt]
      split
      · apply read_ne_panic (by omega)
        intro field _
        apply lift_ne_panic
        intro field _
        apply read_ne_panic (by omega)
        intro value _
        apply bind_ne_panic (ih (pairs.length - (j + 2)) (by omega) (by omega) rfl)
        intro rest _
        simp
      · simp

theorem xaddTrimAt_ne_panic (hi : i < args.length) : xaddTrimAt args i ≠ .panic := by
  unfold xaddTrimAt
  apply read_ne_panic hi
  intro head _
  apply lift_ne_panic
  intro head _
  split
  · apply bind_ne_panic (eachAt_ne_panic (by omega))
    intro remaining _
    apply lift_ne_panic
    intro trim _
    simp
  · simp

theorem handleXaddAt_ne_panic (args : List Bytes) : handleXaddAt args ≠ .panic := by
  unfold handleXaddAt
  split
  · simp
  · apply read_ne_panic (by omega)
    intro key _
    apply lift_ne_panic
    intro key _
    apply read_ne_panic (by omega)
    intro a _
    apply lift_ne_panic
    intro nomkstream _
    have hhead : (if nomkstream then 2 else 1) < args.length := by
      split <;> omega
    apply bind_ne_panic (xaddTrimAt_ne_panic hhead)
    intro p _
    obtain ⟨trim, i⟩ := p
    dsimp only
    split
    · simp
    · apply read_ne_panic (by omega)
      intro id _
      apply lift_ne_panic
      intro id _
      apply lift_ne_panic
      intro spec _
      rw [slice_eq_ok (by omega) (Nat.le_refl _), ok_bind]
      split
      · simp
      · rename_i heven
        have heven' : ((args.drop (i + 1)).take (args.length - (i + 1))).length % 2 = 0 := by
          by_contra hodd
          exact heven (.inr hodd)
        apply bind_ne_panic (fieldsAt_ne_panic heven' (by omega))
        intro fields _
        simp

/-! ### XREAD and XREADGROUP -/

/-- Complete options and nothing after them. -/
inductive OptionsOnly (noackWord : Bool) : List Bytes → Prop where
  | nil : OptionsOnly noackWord []
  | count {tok n : Bytes} {rest : List Bytes} {c : Nat} : optionWord tok = .ok "COUNT" →
      parseStreamCount n "COUNT" = .ok c → OptionsOnly noackWord rest →
      OptionsOnly noackWord (tok :: n :: rest)
  | block {tok n : Bytes} {rest : List Bytes} {ms : Int} : optionWord tok = .ok "BLOCK" →
      parseI64 n "BLOCK" = .ok ms → OptionsOnly noackWord rest →
      OptionsOnly noackWord (tok :: n :: rest)
  | noack {tok : Bytes} {rest : List Bytes} : noackWord = true → optionWord tok = .ok "NOACK" →
      OptionsOnly noackWord rest → OptionsOnly noackWord (tok :: rest)

theorem optionsOnly_cons {noackWord : Bool} {tok : Bytes} {rest : List Bytes} :
    OptionsOnly noackWord (tok :: rest) ↔ ∃ word, optionWord tok = .ok word ∧
      (word = "COUNT" ∧ (∃ n rest' c, rest = n :: rest' ∧ parseStreamCount n "COUNT" = .ok c ∧
          OptionsOnly noackWord rest') ∨
        word = "BLOCK" ∧ (∃ n rest' ms, rest = n :: rest' ∧ parseI64 n "BLOCK" = .ok ms ∧
          OptionsOnly noackWord rest') ∨
        word = "NOACK" ∧ noackWord = true ∧ OptionsOnly noackWord rest) := by
  constructor
  · intro h
    cases h with
    | count hword hn hrest => exact ⟨_, hword, .inl ⟨rfl, _, _, _, rfl, hn, hrest⟩⟩
    | block hword hn hrest => exact ⟨_, hword, .inr (.inl ⟨rfl, _, _, _, rfl, hn, hrest⟩)⟩
    | noack hflag hword hrest => exact ⟨_, hword, .inr (.inr ⟨rfl, hflag, hrest⟩)⟩
  · rintro ⟨word, hword, ⟨rfl, n, rest', c, rfl, hn, hrest⟩ | ⟨rfl, n, rest', ms, rfl, hn, hrest⟩ |
      ⟨rfl, hflag, hrest⟩⟩
    · exact .count hword hn hrest
    · exact .block hword hn hrest
    · exact .noack hflag hword hrest

theorem bind_eq_panic_lift {r : Result α} {f : α → Parsed β} :
    (ofResult r >>= f) = .panic ↔ ∃ a, r = .ok a ∧ f a = .panic := by
  cases r with
  | error e => simp [ofResult]
  | ok a => simp [ofResult]

/-- An option that takes the next argument as its value. -/
theorem optionValue_panic_iff {γ : Type} {i : Nat} {f : Bytes → Result γ} {next : γ → Parsed β}
    {P : List Bytes → Prop} (hnext : ∀ c, next c = .panic ↔ P (args.drop (i + 2))) :
    (if args.length ≤ i + 1 then .err syntaxError
      else do
        let n ← index args (i + 1)
        let c ← ofResult (f n)
        next c) = .panic ↔
      ∃ n rest c, args.drop (i + 1) = n :: rest ∧ f n = .ok c ∧ P rest := by
  split
  case isTrue hend =>
    rw [List.drop_of_length_le hend]
    simp
  case isFalse hmore =>
    have hlt : i + 1 < args.length := by omega
    rw [index_eq_ok hlt, ok_bind, bind_eq_panic_lift, List.drop_eq_getElem_cons hlt]
    constructor
    · rintro ⟨c, hc, hrest⟩
      exact ⟨_, _, c, rfl, hc, (hnext c).mp hrest⟩
    · rintro ⟨n, rest, c, heq, hc, hrest⟩
      cases heq
      exact ⟨c, hc, (hnext c).mpr hrest⟩

/-- The loop runs past the last argument on complete options only. -/
theorem readOptsAt_panic_iff {noackWord : Bool} {i : Nat} {count : Option Nat} {noack : Bool} :
    readOptsAt noackWord args i count noack = .panic ↔ OptionsOnly noackWord (args.drop i) := by
  generalize hleft : args.length - i = left
  induction left using Nat.strong_induction_on generalizing i count noack with
  | h left ih =>
      rw [readOptsAt]
      split
      · rename_i hnone
        have hend : args.length ≤ i := List.getElem?_eq_none_iff.mp hnone
        rw [List.drop_of_length_le hend]
        exact iff_of_true rfl .nil
      · rename_i arg harg
        have hi : i < args.length := (List.getElem?_eq_some_iff.mp harg).1
        have hdrop : args.drop i = arg :: args.drop (i + 1) := by
          rw [List.drop_eq_getElem_cons hi]
          congr 1
          exact (List.getElem?_eq_some_iff.mp harg).2
        have hnext : ∀ (c : Option Nat) (na : Bool) (j : Nat), i < j →
            (readOptsAt noackWord args j c na = .panic ↔ OptionsOnly noackWord (args.drop j)) :=
          fun c na j hj => ih (args.length - j) (by omega) rfl
        rw [hdrop, optionsOnly_cons]
        refine (bind_eq_panic_lift (r := optionWord arg)).trans ?_
        apply exists_congr
        intro word
        apply and_congr_right
        intro _
        by_cases hcount : word = "COUNT"
        · subst hcount
          rw [if_pos rfl]
          refine (optionValue_panic_iff fun c => hnext (some c) noack (i + 2) (by omega)).trans ?_
          simp
        rw [if_neg hcount]
        by_cases hblock : word = "BLOCK"
        · subst hblock
          rw [if_pos rfl]
          refine (optionValue_panic_iff fun _ => hnext count noack (i + 2) (by omega)).trans ?_
          simp
        rw [if_neg hblock]
        by_cases hnoack : word = "NOACK" ∧ noackWord
        · rw [if_pos hnoack, hnext _ _ _ (Nat.lt_succ_self i)]
          simp [hnoack.1, hnoack.2]
        · rw [if_neg hnoack]
          apply iff_of_false
          · split
            · simp
            · simp
          · rintro (⟨hword, -⟩ | ⟨hword, -⟩ | ⟨hword, hflag, -⟩)
            · exact hcount hword
            · exact hblock hword
            · exact hnoack ⟨hword, hflag⟩

/-- The arguments of an `XREAD` that reads past them. -/
def XreadRunsOut (args : List Bytes) : Prop := 3 ≤ args.length ∧ OptionsOnly false args

/-- The arguments of an `XREADGROUP` that reads past them. -/
def XreadgroupRunsOut : List Bytes → Prop
  | word :: group :: consumer :: opts => 3 ≤ opts.length ∧ isWord word "GROUP" = .ok true ∧
      (∃ g, argAsStr group = .ok g) ∧ (∃ c, argAsStr consumer = .ok c) ∧ OptionsOnly true opts
  | _ => False

theorem streamsAt_ne_panic {unbalanced : String} {readId : Bytes → Result α} :
    streamsAt unbalanced readId args i ≠ .panic := by
  unfold streamsAt
  dsimp only
  split
  · simp
  · apply bind_ne_panic (eachAt_ne_panic (by omega))
    intro keys _
    apply bind_ne_panic (eachAt_ne_panic (by omega))
    intro ids _
    simp

theorem handleXreadAt_panic_iff (args : List Bytes) :
    handleXreadAt args = .panic ↔ XreadRunsOut args := by
  unfold handleXreadAt XreadRunsOut
  split
  · rename_i hshort
    have hnot : ¬ (3 ≤ args.length ∧ OptionsOnly false args) := by
      rintro ⟨hlen, -⟩
      omega
    exact iff_of_false (by simp) hnot
  · rename_i hlong
    have hrest : ∀ p : Option Nat × Bool × Nat, (do
        let streams ← streamsAt ("Unbalanced XREAD list of streams: for each stream key an " ++
          "ID or '$' must be specified.") xreadIdArg args p.2.2
        return (do
          let perStream ← Storage.xread p.1 streams
          return perStreamReply perStream : KV RespReply) : Parsed (KV RespReply)) ≠ .panic := by
      intro p
      apply bind_ne_panic streamsAt_ne_panic
      intro streams _
      simp
    rw [bind_eq_panic, readOptsAt_panic_iff]
    constructor
    · rintro (hopts | ⟨p, -, hpanic⟩)
      · exact ⟨by omega, hopts⟩
      · exact absurd hpanic (hrest p)
    · exact fun h => .inl h.2

theorem handleXreadgroupAt_panic_iff (args : List Bytes) :
    handleXreadgroupAt args = .panic ↔ XreadgroupRunsOut args := by
  unfold handleXreadgroupAt
  split
  · rename_i hshort
    apply iff_of_false (by simp)
    match args with
    | [] | [_] | [_, _] => exact id
    | word :: group :: consumer :: opts =>
        rintro ⟨hlen, -⟩
        simp at hshort
        omega
  · rename_i hlong
    match args with
    | [] | [_] | [_, _] => exact absurd (by simp) hlong
    | word :: group :: consumer :: opts =>
        have hlen : 3 ≤ opts.length := by
          simp at hlong
          omega
        have hrest : ∀ (g c : String) (p : Option Nat × Bool × Nat), (do
            let streams ← streamsAt ("Unbalanced XREADGROUP list of streams: for each stream " ++
              "key an ID or '>' must be specified.") xreadgroupIdArg
              (word :: group :: consumer :: opts) p.2.2
            return (do
              let now ← KV.nowMs
              let perStream ← Storage.xreadgroup g c p.1 p.2.1 now streams
              return perStreamReply perStream : KV RespReply) : Parsed (KV RespReply)) ≠
            .panic := by
          intro g c p
          apply bind_ne_panic streamsAt_ne_panic
          intro streams _
          simp
        refine (bind_eq_panic_lift (r := isWord word "GROUP")).trans ?_
        constructor
        · rintro ⟨isGroup, hword, hpanic⟩
          cases isGroup with
          | false => cases hpanic
          | true =>
              obtain ⟨g, hg, hpanic⟩ := (bind_eq_panic_lift (r := argAsStr group)).mp hpanic
              obtain ⟨c, hc, hpanic⟩ := (bind_eq_panic_lift (r := argAsStr consumer)).mp hpanic
              rcases bind_eq_panic.mp hpanic with hopts | ⟨p, -, hpanic⟩
              · exact ⟨hlen, hword, ⟨g, hg⟩, ⟨c, hc⟩, readOptsAt_panic_iff.mp hopts⟩
              · exact absurd hpanic (hrest g c p)
        · rintro ⟨-, hword, ⟨g, hg⟩, ⟨c, hc⟩, hopts⟩
          refine ⟨true, hword, (bind_eq_panic_lift (r := argAsStr group)).mpr ⟨g, hg, ?_⟩⟩
          refine (bind_eq_panic_lift (r := argAsStr consumer)).mpr ⟨c, hc, ?_⟩
          have hloop : readOptsAt true (word :: group :: consumer :: opts) 3 none false = .panic :=
            readOptsAt_panic_iff.mpr hopts
          exact bind_eq_panic.mpr (.inl hloop)

/-! ### The other handlers -/

theorem mkstreamAt_ne_panic {mkstream : Bool} : mkstreamAt args i mkstream ≠ .panic := by
  generalize hleft : args.length - i = left
  induction left using Nat.strong_induction_on generalizing i mkstream with
  | h left ih =>
      rw [mkstreamAt]
      split
      · apply read_ne_panic (by omega)
        intro tok _
        apply lift_ne_panic
        intro word _
        split
        · exact ih (args.length - (i + 1)) (by omega) rfl
        · split
          · split
            · simp
            · apply read_ne_panic (by omega)
              intro n _
              apply lift_ne_panic
              intro _ _
              exact ih (args.length - (i + 2)) (by omega) rfl
          · simp
      · simp

theorem readTwo_ne_panic {γ : Type} {f : Bytes → Result α} {g : Bytes → Result γ} {i j : Nat}
    {k : α → γ → Parsed β} (hi : i < args.length) (hj : j < args.length)
    (hk : ∀ a c, k a c ≠ .panic) :
    (do
      let a ← ofResult (f (← index args i))
      let c ← ofResult (g (← index args j))
      k a c : Parsed β) ≠ .panic := by
  apply read_ne_panic hi
  intro x _
  apply lift_ne_panic
  intro a _
  apply read_ne_panic hj
  intro y _
  apply lift_ne_panic
  intro c _
  exact hk a c

theorem xgroupOpAt_ne_panic (sub : String) (args : List Bytes) : xgroupOpAt sub args ≠ .panic := by
  unfold xgroupOpAt
  split
  · split
    · simp
    · apply readTwo_ne_panic (by omega) (by omega)
      intro group start
      apply bind_ne_panic mkstreamAt_ne_panic
      intro mkstream _
      simp
  · split
    · split
      · simp
      · apply readTwo_ne_panic (by omega) (by omega)
        intro group start
        simp
    · split
      · split
        · simp
        · apply read_ne_panic (by omega)
          intro group _
          apply lift_ne_panic
          intro group _
          simp
      · split
        · split
          · simp
          · apply readTwo_ne_panic (by omega) (by omega)
            intro group consumer
            simp
        · split
          · split
            · simp
            · apply readTwo_ne_panic (by omega) (by omega)
              intro group consumer
              simp
          · split
            · simp
            · simp

theorem handleXgroupAt_ne_panic (args : List Bytes) : handleXgroupAt args ≠ .panic := by
  unfold handleXgroupAt
  split
  · simp
  · apply readTwo_ne_panic (by omega) (by omega)
    intro sub key
    apply bind_ne_panic (xgroupOpAt_ne_panic sub args)
    intro op _
    cases op with
    | none => simp
    | some op => simp

theorem claimIdsAt_ne_panic : claimIdsAt args i ≠ .panic := by
  generalize hleft : args.length - i = left
  induction left using Nat.strong_induction_on generalizing i with
  | h left ih =>
      rw [claimIdsAt]
      split
      · apply read_ne_panic (by omega)
        intro tok _
        apply lift_ne_panic
        intro word _
        split
        · simp
        · apply lift_ne_panic
          intro id _
          apply bind_ne_panic (ih (args.length - (i + 1)) (by omega) rfl)
          intro p _
          simp
      · simp

theorem claimOptsAt_ne_panic {opts : XClaimOpts} : claimOptsAt args i opts ≠ .panic := by
  generalize hleft : args.length - i = left
  induction left using Nat.strong_induction_on generalizing i opts with
  | h left ih =>
      have hvalue : ∀ {γ : Type} {f : Bytes → Result γ} {k : γ → XClaimOpts},
          i < args.length → ¬ args.length ≤ i + 1 → (do
            let v ← ofResult (f (← index args (i + 1)))
            claimOptsAt args (i + 2) (k v) : Parsed XClaimOpts) ≠ .panic := by
        intro γ f k hi hmore
        apply read_ne_panic (by omega)
        intro arg _
        apply lift_ne_panic
        intro v _
        exact ih (args.length - (i + 2)) (by omega) rfl
      rw [claimOptsAt]
      split
      · rename_i hi
        apply read_ne_panic hi
        intro tok _
        apply lift_ne_panic
        intro word _
        split
        · split
          · simp
          · exact hvalue hi ‹_›
        · split
          · split
            · simp
            · exact hvalue hi ‹_›
          · split
            · split
              · simp
              · exact hvalue hi ‹_›
            · split
              · exact ih (args.length - (i + 1)) (by omega) rfl
              · split
                · exact ih (args.length - (i + 1)) (by omega) rfl
                · simp
      · simp

theorem handleXclaimAt_ne_panic (args : List Bytes) : handleXclaimAt args ≠ .panic := by
  unfold handleXclaimAt
  split
  · simp
  · apply readTwo_ne_panic (by omega) (by omega)
    intro key group
    apply readTwo_ne_panic (by omega) (by omega)
    intro consumer minIdle
    apply bind_ne_panic claimIdsAt_ne_panic
    intro p _
    simp

/-- The rest of an `XCLAIM`, once the clock has been read. -/
theorem handleXclaimAt_rest_ne_panic {f : Int → Parsed (KV RespReply)} (now : Int)
    (h : handleXclaimAt args = .ok f) : f now ≠ .panic := by
  unfold handleXclaimAt at h
  split at h
  · cases h
  · obtain ⟨_, -, h⟩ := bind_eq_ok.mp h
    obtain ⟨key, -, h⟩ := bind_eq_ok.mp h
    obtain ⟨_, -, h⟩ := bind_eq_ok.mp h
    obtain ⟨group, -, h⟩ := bind_eq_ok.mp h
    obtain ⟨_, -, h⟩ := bind_eq_ok.mp h
    obtain ⟨consumer, -, h⟩ := bind_eq_ok.mp h
    obtain ⟨_, -, h⟩ := bind_eq_ok.mp h
    obtain ⟨minIdle, -, h⟩ := bind_eq_ok.mp h
    obtain ⟨⟨ids, i⟩, -, h⟩ := bind_eq_ok.mp h
    cases h
    apply bind_ne_panic claimOptsAt_ne_panic
    intro opts _
    simp

theorem optionalStrAt_ne_panic : optionalStrAt args i ≠ .panic := by
  unfold optionalStrAt
  split
  · apply read_ne_panic (by omega)
    intro arg _
    apply lift_ne_panic
    intro s _
    simp
  · simp

theorem pendingDetailAt_ne_panic (key group : String) (idleMs : Option Int) :
    pendingDetailAt key group idleMs args i ≠ .panic := by
  unfold pendingDetailAt
  split
  · simp
  · apply readTwo_ne_panic (by omega) (by omega)
    intro start stop
    apply read_ne_panic (by omega)
    intro count _
    apply lift_ne_panic
    intro count _
    apply bind_ne_panic optionalStrAt_ne_panic
    intro consumer _
    simp

theorem handleXpendingAt_ne_panic (args : List Bytes) : handleXpendingAt args ≠ .panic := by
  unfold handleXpendingAt
  split
  · simp
  · apply readTwo_ne_panic (by omega) (by omega)
    intro key group
    split
    · simp
    · apply read_ne_panic (by omega)
      intro first _
      apply lift_ne_panic
      intro isIdle _
      split
      · split
        · simp
        · apply read_ne_panic (by omega)
          intro ms _
          apply lift_ne_panic
          intro ms _
          exact pendingDetailAt_ne_panic key group (some ms)
      · exact pendingDetailAt_ne_panic key group none

theorem autoclaimOptsAt_ne_panic {count : Nat} {justId : Bool} :
    autoclaimOptsAt args i count justId ≠ .panic := by
  generalize hleft : args.length - i = left
  induction left using Nat.strong_induction_on generalizing i count justId with
  | h left ih =>
      rw [autoclaimOptsAt]
      split
      · apply read_ne_panic (by omega)
        intro tok _
        apply lift_ne_panic
        intro word _
        split
        · split
          · simp
          · apply read_ne_panic (by omega)
            intro n _
            apply lift_ne_panic
            intro n _
            exact ih (args.length - (i + 2)) (by omega) rfl
        · split
          · exact ih (args.length - (i + 1)) (by omega) rfl
          · simp
      · simp

theorem handleXautoclaimAt_ne_panic (args : List Bytes) : handleXautoclaimAt args ≠ .panic := by
  unfold handleXautoclaimAt
  split
  · simp
  · apply readTwo_ne_panic (by omega) (by omega)
    intro key group
    apply readTwo_ne_panic (by omega) (by omega)
    intro consumer minIdle
    apply read_ne_panic (by omega)
    intro start _
    apply lift_ne_panic
    intro start _
    apply bind_ne_panic autoclaimOptsAt_ne_panic
    intro p _
    simp

end Panics

/-- No stream handler reads an argument that is not there. -/
structure InBounds (args : List Bytes) : Prop where
  xread : handleXreadAt args ≠ .panic
  xreadgroup : handleXreadgroupAt args ≠ .panic
  xadd : handleXaddAt args ≠ .panic
  xgroup : handleXgroupAt args ≠ .panic
  xclaim : handleXclaimAt args ≠ .panic
  xclaimRest : ∀ f now, handleXclaimAt args = .ok f → f now ≠ .panic
  xpending : handleXpendingAt args ≠ .panic
  xautoclaim : handleXautoclaimAt args ≠ .panic

theorem stream_parsers_in_bounds_iff (args : List Bytes) :
    InBounds args ↔ ¬ XreadRunsOut args ∧ ¬ XreadgroupRunsOut args := by
  constructor
  · intro h
    have hread := h.xread
    have hreadgroup := h.xreadgroup
    rw [Ne, handleXreadAt_panic_iff] at hread
    rw [Ne, handleXreadgroupAt_panic_iff] at hreadgroup
    exact ⟨hread, hreadgroup⟩
  · rintro ⟨hread, hreadgroup⟩
    constructor
    · rwa [Ne, handleXreadAt_panic_iff]
    · rwa [Ne, handleXreadgroupAt_panic_iff]
    · exact handleXaddAt_ne_panic args
    · exact handleXgroupAt_ne_panic args
    · exact handleXclaimAt_ne_panic args
    · exact fun f now h => handleXclaimAt_rest_ne_panic now h
    · exact handleXpendingAt_ne_panic args
    · exact handleXautoclaimAt_ne_panic args

/-- `XREAD COUNT 1 BLOCK 0` -/
theorem stream_parsers_run_out : ¬ InBounds (["COUNT", "1", "BLOCK", "0"].map Rdb.asBytes) := by
  intro h
  apply h.xread
  rw [handleXreadAt_panic_iff]
  have hcount : parseStreamCount (Rdb.asBytes "1") "COUNT" = .ok 1 := rfl
  have hblock : parseI64 (Rdb.asBytes "0") "BLOCK" = .ok 0 := rfl
  exact ⟨by decide, .count rfl hcount (.block rfl hblock .nil)⟩

end Commands

end RustyAnt
