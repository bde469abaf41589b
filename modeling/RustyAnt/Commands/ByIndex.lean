import RustyAnt.Commands.Streams
import RustyAnt.Lib.Outcome

/-!
# The stream handlers, index by index

The argument parsing of the stream handlers of `src/commands.rs` as it stands there: by
index into `args`, where an index past the end is a panic.  What a handler comes to is the
program it then runs on the storage.
-/

namespace RustyAnt

open Lib Lib.Outcome RustyAnt.Stream

namespace Commands

/-- What parsing comes to. -/
abbrev Parsed (α : Type) := Outcome RustyAntError α

def ofResult {α : Type} : Result α → Parsed α
  | .ok a => .ok a
  | .error e => .err e

instance : MonadLift (Except RustyAntError) (Outcome RustyAntError) where
  monadLift := ofResult

/-- The `f` of `n` arguments from the `i`-th on. -/
def eachAt {α : Type} (f : Bytes → Result α) (args : List Bytes) : (i n : Nat) → Parsed (List α)
  | _, 0 => .ok []
  | i, n + 1 => do
      let x ← f (← index args i)
      let rest ← eachAt f args (i + 1) n
      return x :: rest

/-! ## XADD -/

/-- `fields.push((arg_as_string(&pairs[j])?, pairs[j + 1].to_vec()))` while `j` is inside. -/
def fieldsAt (pairs : List Bytes) (j : Nat) : Parsed (List (String × Bytes)) :=
  if j < pairs.length then do
    let field ← argAsStr (← index pairs j)
    let value ← index pairs (j + 1)
    let rest ← fieldsAt pairs (j + 2)
    return (field, value) :: rest
  else .ok []
termination_by pairs.length - j

/-- The trim clause at `i`, and the index after it. -/
def xaddTrimAt (args : List Bytes) (i : Nat) :
    Parsed (Option (TrimBound × Option Nat) × Nat) := do
  let head ← optionWord (← index args i)
  if head = "MAXLEN" ∨ head = "MINID" then
    let remaining ← eachAt argAsStr args i (args.length - i)
    let (bound, limit, rest) ← parseTrim remaining
    return (some (bound, limit), i + (remaining.length - rest.length))
  else return (none, i)

def handleXaddAt (args : List Bytes) : Parsed (KV RespReply) := do
  if args.length < 4 then .err (.wrongArity "XADD")
  else
    let key ← argAsStr (← index args 0)
    let nomkstream ← isWord (← index args 1) "NOMKSTREAM"
    let (trim, i) ← xaddTrimAt args (if nomkstream then 2 else 1)
    if args.length ≤ i then .err (.wrongArity "XADD")
    else
      let spec ← AddIdSpec.parse (← argText (← index args i))
      let pairs ← slice args (i + 1) args.length
      if pairs = [] ∨ pairs.length % 2 ≠ 0 then .err (.wrongArity "XADD")
      else
        let fields ← fieldsAt pairs 0
        return do
          let result ← Storage.xadd key spec fields nomkstream trim
          return result.elim .nil streamIdBulk

/-! ## XREAD and XREADGROUP -/

/-- The options before `STREAMS`, a loop without a bound on `i`; `NOACK` is a word of
`XREADGROUP` only. -/
def readOptsAt (noackWord : Bool) (args : List Bytes) (i : Nat) (count : Option Nat)
    (noack : Bool) : Parsed (Option Nat × Bool × Nat) :=
  match h : args[i]? with
  | none => .panic
  | some arg => do
      have hi : i < args.length := (List.getElem?_eq_some_iff.mp h).1
      let tok ← optionWord arg
      if tok = "COUNT" then
        if args.length ≤ i + 1 then .err syntaxError
        else
          let n ← parseStreamCount (← index args (i + 1)) "COUNT"
          readOptsAt noackWord args (i + 2) (some n) noack
      else if tok = "BLOCK" then
        if args.length ≤ i + 1 then .err syntaxError
        else
          let _ ← parseI64 (← index args (i + 1)) "BLOCK"
          readOptsAt noackWord args (i + 2) count noack
      else if tok = "NOACK" ∧ noackWord then readOptsAt noackWord args (i + 1) count true
      else if tok = "STREAMS" then .ok (count, noack, i + 1)
      else .err syntaxError
termination_by args.length - i

/-- The keys and the ids after `STREAMS`. -/
def streamsAt {α : Type} (unbalanced : String) (readId : Bytes → Result α) (args : List Bytes)
    (i : Nat) : Parsed (List (String × α)) := do
  let remaining := args.length - i
  if remaining = 0 ∨ remaining % 2 ≠ 0 then .err (.parse unbalanced)
  else
    let half := remaining / 2
    let keys ← eachAt argAsStr args i half
    let ids ← eachAt readId args (i + half) half
    return keys.zip ids

def handleXreadAt (args : List Bytes) : Parsed (KV RespReply) := do
  if args.length < 3 then .err (.wrongArity "XREAD")
  else
    let (count, _, i) ← readOptsAt false args 0 none false
    let streams ← streamsAt ("Unbalanced XREAD list of streams: for each stream key an " ++
      "ID or '$' must be specified.") xreadIdArg args i
    return do
      let perStream ← Storage.xread count streams
      return perStreamReply perStream

def handleXreadgroupAt (args : List Bytes) : Parsed (KV RespReply) := do
  if args.length < 6 then .err (.wrongArity "XREADGROUP")
  else if !(← isWord (← index args 0) "GROUP") then .err syntaxError
  else
    let group ← argAsStr (← index args 1)
    let consumer ← argAsStr (← index args 2)
    let (count, noack, i) ← readOptsAt true args 3 none false
    let streams ← streamsAt ("Unbalanced XREADGROUP list of streams: for each stream " ++
      "key an ID or '>' must be specified.") xreadgroupIdArg args i
    return do
      let now ← KV.nowMs
      let perStream ← Storage.xreadgroup group consumer count noack now streams
      return perStreamReply perStream

/-! ## XGROUP -/

/-- The tail of `XGROUP CREATE`, while `i` is inside. -/
def mkstreamAt (args : List Bytes) (i : Nat) (mkstream : Bool) : Parsed Bool :=
  if i < args.length then do
    let tok ← optionWord (← index args i)
    if tok = "MKSTREAM" then mkstreamAt args (i + 1) true
    else if tok = "ENTRIESREAD" then
      if args.length ≤ i + 1 then .err syntaxError
      else
        let _ ← parseI64 (← index args (i + 1)) "ENTRIESREAD"
        mkstreamAt args (i + 2) mkstream
    else .err syntaxError
  else .ok mkstream
termination_by args.length - i

/-- The operation of an `XGROUP` and whether its reply is `OK`; `none` for `HELP`. -/
def xgroupOpAt (sub : String) (args : List Bytes) : Parsed (Option (XGroupOp × Bool)) := do
  if sub = "CREATE" then
    if args.length < 4 then .err (.wrongArity "XGROUP CREATE")
    else
      let group ← argAsStr (← index args 2)
      let start ← groupStartArg (← index args 3)
      let mkstream ← mkstreamAt args 4 false
      return some (.create group start mkstream, true)
  else if sub = "SETID" then
    if args.length < 4 then .err (.wrongArity "XGROUP SETID")
    else
      let group ← argAsStr (← index args 2)
      let start ← groupStartArg (← index args 3)
      return some (.setId group start, true)
  else if sub = "DESTROY" then
    if args.length ≠ 3 then .err (.wrongArity "XGROUP DESTROY")
    else
      let group ← argAsStr (← index args 2)
      return some (.destroy group, false)
  else if sub = "CREATECONSUMER" then
    if args.length ≠ 4 then .err (.wrongArity "XGROUP CREATECONSUMER")
    else
      let group ← argAsStr (← index args 2)
      let consumer ← argAsStr (← index args 3)
      return some (.createConsumer group consumer, false)
  else if sub = "DELCONSUMER" then
    if args.length ≠ 4 then .err (.wrongArity "XGROUP DELCONSUMER")
    else
      let group ← argAsStr (← index args 2)
      let consumer ← argAsStr (← index args 3)
      return some (.delConsumer group consumer, false)
  else if sub = "HELP" then return none
  else .err (.parse ("unsupported XGROUP subcommand: " ++ sub))

def handleXgroupAt (args : List Bytes) : Parsed (KV RespReply) := do
  if args.length < 2 then .err (.wrongArity "XGROUP")
  else
    let sub ← optionWord (← index args 0)
    let key ← argAsStr (← index args 1)
    match ← xgroupOpAt sub args with
    | none => return return .texts ["XGROUP CREATE | SETID | DESTROY | CREATECONSUMER | DELCONSUMER"]
    | some (op, isOk) =>
        return do
          let n ← Storage.xgroup key op
          return if isOk then .ok else .integer n

/-! ## XCLAIM -/

/-- The ids up to the first option word, and the index where they end. -/
def claimIdsAt (args : List Bytes) (i : Nat) : Parsed (List StreamId × Nat) :=
  if i < args.length then do
    let tok ← index args i
    if isClaimOption (← optionWord tok) then return ([], i)
    else
      let id ← StreamId.parse tok
      let (ids, j) ← claimIdsAt args (i + 1)
      return (id :: ids, j)
  else .ok ([], i)
termination_by args.length - i

def claimOptsAt (args : List Bytes) (i : Nat) (opts : XClaimOpts) : Parsed XClaimOpts :=
  if i < args.length then do
    let tok ← optionWord (← index args i)
    if tok = "IDLE" then
      if args.length ≤ i + 1 then .err syntaxError
      else
        let ms ← parseI64 (← index args (i + 1)) "IDLE"
        claimOptsAt args (i + 2) { opts with idleMs := some ms }
    else if tok = "TIME" then
      if args.length ≤ i + 1 then .err syntaxError
      else
        let ms ← parseI64 (← index args (i + 1)) "TIME"
        claimOptsAt args (i + 2) { opts with timeMs := some ms }
    else if tok = "RETRYCOUNT" then
      if args.length ≤ i + 1 then .err syntaxError
      else
        let n ← parseStreamCount (← index args (i + 1)) "RETRYCOUNT"
        claimOptsAt args (i + 2) { opts with retryCount := some n }
    else if tok = "FORCE" then claimOptsAt args (i + 1) { opts with force := true }
    else if tok = "JUSTID" then claimOptsAt args (i + 1) { opts with justId := true }
    else .err syntaxError
  else .ok opts
termination_by args.length - i

/-- The clock is read between the ids and the options. -/
def handleXclaimAt (args : List Bytes) : Parsed (Int → Parsed (KV RespReply)) := do
  if args.length < 5 then .err (.wrongArity "XCLAIM")
  else
    let key ← argAsStr (← index args 0)
    let group ← argAsStr (← index args 1)
    let consumer ← argAsStr (← index args 2)
    let minIdle ← parseI64 (← index args 3) "min-idle-time"
    let (ids, i) ← claimIdsAt args 4
    return fun now => do
      let opts ← claimOptsAt args i { nowMs := now }
      return do
        let claimed ← Storage.xclaim key group consumer minIdle ids opts
        return .array (claimed.map claimResultToReply)

/-! ## XPENDING -/

def optionalStrAt (args : List Bytes) (i : Nat) : Parsed (Option String) :=
  if i < args.length then do
    let s ← argAsStr (← index args i)
    return some s
  else .ok none

def pendingDetailAt (key group : String) (idleMs : Option Int) (args : List Bytes) (i : Nat) :
    Parsed (KV RespReply) := do
  if args.length < i + 3 then .err syntaxError
  else
    let start ← rangeIdArg (← index args i)
    let stop ← rangeIdArg (← index args (i + 1))
    let count ← parseStreamCount (← index args (i + 2)) "count"
    let consumer ← optionalStrAt args (i + 3)
    return do
      let now ← KV.nowMs
      let rows ← Storage.xpendingDetail key group start stop count consumer idleMs now
      return .array (rows.map fun r => .array [streamIdBulk r.id, .text r.consumer,
        .integer r.idleMs, count64 r.deliveryCount])

def handleXpendingAt (args : List Bytes) : Parsed (KV RespReply) := do
  if args.length < 2 then .err (.wrongArity "XPENDING")
  else
    let key ← argAsStr (← index args 0)
    let group ← argAsStr (← index args 1)
    if args.length = 2 then
      return do
        let summary ← Storage.xpendingSummary key group
        return pendingSummaryReply summary
    else if ← isWord (← index args 2) "IDLE" then
      if args.length ≤ 3 then .err syntaxError
      else
        let ms ← parseI64 (← index args 3) "IDLE"
        pendingDetailAt key group (some ms) args 4
    else pendingDetailAt key group none args 2

/-! ## XAUTOCLAIM -/

def autoclaimOptsAt (args : List Bytes) (i count : Nat) (justId : Bool) : Parsed (Nat × Bool) :=
  if i < args.length then do
    let tok ← optionWord (← index args i)
    if tok = "COUNT" then
      if args.length ≤ i + 1 then .err syntaxError
      else
        let n ← parseStreamCount (← index args (i + 1)) "COUNT"
        autoclaimOptsAt args (i + 2) n justId
    else if tok = "JUSTID" then autoclaimOptsAt args (i + 1) count true
    else .err syntaxError
  else .ok (count, justId)
termination_by args.length - i

def handleXautoclaimAt (args : List Bytes) : Parsed (KV RespReply) := do
  if args.length < 5 then .err (.wrongArity "XAUTOCLAIM")
  else
    let key ← argAsStr (← index args 0)
    let group ← argAsStr (← index args 1)
    let consumer ← argAsStr (← index args 2)
    let minIdle ← parseI64 (← index args 3) "min-idle-time"
    let start ← streamIdArg (← index args 4)
    let (count, justId) ← autoclaimOptsAt args 5 100 false
    return do
      let now ← KV.nowMs
      let out ← Storage.xautoclaim key group consumer minIdle start count justId now
      return .array [streamIdBulk out.nextCursor, .array (out.claimed.map claimResultToReply),
        .array (out.deletedIds.map streamIdBulk)]

/-! ## The same handlers on the arguments left -/

section Agreement

variable {α β : Type} {args : List Bytes} {i : Nat}

/-- What was parsed, as a program; a panic ends it. -/
def parsedProg : Parsed (KV α) → KV α
  | .ok p => p
  | .err e => Prog.fail e
  | .panic => Prog.fail aborted

theorem prog_step {r : Result α} {F : α → KV β} {G : α → Parsed (KV β)}
    (h : ∀ a, r = .ok a → F a = parsedProg (G a)) :
    (Prog.ofExcept r).bind F = parsedProg (ofResult r >>= G) := by
  cases r with
  | error e => rfl
  | ok a => exact h a rfl

theorem parser_step {γ : Type} {r : Result α} {F : α → Result γ} {k : γ → KV β}
    {G : α → Parsed (KV β)} (h : ∀ a, (Prog.ofExcept (F a)).bind k = parsedProg (G a)) :
    (Prog.ofExcept (r >>= F)).bind k = parsedProg (ofResult r >>= G) := by
  cases r with
  | error e => rfl
  | ok a => exact h a

theorem eachAt_eq {f : Bytes → Result α} {n : Nat} (h : i + n ≤ args.length) :
    eachAt f args i n = ofResult (((args.drop i).take n).mapM f) := by
  induction n generalizing i with
  | zero => rfl
  | succ n ih =>
      have hi : i < args.length := by omega
      rw [eachAt, index_eq_ok hi, ok_bind, ih (by omega), List.drop_eq_getElem_cons hi,
        List.take_succ_cons, List.mapM_cons]
      cases f args[i] with
      | error e => rfl
      | ok x =>
          cases ((args.drop (i + 1)).take n).mapM f with
          | error e => rfl
          | ok rest => rfl

theorem streamsAt_eq {unbalanced : String} {readId : Bytes → Result α} (hi : i ≤ args.length) :
    streamsAt unbalanced readId args i =
      ofResult (splitStreams unbalanced (args.drop i)) >>= fun p =>
        ofResult (argsAsStrings p.1) >>= fun keys =>
          ofResult (p.2.mapM readId) >>= fun ids => .ok (keys.zip ids) := by
  have hlen : (args.drop i).length = args.length - i := List.length_drop
  unfold streamsAt splitStreams
  dsimp only
  by_cases hbad : args.length - i = 0 ∨ (args.length - i) % 2 ≠ 0
  · have hbad' : args.drop i = [] ∨ (args.drop i).length % 2 ≠ 0 := by
      rw [hlen, List.drop_eq_nil_iff]
      omega
    rw [if_pos hbad, if_pos hbad']
    rfl
  · have hbad' : ¬ (args.drop i = [] ∨ (args.drop i).length % 2 ≠ 0) := by
      rw [hlen, List.drop_eq_nil_iff]
      omega
    have hhalf : i + (args.length - i) / 2 + (args.length - i) / 2 ≤ args.length := by omega
    have htake : (args.drop (i + (args.length - i) / 2)).take ((args.length - i) / 2) =
        (args.drop i).drop ((args.length - i) / 2) := by
      rw [List.drop_drop]
      apply List.take_of_length_le
      rw [List.length_drop]
      omega
    rw [if_neg hbad, if_neg hbad', eachAt_eq (by omega), eachAt_eq hhalf, hlen, htake]
    rw [List.splitAt_eq]
    rfl

/-- The result is not the error that stands for a panic. -/
def Regular (r : Result α) : Prop := r ≠ .error aborted

theorem Regular.ok (a : α) : Regular (.ok a : Result α) := nofun

theorem Regular.bind {r : Result α} {f : α → Result β} (hr : Regular r)
    (hf : ∀ a, Regular (f a)) : Regular (r >>= f) := by
  cases r with
  | error e =>
      intro h
      cases h
      exact hr rfl
  | ok a => exact hf a

theorem argAsStr_regular (arg : Bytes) : Regular (argAsStr arg) := by
  unfold argAsStr
  split
  · exact .ok _
  · exact nofun

theorem optionWord_regular (arg : Bytes) : Regular (optionWord arg) :=
  .bind (argAsStr_regular arg) fun _ => .ok _

theorem parseI64_regular (arg : Bytes) (label : String) : Regular (parseI64 arg label) := by
  apply Regular.bind (argAsStr_regular arg)
  intro _
  split
  · exact .ok _
  · exact nofun

theorem parseStreamCount_regular (arg : Bytes) (label : String) :
    Regular (parseStreamCount arg label) := by
  apply Regular.bind (parseI64_regular arg label)
  intro n
  split
  · exact nofun
  · exact .ok _

def ofAborting : Result α → Parsed α
  | .ok a => .ok a
  | .error e => if e = aborted then .panic else .err e

theorem ofResult_eq_ofAborting {r : Result α} (h : Regular r) : ofResult r = ofAborting r := by
  cases r with
  | ok a => rfl
  | error e =>
      have hne : e ≠ aborted := by
        rintro rfl
        exact h rfl
      exact (if_neg hne).symm

theorem ofAborting_bind (r : Result α) (f : α → Result β) :
    ofAborting (r >>= f) = ofAborting r >>= fun a => ofAborting (f a) := by
  cases r with
  | ok a => rfl
  | error e =>
      by_cases he : e = aborted
      · subst he
        rfl
      · have hr : ofAborting (.error e : Result α) = .err e := if_neg he
        have hf : ofAborting (.error e : Result β) = .err e := if_neg he
        rw [hr]
        exact hf

theorem parsedProg_error (e : RustyAntError) (f : α → Parsed (KV β)) :
    parsedProg (ofAborting (.error e) >>= f) = Prog.fail e := by
  by_cases he : e = aborted
  · subst he
    rfl
  · have hr : ofAborting (.error e : Result α) = .err e := if_neg he
    rw [hr]
    rfl

theorem aborting_prog_step {r : Result α} {F : α → KV β} {G : α → Parsed (KV β)}
    (h : ∀ a, r = .ok a → F a = parsedProg (G a)) :
    (Prog.ofExcept r).bind F = parsedProg (ofAborting r >>= G) := by
  cases r with
  | ok a => exact h a rfl
  | error e => exact (parsedProg_error e G).symm

theorem aborting_parser_step {γ : Type} {r : Result α} {F : α → Result γ} {k : γ → KV β}
    {G : α → Parsed (KV β)} (h : ∀ a, r = .ok a → (Prog.ofExcept (F a)).bind k = parsedProg (G a)) :
    (Prog.ofExcept (r >>= F)).bind k = parsedProg (ofAborting r >>= G) := by
  cases r with
  | ok a => exact h a rfl
  | error e => exact (parsedProg_error e G).symm

theorem parseXreadOpts_suffix {opts rest : List Bytes} {count c : Option Nat}
    (h : parseXreadOpts opts count = .ok (c, rest)) : rest <:+ opts := by
  induction opts, count using parseXreadOpts.induct with
  | case1 count => cases h
  | case2 count tok =>
      rw [parseXreadOpts] at h
      obtain ⟨word, -, h⟩ := Result.bind_eq_ok.mp h
      split at h
      · cases h
        exact List.nil_suffix
      · cases h
  | case3 tok n rest' count ih1 ih2 =>
      have htail : rest' <:+ tok :: n :: rest' := ⟨[tok, n], rfl⟩
      rw [parseXreadOpts] at h
      obtain ⟨word, -, h⟩ := Result.bind_eq_ok.mp h
      split at h
      · obtain ⟨k, -, h⟩ := Result.bind_eq_ok.mp h
        exact (ih1 k h).trans htail
      · obtain ⟨ms, -, h⟩ := Result.bind_eq_ok.mp h
        exact (ih2 h).trans htail
      · cases h
        exact ⟨[tok], rfl⟩
      · cases h

theorem lift_agrees {γ : Type} {r : Result α} {F : α → Parsed γ} {G : α → Result β}
    {H : β → Parsed γ} (hr : Regular r) (h : ∀ a, F a = ofAborting (G a) >>= H) :
    (ofResult r >>= F) = ofAborting (r >>= G) >>= H := by
  rw [ofAborting_bind, ofResult_eq_ofAborting hr]
  cases r with
  | ok a => exact h a
  | error e =>
      have hne : e ≠ aborted := by
        rintro rfl
        exact hr rfl
      have herr : ∀ {δ : Type}, ofAborting (.error e : Result δ) = .err e := if_neg hne
      rw [herr]
      rfl

theorem parseXreadOpts_one (tok : Bytes) (count : Option Nat) :
    parseXreadOpts [tok] count = optionWord tok >>= fun word =>
      if word = "STREAMS" then .ok (count, []) else .error syntaxError := by
  rw [parseXreadOpts]

theorem parseXreadOpts_more (tok n : Bytes) (rest : List Bytes) (count : Option Nat) :
    parseXreadOpts (tok :: n :: rest) count = optionWord tok >>= fun word =>
      if word = "COUNT" then parseStreamCount n "COUNT" >>= fun c => parseXreadOpts rest (some c)
      else if word = "BLOCK" then parseI64 n "BLOCK" >>= fun _ => parseXreadOpts rest count
      else if word = "STREAMS" then .ok (count, n :: rest)
      else .error syntaxError := by
  rw [parseXreadOpts]
  congr 1
  funext word
  split
  · rw [if_pos rfl]
  · rw [if_neg (by decide), if_pos rfl]
  · rw [if_neg (by decide), if_neg (by decide), if_pos rfl]
  · rename_i hcount hblock hstreams
    rw [if_neg hcount, if_neg hblock, if_neg hstreams]

/-- The loop of `XREAD` on the arguments from `i` on. -/
theorem readOptsAt_xread {count : Option Nat} {noack : Bool} :
    readOptsAt false args i count noack = ofAborting (parseXreadOpts (args.drop i) count) >>=
      fun p => .ok (p.1, noack, args.length - p.2.length) := by
  generalize hleft : args.length - i = left
  induction left using Nat.strong_induction_on generalizing i count noack with
  | h left ih =>
      rw [readOptsAt]
      split
      · rename_i hnone
        have hend : args.length ≤ i := List.getElem?_eq_none_iff.mp hnone
        rw [List.drop_of_length_le hend]
        rfl
      · rename_i arg harg
        obtain ⟨hi, rfl⟩ := List.getElem?_eq_some_iff.mp harg
        have hnext : ∀ c : Option Nat, readOptsAt false args (i + 2) c noack =
            ofAborting (parseXreadOpts (args.drop (i + 2)) c) >>=
              fun p => .ok (p.1, noack, args.length - p.2.length) := by
          intro c
          exact ih (args.length - (i + 2)) (by omega) rfl
        rw [List.drop_eq_getElem_cons hi]
        by_cases hmore : i + 1 < args.length
        · have hpast : ¬ args.length ≤ i + 1 := Nat.not_le.mpr hmore
          have hread : (index args (i + 1) : Parsed Bytes) = .ok args[i + 1] := index_eq_ok hmore
          rw [List.drop_eq_getElem_cons hmore, parseXreadOpts_more]
          apply lift_agrees (optionWord_regular _)
          intro word
          rw [if_neg hpast, if_neg hpast, hread, ok_bind, ok_bind]
          split
          · exact lift_agrees (parseStreamCount_regular _ _) fun n => hnext (some n)
          · split
            · exact lift_agrees (parseI64_regular _ _) fun _ => hnext count
            · rw [if_neg (by simp)]
              split
              · have hpos : args.length - (args[i + 1] :: args.drop (i + 1 + 1)).length = i + 1 := by
                  rw [List.length_cons, List.length_drop]
                  omega
                show ok (count, noack, i + 1) = ok (count, noack, _)
                rw [hpos]
              · rfl
        · have hlast : args.drop (i + 1) = [] := List.drop_of_length_le (by omega)
          have hpast : args.length ≤ i + 1 := Nat.not_lt.mp hmore
          rw [hlast, parseXreadOpts_one]
          apply lift_agrees (optionWord_regular _)
          intro word
          rw [if_pos hpast, if_pos hpast]
          by_cases hstreams : word = "STREAMS"
          · subst hstreams
            have hpos : i + 1 = args.length - ([] : List Bytes).length := by
              rw [List.length_nil]
              omega
            simp only [if_pos, reduceIte, String.reduceEq, false_and]
            rw [hpos]
            rfl
          · simp only [hstreams, if_false, Bool.false_eq_true, and_false, ite_self]
            rfl

theorem parseXreadgroupOpts_one (tok : Bytes) (opts : Option Nat × Bool) :
    parseXreadgroupOpts [tok] opts = optionWord tok >>= fun word =>
      if word = "NOACK" then .error aborted
      else if word = "STREAMS" then .ok (opts.1, opts.2, []) else .error syntaxError := by
  obtain ⟨count, noack⟩ := opts
  rw [parseXreadgroupOpts]
  congr 1
  funext word
  split
  · rw [if_pos rfl]
  · rw [if_neg (by decide), if_pos rfl]
  · rename_i hnoack hstreams
    rw [if_neg hnoack, if_neg hstreams]

theorem parseXreadgroupOpts_more (tok n : Bytes) (rest : List Bytes) (count : Option Nat)
    (noack : Bool) :
    parseXreadgroupOpts (tok :: n :: rest) (count, noack) = optionWord tok >>= fun word =>
      if word = "COUNT" then
        parseStreamCount n "COUNT" >>= fun c => parseXreadgroupOpts rest (some c, noack)
      else if word = "BLOCK" then
        parseI64 n "BLOCK" >>= fun _ => parseXreadgroupOpts rest (count, noack)
      else if word = "NOACK" then parseXreadgroupOpts (n :: rest) (count, true)
      else if word = "STREAMS" then .ok (count, noack, n :: rest)
      else .error syntaxError := by
  rw [parseXreadgroupOpts]
  congr 1
  funext word
  split
  · rw [if_pos rfl]
  · rw [if_neg (by decide), if_pos rfl]
  · rw [if_neg (by decide), if_neg (by decide), if_pos rfl]
  · rw [if_neg (by decide), if_neg (by decide), if_neg (by decide), if_pos rfl]
  · rename_i hcount hblock hnoack hstreams
    rw [if_neg hcount, if_neg hblock, if_neg hnoack, if_neg hstreams]

/-- The loop of `XREADGROUP` on the arguments from `i` on. -/
theorem readOptsAt_xreadgroup {count : Option Nat} {noack : Bool} :
    readOptsAt true args i count noack =
      ofAborting (parseXreadgroupOpts (args.drop i) (count, noack)) >>=
        fun p => .ok (p.1, p.2.1, args.length - p.2.2.length) := by
  generalize hleft : args.length - i = left
  induction left using Nat.strong_induction_on generalizing i count noack with
  | h left ih =>
      rw [readOptsAt]
      split
      · rename_i hnone
        have hend : args.length ≤ i := List.getElem?_eq_none_iff.mp hnone
        rw [List.drop_of_length_le hend]
        rfl
      · rename_i arg harg
        obtain ⟨hi, rfl⟩ := List.getElem?_eq_some_iff.mp harg
        rw [List.drop_eq_getElem_cons hi]
        by_cases hmore : i + 1 < args.length
        · have hpast : ¬ args.length ≤ i + 1 := Nat.not_le.mpr hmore
          have hread : (index args (i + 1) : Parsed Bytes) = .ok args[i + 1] := index_eq_ok hmore
          rw [List.drop_eq_getElem_cons hmore, parseXreadgroupOpts_more]
          apply lift_agrees (optionWord_regular _)
          intro word
          rw [if_neg hpast, if_neg hpast, hread, ok_bind, ok_bind]
          split
          · apply lift_agrees (parseStreamCount_regular _ _)
            intro n
            exact ih (args.length - (i + 2)) (by omega) rfl
          · split
            · apply lift_agrees (parseI64_regular _ _)
              intro _
              exact ih (args.length - (i + 2)) (by omega) rfl
            · by_cases hnoack : word = "NOACK"
              · rw [if_pos ⟨hnoack, rfl⟩, if_pos hnoack, ← List.drop_eq_getElem_cons hmore]
                exact ih (args.length - (i + 1)) (by omega) rfl
              · rw [if_neg fun h => hnoack h.1, if_neg hnoack]
                split
                · have hpos :
                      args.length - (args[i + 1] :: args.drop (i + 1 + 1)).length = i + 1 := by
                    rw [List.length_cons, List.length_drop]
                    omega
                  show ok (count, noack, i + 1) = ok (count, noack, _)
                  rw [hpos]
                · rfl
        · have hlast : args.drop (i + 1) = [] := List.drop_of_length_le (by omega)
          have hpast : args.length ≤ i + 1 := Nat.not_lt.mp hmore
          have hnext : ∀ (c : Option Nat) (na : Bool),
              readOptsAt true args (i + 1) c na = .panic := by
            intro c na
            rw [ih (args.length - (i + 1)) (by omega) rfl, hlast]
            rfl
          rw [hlast, parseXreadgroupOpts_one]
          apply lift_agrees (optionWord_regular _)
          intro word
          rw [if_pos hpast, if_pos hpast, hnext]
          by_cases hnoack : word = "NOACK"
          · subst hnoack
            rfl
          · by_cases hstreams : word = "STREAMS"
            · subst hstreams
              have hpos : i + 1 = args.length - ([] : List Bytes).length := by
                rw [List.length_nil]
                omega
              simp only [if_pos, reduceIte, String.reduceEq, false_and]
              rw [hpos]
              rfl
            · simp only [hnoack, hstreams, if_false, false_and, ite_self]
              rfl

theorem parseXreadgroupOpts_suffix {left rest : List Bytes} {opts : Option Nat × Bool}
    {c : Option Nat} {na : Bool} (h : parseXreadgroupOpts left opts = .ok (c, na, rest)) :
    rest <:+ left := by
  induction left, opts using parseXreadgroupOpts.induct with
  | case1 opts => cases h
  | case2 tok count noack =>
      rw [parseXreadgroupOpts_one] at h
      obtain ⟨word, -, h⟩ := Result.bind_eq_ok.mp h
      split at h
      · cases h
      · split at h
        · cases h
          exact List.nil_suffix
        · cases h
  | case3 tok n rest' count noack ih1 ih2 ih3 =>
      have htail : rest' <:+ tok :: n :: rest' := ⟨[tok, n], rfl⟩
      rw [parseXreadgroupOpts_more] at h
      obtain ⟨word, -, h⟩ := Result.bind_eq_ok.mp h
      split at h
      · obtain ⟨k, -, h⟩ := Result.bind_eq_ok.mp h
        exact (ih1 k h).trans htail
      · split at h
        · obtain ⟨ms, -, h⟩ := Result.bind_eq_ok.mp h
          exact (ih2 h).trans htail
        · split at h
          · exact (ih3 h).trans ⟨[tok], rfl⟩
          · split at h
            · cases h
              exact ⟨[tok], rfl⟩
            · cases h

theorem drop_of_suffix {rest : List Bytes} (h : rest <:+ args.drop i) :
    args.drop (args.length - rest.length) = rest :=
  (List.suffix_iff_eq_drop.mp (h.trans (List.drop_suffix i args))).symm

theorem handleXread_byIndex (args : List Bytes) :
    handleXread args = parsedProg (handleXreadAt args) := by
  unfold handleXread handleXreadAt
  by_cases hshort : args.length < 3
  · rw [if_pos hshort, if_pos hshort]
    rfl
  · rw [if_neg hshort, if_neg hshort, readOptsAt_xread, Outcome.bind_assoc, List.drop_zero]
    apply aborting_prog_step
    intro p hopts
    obtain ⟨count, rest⟩ := p
    have hdrop : args.drop (args.length - rest.length) = rest :=
      drop_of_suffix (i := 0) (parseXreadOpts_suffix hopts)
    show _ = parsedProg (streamsAt _ _ _ (args.length - rest.length) >>= _)
    rw [streamsAt_eq (Nat.sub_le _ _), hdrop]
    simp only [Outcome.bind_assoc, ok_bind]
    apply prog_step
    intro p _
    apply prog_step
    intro keys _
    apply prog_step
    intro ids _
    rfl

theorem handleXreadgroup_byIndex (args : List Bytes) :
    handleXreadgroup args = parsedProg (handleXreadgroupAt args) := by
  unfold handleXreadgroup handleXreadgroupAt
  by_cases hshort : args.length < 6
  · rw [if_pos hshort]
    match args with
    | [] | [_] | [_, _] | [_, _, _] | [_, _, _, _] | [_, _, _, _, _] => rfl
    | word :: group :: consumer :: a :: b :: c :: rest =>
        simp at hshort
        omega
  · rw [if_neg hshort]
    match args with
    | [] | [_] | [_, _] | [_, _, _] | [_, _, _, _] | [_, _, _, _, _] => exact absurd (by simp) hshort
    | word :: group :: consumer :: a :: b :: c :: tail =>
        rw [parseXreadgroup]
        apply parser_step
        intro isGroup
        cases isGroup with
        | false => rfl
        | true =>
            apply parser_step
            intro group'
            apply parser_step
            intro consumer'
            rw [readOptsAt_xreadgroup, Outcome.bind_assoc]
            apply aborting_parser_step
            intro p hopts
            obtain ⟨count, noack, rest⟩ := p
            have hdrop : (word :: group :: consumer :: a :: b :: c :: tail).drop
                ((word :: group :: consumer :: a :: b :: c :: tail).length - rest.length) = rest :=
              drop_of_suffix (i := 3) (parseXreadgroupOpts_suffix hopts)
            show _ = parsedProg (streamsAt _ _ _ (_ - rest.length) >>= _)
            rw [streamsAt_eq (Nat.sub_le _ _), hdrop]
            simp only [Outcome.bind_assoc, ok_bind]
            apply parser_step
            intro p
            apply parser_step
            intro keys
            apply parser_step
            intro ids
            rfl

theorem result_step {r : Result α} {F : α → Parsed β} {G : α → Result β}
    (h : ∀ a, F a = ofResult (G a)) : (ofResult r >>= F) = ofResult (r >>= G) := by
  cases r with
  | error e => rfl
  | ok a => exact h a

theorem optionValue_eq {γ : Type} (f : Bytes → Result γ) {readAt : γ → Parsed β}
    {parse : γ → List Bytes → Result β}
    (h : ∀ v, i + 1 < args.length → readAt v = ofResult (parse v (args.drop (i + 2)))) :
    (if args.length ≤ i + 1 then .err syntaxError
      else do
        let v ← ofResult (f (← index args (i + 1)))
        readAt v : Parsed β) =
      ofResult (match args.drop (i + 1) with
        | [] => .error syntaxError
        | v :: rest => f v >>= fun v => parse v rest) := by
  by_cases hmore : i + 1 < args.length
  · have hread : (index args (i + 1) : Parsed Bytes) = .ok args[i + 1] := index_eq_ok hmore
    rw [if_neg (Nat.not_le.mpr hmore), List.drop_eq_getElem_cons hmore, hread, ok_bind]
    apply result_step
    intro v
    exact h v hmore
  · have hlast : args.drop (i + 1) = [] := List.drop_of_length_le (Nat.not_lt.mp hmore)
    rw [if_pos (Nat.not_lt.mp hmore), hlast]
    rfl

theorem parseMkstream_cons (tok : Bytes) (rest : List Bytes) (mkstream : Bool) :
    parseMkstream (tok :: rest) mkstream = optionWord tok >>= fun word =>
      if word = "MKSTREAM" then parseMkstream rest true
      else if word = "ENTRIESREAD" then
        match rest with
        | [] => .error syntaxError
        | n :: rest => parseI64 n "ENTRIESREAD" >>= fun _ => parseMkstream rest mkstream
      else .error syntaxError := by
  -- the recursion has no equation that `rw` can use: the match drops the tail
  delta parseMkstream
  unfold List.brecOn
  rw [List.brecOn.go]
  dsimp only [parseMkstream._f]
  congr 1
  funext word
  split
  · rw [if_pos rfl]
  · rw [if_neg (by decide), if_pos rfl]
  · rw [if_neg (by decide), if_pos rfl]
  · rename_i hmkstream hnone hsome
    rw [if_neg hmkstream]
    split
    · rename_i hread
      cases rest with
      | nil => exact absurd rfl (hnone hread)
      | cons n rest => exact absurd rfl (hsome n rest hread)
    · rfl

theorem mkstreamAt_eq {mkstream : Bool} :
    mkstreamAt args i mkstream = ofResult (parseMkstream (args.drop i) mkstream) := by
  generalize hleft : args.length - i = left
  induction left using Nat.strong_induction_on generalizing i mkstream with
  | h left ih =>
      rw [mkstreamAt]
      split
      · rename_i hi
        have hread : (index args i : Parsed Bytes) = .ok args[i] := index_eq_ok hi
        rw [List.drop_eq_getElem_cons hi, parseMkstream_cons, hread, ok_bind]
        apply result_step
        intro word
        split
        · exact ih (args.length - (i + 1)) (by omega) rfl
        · split
          · apply optionValue_eq
            intro _ hmore
            exact ih (args.length - (i + 2)) (by omega) rfl
          · rfl
      · rename_i hi
        rw [List.drop_of_length_le (Nat.not_lt.mp hi)]
        rfl

theorem xgroupOpAt_eq (sub : String) (word key : Bytes) (rest : List Bytes) :
    xgroupOpAt sub (word :: key :: rest) = ofResult (parseXgroup sub rest) := by
  unfold xgroupOpAt
  by_cases hcreate : sub = "CREATE"
  · subst hcreate
    match rest with
    | [] | [_] => rfl
    | group :: start :: tail =>
        rw [if_pos rfl, if_neg (by simp)]
        apply result_step
        intro group
        apply result_step
        intro start
        rw [mkstreamAt_eq]
        apply result_step
        intro mkstream
        rfl
  by_cases hsetId : sub = "SETID"
  · subst hsetId
    match rest with
    | [] | [_] => rfl
    | group :: start :: tail =>
        rw [if_neg hcreate, if_pos rfl, if_neg (by simp)]
        apply result_step
        intro group
        apply result_step
        intro start
        rfl
  by_cases hdestroy : sub = "DESTROY"
  · subst hdestroy
    match rest with
    | [] => rfl
    | [group] =>
        apply result_step
        intro group
        rfl
    | _ :: _ :: tail =>
        rw [if_neg hcreate, if_neg hsetId, if_pos rfl, if_pos (by simp)]
        rfl
  by_cases hmake : sub = "CREATECONSUMER"
  · subst hmake
    match rest with
    | [] | [_] => rfl
    | [group, consumer] =>
        apply result_step
        intro group
        apply result_step
        intro consumer
        rfl
    | _ :: _ :: _ :: tail =>
        rw [if_neg hcreate, if_neg hsetId, if_neg hdestroy, if_pos rfl, if_pos (by simp)]
        rfl
  by_cases hdrop : sub = "DELCONSUMER"
  · subst hdrop
    match rest with
    | [] | [_] => rfl
    | [group, consumer] =>
        apply result_step
        intro group
        apply result_step
        intro consumer
        rfl
    | _ :: _ :: _ :: tail =>
        rw [if_neg hcreate, if_neg hsetId, if_neg hdestroy, if_neg hmake, if_pos rfl,
          if_pos (by simp)]
        rfl
  rw [if_neg hcreate, if_neg hsetId, if_neg hdestroy, if_neg hmake, if_neg hdrop]
  by_cases hhelp : sub = "HELP"
  · subst hhelp
    rfl
  · rw [if_neg hhelp]
    unfold parseXgroup
    split
    all_goals first | rfl | exact absurd rfl ‹_›

theorem handleXgroup_byIndex (args : List Bytes) :
    handleXgroup args = parsedProg (handleXgroupAt args) := by
  unfold handleXgroupAt
  match args with
  | [] | [_] => rfl
  | sub :: key :: rest =>
      rw [if_neg (by simp), handleXgroup]
      apply prog_step
      intro word _
      apply prog_step
      intro name _
      rw [xgroupOpAt_eq]
      apply prog_step
      intro op _
      cases op with
      | none => rfl
      | some op => rfl

theorem parseClaimOpts_cons (tok : Bytes) (rest : List Bytes) (opts : XClaimOpts) :
    parseClaimOpts (tok :: rest) opts = optionWord tok >>= fun word =>
      if word = "IDLE" then
        match rest with
        | [] => .error syntaxError
        | ms :: rest => parseI64 ms "IDLE" >>= fun ms =>
            parseClaimOpts rest { opts with idleMs := some ms }
      else if word = "TIME" then
        match rest with
        | [] => .error syntaxError
        | ms :: rest => parseI64 ms "TIME" >>= fun ms =>
            parseClaimOpts rest { opts with timeMs := some ms }
      else if word = "RETRYCOUNT" then
        match rest with
        | [] => .error syntaxError
        | n :: rest => parseStreamCount n "RETRYCOUNT" >>= fun n =>
            parseClaimOpts rest { opts with retryCount := some n }
      else if word = "FORCE" then parseClaimOpts rest { opts with force := true }
      else if word = "JUSTID" then parseClaimOpts rest { opts with justId := true }
      else .error syntaxError := by
  delta parseClaimOpts
  unfold List.brecOn
  rw [List.brecOn.go]
  dsimp only [parseClaimOpts._f]
  congr 1
  funext word
  split
  · rfl
  · rfl
  · rfl
  · rfl
  · rfl
  · rfl
  · rfl
  · rfl
  · rename_i hforce hjustId hidle hidle' htime htime' hretry hretry'
    have hnoIdle : word ≠ "IDLE" := by
      intro h
      cases rest with
      | nil => exact hidle h rfl
      | cons ms rest => exact hidle' ms rest h rfl
    have hnoTime : word ≠ "TIME" := by
      intro h
      cases rest with
      | nil => exact htime h rfl
      | cons ms rest => exact htime' ms rest h rfl
    have hnoRetry : word ≠ "RETRYCOUNT" := by
      intro h
      cases rest with
      | nil => exact hretry h rfl
      | cons n rest => exact hretry' n rest h rfl
    rw [if_neg hnoIdle, if_neg hnoTime, if_neg hnoRetry, if_neg hforce, if_neg hjustId]

theorem parseClaimIds_suffix {left rest : List Bytes} {ids : List StreamId}
    (h : parseClaimIds left = .ok (ids, rest)) : rest <:+ left := by
  induction left generalizing ids with
  | nil =>
      cases h
      exact List.suffix_refl []
  | cons tok left ih =>
      rw [parseClaimIds] at h
      obtain ⟨word, -, h⟩ := Result.bind_eq_ok.mp h
      split at h
      · cases h
        exact List.suffix_refl _
      · obtain ⟨id, -, h⟩ := Result.bind_eq_ok.mp h
        obtain ⟨p, hp, h⟩ := Result.bind_eq_ok.mp h
        cases h
        exact (ih hp).trans (List.suffix_cons tok left)

theorem claimIdsAt_eq (hle : i ≤ args.length) :
    claimIdsAt args i = ofResult (parseClaimIds (args.drop i)) >>=
      fun p => .ok (p.1, args.length - p.2.length) := by
  generalize hleft : args.length - i = left
  induction left using Nat.strong_induction_on generalizing i with
  | h left ih =>
      rw [claimIdsAt]
      split
      · rename_i hi
        have hread : (index args i : Parsed Bytes) = .ok args[i] := index_eq_ok hi
        rw [List.drop_eq_getElem_cons hi, parseClaimIds, hread, ok_bind]
        cases optionWord args[i] with
        | error e => rfl
        | ok word =>
            show (if isClaimOption word = true then _ else _) =
              ofResult (if isClaimOption word = true then _ else _) >>= _
            split
            · have hpos : args.length - (args[i] :: args.drop (i + 1)).length = i := by
                rw [List.length_cons, List.length_drop]
                omega
              show ok ([], i) = ok ([], _)
              rw [hpos]
            · cases StreamId.parse args[i] with
              | error e => rfl
              | ok id =>
                  show claimIdsAt args (i + 1) >>= _ = _
                  rw [ih (args.length - (i + 1)) (by omega) hi rfl]
                  cases parseClaimIds (args.drop (i + 1)) with
                  | error e => rfl
                  | ok p => rfl
      · rename_i hi
        have hend : i = args.length := by omega
        subst hend
        rw [List.drop_length]
        rfl

theorem claimOptsAt_eq {opts : XClaimOpts} :
    claimOptsAt args i opts = ofResult (parseClaimOpts (args.drop i) opts) := by
  generalize hleft : args.length - i = left
  induction left using Nat.strong_induction_on generalizing i opts with
  | h left ih =>
      rw [claimOptsAt]
      split
      · rename_i hi
        have hread : (index args i : Parsed Bytes) = .ok args[i] := index_eq_ok hi
        have hnext : ∀ opts, claimOptsAt args (i + 1) opts =
            ofResult (parseClaimOpts (args.drop (i + 1)) opts) := by
          intro opts
          exact ih (args.length - (i + 1)) (by omega) rfl
        have hvalue : ∀ {γ : Type} (f : Bytes → Result γ) (k : γ → XClaimOpts),
            (if args.length ≤ i + 1 then .err syntaxError
              else do
                let v ← ofResult (f (← index args (i + 1)))
                claimOptsAt args (i + 2) (k v) : Parsed XClaimOpts) =
              ofResult (match args.drop (i + 1) with
                | [] => .error syntaxError
                | v :: rest => f v >>= fun v => parseClaimOpts rest (k v)) := by
          intro γ f k
          apply optionValue_eq
          intro v hmore
          exact ih (args.length - (i + 2)) (by omega) rfl
        rw [List.drop_eq_getElem_cons hi, parseClaimOpts_cons, hread, ok_bind]
        apply result_step
        intro word
        split
        · exact hvalue _ _
        · split
          · exact hvalue _ _
          · split
            · exact hvalue _ _
            · split
              · exact hnext _
              · split
                · exact hnext _
                · rfl
      · rename_i hi
        rw [List.drop_of_length_le (Nat.not_lt.mp hi)]
        rfl

theorem handleXclaim_byIndex (args : List Bytes) :
    handleXclaim args = parsedProg (handleXclaimAt args >>= fun rest =>
      .ok (KV.nowMs.bind fun now => parsedProg (rest now))) := by
  unfold handleXclaimAt
  match args with
  | [] | [_] | [_, _] | [_, _, _] | [_, _, _, _] => rfl
  | key :: group :: consumer :: minIdle :: id :: rest =>
      rw [if_neg (by simp), handleXclaim]
      simp only [Outcome.bind_assoc]
      apply prog_step
      intro key' _
      apply prog_step
      intro group' _
      apply prog_step
      intro consumer' _
      apply prog_step
      intro minIdle' _
      rw [claimIdsAt_eq (by simp), Outcome.bind_assoc]
      apply prog_step
      intro p hids
      obtain ⟨ids, opts⟩ := p
      have hdrop : (key :: group :: consumer :: minIdle :: id :: rest).drop
          ((key :: group :: consumer :: minIdle :: id :: rest).length - opts.length) = opts :=
        drop_of_suffix (i := 4) (parseClaimIds_suffix hids)
      show KV.nowMs.bind _ = KV.nowMs.bind _
      congr 1
      funext now
      dsimp only
      rw [claimOptsAt_eq, hdrop]
      apply prog_step
      intro opts _
      rfl

theorem pendingDetailAt_eq (key group : String) (idleMs : Option Int) :
    pendingDetailReply key group idleMs (args.drop i) =
      parsedProg (pendingDetailAt key group idleMs args i) := by
  unfold pendingDetailAt
  by_cases hshort : args.length < i + 3
  · rw [if_pos hshort]
    have hlen : (args.drop i).length < 3 := by
      rw [List.length_drop]
      omega
    match args.drop i, hlen with
    | [], _ | [_], _ | [_, _], _ => rfl
  · rw [if_neg hshort]
    have h0 : i < args.length := by omega
    have h1 : i + 1 < args.length := by omega
    have h2 : i + 2 < args.length := by omega
    rw [List.drop_eq_getElem_cons h0, List.drop_eq_getElem_cons h1, List.drop_eq_getElem_cons h2,
      pendingDetailReply, index_eq_ok h0, index_eq_ok h1, index_eq_ok h2]
    apply prog_step
    intro start _
    apply prog_step
    intro stop _
    apply prog_step
    intro count _
    have hconsumer : optionalStrAt args (i + 3) =
        ofResult (optionalStr (args.drop (i + 2 + 1)).head?) := by
      unfold optionalStrAt
      rw [List.head?_drop]
      split
      · rename_i hi
        rw [index_eq_ok hi, List.getElem?_eq_getElem hi]
        apply result_step
        intro s
        rfl
      · rename_i hi
        rw [List.getElem?_eq_none (Nat.not_lt.mp hi)]
        rfl
    rw [hconsumer]
    apply prog_step
    intro consumer _
    rfl

theorem handleXpending_byIndex (args : List Bytes) :
    handleXpending args = parsedProg (handleXpendingAt args) := by
  unfold handleXpendingAt
  match args with
  | [] | [_] => rfl
  | [key, group] =>
      rw [handleXpending]
      apply prog_step
      intro key _
      apply prog_step
      intro group _
      rfl
  | key :: group :: first :: rest =>
      rw [if_neg (by simp), handleXpending]
      apply prog_step
      intro name _
      apply prog_step
      intro groupName _
      rw [if_neg (by simp)]
      apply prog_step
      intro isIdle _
      cases isIdle with
      | false =>
          rw [if_neg Bool.false_ne_true, if_neg Bool.false_ne_true]
          exact @pendingDetailAt_eq (key :: group :: first :: rest) 2 name groupName none
      | true =>
          rw [if_pos rfl, if_pos rfl]
          cases rest with
          | nil => rfl
          | cons ms rest =>
              rw [if_neg (by simp)]
              apply prog_step
              intro idleMs _
              exact @pendingDetailAt_eq (key :: group :: first :: ms :: rest) 4 name groupName (some idleMs)

theorem parseAutoclaimOpts_cons (tok : Bytes) (rest : List Bytes) (count : Nat) (justId : Bool) :
    parseAutoclaimOpts (tok :: rest) (count, justId) = optionWord tok >>= fun word =>
      if word = "COUNT" then
        match rest with
        | [] => .error syntaxError
        | n :: rest => parseStreamCount n "COUNT" >>= fun n => parseAutoclaimOpts rest (n, justId)
      else if word = "JUSTID" then parseAutoclaimOpts rest (count, true)
      else .error syntaxError := by
  delta parseAutoclaimOpts
  unfold List.brecOn
  rw [List.brecOn.go]
  dsimp only [parseAutoclaimOpts._f]
  congr 1
  funext word
  split
  · rfl
  · rfl
  · rfl
  · rename_i hjustId hcount hcount'
    have hnoCount : word ≠ "COUNT" := by
      intro h
      cases rest with
      | nil => exact hcount h rfl
      | cons n rest => exact hcount' n rest h rfl
    rw [if_neg hnoCount, if_neg hjustId]

theorem autoclaimOptsAt_eq {count : Nat} {justId : Bool} :
    autoclaimOptsAt args i count justId =
      ofResult (parseAutoclaimOpts (args.drop i) (count, justId)) := by
  generalize hleft : args.length - i = left
  induction left using Nat.strong_induction_on generalizing i count justId with
  | h left ih =>
      rw [autoclaimOptsAt]
      split
      · rename_i hi
        have hread : (index args i : Parsed Bytes) = .ok args[i] := index_eq_ok hi
        rw [List.drop_eq_getElem_cons hi, parseAutoclaimOpts_cons, hread, ok_bind]
        apply result_step
        intro word
        split
        · apply optionValue_eq
          intro n hmore
          exact ih (args.length - (i + 2)) (by omega) rfl
        · split
          · exact ih (args.length - (i + 1)) (by omega) rfl
          · rfl
      · rename_i hi
        rw [List.drop_of_length_le (Nat.not_lt.mp hi)]
        rfl

theorem handleXautoclaim_byIndex (args : List Bytes) :
    handleXautoclaim args = parsedProg (handleXautoclaimAt args) := by
  unfold handleXautoclaimAt
  match args with
  | [] | [_] | [_, _] | [_, _, _] | [_, _, _, _] => rfl
  | key :: group :: consumer :: minIdle :: start :: opts =>
      rw [if_neg (by simp), handleXautoclaim]
      apply prog_step
      intro key' _
      apply prog_step
      intro group' _
      apply prog_step
      intro consumer' _
      apply prog_step
      intro minIdle' _
      apply prog_step
      intro start' _
      rw [autoclaimOptsAt_eq]
      apply prog_step
      intro p _
      rfl

theorem parseXaddTrim_suffix {left rest : List Bytes} {trim : Option (TrimBound × Option Nat)}
    (h : parseXaddTrim left = .ok (trim, rest)) : rest <:+ left := by
  cases left with
  | nil => cases h
  | cons head left =>
      obtain ⟨word, -, h⟩ := Result.bind_eq_ok.mp h
      split at h
      · obtain ⟨remaining, -, h⟩ := Result.bind_eq_ok.mp h
        obtain ⟨p, -, h⟩ := Result.bind_eq_ok.mp h
        cases h
        exact List.drop_suffix _ _
      · cases h
        exact List.suffix_refl _

theorem xaddTrimAt_eq (hi : i < args.length) :
    xaddTrimAt args i = ofResult (parseXaddTrim (args.drop i)) >>=
      fun p => .ok (p.1, args.length - p.2.length) := by
  have hlen : (args.drop i).length = args.length - i := List.length_drop
  have heach : eachAt argAsStr args i (args.length - i) = ofResult (argsAsStrings (args.drop i)) := by
    rw [eachAt_eq (by omega), List.take_of_length_le (Nat.le_of_eq hlen)]
    rfl
  have hnone : args.length - (args.drop i).length = i := by omega
  have hread : (index args i : Parsed Bytes) = .ok args[i] := index_eq_ok hi
  unfold xaddTrimAt
  rw [hread, heach, ok_bind]
  rw [show parseXaddTrim (args.drop i) = optionWord args[i] >>= fun word =>
      if word = "MAXLEN" ∨ word = "MINID" then
        argsAsStrings (args.drop i) >>= fun remaining =>
          parseTrim remaining >>= fun p => .ok (some (p.1, p.2.1),
            (args.drop i).drop ((args.drop i).length - p.2.2.length))
      else .ok (none, args.drop i) by
    rw [List.drop_eq_getElem_cons hi]
    rfl]
  cases optionWord args[i] with
  | error e => rfl
  | ok word =>
      rw [Result.ok_bind]
      show (if word = "MAXLEN" ∨ word = "MINID" then _ else _) = _
      split
      · cases htexts : argsAsStrings (args.drop i) with
        | error e => rfl
        | ok remaining =>
            have hremaining := Result.mapM_ok_length htexts
            rw [Result.ok_bind]
            show ofResult (parseTrim remaining) >>= _ = _
            cases parseTrim remaining with
            | error e => rfl
            | ok p =>
                have hpos : args.length -
                    ((args.drop i).drop ((args.drop i).length - p.2.2.length)).length =
                      i + (remaining.length - p.2.2.length) := by
                  rw [List.length_drop]
                  omega
                show ok (some (p.1, p.2.1), i + (remaining.length - p.2.2.length)) =
                  ok (some (p.1, p.2.1), _)
                rw [hpos]
      · show ok (none, i) = ok (none, _)
        rw [hnone]

theorem fieldsAt_eq {pairs : List Bytes} {j : Nat} (hpairs : pairs.length % 2 = 0)
    (hj : j % 2 = 0) : fieldsAt pairs j = ofResult (keyValuePairs "XADD" (pairs.drop j)) := by
  generalize hleft : pairs.length - j = left
  induction left using Nat.strong_induction_on generalizing j with
  | h left ih =>
      rw [fieldsAt]
      split
      · rename_i hj0
        have hj1 : j + 1 < pairs.length := by omega
        rw [List.drop_eq_getElem_cons hj0, List.drop_eq_getElem_cons hj1, keyValuePairs,
          index_eq_ok hj0, index_eq_ok hj1]
        apply result_step
        intro field
        show fieldsAt pairs (j + 2) >>= _ = _
        rw [ih (pairs.length - (j + 2)) (by omega) (by omega) rfl]
        apply result_step
        intro rest
        rfl
      · rename_i hend
        rw [List.drop_of_length_le (Nat.not_lt.mp hend)]
        rfl

theorem handleXadd_byIndex (args : List Bytes) :
    handleXadd args = parsedProg (handleXaddAt args) := by
  unfold handleXaddAt
  match args with
  | [] | [_] | [_, _] | [_, _, _] => rfl
  | key :: a :: b :: c :: rest =>
      rw [if_neg (by simp), handleXadd]
      apply prog_step
      intro name _
      apply prog_step
      intro nomkstream _
      have hstart : (if nomkstream then 2 else 1) < (key :: a :: b :: c :: rest).length := by
        split <;> simp
      have hopts : (if nomkstream then b :: c :: rest else a :: b :: c :: rest) =
          (key :: a :: b :: c :: rest).drop (if nomkstream then 2 else 1) := by
        cases nomkstream <;> rfl
      rw [xaddTrimAt_eq hstart, Outcome.bind_assoc]
      dsimp only
      rw [hopts]
      apply prog_step
      intro p htrim
      obtain ⟨trim, left⟩ := p
      have hdrop : (key :: a :: b :: c :: rest).drop
          ((key :: a :: b :: c :: rest).length - left.length) = left :=
        drop_of_suffix (parseXaddTrim_suffix htrim)
      generalize key :: a :: b :: c :: rest = args at hdrop
      rw [ok_bind]
      dsimp only
      generalize args.length - left.length = i at hdrop
      cases left with
      | nil =>
          have hend : args.length ≤ i := List.drop_eq_nil_iff.mp hdrop
          rw [if_pos hend]
          rfl
      | cons id pairs =>
          have hi : i < args.length := by
            by_contra hout
            rw [List.drop_of_length_le (Nat.not_lt.mp hout)] at hdrop
            cases hdrop
          rw [List.drop_eq_getElem_cons hi] at hdrop
          injection hdrop with hid hpairs
          have hslice : (slice args (i + 1) args.length : Parsed (List Bytes)) = .ok pairs := by
            rw [slice_eq_ok (by omega) (Nat.le_refl _), hpairs, List.take_of_length_le]
            rw [← hpairs, List.length_drop]
          have hread : (index args i : Parsed Bytes) = .ok id := by
            rw [← hid]
            exact index_eq_ok hi
          rw [if_neg (Nat.not_le.mpr hi), hread, hslice]
          apply prog_step
          intro text _
          apply prog_step
          intro spec _
          rw [ok_bind]
          split
          · rfl
          · rename_i heven
            have heven' : pairs.length % 2 = 0 := by
              by_contra hodd
              exact heven (.inr hodd)
            rw [fieldsAt_eq heven' rfl]
            apply prog_step
            intro fields _
            rfl

end Agreement

end Commands

end RustyAnt
