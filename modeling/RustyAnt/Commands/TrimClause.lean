import RustyAnt.Commands.Following
import RustyAnt.Storage.Solo
import RustyAnt.Stream.Bookkeeping

/-!
# The trim clause of `XADD`

A clause `MAXLEN [~|=] n [LIMIT m]` or `MINID [~|=] id [LIMIT m]` before the id.  Its parser
takes the tokens of the clause and no other; but it is handed every argument that is left as
text, the values of the new entry among them.
-/

namespace RustyAnt

open Lib RustyAnt.Stream

/-! ## A trim that removes nothing -/

/-- Nothing lies beyond the bound. -/
def TrimBound.Spares : TrimBound → List StreamEntry → Prop
  | .maxLen n, entries => entries.length ≤ n
  | .minId id, entries => ∀ e ∈ entries, id ≤ e.id

namespace Stream

theorem trimTarget_of_spares {bound : TrimBound} {entries : List StreamEntry}
    (h : TrimBound.Spares bound entries) : trimTarget entries bound = 0 := by
  cases bound with
  | maxLen n => exact Nat.sub_eq_zero_of_le h
  | minId id =>
      apply partitionPoint_eq
      intro i
      have hnone : (entries[i]?).any (fun e => decide (e.id < id)) = false := by
        cases hget : entries[i]? with
        | none => rfl
        | some e =>
            have hle := h e (List.mem_of_getElem? hget)
            rw [Option.any_some, decide_eq_false_iff_not]
            exact not_lt.mpr hle
      rw [hnone]
      exact iff_of_false (by decide) (by omega)

theorem trimInPlace_of_spares {s : StreamValue} {bound : TrimBound}
    (h : TrimBound.Spares bound s.entries) (limit : Option Nat) :
    trimInPlace s bound limit = (s, 0) := by
  have hremove : (limit.elim 0 fun cap => min 0 cap) = 0 := by
    cases limit with
    | none => rfl
    | some cap => exact Nat.zero_min cap
  unfold trimInPlace
  rw [trimTarget_of_spares h]
  dsimp only
  rw [hremove, List.take_zero]
  rfl

/-- A clause that spares the new stream changes nothing. -/
theorem add_trim {s s' : StreamValue} {spec : AddIdSpec} {fields : List (String × Bytes)}
    {now : UInt64} {id : StreamId} {bound : TrimBound}
    (h : add s spec fields now none = .ok (s', id)) (hspares : TrimBound.Spares bound s'.entries)
    (limit : Option Nat) : add s spec fields now (some (bound, limit)) = .ok (s', id) := by
  obtain ⟨id', hid, h⟩ := Result.bind_eq_ok.mp h
  cases h
  unfold add
  rw [hid, Result.ok_bind]
  dsimp only
  rw [trimInPlace_of_spares hspares]
  rfl

theorem add_error {s : StreamValue} {spec : AddIdSpec} {fields : List (String × Bytes)}
    {now : UInt64} {e : RustyAntError} {trim : Option (TrimBound × Option Nat)} :
    add s spec fields now trim = .error e ↔ resolveAddId spec s.lastGeneratedId now = .error e := by
  unfold add
  cases resolveAddId spec s.lastGeneratedId now with
  | error e' =>
      rw [Result.error_bind]
      constructor <;> rintro ⟨⟩ <;> rfl
  | ok id =>
      rw [Result.ok_bind]
      refine iff_of_false ?_ (by rintro ⟨⟩)
      cases trim with
      | none => rintro ⟨⟩
      | some p => rintro ⟨⟩

end Stream

namespace Commands

/-! ## The clause -/

/-- A trim clause as it is written: the keyword, an optional sign, the threshold and an
optional `LIMIT` with its number. -/
structure TrimClause where
  keyword : String
  sign : Option String
  threshold : String
  limit : Option (String × String)

namespace TrimClause

def tokens (c : TrimClause) : List String :=
  c.keyword :: (c.sign.toList ++ c.threshold :: c.limit.elim [] fun p => [p.1, p.2])

def args (c : TrimClause) : List Bytes := c.tokens.map Rdb.asBytes

/-- What the threshold says after the keyword. -/
def Bounds (c : TrimClause) : TrimBound → Prop
  | .maxLen n => toUpper c.keyword = "MAXLEN" ∧
      trimInt c.threshold "MAXLEN must be non-negative" = .ok n
  | .minId id => toUpper c.keyword = "MINID" ∧ StreamId.parse (Rdb.asBytes c.threshold) = .ok id

/-- What the `LIMIT` says. -/
def Limits (c : TrimClause) : Option Nat → Prop
  | none => c.limit = none
  | some m => ∃ word text, c.limit = some (word, text) ∧ toUpper word = "LIMIT" ∧
      trimInt text "LIMIT must be non-negative" = .ok m

/-- The clause is well formed and means this. -/
structure Means (c : TrimClause) (bound : TrimBound) (limit : Option Nat) : Prop where
  sign : c.sign = none ∨ c.sign = some "~" ∨ c.sign = some "="
  bound : c.Bounds bound
  limit : c.Limits limit

end TrimClause

/-- The word `LIMIT`, in any case. -/
def StartsLimit (rest : List String) : Prop := ∃ tok ∈ rest.head?, toUpper tok = "LIMIT"

theorem parseTrimLimit_none {rest : List String} (h : ¬ StartsLimit rest) :
    parseTrimLimit rest = .ok (none, rest) := by
  cases rest with
  | nil => rfl
  | cons tok rest =>
      have hne : toUpper tok ≠ "LIMIT" := fun heq => h ⟨tok, rfl, heq⟩
      unfold parseTrimLimit
      dsimp only
      rw [if_neg hne]

theorem TrimClause.Limits.parse {c : TrimClause} {limit : Option Nat} (h : c.Limits limit)
    {rest : List String} (hrest : limit = none → ¬ StartsLimit rest) :
    parseTrimLimit ((c.limit.elim [] fun p => [p.1, p.2]) ++ rest) = .ok (limit, rest) := by
  cases limit with
  | none =>
      have hnone : c.limit = none := h
      rw [hnone]
      exact parseTrimLimit_none (hrest rfl)
  | some m =>
      obtain ⟨word, text, hlimit, hword, htext⟩ := h
      rw [hlimit]
      show parseTrimLimit (word :: text :: rest) = _
      unfold parseTrimLimit
      dsimp only
      rw [if_pos hword, htext]
      rfl

theorem TrimClause.Bounds.ne_sign {c : TrimClause} {bound : TrimBound} (h : c.Bounds bound)
    {sign : String} (hsign : sign = "~" ∨ sign = "=") : c.threshold ≠ sign := by
  intro heq
  cases bound with
  | maxLen n =>
      have hparse := h.2
      rw [heq] at hparse
      rcases hsign with rfl | rfl <;> cases hparse
  | minId id =>
      have hparse := h.2
      rw [heq] at hparse
      rcases hsign with rfl | rfl <;> cases hparse

/-- The optional sign, passed over. -/
def skipSign (rest : List String) : List String :=
  match rest with
  | "~" :: rest => rest
  | "=" :: rest => rest
  | _ => rest

theorem parseTrim_cons (keyword : String) (rest : List String) :
    parseTrim (keyword :: rest) =
      if toUpper keyword ≠ "MAXLEN" ∧ toUpper keyword ≠ "MINID" then .error syntaxError
      else
        match skipSign rest with
        | [] => .error syntaxError
        | threshold :: rest => do
            let bound ← if toUpper keyword = "MAXLEN" then
                .maxLen <$> trimInt threshold "MAXLEN must be non-negative"
              else .minId <$> StreamId.parse (Rdb.asBytes threshold)
            let (limit, rest) ← parseTrimLimit rest
            return (bound, limit, rest) := rfl

theorem TrimClause.Means.skipSign {c : TrimClause} {bound : TrimBound} {limit : Option Nat}
    (h : c.Means bound limit) (tail : List String) :
    skipSign (c.sign.toList ++ c.threshold :: tail) = c.threshold :: tail := by
  rcases h.sign with hnone | htilde | hequal
  · rw [hnone]
    show Commands.skipSign (c.threshold :: tail) = _
    unfold Commands.skipSign
    split
    · rename_i heq
      exact absurd (List.cons.inj heq).1 (h.bound.ne_sign (.inl rfl))
    · rename_i heq
      exact absurd (List.cons.inj heq).1 (h.bound.ne_sign (.inr rfl))
    · rfl
  · rw [htilde]
    rfl
  · rw [hequal]
    rfl

theorem parseTrim_tokens {c : TrimClause} {bound : TrimBound} {limit : Option Nat}
    (h : c.Means bound limit) {rest : List String} (hrest : limit = none → ¬ StartsLimit rest) :
    parseTrim (c.tokens ++ rest) = .ok (bound, limit, rest) := by
  have hlimit := h.limit.parse hrest
  generalize htail : (c.limit.elim [] fun p => [p.1, p.2]) ++ rest = tail at hlimit
  have htokens : c.tokens ++ rest = c.keyword :: (c.sign.toList ++ c.threshold :: tail) := by
    rw [← htail]
    unfold TrimClause.tokens
    rw [List.cons_append, List.append_assoc, List.cons_append]
  rw [htokens, parseTrim_cons, h.skipSign]
  have hbound := h.bound
  cases bound with
  | maxLen n =>
      have hkind : toUpper c.keyword = "MAXLEN" := hbound.1
      rw [hkind, if_neg (by decide)]
      dsimp only
      rw [if_pos rfl, hbound.2, Result.map_ok, Result.ok_bind, hlimit]
      rfl
  | minId id =>
      have hkind : toUpper c.keyword = "MINID" := hbound.1
      rw [hkind, if_neg (by decide)]
      dsimp only
      rw [if_neg (by decide), hbound.2, Result.map_ok, Result.ok_bind, hlimit]
      rfl

/-! ## The arguments as text -/

def IsText (arg : Bytes) : Prop := ∃ t, argAsStr arg = .ok t

theorem argAsStr_error {arg : Bytes} (h : ¬ IsText arg) :
    argAsStr arg = .error (.respParse "argument not utf8") := by
  unfold IsText argAsStr at *
  cases hread : String.fromUTF8? arg.toByteArray with
  | none => rfl
  | some t => exact absurd ⟨t, by rw [hread]⟩ h

theorem argsAsStrings_cons (arg : Bytes) (args : List Bytes) :
    argsAsStrings (arg :: args) = argAsStr arg >>= fun t => argsAsStrings args >>= fun ts =>
      .ok (t :: ts) := by
  unfold argsAsStrings
  rw [List.mapM_cons]
  rfl

theorem argsAsStrings_append (texts : List String) (args : List Bytes) :
    argsAsStrings (texts.map Rdb.asBytes ++ args) =
      argsAsStrings args >>= fun ts => .ok (texts ++ ts) := by
  induction texts with
  | nil =>
      rw [List.map_nil, List.nil_append]
      cases argsAsStrings args <;> rfl
  | cons t texts ih =>
      rw [List.map_cons, List.cons_append, argsAsStrings_cons, argAsStr_asBytes, Result.ok_bind, ih]
      cases argsAsStrings args <;> rfl

theorem argsAsStrings_of_text {args : List Bytes} (h : ∀ arg ∈ args, IsText arg) :
    ∃ ts, argsAsStrings args = .ok ts ∧ ts.length = args.length := by
  induction args with
  | nil => exact ⟨[], rfl, rfl⟩
  | cons arg args ih =>
      obtain ⟨t, ht⟩ := h arg List.mem_cons_self
      obtain ⟨ts, hts, hlen⟩ := ih fun a ha => h a (List.mem_cons_of_mem _ ha)
      refine ⟨t :: ts, ?_, by rw [List.length_cons, List.length_cons, hlen]⟩
      rw [argsAsStrings_cons, ht, Result.ok_bind, hts]
      rfl

theorem argsAsStrings_error {args : List Bytes} (h : ¬ ∀ arg ∈ args, IsText arg) :
    argsAsStrings args = .error (.respParse "argument not utf8") := by
  induction args with
  | nil => exact absurd (fun arg harg => by cases harg) h
  | cons arg args ih =>
      rw [argsAsStrings_cons]
      by_cases harg : IsText arg
      · obtain ⟨t, ht⟩ := harg
        have hrest : ¬ ∀ a ∈ args, IsText a := fun hall =>
          h (List.forall_mem_cons.mpr ⟨⟨t, ht⟩, hall⟩)
        rw [ht, Result.ok_bind, ih hrest]
        rfl
      · rw [argAsStr_error harg]
        rfl

/-! ## Ids are no words -/

theorem asBytes_of_argAsStr {arg : Bytes} {t : String} (h : argAsStr arg = .ok t) :
    Rdb.asBytes t = arg := by
  unfold argAsStr String.fromUTF8? at h
  split at h
  · rename_i heq
    split at heq
    · cases heq
      cases h
      unfold Rdb.asBytes String.fromUTF8
      simp
    · cases heq
  · cases h

theorem toUpper_letter {c : Char} (h : 65 ≤ c.toUpper.toNat ∧ c.toUpper.toNat ≤ 90) :
    65 ≤ c.toNat ∧ c.toNat < 128 := by
  unfold Char.toUpper at h
  split at h
  · rename_i hlower
    have hle : 97 ≤ c.toNat := UInt32.le_iff_toNat_le.mp hlower.1
    have hge : c.toNat ≤ 122 := UInt32.le_iff_toNat_le.mp hlower.2
    omega
  · omega

/-- A text that starts with a letter starts with its byte. -/
theorem asBytes_letter {c : Char} {cs : List Char} (hc : c.toNat < 128) :
    Rdb.asBytes (String.ofList (c :: cs)) =
      UInt8.ofNat c.toNat :: cs.utf8Encode.data.toList := by
  have hsize : c.utf8Size = 1 := by
    rw [Char.utf8Size, if_pos]
    rw [UInt32.le_iff_toNat_le]
    exact Nat.lt_succ_iff.mp hc
  have hbyte : c.val.toUInt8 = UInt8.ofNat c.toNat := by
    apply UInt8.toNat_inj.mp
    rw [UInt32.toNat_toUInt8, UInt8.toNat_ofNat']
    rfl
  unfold Rdb.asBytes
  rw [String.toByteArray_ofList, List.utf8Encode_cons, List.utf8Encode_singleton,
    String.utf8EncodeChar_eq_singleton hsize, ByteArray.data_append, Array.toList_append, hbyte,
    List.data_toByteArray]
  rfl

theorem readU64_letter {b : UInt8} (hb : 65 ≤ b.toNat) (rest : Bytes) :
    readU64 (b :: rest) = .error invalidId := by
  have hplus : b ≠ 43 := by
    rintro rfl
    exact absurd hb (by decide)
  have hdigit : Decimal.isDigit b = false := by
    unfold Decimal.isDigit
    rw [decide_eq_false_iff_not]
    omega
  have hnone : Decimal.parseNat (b :: rest) = none := by
    unfold Decimal.parseNat
    rw [List.all_cons, hdigit, Bool.false_and, if_neg (by simp)]
  have hparse : parseU64 (b :: rest) = none := by
    unfold parseU64
    split
    · rename_i heq
      exact absurd (List.cons.inj heq).1 hplus
    · dsimp only
      rw [hnone]
  unfold readU64
  rw [hparse]

theorem addIdSpec_letter {b : UInt8} (hb : 65 ≤ b.toNat) (rest : Bytes) :
    AddIdSpec.parse (b :: rest) = .error invalidId := by
  have hstar : b :: rest ≠ [42] := by
    intro heq
    rw [(List.cons.inj heq).1] at hb
    exact absurd hb (by decide)
  have hdash : b ≠ 45 := by
    rintro rfl
    exact absurd hb (by decide)
  unfold AddIdSpec.parse
  rw [if_neg hstar, splitOnce, if_neg hdash]
  cases splitOnce 45 rest with
  | none =>
      rw [Option.map_none]
      dsimp only
      rw [readU64_letter hb]
      rfl
  | some p =>
      rw [Option.map_some]
      dsimp only
      rw [readU64_letter hb]
      rfl

/-- A word that an `XADD` may have before its id. -/
def IsXaddWord (text : String) : Prop :=
  toUpper text = "NOMKSTREAM" ∨ toUpper text = "MAXLEN" ∨ toUpper text = "MINID" ∨
    toUpper text = "LIMIT"

theorem addIdSpec_not_word {id : Bytes} {idText : String} {spec : AddIdSpec}
    (hid : argAsStr id = .ok idText) (hspec : AddIdSpec.parse id = .ok spec) :
    ¬ IsXaddWord idText := by
  intro hword
  have hletter : ∃ c cs, idText.toList = c :: cs ∧
      65 ≤ c.toUpper.toNat ∧ c.toUpper.toNat ≤ 90 := by
    unfold IsXaddWord toUpper at hword
    cases hchars : idText.toList with
    | nil =>
        rw [hchars] at hword
        rcases hword with h | h | h | h <;> exact absurd h (by decide)
    | cons c cs =>
        refine ⟨c, cs, rfl, ?_⟩
        rw [hchars, List.map_cons] at hword
        have hhead : ∀ word : String, String.ofList (c.toUpper :: cs.map Char.toUpper) = word →
            word.toList.head? = some c.toUpper := by
          rintro word rfl
          rw [String.toList_ofList]
          rfl
        rcases hword with h | h | h | h <;> rw [← Option.some.inj (hhead _ h)] <;> decide
  obtain ⟨c, cs, hchars, hupper⟩ := hletter
  obtain ⟨hge, hlt⟩ := toUpper_letter hupper
  have hbytes : id = UInt8.ofNat c.toNat :: cs.utf8Encode.data.toList := by
    rw [← asBytes_letter hlt, ← hchars, String.ofList_toList, asBytes_of_argAsStr hid]
  have hfirst : 65 ≤ (UInt8.ofNat c.toNat).toNat := by
    rw [UInt8.toNat_ofNat']
    omega
  rw [hbytes, addIdSpec_letter hfirst] at hspec
  cases hspec

/-! ## The two commands -/

section Xadd

variable {c : TrimClause} {bound : TrimBound} {limit : Option Nat} {id : Bytes} {idText : String}
  {pairs : List Bytes}

theorem parseXaddTrim_plain (hid : argAsStr id = .ok idText) (hword : ¬ IsXaddWord idText) :
    parseXaddTrim (id :: pairs) = .ok (none, id :: pairs) := by
  have hplain : ¬ (toUpper idText = "MAXLEN" ∨ toUpper idText = "MINID") := by
    rintro (hmax | hmin)
    · exact hword (.inr (.inl hmax))
    · exact hword (.inr (.inr (.inl hmin)))
  unfold parseXaddTrim
  dsimp only
  rw [optionWord_of_text hid, Result.ok_bind, if_neg hplain]
  rfl

theorem TrimClause.Bounds.keyword (h : c.Bounds bound) :
    toUpper c.keyword = "MAXLEN" ∨ toUpper c.keyword = "MINID" := by
  cases bound with
  | maxLen n => exact .inl h.1
  | minId id => exact .inr h.1

theorem TrimClause.args_eq (c : TrimClause) (tail : List Bytes) :
    ∃ rest, c.args ++ tail = Rdb.asBytes c.keyword :: rest := ⟨_, rfl⟩

theorem parseXaddTrim_clause (h : c.Means bound limit) (hid : argAsStr id = .ok idText)
    (hword : ¬ IsXaddWord idText) (hpairs : ∀ arg ∈ pairs, IsText arg) :
    parseXaddTrim (c.args ++ id :: pairs) = .ok (some (bound, limit), id :: pairs) := by
  obtain ⟨texts, htexts, hlen⟩ := argsAsStrings_of_text hpairs
  obtain ⟨rest, hrest⟩ := c.args_eq (id :: pairs)
  have hall : argsAsStrings (c.args ++ id :: pairs) = .ok (c.tokens ++ idText :: texts) := by
    unfold TrimClause.args
    rw [argsAsStrings_append, argsAsStrings_cons, hid, Result.ok_bind, htexts]
    rfl
  have hlimit : limit = none → ¬ StartsLimit (idText :: texts) := by
    rintro - ⟨tok, htok, hupper⟩
    cases htok
    exact hword (.inr (.inr (.inr hupper)))
  have hparse := parseTrim_tokens h hlimit
  unfold parseXaddTrim
  rw [hrest]
  dsimp only
  rw [optionWord_asBytes, Result.ok_bind, if_pos h.bound.keyword, ← hrest, hall, Result.ok_bind,
    hparse]
  have hdrop : (c.args ++ id :: pairs).drop ((c.args ++ id :: pairs).length -
      (idText :: texts).length) = id :: pairs := by
    have hcut : (c.args ++ id :: pairs).length - (idText :: texts).length = c.args.length := by
      rw [List.length_append, List.length_cons, List.length_cons, hlen]
      omega
    rw [hcut, List.drop_left]
  show Except.ok (some (bound, limit), (c.args ++ id :: pairs).drop _) = _
  rw [hdrop]

theorem parseXaddTrim_binary (h : c.Means bound limit) (hpairs : ¬ ∀ arg ∈ pairs, IsText arg) :
    parseXaddTrim (c.args ++ id :: pairs) = .error (.respParse "argument not utf8") := by
  obtain ⟨rest, hrest⟩ := c.args_eq (id :: pairs)
  have hall : argsAsStrings (c.args ++ id :: pairs) = .error (.respParse "argument not utf8") := by
    apply argsAsStrings_error
    intro htext
    exact hpairs fun arg harg =>
      htext arg (List.mem_append_right _ (List.mem_cons_of_mem _ harg))
  unfold parseXaddTrim
  rw [hrest]
  dsimp only
  rw [optionWord_asBytes, Result.ok_bind, if_pos h.bound.keyword, ← hrest, hall]
  rfl

/-- What `XADD` does once its options are read. -/
def xaddRest (key : String) (trim : Option (TrimBound × Option Nat)) (id : Bytes)
    (pairs : List Bytes) : KV RespReply := do
  let spec ← AddIdSpec.parse (← argText id)
  if pairs = [] ∨ pairs.length % 2 ≠ 0 then Prog.fail (.wrongArity "XADD")
  else
    let fields ← keyValuePairs "XADD" pairs
    let result ← Storage.xadd key spec fields false trim
    return result.elim .nil streamIdBulk

variable {keyArg : Bytes} {key : String} {args : List Bytes} {first : Bytes} {word : String}
  {trim : Option (TrimBound × Option Nat)}

theorem handleXadd_bind (hkey : argAsStr keyArg = .ok key) (hlen : 2 ≤ args.length)
    (hfirst : optionWord first = .ok word) (hword : word ≠ "NOMKSTREAM") :
    handleXadd (keyArg :: first :: args) =
      (Prog.ofExcept (parseXaddTrim (first :: args))).bind fun p =>
        match p.2 with
        | [] => Prog.fail (.wrongArity "XADD")
        | id :: pairs => xaddRest key p.1 id pairs := by
  have hno : isWord first "NOMKSTREAM" = .ok false := by
    unfold isWord
    rw [hfirst]
    exact congrArg Except.ok (beq_false_of_ne hword)
  rcases args with _ | ⟨b, _ | ⟨d, rest⟩⟩
  · cases hlen
  · exact absurd hlen (by simp)
  · show (Prog.ofExcept (argAsStr keyArg)).bind _ = _
    rw [hkey, Prog.ofExcept, Prog.done_ok_bind]
    show (Prog.ofExcept (isWord first "NOMKSTREAM")).bind _ = _
    rw [hno, Prog.ofExcept, Prog.done_ok_bind]
    rfl

end Xadd

/-! ## The same entry -/

section Entry

variable {key : String} {spec : AddIdSpec} {fields : List (String × Bytes)} {bound : TrimBound}
  {now : UInt64} {entry : Option StoredValue} {trim : Option (TrimBound × Option Nat)}

/-- The stream that the decision stores is spared. -/
def SparedBy (bound : TrimBound) (action : Result (CasAction (Option StreamId))) : Prop :=
  ∀ exp st r, action = .ok (.write ⟨exp, .stream st⟩ r) → bound.Spares st.entries

theorem xaddModify_trim
    (h : SparedBy bound (Storage.xaddModify key spec fields false none now entry))
    (limit : Option Nat) :
    Storage.xaddModify key spec fields false (some (bound, limit)) now entry =
      Storage.xaddModify key spec fields false none now entry := by
  have hadd : ∀ (s : StreamValue) exp, (add s spec fields now none >>= fun p =>
        .ok (View.stream.write exp p.1 (some p.2))) =
        Storage.xaddModify key spec fields false none now entry →
      (add s spec fields now (some (bound, limit)) >>= fun p =>
        .ok (View.stream.write exp p.1 (some p.2))) =
        Storage.xaddModify key spec fields false none now entry := by
    intro s exp hsame
    rw [← hsame] at h ⊢
    cases hplain : add s spec fields now none with
    | error e =>
        have hresolve := add_error.mp hplain
        rw [add_error.mpr hresolve]
    | ok p =>
        rw [hplain] at h
        rw [add_trim hplain (h exp p.1 (some p.2) rfl)]
  unfold Storage.xaddModify at hadd ⊢
  cases hfind : View.stream.find key entry with
  | error e => rfl
  | ok found =>
      rw [hfind] at hadd
      cases found with
      | none => exact hadd {} none rfl
      | some p => exact hadd p.1 p.2 rfl

theorem xaddModify_error {e : RustyAntError}
    (h : Storage.xaddModify key spec fields false trim now entry = .error e) (m : String) :
    e ≠ .respParse m := by
  have hadd : ∀ (s : StreamValue) exp, (add s spec fields now trim >>= fun p =>
      Except.ok (View.stream.write exp p.1 (some p.2))) = .error e → e ≠ .respParse m := by
    intro s exp herror
    cases hplain : add s spec fields now trim with
    | error e' =>
        have hresolve := add_error.mp hplain
        rw [hplain, Result.error_bind] at herror
        cases herror
        unfold resolveAddId at hresolve
        split at hresolve
        · cases hresolve
        · split at hresolve <;> cases hresolve
          rintro ⟨⟩
        · split at hresolve <;> cases hresolve
          rintro ⟨⟩
    | ok p =>
        rw [hplain] at herror
        cases herror
  unfold Storage.xaddModify at h
  cases hfind : View.stream.find key entry with
  | error e' =>
      rw [hfind] at h
      cases h
      unfold View.find at hfind
      split at hfind
      · cases hfind
      · split at hfind <;> cases hfind
        rintro ⟨⟩
  | ok found =>
      rw [hfind] at h
      cases found with
      | none => exact hadd {} none h
      | some p => exact hadd p.1 p.2 h

end Entry

/-! ## Run alone -/

/-- The field and value arguments. -/
def pairArgs (pairs : List (String × Bytes)) : List Bytes :=
  pairs.flatMap fun p => [Rdb.asBytes p.1, p.2]

theorem keyValuePairs_pairArgs (cmd : String) (pairs : List (String × Bytes)) :
    keyValuePairs cmd (pairArgs pairs) = .ok pairs := by
  induction pairs with
  | nil => rfl
  | cons p pairs ih =>
      show keyValuePairs cmd (Rdb.asBytes p.1 :: p.2 :: pairArgs pairs) = _
      rw [keyValuePairs, argAsStr_asBytes, Result.ok_bind, ih]
      rfl

theorem length_pairArgs (pairs : List (String × Bytes)) :
    (pairArgs pairs).length = 2 * pairs.length := by
  induction pairs with
  | nil => rfl
  | cons p pairs ih =>
      show (Rdb.asBytes p.1 :: p.2 :: pairArgs pairs).length = _
      rw [List.length_cons, List.length_cons, List.length_cons, ih]
      omega

/-- The field names are text, so only a value can be something else. -/
theorem pairArgs_text {pairs : List (String × Bytes)} :
    (∀ arg ∈ pairArgs pairs, IsText arg) ↔ ∀ p ∈ pairs, IsText p.2 := by
  unfold pairArgs
  constructor
  · intro h p hp
    exact h p.2 (List.mem_flatMap.mpr ⟨p, hp, List.mem_cons_of_mem _ List.mem_cons_self⟩)
  · intro h arg harg
    obtain ⟨p, hp, harg⟩ := List.mem_flatMap.mp harg
    rcases List.mem_cons.mp harg with rfl | harg
    · exact ⟨p.1, argAsStr_asBytes p.1⟩
    · rw [List.mem_singleton.mp harg]
      exact h p hp

section Run

variable {env : Solo} {s : Keyspace} {key : String} {bound : TrimBound} {limit : Option Nat}
  {id : Bytes} {idText : String} {pairs : List (String × Bytes)}
  {trim : Option (TrimBound × Option Nat)}

/-- What an `XADD` decides on what it finds at its key. -/
def addDecision (env : Solo) (s : Keyspace) (key : String) (spec : AddIdSpec)
    (pairs : List (String × Bytes)) (trim : Option (TrimBound × Option Nat)) :
    Result (CasAction (Option StreamId)) :=
  Storage.xaddModify key spec pairs false trim (UInt64.ofNat (max (env.now 0) 0).toNat)
    ((env.seen 1 s key).map Prod.fst)

/-- What an `XADD` with a well-formed id comes to. -/
theorem xaddRest_runs (h : env.Faultless) {spec : AddIdSpec} (hid : argAsStr id = .ok idText)
    (hspec : AddIdSpec.parse id = .ok spec) (hpairs : pairs ≠ []) :
    env.run (xaddRest key trim id (pairArgs pairs)) s =
      match env.casRuns 1 s key (addDecision env s key spec pairs trim) with
      | (.ok r, w) => (.ok (r.elim .nil streamIdBulk), w)
      | (.error e, w) => (.error e, w) := by
  have htext : argText id = .ok id := by
    unfold argText
    rw [hid]
    rfl
  have hlen := length_pairArgs pairs
  have hne : ¬ (pairArgs pairs = [] ∨ (pairArgs pairs).length % 2 ≠ 0) := by
    rintro (hnil | hodd)
    · rw [hnil, List.length_nil] at hlen
      exact hpairs (List.eq_nil_of_length_eq_zero (by omega))
    · omega
  have hxadd : env.runFrom 0 (Storage.xadd key spec pairs false trim) s =
      env.casRuns 1 s key (addDecision env s key spec pairs trim) := by
    unfold Storage.xadd
    refine (Solo.runFrom_step (Solo.nowMs_runs env 0 s)).trans ?_
    exact Solo.cas_runs h 1 key _ s
  unfold Solo.run xaddRest
  refine (Solo.runFrom_parse htext).trans ?_
  refine (Solo.runFrom_parse hspec).trans ?_
  rw [if_neg hne]
  refine (Solo.runFrom_parse (keyValuePairs_pairArgs "XADD" pairs)).trans ?_
  refine (Solo.runFrom_bind _ _).trans ?_
  rw [hxadd]
  rcases env.casRuns 1 s key (addDecision env s key spec pairs trim) with ⟨e | r, w⟩ <;> rfl

/-- An id that is not well formed is refused before the clause matters. -/
theorem xaddRest_refused (env : Solo) {e : RustyAntError} (hid : argAsStr id = .ok idText)
    (hspec : AddIdSpec.parse id = .error e) (s : Keyspace) (args : List Bytes) :
    env.run (xaddRest key trim id args) s = (.error e, 0, s) := by
  have htext : argText id = .ok id := by
    unfold argText
    rw [hid]
    rfl
  unfold Solo.run xaddRest
  refine (Solo.runFrom_parse htext).trans ?_
  show env.runFrom 0 ((Prog.ofExcept (AddIdSpec.parse id)).bind _) s = _
  rw [hspec]
  rfl

theorem readU64_error {text : Bytes} {e : RustyAntError} (h : readU64 text = .error e) :
    e = invalidId := by
  unfold readU64 at h
  split at h <;> cases h
  rfl

theorem addIdSpec_error {text : Bytes} {e : RustyAntError} (h : AddIdSpec.parse text = .error e) :
    e = invalidId := by
  unfold AddIdSpec.parse at h
  split at h
  · cases h
  split at h
  · rename_i ms seq _
    cases hms : readU64 ms with
    | error e' =>
        rw [hms] at h
        cases h
        exact readU64_error hms
    | ok ms' =>
        rw [hms, Result.ok_bind] at h
        split at h
        · cases h
        cases hseq : readU64 seq with
        | error e' =>
            rw [hseq] at h
            cases h
            exact readU64_error hseq
        | ok seq' =>
            rw [hseq] at h
            cases h
  · cases hms : readU64 text with
    | error e' =>
        rw [hms] at h
        cases h
        exact readU64_error hms
    | ok ms' =>
        rw [hms] at h
        cases h

/-- `XADD` without a clause has no complaint about its values. -/
theorem xaddRest_not_text (h : env.Faultless) (hid : argAsStr id = .ok idText) (hpairs : pairs ≠ [])
    (m : String) :
    (env.run (xaddRest key trim id (pairArgs pairs)) s).1 ≠ .error (.respParse m) := by
  cases hspec : AddIdSpec.parse id with
  | error e =>
      rw [xaddRest_refused env hid hspec, addIdSpec_error hspec]
      rintro ⟨⟩
  | ok spec =>
      rw [xaddRest_runs h hid hspec hpairs]
      cases hdecision : addDecision env s key spec pairs trim with
      | error e =>
          have hkind := xaddModify_error hdecision m
          intro heq
          exact hkind (Except.error.inj heq)
      | ok action =>
          cases action <;> rintro ⟨⟩

/-- The clause removes nothing from the stream that the command leaves. -/
def SparesResult (env : Solo) (s : Keyspace) (key : String) (bound : TrimBound)
    (p : KV RespReply) : Prop :=
  ∀ reply, (env.run p s).1 = .ok reply →
    ∀ exp st token, (env.run p s).2.2 key = some (⟨exp, .stream st⟩, token) →
      bound.Spares st.entries

theorem SparesResult.decision (h : env.Faultless) {spec : AddIdSpec}
    (hid : argAsStr id = .ok idText) (hspec : AddIdSpec.parse id = .ok spec) (hpairs : pairs ≠ [])
    (hspares : SparesResult env s key bound (xaddRest key none id (pairArgs pairs))) :
    SparedBy bound (addDecision env s key spec pairs none) := by
  intro exp st r hdecision
  unfold SparesResult at hspares
  rw [xaddRest_runs h hid hspec hpairs, hdecision] at hspares
  exact hspares _ rfl exp st _ (Function.update_self _ _ _)

theorem xaddRest_trim (h : env.Faultless) (hid : argAsStr id = .ok idText) (hpairs : pairs ≠ [])
    (hspares : SparesResult env s key bound (xaddRest key none id (pairArgs pairs)))
    (limit : Option Nat) :
    env.run (xaddRest key (some (bound, limit)) id (pairArgs pairs)) s =
      env.run (xaddRest key none id (pairArgs pairs)) s := by
  cases hspec : AddIdSpec.parse id with
  | error e => rw [xaddRest_refused env hid hspec, xaddRest_refused env hid hspec]
  | ok spec =>
      have hspared := hspares.decision h hid hspec hpairs
      have hsame : addDecision env s key spec pairs (some (bound, limit)) =
          addDecision env s key spec pairs none := xaddModify_trim hspared limit
      rw [xaddRest_runs h hid hspec hpairs, xaddRest_runs h hid hspec hpairs, hsame]

variable {c : TrimClause} {keyArg : Bytes}

theorem handleXadd_plain (hkey : argAsStr keyArg = .ok key) (hid : argAsStr id = .ok idText)
    (hword : ¬ IsXaddWord idText) (hpairs : pairs ≠ []) :
    handleXadd (keyArg :: id :: pairArgs pairs) = xaddRest key none id (pairArgs pairs) := by
  have hlen := length_pairArgs pairs
  have hpos := List.length_pos_iff.mpr hpairs
  rw [handleXadd_bind hkey (by omega) (optionWord_of_text hid) fun heq => hword (.inl heq),
    parseXaddTrim_plain hid hword]
  rfl

/-- With the clause, the arguments are all read as text first. -/
theorem handleXadd_clause (hkey : argAsStr keyArg = .ok key) (hpairs : pairs ≠ [])
    (hc : c.Means bound limit) :
    handleXadd (keyArg :: (c.args ++ id :: pairArgs pairs)) =
      (Prog.ofExcept (parseXaddTrim (c.args ++ id :: pairArgs pairs))).bind fun p =>
        match p.2 with
        | [] => Prog.fail (.wrongArity "XADD")
        | id :: pairs => xaddRest key p.1 id pairs := by
  have hlen := length_pairArgs pairs
  have hpos := List.length_pos_iff.mpr hpairs
  obtain ⟨rest, hrest⟩ := c.args_eq (id :: pairArgs pairs)
  have hkeyword : toUpper c.keyword ≠ "NOMKSTREAM" := by
    rcases hc.bound.keyword with hmax | hmin
    · rw [hmax]
      decide
    · rw [hmin]
      decide
  have hrestlen : 2 ≤ rest.length := by
    have hall := congrArg List.length hrest
    rw [List.length_append, List.length_cons, List.length_cons] at hall
    have hargs : 1 ≤ c.args.length := Nat.succ_pos _
    omega
  rw [hrest]
  exact handleXadd_bind hkey hrestlen (optionWord_asBytes c.keyword) hkeyword

/-- A trim clause that removes nothing changes nothing exactly when every value is text; its
parser takes its tokens and no other. -/
theorem xadd_trim_iff (h : env.Faultless) (hkey : argAsStr keyArg = .ok key)
    (hid : argAsStr id = .ok idText) (hword : ¬ IsXaddWord idText) (hpairs : pairs ≠ [])
    (hc : c.Means bound limit)
    (hspares : SparesResult env s key bound (handleXadd (keyArg :: id :: pairArgs pairs))) :
    ((env.run (handleXadd (keyArg :: (c.args ++ id :: pairArgs pairs))) s).1 =
          (env.run (handleXadd (keyArg :: id :: pairArgs pairs)) s).1 ∧
        (env.run (handleXadd (keyArg :: (c.args ++ id :: pairArgs pairs))) s).2.2 =
          (env.run (handleXadd (keyArg :: id :: pairArgs pairs)) s).2.2 ↔
      ∀ p ∈ pairs, IsText p.2) ∧
    ∀ rest, (limit = none → ¬ StartsLimit rest) →
      parseTrim (c.tokens ++ rest) = .ok (bound, limit, rest) := by
  refine ⟨?_, fun rest hrest => parseTrim_tokens hc hrest⟩
  have hplain := handleXadd_plain hkey hid hword hpairs
  have hclause : handleXadd (keyArg :: (c.args ++ id :: pairArgs pairs)) = _ :=
    handleXadd_clause hkey hpairs hc
  rw [hplain] at hspares ⊢
  by_cases htext : ∀ p ∈ pairs, IsText p.2
  · rw [hclause, parseXaddTrim_clause hc hid hword (pairArgs_text.mpr htext)]
    show (env.run (xaddRest key (some (bound, limit)) id (pairArgs pairs)) s).1 = _ ∧
      (env.run (xaddRest key (some (bound, limit)) id (pairArgs pairs)) s).2.2 = _ ↔ _
    rw [xaddRest_trim h hid hpairs hspares]
    exact iff_of_true ⟨rfl, rfl⟩ htext
  · rw [hclause, parseXaddTrim_binary hc fun hall => htext (pairArgs_text.mp hall)]
    have hother : (env.run (xaddRest key none id (pairArgs pairs)) s).1 ≠ _ :=
      xaddRest_not_text h hid hpairs "argument not utf8"
    exact iff_of_false (fun hsame => hother hsame.1.symm) htext

end Run

/-! ## On an empty keyspace -/

/-- `MAXLEN 10` -/
def maxLenTen : TrimClause := ⟨"MAXLEN", none, "10", none⟩

theorem maxLenTen_means : maxLenTen.Means (.maxLen 10) none where
  sign := .inl rfl
  bound := ⟨by decide +kernel, rfl⟩
  limit := rfl

theorem spares_first (value : Bytes) :
    SparesResult (.still 0) (fun _ => none) "k" (.maxLen 10)
      (handleXadd (Rdb.asBytes "k" :: Rdb.asBytes "5-0" :: pairArgs [("f", value)])) := by
  have hspec : AddIdSpec.parse (Rdb.asBytes "5-0") = .ok (.concrete ⟨5, 0⟩) := rfl
  have hword := addIdSpec_not_word (argAsStr_asBytes "5-0") hspec
  intro reply _ exp st token hstored
  rw [handleXadd_plain (argAsStr_asBytes "k") (argAsStr_asBytes "5-0") hword (by simp),
    xaddRest_runs (Solo.still_faultless 0) (argAsStr_asBytes "5-0") hspec (by simp)] at hstored
  cases hstored
  show 1 ≤ 10
  omega

theorem xadd_trim_iff_on_first :
    (((Solo.still 0).run (handleXadd (Rdb.asBytes "k" ::
            (maxLenTen.args ++ Rdb.asBytes "5-0" :: pairArgs [("f", [97])]))) fun _ => none).1 =
          ((Solo.still 0).run (handleXadd (Rdb.asBytes "k" ::
            Rdb.asBytes "5-0" :: pairArgs [("f", [97])])) fun _ => none).1 ∧
        ((Solo.still 0).run (handleXadd (Rdb.asBytes "k" ::
            (maxLenTen.args ++ Rdb.asBytes "5-0" :: pairArgs [("f", [97])]))) fun _ => none).2.2 =
          ((Solo.still 0).run (handleXadd (Rdb.asBytes "k" ::
            Rdb.asBytes "5-0" :: pairArgs [("f", [97])])) fun _ => none).2.2 ↔
      ∀ p ∈ [("f", [97])], IsText p.2) ∧
    ∀ rest, (none = (none : Option Nat) → ¬ StartsLimit rest) →
      parseTrim (maxLenTen.tokens ++ rest) = .ok (.maxLen 10, none, rest) :=
  xadd_trim_iff (Solo.still_faultless 0) (argAsStr_asBytes "k") (argAsStr_asBytes "5-0")
    (@addIdSpec_not_word _ _ (.concrete ⟨5, 0⟩) (argAsStr_asBytes "5-0") rfl) (by simp)
    maxLenTen_means (spares_first [97])

/-- With `MAXLEN 10` a value of one byte 255 is refused; without it, it is added. -/
theorem xadd_trim_binary :
    SparesResult (.still 0) (fun _ => none) "k" (.maxLen 10)
      (handleXadd (Rdb.asBytes "k" :: Rdb.asBytes "5-0" :: pairArgs [("f", [255])])) ∧
    ((Solo.still 0).run (handleXadd (Rdb.asBytes "k" ::
        (maxLenTen.args ++ Rdb.asBytes "5-0" :: pairArgs [("f", [255])]))) fun _ => none).1 =
      .error (.respParse "argument not utf8") ∧
    ((Solo.still 0).run (handleXadd (Rdb.asBytes "k" ::
        Rdb.asBytes "5-0" :: pairArgs [("f", [255])])) fun _ => none).1 =
      .ok (streamIdBulk ⟨5, 0⟩) := by
  have hspec : AddIdSpec.parse (Rdb.asBytes "5-0") = .ok (.concrete ⟨5, 0⟩) := rfl
  have hword := addIdSpec_not_word (argAsStr_asBytes "5-0") hspec
  have hbinary : ¬ ∀ arg ∈ pairArgs [("f", [255])], IsText arg := by
    intro htext
    obtain ⟨t, ht⟩ := pairArgs_text.mp htext ("f", [255]) List.mem_cons_self
    cases ht
  refine ⟨spares_first [255], ?_, ?_⟩
  · rw [handleXadd_clause (argAsStr_asBytes "k") (by simp) maxLenTen_means,
      parseXaddTrim_binary maxLenTen_means hbinary]
    rfl
  · rw [handleXadd_plain (argAsStr_asBytes "k") (argAsStr_asBytes "5-0") hword (by simp),
      xaddRest_runs (Solo.still_faultless 0) (argAsStr_asBytes "5-0") hspec (by simp)]
    rfl

end Commands
end RustyAnt
