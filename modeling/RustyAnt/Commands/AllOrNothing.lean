import RustyAnt.Commands.Keys
import RustyAnt.Commands.Lists
import RustyAnt.Commands.Stores
import RustyAnt.DynamoDb.Kept
import RustyAnt.Mirror.Methods
import RustyAnt.Storage.Conservation

/-!
# All or nothing

A command of several steps removes data with one request and writes it with a later
one, which the backend may refuse for its size.  A command that fails alone keeps
everything in place, except where it has taken an entry away by the time its last
write is refused.
-/

namespace RustyAnt

open Lib

namespace Commands

/-! ## Moves between two keys -/

/-- A move between two keys: the kind of both, which of the clock's readings the
second look at the destination uses, and for an entry that something can be taken
from, what is left of it and what the destination's entry becomes. -/
structure Transfer where
  source : String
  dest : String
  kind : ValueKind
  again : Nat
  take : StoredValue → Option (Option StoredValue × (Option StoredValue → StoredValue))

namespace Transfer

/-- The destination as it is found after the removal, if its first look lets the move
go on. -/
def secondLook (m : Transfer) (clock : Clock) (d : DdbWorld) : Option (Option StoredValue) :=
  match ddbLookup d.tables (clock.now d.readings) m.dest with
  | .ok none => some none
  | .ok (some b) =>
      if b.kind = m.kind then
        some (if b.isExpired (clock.now (d.readings + m.again)) then none else some b)
      else none
  | .error _ => none

/-- Something is taken from an entry that outlives the command, and what the
destination's entry becomes is over the item limit. -/
def Spills (m : Transfer) (fo : FloatOps) (clock : Clock) (d final : DdbWorld) : Prop :=
  m.source ≠ m.dest ∧ ∃ e rest put found, DynamoDb.StoresAt d.tables m.source e ∧
    DynamoDb.Outlives clock d final e ∧ m.take e = some (rest, put) ∧
    (∀ e' ∈ rest, DynamoDb.FitsItem fo e') ∧ m.secondLook clock d = some found ∧
    ¬ DynamoDb.FitsItem fo (put found)

/-- The destination as the first look has left it. -/
def DestReady (m : Transfer) (clock : Clock) (d₀ d : DdbWorld) : Prop :=
  (d.tables.index[m.dest]? = none ∧ m.secondLook clock d₀ = some none) ∨
    ∃ b, DynamoDb.StoresAt d.tables m.dest b ∧ b.value.scoresFinite = true ∧ b.kind = m.kind ∧
      m.secondLook clock d₀ = some (if b.isExpired (clock.now (d.readings + 1)) then none else some b)

def removal {R : Type} (rest : Option StoredValue) (r : R) : CasAction R :=
  match rest with
  | none => .delete r
  | some e' => .write e' r

open DynamoDb

section Alone

variable {fo : FloatOps} {order : ScanOrder} {clock : Clock}

/-- A compare-and-swap on the source and the program that follows it carry the move out. -/
structure Carries {R β : Type} (m : Transfer) (fo : FloatOps) (order : ScanOrder) (clock : Clock)
    (modify : Option StoredValue → Result (CasAction R)) (next : R → KV β) : Prop where
  keepsKind : KeepsKind modify
  absent : ∃ r, modify none = .ok (.noOp r)
  other : ∀ e, e.kind ≠ m.kind → ∃ err, modify (some e) = .error err
  idleNext : ∀ found r, modify found = .ok (.noOp r) → ∀ d d' err, d.tables.IsKeyspace →
    runAlone fo order clock (next r) d = (.error err, d') → Kept clock d d'
  takes : ∀ e rest put, m.take e = some (rest, put) →
    e.value.scoresFinite = true ∧ e.kind = m.kind ∧
    (∀ e' ∈ rest, e'.value.scoresFinite = true ∧ e ≠ e' ∧ e'.expiresAtMs = e.expiresAtMs) ∧
    ∃ r, modify (some e) = .ok (removal rest r) ∧
      ∃ (R' : Type) (add : Option StoredValue → Result (CasAction R')) (reply : β),
        KeepsKind add ∧ next r = (cas m.dest add).bind (fun _ => .done (.ok reply)) ∧
        ∀ found, (∀ b ∈ found, b.kind = m.kind) → ∃ x, add found = .ok (.write (put found) x)

variable {m : Transfer} {d₀ d d₁ d₂ : DdbWorld}

/-- What is taken from an entry, when it can be written back. -/
theorem taken_of_removal {R : Type} {e : StoredValue} {rest : Option StoredValue} {r : R}
    (hrest : ∀ e' ∈ rest, e'.value.scoresFinite = true ∧ e ≠ e' ∧
      e'.expiresAtMs = e.expiresAtMs) {out : Result R × DdbWorld}
    (h : Settles fo m.source d₁ out (.ok (removal rest r)))
    (hfit : ∀ e' ∈ rest, FitsItem fo e') :
    out.1 = .ok r ∧ Taken m.source e d₁ out.2 ∧
      (d₁.tables.IsKeyspace → out.2.tables.IsKeyspace) := by
  cases rest with
  | none => exact ⟨h.1, h.2.taken e, h.2.isKeyspace⟩
  | some e' =>
      have hwrite : if FitsItem fo e' then _ else _ := h
      rw [if_pos (hfit e' rfl)] at hwrite
      obtain ⟨hfinite, hne, hexp⟩ := hrest e' rfl
      exact ⟨hwrite.1, hwrite.2.taken hfinite hne hexp, hwrite.2.isKeyspace⟩

/-- The destination is as the second look will find it, once the source has been
loaded and written. -/
theorem DestReady.finds (h : m.DestReady clock d₀ d) (hsame : d.tables.SameAt d₂.tables m.dest)
    (hclock : d₂.readings = d.readings + 1) {found : Option StoredValue} {d₃ : DdbWorld}
    (hreads : Reads clock m.dest d₂ found d₃) :
    m.secondLook clock d₀ = some found ∧ ∀ b ∈ found, b.kind = m.kind := by
  rcases h with ⟨hnone, hlook⟩ | ⟨b, hstored, hfinite, hkind, hlook⟩
  · have hmissing : found = none := hreads.of_absent (hsame.1.trans hnone)
    rw [hmissing, hlook]
    exact ⟨rfl, by simp⟩
  · have hfound := hreads.of_stored (hstored.of_same hsame) hfinite
    rw [hclock] at hfound
    rw [hlook, hfound]
    refine ⟨rfl, fun b' hb' => ?_⟩
    split at hb'
    · cases hb'
    · rw [← Option.some.inj hb']
      exact hkind

theorem DestReady.readable (h : m.DestReady clock d₀ d) (hsame : d.tables.SameAt d₂.tables m.dest)
    {e : StoredValue} (hstored : StoresAt d₂.tables m.dest e) : e.value.scoresFinite = true := by
  rcases h with ⟨hnone, -⟩ | ⟨b, hb, hfinite, -, -⟩
  · exact absurd hstored (not_storesAt_of_absent (hsame.1.trans hnone))
  · rw [(hb.of_same hsame).unique hstored hfinite]
    exact hfinite

variable (fo order clock) in
/-- The last write of a move, once the removal has been made. -/
theorem add_outcome {R' β : Type} {add : Option StoredValue → Result (CasAction R')} (reply : β)
    {put : Option StoredValue → StoredValue} (hready : m.DestReady clock d₀ d)
    (hsame : d.tables.SameAt d₂.tables m.dest) (hclock : d₂.readings = d.readings + 1)
    (hd₂ : d₂.tables.IsKeyspace) (hkeep : KeepsKind add)
    (hadd : ∀ found, (∀ b ∈ found, b.kind = m.kind) → ∃ x, add found = .ok (.write (put found) x)) :
    ∃ found, m.secondLook clock d₀ = some found ∧
      if FitsItem fo (put found) then
        ∃ d₃, runAlone fo order clock ((cas m.dest add).bind fun _ => .done (.ok reply)) d₂ =
          (.ok reply, d₃)
      else ∃ err d₃, Kept clock d₂ d₃ ∧
        runAlone fo order clock ((cas m.dest add).bind fun _ => .done (.ok reply)) d₂ =
          (.error err, d₃) := by
  rw [runAlone_bind]
  rcases cas_outcome fo order clock hkeep hd₂ m.dest with
    ⟨err, e, -, hstored, hfinite⟩ | ⟨found, d₃, hreads, hsettles⟩
  · rw [hready.readable hsame hstored] at hfinite
    cases hfinite
  · obtain ⟨hlook, hkind⟩ := hready.finds hsame hclock hreads
    obtain ⟨x, hx⟩ := hadd found hkind
    rw [hx] at hsettles
    have hwrite : if FitsItem fo (put found) then _ else _ := hsettles
    refine ⟨found, hlook, ?_⟩
    split
    · rename_i hfit
      rw [if_pos hfit] at hwrite
      rw [← Prod.eta (runAlone fo order clock (cas m.dest add) d₂), hwrite.1]
      exact ⟨_, rfl⟩
    · rename_i hfit
      rw [if_neg hfit] at hwrite
      obtain ⟨msg, hrefused⟩ := hwrite
      rw [hrefused]
      exact ⟨_, d₃, hreads.kept, rfl⟩

/-- A move keeps everything in place when it fails, unless it spills. -/
def KeepsIff {β : Type} (m : Transfer) (fo : FloatOps) (clock : Clock) (d : DdbWorld)
    (out : Result β × DdbWorld) : Prop :=
  ((∃ err, out.1 = .error err) → Kept clock d out.2) ↔ ¬ m.Spills fo clock d out.2

/-- Where nothing has been taken, everything is kept and nothing spills. -/
theorem KeepsIff.of_idle {β : Type} {out : Result β × DdbWorld} (h₀ : Kept clock d₀ d)
    (hkept : ∀ err, out.1 = .error err → Kept clock d₀ out.2)
    (hle : d.readings ≤ out.2.readings)
    (hidle : ∀ e rest put, StoresAt d.tables m.source e → Outlives clock d₀ out.2 e →
      m.take e = some (rest, put) → ∃ e' ∈ rest, ¬ FitsItem fo e') :
    m.KeepsIff fo clock d₀ out := by
  refine iff_of_true (fun ⟨err, herr⟩ => hkept err herr) ?_
  rintro ⟨-, e, rest, put, found, hstored, hout, htake, hfit, -, -⟩
  have hthere := (h₀.same m.source e (hout.left hle)).mp hstored
  obtain ⟨e', he', hover⟩ := hidle e rest put hthere hout htake
  exact hover (hfit e' he')

/-- Where the destination turns the move down, everything is kept and nothing spills. -/
theorem KeepsIff.of_refused {β : Type} {out : Result β × DdbWorld} (hkept : Kept clock d₀ out.2)
    (hlook : m.secondLook clock d₀ = none) : m.KeepsIff fo clock d₀ out := by
  refine iff_of_true (fun _ => hkept) ?_
  rintro ⟨-, e, rest, put, found, -, -, -, -, hfound, -⟩
  rw [hlook] at hfound
  cases hfound

theorem KeepsIff.of_sameKey {β : Type} {out : Result β × DdbWorld} (heq : m.source = m.dest)
    (hkept : ∀ err, out.1 = .error err → Kept clock d₀ out.2) : m.KeepsIff fo clock d₀ out :=
  iff_of_true (fun ⟨err, herr⟩ => hkept err herr) fun h => h.1 heq

theorem KeepsIff.map {α β : Type} {p : KV α} (f : α → β)
    (h : m.KeepsIff fo clock d (runAlone fo order clock p d)) :
    m.KeepsIff fo clock d (runAlone fo order clock (p.bind fun a => .done (.ok (f a))) d) := by
  rw [runAlone_bind]
  generalize runAlone fo order clock p d = out at h
  obtain ⟨answer, d'⟩ := out
  cases answer with
  | ok a => exact iff_of_true (fun ⟨err, herr⟩ => nomatch herr) (h.mp fun ⟨err, herr⟩ => nomatch herr)
  | error e => exact ⟨fun hkept => h.mp fun _ => hkept ⟨e, rfl⟩, fun hspill _ => h.mpr hspill ⟨e, rfl⟩⟩

/-- The destination after a first look that lets the move go on, and loads of the source. -/
theorem DestReady.of_reads {found : Option StoredValue} (hreads : Reads clock m.dest d found d₁)
    (hkind : ∀ b ∈ found, b.kind = m.kind) (hsame : d₁.tables.SameAt d₂.tables m.dest)
    (hclock : ∀ b, found = some b → d₂.readings + 1 = d.readings + m.again) :
    m.DestReady clock d d₂ := by
  have hlookup := hreads.lookup_eq
  unfold DestReady secondLook
  rw [hlookup]
  cases found with
  | none => exact .inl ⟨hsame.1.trans hreads.missing, rfl⟩
  | some b =>
      obtain ⟨-, hstored, hfinite⟩ := hreads.stored rfl
      refine .inr ⟨b, hstored.of_same hsame, hfinite, hkind b rfl, ?_⟩
      dsimp only
      rw [if_pos (hkind b rfl), hclock b rfl]

theorem found_of_outlives (h₀ : Kept clock d₀ d) {found : Option StoredValue} {d' : DdbWorld}
    {e : StoredValue} (hreads : Reads clock m.source d found d₁) (hle : d₁.readings ≤ d'.readings)
    (hstored : StoresAt d.tables m.source e) (hout : Outlives clock d₀ d' e) : found = some e :=
  hreads.finds hstored ((hout.right h₀.later).left hle)

theorem take_of_outlives (h₀ : Kept clock d₀ d) {d' : DdbWorld} {e e' : StoredValue}
    {rest rest' : Option StoredValue} {put put' : Option StoredValue → StoredValue}
    (hreads : Reads clock m.source d (some e) d₁) (htake : m.take e = some (rest, put))
    (hle : d₁.readings ≤ d'.readings) (hstored : StoresAt d₀.tables m.source e')
    (hout : Outlives clock d₀ d' e') (htake' : m.take e' = some (rest', put')) :
    e' = e ∧ rest' = rest ∧ put' = put := by
  have hthere := (h₀.same m.source e' (hout.left (hreads.readings_le.trans hle))).mp hstored
  have he := Option.some.inj (found_of_outlives h₀ hreads hle hthere hout)
  rw [← he, htake] at htake'
  cases htake'
  exact ⟨he.symm, rfl, rfl⟩

/-- Where the source is loaded and not written, everything is kept and nothing spills. -/
theorem KeepsIff.of_loaded {β : Type} {answer : Result β} (h₀ : Kept clock d₀ d)
    {found : Option StoredValue} (hreads : Reads clock m.source d found d₁)
    (hfound : ∀ e ∈ found, ∀ rest put, m.take e = some (rest, put) →
      ∃ e' ∈ rest, ¬ FitsItem fo e') : m.KeepsIff fo clock d₀ (answer, d₁) :=
  .of_idle h₀ (fun _ _ => h₀.trans hreads.kept) hreads.readings_le
    fun e rest put hstored hout =>
      hfound e (found_of_outlives h₀ hreads (le_refl _) hstored hout) rest put

theorem Carries.keepsIff_of_noOp {R β : Type} {modify : Option StoredValue → Result (CasAction R)}
    {next : R → KV β} (h : m.Carries fo order clock modify next) (h₀ : Kept clock d₀ d)
    (hd : d.tables.IsKeyspace) {found : Option StoredValue} {r : R}
    (hreads : Reads clock m.source d found d₁) (hmod : modify found = .ok (.noOp r))
    (hnone : ∀ e ∈ found, m.take e = none) :
    m.KeepsIff fo clock d₀ (runAlone fo order clock (next r) d₁) := by
  have hle₁ := runAlone_readings_le fo order clock (next r) d₁
  refine .of_idle h₀ (fun err herr => ?_) (hreads.readings_le.trans hle₁) ?_
  · have hidle := h.idleNext found r hmod d₁ _ err (hreads.isKeyspace hd) (Prod.ext herr rfl)
    exact (h₀.trans hreads.kept).trans hidle
  · intro e rest put hstored hout htake
    rw [hnone e (found_of_outlives h₀ hreads hle₁ hstored hout)] at htake
    cases htake

/-- A move that has taken something, by what becomes of its last write. -/
theorem KeepsIff.of_taken {β : Type} {out : Result β × DdbWorld} {reply : β} {e : StoredValue}
    {rest found : Option StoredValue} {put : Option StoredValue → StoredValue}
    (hne : m.source ≠ m.dest) (h₀ : Kept clock d₀ d)
    (hreads : Reads clock m.source d (some e) d₁) (htaken : Taken m.source e d₁ d₂)
    (htake : m.take e = some (rest, put)) (hfit : ∀ e' ∈ rest, FitsItem fo e')
    (hlook : m.secondLook clock d₀ = some found) (hle : d₂.readings ≤ out.2.readings)
    (hlast : if FitsItem fo (put found) then ∃ d₃, out = (.ok reply, d₃)
      else ∃ err d₃, Kept clock d₂ d₃ ∧ out = (.error err, d₃)) :
    m.KeepsIff fo clock d₀ out := by
  rw [htaken.readings] at hle
  split at hlast
  case isTrue hfits =>
    obtain ⟨d₃, rfl⟩ := hlast
    refine iff_of_true (fun ⟨err, herr⟩ => nomatch herr) ?_
    rintro ⟨-, e', rest', put', found', hstored, hout, htake', -, hlook', hover⟩
    obtain ⟨-, -, rfl⟩ := take_of_outlives h₀ hreads htake hle hstored hout htake'
    rw [hlook, Option.some.injEq] at hlook'
    rw [← hlook'] at hover
    exact hover hfits
  case isFalse hfits =>
    obtain ⟨err, d₃, hkept₃, rfl⟩ := hlast
    have hiff := kept_iff_of_taken h₀ hreads htaken hkept₃
    unfold KeepsIff
    rw [forall_prop_of_true ⟨err, rfl⟩, hiff, not_iff_not]
    constructor
    · intro hout
      have hstored := (h₀.same m.source e (hout.left (hreads.readings_le.trans hle))).mpr
        (hreads.stored rfl).1
      exact ⟨hne, e, rest, put, found, hstored, hout, htake, hfit, hlook, hfits⟩
    · rintro ⟨-, e', rest', put', found', hstored, hout, htake', -, -, -⟩
      obtain ⟨rfl, -, -⟩ := take_of_outlives h₀ hreads htake hle hstored hout htake'
      exact hout

theorem Carries.keepsIff_of_take {R β : Type} {modify : Option StoredValue → Result (CasAction R)}
    {next : R → KV β} (h : m.Carries fo order clock modify next) (hne : m.source ≠ m.dest)
    (h₀ : Kept clock d₀ d) (hd : d.tables.IsKeyspace) (hready : m.DestReady clock d₀ d)
    {e : StoredValue} {rest : Option StoredValue} {put : Option StoredValue → StoredValue}
    (hreads : Reads clock m.source d (some e) d₁) (htake : m.take e = some (rest, put))
    (hsettles : Settles fo m.source d₁ (runAlone fo order clock (cas m.source modify) d)
      (modify (some e))) :
    m.KeepsIff fo clock d₀ (runAlone fo order clock ((cas m.source modify).bind next) d) := by
  obtain ⟨-, -, hrest, r, hmod, R', add, reply, hkeep, hnext, hadd⟩ := h.takes e rest put htake
  rw [hmod] at hsettles
  rw [runAlone_bind]
  by_cases hfit : ∀ e' ∈ rest, FitsItem fo e'
  · obtain ⟨hok, htaken, hkeyspace⟩ := taken_of_removal hrest hsettles hfit
    rw [← Prod.eta (runAlone fo order clock (cas m.source modify) d), hok]
    generalize (runAlone fo order clock (cas m.source modify) d).2 = d₂ at *
    dsimp only
    rw [hnext]
    have hsame := sameAt_trans (hreads.same (Ne.symm hne)) (htaken.same m.dest (Ne.symm hne))
    have hclock : d₂.readings = d.readings + 1 := by
      rw [htaken.readings, hreads.readings_some]
    obtain ⟨found, hlook, hlast⟩ := add_outcome fo order clock reply hready hsame hclock
      (hkeyspace (hreads.isKeyspace hd)) hkeep hadd
    have hle := runAlone_readings_le fo order clock
      ((cas m.dest add).bind fun _ => .done (.ok reply)) d₂
    exact .of_taken hne h₀ hreads htaken htake hfit hlook hle hlast
  · -- what is left over is too long itself, and the removal is refused
    cases rest with
    | none => exact absurd (by simp) hfit
    | some e' =>
        have hover : ¬ FitsItem fo e' := fun hf => hfit (by simpa using hf)
        have hwrite : if FitsItem fo e' then _ else _ := hsettles
        rw [if_neg hover] at hwrite
        obtain ⟨msg, hrefused⟩ := hwrite
        rw [hrefused]
        refine .of_loaded h₀ hreads fun e₁ he₁ rest' put' htake' => ?_
        rw [← Option.some.inj he₁, htake] at htake'
        cases htake'
        exact ⟨e', rfl, hover⟩

theorem Carries.keepsIff {R β : Type} {modify : Option StoredValue → Result (CasAction R)}
    {next : R → KV β} (h : m.Carries fo order clock modify next) (hne : m.source ≠ m.dest)
    (h₀ : Kept clock d₀ d) (hd : d.tables.IsKeyspace) (hready : m.DestReady clock d₀ d)
    (hempty : ∀ e, StoresAt d.tables m.source e → e.kind = m.kind → m.take e = none →
      ∃ r, modify (some e) = .ok (.noOp r)) :
    m.KeepsIff fo clock d₀ (runAlone fo order clock ((cas m.source modify).bind next) d) := by
  rcases cas_outcome fo order clock h.keepsKind hd m.source with
    ⟨err, e₁, hrun, hstored₁, hfinite₁⟩ | ⟨found, d₁, hreads, hsettles⟩
  · rw [runAlone_bind, hrun]
    refine .of_idle h₀ (fun _ _ => h₀) (le_refl _) fun e rest put hstored hout htake => ?_
    have hfinite := (h.takes e rest put htake).1
    rw [hstored.unique hstored₁ hfinite, hfinite] at hfinite₁
    cases hfinite₁
  have hidle : ∀ r, modify found = .ok (.noOp r) → (∀ e ∈ found, m.take e = none) →
      m.KeepsIff fo clock d₀ (runAlone fo order clock ((cas m.source modify).bind next) d) := by
    intro r hmod hnone
    rw [hmod] at hsettles
    rw [runAlone_bind, show runAlone fo order clock (cas m.source modify) d = (.ok r, d₁) from
      hsettles]
    exact h.keepsIff_of_noOp h₀ hd hreads hmod hnone
  cases found with
  | none =>
      obtain ⟨r, hmod⟩ := h.absent
      exact hidle r hmod nofun
  | some e =>
      by_cases hkind : e.kind = m.kind
      · cases htake : m.take e with
        | none =>
            obtain ⟨r, hmod⟩ := hempty e (hreads.stored rfl).1 hkind htake
            exact hidle r hmod fun e' he' => Option.some.inj he' ▸ htake
        | some p => exact h.keepsIff_of_take hne h₀ hd hready hreads htake hsettles
      · obtain ⟨err, hmod⟩ := h.other e hkind
        rw [hmod] at hsettles
        rw [runAlone_bind, show runAlone fo order clock (cas m.source modify) d = (.error err, d₁)
          from hsettles]
        refine .of_loaded h₀ hreads fun e' he' rest put htake => ?_
        rw [← Option.some.inj he'] at htake
        exact absurd (h.takes e rest put htake).2.1 hkind

end Alone

/-! ## The moves of the commands -/

/-- `LMOVE` and `RPOPLPUSH` across keys. -/
def listTransfer (source dest : String) (fromLeft toLeft : Bool) : Transfer where
  source := source
  dest := dest
  kind := .list
  again := 2
  take e := match e.value with
    | .list l => (Storage.popOne fromLeft l).map fun p =>
        (if p.2.isEmpty then none else some ⟨e.expiresAtMs, .list p.2⟩,
          fun found => ⟨found.bind StoredValue.expiresAtMs,
            .list (Storage.pushOne toLeft (Storage.listOf found) p.1)⟩)
    | _ => none

/-- The set an entry holds; anything else counts as the empty set. -/
def setOf : Option StoredValue → BTreeSet String
  | some ⟨_, .set s⟩ => s
  | _ => ∅

/-- `SMOVE` across keys. -/
def setTransfer (source dest member : String) : Transfer where
  source := source
  dest := dest
  kind := .set
  again := 3
  take e := match e.value with
    | .set s =>
        if s.contains member then
          some (if (s.erase member).isEmpty then none else some ⟨e.expiresAtMs, .set (s.erase member)⟩,
            fun found => ⟨found.bind StoredValue.expiresAtMs, .set ((setOf found).insert member)⟩)
        else none
    | _ => none

open DynamoDb Storage

section Carry

variable {fo : FloatOps} {order : ScanOrder} {clock : Clock}

theorem popOne_ne {left : Bool} {l rest : List Bytes} {v : Bytes}
    (h : popOne left l = some (v, rest)) : l ≠ rest := by
  intro heq
  have hcoe := popOne_coe h
  rw [heq] at hcoe
  simpa using congrArg Multiset.card hcoe

theorem popModify_on_list (key : String) (left : Bool) (exp : Option Int) (l : List Bytes) :
    popModify key left (some ⟨exp, .list l⟩) =
      (popOne left l).elim (.ok (.noOp none)) fun p =>
        .ok (View.list.writeOrDelete exp p.2 (some p.1)) := by
  unfold popModify
  rw [show View.list.find key (some ⟨exp, .list l⟩) = .ok (some (l, exp)) from rfl,
    Result.ok_bind]
  dsimp only
  cases popOne left l <;> rfl

theorem popModify_idle {source dest : String} {fromLeft toLeft : Bool} {e : StoredValue}
    (hkind : e.kind = .list) (htake : (listTransfer source dest fromLeft toLeft).take e = none) :
    ∃ r, popModify source fromLeft (some e) = .ok (.noOp r) := by
  obtain ⟨exp, value⟩ := e
  cases value with
  | list l =>
      refine ⟨none, ?_⟩
      have hpop : popOne fromLeft l = none := Option.map_eq_none_iff.mp htake
      rw [popModify_on_list, hpop]
      rfl
  | _ => cases hkind

theorem listTransfer_carries (source dest : String) (fromLeft toLeft : Bool) :
    (listTransfer source dest fromLeft toLeft).Carries fo order clock (popModify source fromLeft)
      fun popped => match popped with
        | none => (.done (.ok none) : KV (Option Bytes))
        | some v => (cas dest (pushModify dest toLeft v)).bind fun _ => .done (.ok (some v)) where
  keepsKind := keepsKind_popModify source fromLeft
  absent := ⟨none, rfl⟩
  other e hkind := by
    obtain ⟨exp, value⟩ := e
    cases value with
    | list l => exact absurd rfl hkind
    | _ => exact ⟨_, rfl⟩
  idleNext found r hmod d d' err _ hrun := by
    have hnone : r = none := by
      unfold popModify at hmod
      obtain ⟨p, -, hrest⟩ := Result.bind_eq_ok.mp hmod
      cases p with
      | none => cases hrest; rfl
      | some p =>
          dsimp only at hrest
          cases hpop : popOne fromLeft p.1 with
          | none => rw [hpop] at hrest; cases hrest; rfl
          | some q =>
              rw [hpop] at hrest
              simp only [View.writeOrDelete, Result.pure_eq_ok, Except.ok.injEq] at hrest
              split at hrest <;> cases hrest
    rw [hnone] at hrun
    cases hrun
  takes e rest put htake := by
    obtain ⟨exp, value⟩ := e
    cases value with
    | list l =>
        obtain ⟨⟨v, l'⟩, hpop, heq⟩ := Option.map_eq_some_iff.mp htake
        simp only [Prod.mk.injEq] at heq
        obtain ⟨rfl, rfl⟩ := heq
        refine ⟨rfl, rfl, fun e' he' => ?_, some v, ?_, Unit, pushModify dest toLeft v, some v,
          keepsKind_pushModify dest toLeft v, rfl, fun found hkind => ⟨(), ?_⟩⟩
        · split at he'
          · cases he'
          · cases he'
            exact ⟨rfl, fun h => popOne_ne hpop (by simpa using h), rfl⟩
        · rw [popModify_on_list, hpop]
          cases l' with
          | nil => rfl
          | cons x xs => rfl
        · cases found with
          | none => rfl
          | some b =>
              obtain ⟨exp', value'⟩ := b
              cases value' with
              | list l₂ => rfl
              | _ => cases hkind _ rfl
    | _ => cases htake

theorem sremModify_on_set (key member : String) (exp : Option Int) (s : BTreeSet String)
    (h : s.contains member = true) :
    sremModify key [member] (some ⟨exp, .set s⟩) =
      .ok (View.set.writeOrDelete exp (s.erase member) 1) := by
  show Except.ok (View.set.writeOrDelete exp (sremOne (s, 0) member).1 (sremOne (s, 0) member).2) = _
  unfold sremOne
  rw [if_pos h]
  rfl

theorem setTransfer_carries (source dest member : String) :
    (setTransfer source dest member).Carries fo order clock (sremModify source [member])
      fun _ => (cas dest (saddModify dest [member])).bind fun _ => (.done (.ok (.integer 1)) : KV RespReply) where
  keepsKind := keepsKind_sremModify source [member]
  absent := ⟨0, rfl⟩
  other e hkind := by
    obtain ⟨exp, value⟩ := e
    cases value with
    | set s => exact absurd rfl hkind
    | _ => exact ⟨_, rfl⟩
  idleNext found r _ d d' err hd hrun := by
    rw [runAlone_bind] at hrun
    generalize hadd : runAlone fo order clock (cas dest (saddModify dest [member])) d = out at hrun
    obtain ⟨answer, d₁⟩ := out
    cases answer with
    | ok n => cases hrun
    | error e =>
        cases hrun
        exact cas_error_kept (keepsKind_saddModify dest [member]) hd hadd
  takes e rest put htake := by
    obtain ⟨exp, value⟩ := e
    cases value with
    | set s =>
        have htake' : (if s.contains member then _ else none) = some (rest, put) := htake
        by_cases hmem : s.contains member
        · rw [if_pos hmem, Option.some.injEq, Prod.mk.injEq] at htake'
          obtain ⟨rfl, rfl⟩ := htake'
          refine ⟨rfl, rfl, fun e' he' => ?_, 1, ?_, Int, saddModify dest [member], .integer 1,
            keepsKind_saddModify dest [member], rfl, fun found hkind => ?_⟩
          · split at he'
            · cases he'
            · cases he'
              refine ⟨rfl, fun h => ?_, rfl⟩
              have hs : s = s.erase member := by simpa using h
              rw [hs] at hmem
              simp at hmem
          · rw [sremModify_on_set source member exp s hmem]
            unfold View.writeOrDelete
            show Except.ok (if (s.erase member).isEmpty then _ else _) = _
            split <;> rfl
          · cases found with
            | none =>
                rw [saddModify_none, Std.ExtTreeSet.ofList_singleton]
                exact ⟨_, rfl⟩
            | some b =>
                obtain ⟨exp', value'⟩ := b
                cases value' with
                | set s₂ =>
                    rw [saddModify_set, Std.ExtTreeSet.insertMany_cons,
                      Std.ExtTreeSet.insertMany_nil]
                    exact ⟨_, rfl⟩
                | _ => cases hkind _ rfl
        · rw [if_neg hmem] at htake'
          cases htake'
    | _ => cases htake

/-- A first look at the destination that does not let the move go on. -/
theorem secondLook_of_unreadable {m : Transfer} {d : DdbWorld} {e : StoredValue}
    (hstored : StoresAt d.tables m.dest e) (hfinite : e.value.scoresFinite = false) :
    m.secondLook clock d = none := by
  obtain ⟨err, hlookup⟩ := lookup_unreadable hstored hfinite (clock.now d.readings)
  unfold secondLook
  rw [hlookup]

theorem secondLook_of_kind {m : Transfer} {d d' : DdbWorld} {b : StoredValue}
    (hreads : Reads clock m.dest d (some b) d') (hkind : b.kind ≠ m.kind) :
    m.secondLook clock d = none := by
  unfold secondLook
  rw [hreads.lookup_eq]
  exact if_neg hkind

variable (fo order clock) in
theorem listMove_keepsIff (source dest : String) (fromLeft toLeft : Bool) {d : DdbWorld}
    (hd : d.tables.IsKeyspace) :
    (listTransfer source dest fromLeft toLeft).KeepsIff fo clock d
      (runAlone fo order clock (listMove source dest fromLeft toLeft) d) := by
  unfold listMove
  by_cases hne : source = dest
  · rw [if_pos hne]
    refine .of_sameKey hne fun err herr => ?_
    exact cas_error_kept (keepsKind_rotateModify source fromLeft toLeft) hd (Prod.ext herr rfl)
  · rw [if_neg hne, Prog.bind_eq, runAlone_bind]
    rcases loadEntry_outcome fo order clock hd dest with
      ⟨err, e, hrun, hstored, hfinite⟩ | ⟨found, d₁, hrun, hreads⟩
    · rw [hrun]
      exact .of_refused (.refl d) (secondLook_of_unreadable hstored hfinite)
    · rw [hrun]
      dsimp only
      rw [Prog.bind_eq, show ∀ x, (Prog.ofExcept x : KV (Option (List Bytes × Option Int))) =
        .done x from fun _ => rfl]
      cases hfind : View.list.find dest found with
      | error err =>
          cases found with
          | none => cases hfind
          | some b =>
              refine .of_refused hreads.kept (secondLook_of_kind hreads fun hkind => ?_)
              obtain ⟨exp, value⟩ := b
              cases value with
              | list l => cases hfind
              | _ => cases hkind
      | ok p =>
          rw [Prog.done_ok_bind]
          have hkind : ∀ b ∈ found, b.kind = .list := by
            rintro b rfl
            exact View.list.find_kind hfind
          have hready : (listTransfer source dest fromLeft toLeft).DestReady clock d d₁ := by
            refine .of_reads hreads hkind (sameAt_refl _ _) fun b hb => ?_
            rw [hb] at hreads
            rw [hreads.readings_some]
            rfl
          exact (listTransfer_carries source dest fromLeft toLeft).keepsIff hne hreads.kept
            (hreads.isKeyspace hd) hready fun e _ hk ht => popModify_idle hk ht

variable (fo order clock) in
/-- The membership check of `SMOVE` on the source, and what is known of the source once
it has passed. -/
theorem sismember_outcome (source member : String) {d : DdbWorld} (hd : d.tables.IsKeyspace) :
    ∃ d', Kept clock d d' ∧ d'.tables.IsKeyspace ∧
      (∀ key, key ≠ source → d.tables.SameAt d'.tables key) ∧
      ((∃ err, runAlone fo order clock (Storage.sismember source member) d = (.error err, d') ∧
          ∀ exp s, StoresAt d.tables source ⟨exp, .set s⟩ → Outlives clock d d' ⟨exp, .set s⟩ → False) ∨
        (runAlone fo order clock (Storage.sismember source member) d = (.ok false, d') ∧
          ∀ exp s, StoresAt d.tables source ⟨exp, .set s⟩ → Outlives clock d d' ⟨exp, .set s⟩ →
            s.contains member = false) ∨
        ∃ exp s, runAlone fo order clock (Storage.sismember source member) d = (.ok true, d') ∧
          d'.readings = d.readings + 1 ∧ s.contains member = true ∧
          StoresAt d'.tables source ⟨exp, .set s⟩) := by
  unfold Storage.sismember View.read
  rw [Prog.bind_eq, runAlone_bind]
  rcases loadEntry_outcome fo order clock hd source with
    ⟨err, e, hrun, hstored, hfinite⟩ | ⟨found, d₁, hrun, hreads⟩
  · refine ⟨d, .refl d, hd, fun _ _ => sameAt_refl _ _, .inl ⟨err, by rw [hrun], ?_⟩⟩
    intro exp s hset _
    have he := hset.unique hstored rfl
    rw [he] at hfinite
    cases hfinite
  · refine ⟨d₁, hreads.kept, hreads.isKeyspace hd, fun key hne => hreads.same hne, ?_⟩
    rw [hrun]
    dsimp only
    have hfinds : ∀ {exp s}, StoresAt d.tables source ⟨exp, .set s⟩ →
        Outlives clock d d₁ ⟨exp, .set s⟩ → found = some ⟨exp, .set s⟩ :=
      fun hset hout => hreads.finds hset hout
    cases found with
    | none =>
        refine .inr (.inl ⟨rfl, fun exp s hset hout => ?_⟩)
        cases hfinds hset hout
    | some b =>
        obtain ⟨exp, value⟩ := b
        cases value with
        | set s =>
            cases hmem : s.contains member with
            | true =>
                refine .inr (.inr ⟨exp, s, ?_, hreads.readings_some, hmem, (hreads.stored rfl).2.1⟩)
                show (Except.ok (s.contains member), d₁) = _
                rw [hmem]
            | false =>
                refine .inr (.inl ⟨?_, fun exp' s' hset hout => ?_⟩)
                · show (Except.ok (s.contains member), d₁) = _
                  rw [hmem]
                · cases hfinds hset hout
                  exact hmem
        | _ =>
            refine .inl ⟨_, rfl, fun exp' s' hset hout => ?_⟩
            cases hfinds hset hout

theorem setTransfer_take {source dest member : String} {e : StoredValue} {rest put}
    (h : (setTransfer source dest member).take e = some (rest, put)) :
    ∃ s, e = ⟨e.expiresAtMs, .set s⟩ ∧ s.contains member = true := by
  obtain ⟨exp, value⟩ := e
  cases value with
  | set s =>
      refine ⟨s, rfl, ?_⟩
      have h' : (if s.contains member then _ else none) = some (rest, put) := h
      by_contra hmem
      rw [if_neg hmem] at h'
      cases h'
  | _ => cases h

theorem smoveMember_keepsIff {source dest member : String} {d₀ d : DdbWorld}
    (h₀ : Kept clock d₀ d) (hd : d.tables.IsKeyspace)
    (hready : ∀ d', d.tables.SameAt d'.tables dest → d'.readings = d.readings + 1 →
      source ≠ dest → (setTransfer source dest member).DestReady clock d₀ d') :
    (setTransfer source dest member).KeepsIff fo clock d₀
      (runAlone fo order clock (smoveMember source dest member) d) := by
  unfold smoveMember
  rw [Prog.bind_eq, runAlone_bind]
  obtain ⟨d₁, hkept, hkeyspace, hsame, houtcome⟩ :=
    sismember_outcome fo order clock source member hd
  rcases houtcome with ⟨err, hrun, hset⟩ | ⟨hrun, hset⟩ | ⟨exp, s, hrun, hclock, hmem, hstored⟩
  · rw [hrun]
    refine .of_idle h₀ (fun _ _ => h₀.trans hkept) hkept.later ?_
    intro e rest put hstored hout htake
    obtain ⟨s, he, -⟩ := setTransfer_take htake
    rw [he] at hstored hout
    exact (hset _ _ hstored (hout.right h₀.later)).elim
  · rw [hrun]
    refine .of_idle h₀ (fun _ herr => nomatch herr) hkept.later ?_
    intro e rest put hstored hout htake
    obtain ⟨s, he, hmem⟩ := setTransfer_take htake
    rw [he] at hstored hout
    rw [hset _ _ hstored (hout.right h₀.later)] at hmem
    cases hmem
  · rw [hrun]
    by_cases hne : source = dest
    · refine .of_sameKey hne fun err herr => ?_
      rw [show (runAlone fo order clock (if (!true) = true then _ else if source = dest then _ else _)
        d₁).1 = .ok (.integer 1) by rw [if_neg (by simp), if_pos hne]; rfl] at herr
      cases herr
    · dsimp only
      rw [if_neg (by simp), if_neg hne]
      refine (setTransfer_carries source dest member).keepsIff hne (h₀.trans hkept) hkeyspace
        (hready d₁ (hsame dest (Ne.symm hne)) hclock hne) fun e he hkind htake => ?_
      rw [hstored.unique he rfl] at htake
      have htake' : (if s.contains member then _ else none) = none := htake
      rw [if_pos hmem] at htake'
      cases htake'

variable (fo order clock) in
theorem smove_keepsIff (source dest member : String) {d : DdbWorld} (hd : d.tables.IsKeyspace) :
    (setTransfer source dest member).KeepsIff fo clock d
      (runAlone fo order clock (smove source dest member) d) := by
  unfold smove Storage.kind
  rw [Prog.bind_eq, Prog.bind_eq, Prog.bind_assoc, runAlone_bind]
  rcases loadEntry_outcome fo order clock hd dest with
    ⟨err, e, hrun, hstored, hfinite⟩ | ⟨found, d₁, hrun, hreads⟩
  · rw [hrun]
    exact .of_refused (.refl d) (secondLook_of_unreadable hstored hfinite)
  · rw [hrun]
    have hmember : (∀ b ∈ found, b.kind = .set) → (setTransfer source dest member).KeepsIff fo clock d
        (runAlone fo order clock (smoveMember source dest member) d₁) := by
      intro hkind
      refine smoveMember_keepsIff hreads.kept (hreads.isKeyspace hd) fun d₂ hsame hclock _ => ?_
      refine .of_reads hreads hkind hsame fun b hb => ?_
      rw [hb] at hreads
      rw [hclock, hreads.readings_some]
      rfl
    cases found with
    | none => exact hmember (by simp)
    | some b =>
        obtain ⟨exp, value⟩ := b
        cases value with
        | set s =>
            refine hmember fun b' hb' => ?_
            rw [← Option.some.inj hb']
            rfl
        | _ => exact .of_refused hreads.kept (secondLook_of_kind hreads nofun)

end Carry

end Transfer

/-! ## Results stored over a destination -/

open DynamoDb

section Store

variable {fo : FloatOps} {lm : Libm} {order : ScanOrder} {clock : Clock}

/-- The result is over the item limit, and the destination holds an entry which
outlives the command. -/
def Computed.Spills (result : Computed) (fo : FloatOps) (clock : Clock) (dest : String)
    (d final : DdbWorld) : Prop :=
  result.isEmpty = false ∧ ¬ FitsItem fo ⟨none, result.value⟩ ∧
    ∃ e, StoresAt d.tables dest e ∧ e.value.scoresFinite = true ∧ Outlives clock d final e

/-- The command computes a result that spills. -/
def StoreCommand.Spills (cmd : StoreCommand) (fo : FloatOps) (lm : Libm) (order : ScanOrder)
    (clock : Clock) (args : List Bytes) (d final : DdbWorld) : Prop :=
  ∃ dest result d₁, runAlone fo order clock (cmd.compute fo lm args) d = (.ok (dest, result), d₁) ∧
    result.Spills fo clock dest d final

namespace Computed

theorem modify_none (dest : String) (result : Computed) :
    ∃ n, result.modify dest none = .ok (.write ⟨none, result.value⟩ n) := by
  cases result with
  | members ms => exact ⟨_, Storage.saddModify_none dest ms⟩
  | pairs ps => exact ⟨_, Storage.zaddModify_none dest ps⟩
  | found ps => exact ⟨_, Storage.zaddModify_none dest ps⟩

theorem keepsKind_modify (dest : String) (result : Computed) : KeepsKind (result.modify dest) := by
  cases result with
  | members ms => exact keepsKind_saddModify dest ms
  | pairs ps => exact keepsKind_zaddModify dest ps
  | found ps => exact keepsKind_zaddModify dest ps

variable (fo order clock) in
theorem add_outcome {dest : String} (result : Computed) {d : DdbWorld}
    (hd : d.tables.IsKeyspace) (hnone : d.tables.index[dest]? = none) :
    if FitsItem fo ⟨none, result.value⟩ then
      ∃ n d', runAlone fo order clock (cas dest (result.modify dest)) d = (.ok n, d')
    else ∃ err d', Kept clock d d' ∧
      runAlone fo order clock (cas dest (result.modify dest)) d = (.error err, d') := by
  rcases cas_outcome fo order clock (keepsKind_modify dest result) hd
    dest with ⟨err, e, -, hstored, -⟩ | ⟨found, d', hreads, hsettles⟩
  · exact absurd hstored (not_storesAt_of_absent hnone)
  · obtain ⟨n, hn⟩ := modify_none dest result
    rw [hreads.of_absent hnone, hn] at hsettles
    have hwrite : if FitsItem fo ⟨none, result.value⟩ then _ else _ := hsettles
    split
    · rename_i hfit
      rw [if_pos hfit] at hwrite
      exact ⟨n, _, Prod.ext hwrite.1 rfl⟩
    · rename_i hfit
      rw [if_neg hfit] at hwrite
      obtain ⟨msg, hrefused⟩ := hwrite
      exact ⟨_, d', hreads.kept, hrefused⟩

end Computed

variable (fo order clock) in
theorem delete_run (dest : String) {d : DdbWorld} (hd : d.tables.IsKeyspace) :
    (∃ err e, runAlone fo order clock (Storage.delete dest) d = (.error err, d) ∧
      StoresAt d.tables dest e ∧ e.value.scoresFinite = false) ∨
    (∃ d', runAlone fo order clock (Storage.delete dest) d = (.ok false, d') ∧
      Reads clock dest d none d') ∨
    ∃ e d₁ d', runAlone fo order clock (Storage.delete dest) d = (.ok true, d') ∧
      Reads clock dest d (some e) d₁ ∧ Erased dest d₁ d' := by
  unfold Storage.delete
  rw [Prog.bind_eq, runAlone_bind]
  rcases loadEntry_outcome fo order clock hd dest with
    ⟨err, e, hrun, hstored, hfinite⟩ | ⟨found, d₁, hrun, hreads⟩
  · rw [hrun]
    exact .inl ⟨err, e, rfl, hstored, hfinite⟩
  · rw [hrun]
    cases found with
    | none => exact .inr (.inl ⟨d₁, rfl, hreads⟩)
    | some e =>
        obtain ⟨d', hdel, herased⟩ := delete_outcome fo order clock
          (hreads.stored rfl).2.1
        refine .inr (.inr ⟨e, d₁, d', ?_, hreads, herased⟩)
        show runAlone fo order clock ((KV.delete dest .any).bind fun _ => .done (.ok true)) d₁ = _
        rw [runAlone_bind, hdel]
        rfl

theorem add_error_kept {dest : String} {result : Computed} {d : DdbWorld}
    (hd : d.tables.IsKeyspace) {err : RustyAntError}
    (herr : (runAlone fo order clock ((cas dest (result.modify dest)).bind fun n =>
      (.done (.ok (.integer (result.reply n))) : KV RespReply)) d).1 = .error err) :
    Kept clock d (runAlone fo order clock ((cas dest (result.modify dest)).bind fun n =>
      (.done (.ok (.integer (result.reply n))) : KV RespReply)) d).2 := by
  rw [runAlone_bind] at herr ⊢
  generalize hrun : runAlone fo order clock (cas dest (result.modify dest)) d = out at herr ⊢
  obtain ⟨answer, d'⟩ := out
  cases answer with
  | ok n => cases herr
  | error e => exact cas_error_kept (Computed.keepsKind_modify dest result) hd hrun

/-- The overwrite of a destination, from a state in which everything is still kept. -/
theorem overwrite_keeps_iff {dest : String} {result : Computed} {d d₁ : DdbWorld}
    (hkept : Kept clock d d₁) (hd : d₁.tables.IsKeyspace) :
    ((∃ err, (runAlone fo order clock (result.overwrite dest) d₁).1 = .error err) →
      Kept clock d (runAlone fo order clock (result.overwrite dest) d₁).2) ↔
    ¬ result.Spills fo clock dest d (runAlone fo order clock (result.overwrite dest) d₁).2 := by
  have hle := runAlone_readings_le fo order clock
    (result.overwrite dest) d₁
  -- what the destination holds at the delete, if it outlives the command
  have hthere : ∀ {final : DdbWorld} {e : StoredValue}, d₁.readings ≤ final.readings →
      StoresAt d.tables dest e → Outlives clock d final e →
      StoresAt d₁.tables dest e ∧ Outlives clock d₁ final e :=
    fun hle hstored hout => ⟨(hkept.same dest _ (hout.left hle)).mp hstored, hout.right hkept.later⟩
  unfold Computed.overwrite at hle ⊢
  rw [runAlone_bind] at hle ⊢
  rcases delete_run fo order clock dest hd with
    ⟨err, e₁, hrun, hstored₁, hfinite₁⟩ | ⟨d₂, hrun, hreads⟩ | ⟨e₁, d₂, d₃, hrun, hreads, herased⟩
  · rw [hrun]
    refine iff_of_true (fun _ => hkept) ?_
    rintro ⟨-, -, e, hstored, hfinite, hout⟩
    rw [(hthere (le_refl _) hstored hout).1.unique hstored₁ hfinite, hfinite] at hfinite₁
    cases hfinite₁
  · rw [hrun] at hle ⊢
    dsimp only at hle ⊢
    have hgone : ∀ {final : DdbWorld}, d₂.readings ≤ final.readings →
        ¬ result.Spills fo clock dest d final := by
      rintro final hle ⟨-, -, e, hstored, hfinite, hout⟩
      obtain ⟨hstored', hout'⟩ := hthere (hreads.readings_le.trans hle) hstored hout
      cases hreads.finds hstored' (hout'.left hle)
    by_cases hempty : result.isEmpty
    · rw [if_pos hempty] at hle ⊢
      exact iff_of_true (fun ⟨err, herr⟩ => nomatch herr) (hgone (le_refl _))
    · rw [if_neg hempty] at hle ⊢
      have hlast := runAlone_readings_le fo order clock
        ((cas dest (result.modify dest)).bind fun n =>
          (.done (.ok (.integer (result.reply n))) : KV RespReply)) d₂
      refine iff_of_true (fun ⟨err, herr⟩ => ?_) (hgone hlast)
      exact hkept.trans (hreads.kept.trans (add_error_kept (hreads.isKeyspace hd) herr))
  · rw [hrun] at hle ⊢
    dsimp only at hle ⊢
    by_cases hempty : result.isEmpty
    · rw [if_pos hempty]
      refine iff_of_true (fun ⟨err, herr⟩ => nomatch herr) ?_
      rintro ⟨hne, -⟩
      rw [hempty] at hne
      cases hne
    · rw [if_neg hempty] at hle ⊢
      have hadd := Computed.add_outcome fo order clock
        result (herased.isKeyspace (hreads.isKeyspace hd)) herased.2.1
      rw [runAlone_bind] at hle ⊢
      by_cases hfit : FitsItem fo ⟨none, result.value⟩
      · rw [if_pos hfit] at hadd
        obtain ⟨n, d₄, hcas⟩ := hadd
        rw [hcas]
        exact iff_of_true (fun ⟨err, herr⟩ => nomatch herr) fun h => h.2.1 hfit
      · rw [if_neg hfit] at hadd
        obtain ⟨err, d₄, hkept₄, hcas⟩ := hadd
        rw [hcas] at hle ⊢
        have hiff := kept_iff_of_taken hkept hreads (herased.taken e₁) hkept₄
        obtain ⟨hstored₁, -, hfinite₁⟩ := hreads.stored rfl
        rw [forall_prop_of_true ⟨err, rfl⟩, hiff, not_iff_not]
        constructor
        · intro hout
          have hstored := (hkept.same dest e₁ (hout.left hle)).mpr hstored₁
          exact ⟨by simpa using hempty, hfit, e₁, hstored, hfinite₁, hout⟩
        · rintro ⟨-, -, e, hstored, hfinite, hout⟩
          rw [← (hthere hle hstored hout).1.unique hstored₁ hfinite] at hout
          exact hout

theorem store_keeps_iff (cmd : StoreCommand) (args : List Bytes) {d : DdbWorld}
    (hd : d.tables.IsKeyspace) :
    ((∃ err, (runAlone fo order clock (cmd.handle fo lm args) d).1 = .error err) →
      Kept clock d (runAlone fo order clock (cmd.handle fo lm args) d).2) ↔
    ¬ cmd.Spills fo lm order clock args d (runAlone fo order clock (cmd.handle fo lm args) d).2 := by
  rw [StoreCommand.handle_eq, runAlone_bind]
  obtain ⟨hkept, hkeyspace⟩ := onlyLoads_kept fo order clock
    (StoreCommand.compute_onlyLoads fo lm cmd args) hd
  unfold StoreCommand.Spills
  generalize runAlone fo order clock (cmd.compute fo lm args) d = computed at *
  obtain ⟨answer, d₁⟩ := computed
  cases answer with
  | error err =>
      refine iff_of_true (fun _ => hkept) ?_
      rintro ⟨dest, result, d', hrun, -⟩
      cases hrun
  | ok p =>
      obtain ⟨dest, result⟩ := p
      refine (overwrite_keeps_iff hkept hkeyspace).trans (not_congr ⟨fun h => ?_, ?_⟩)
      · exact ⟨dest, result, d₁, rfl, h⟩
      · rintro ⟨dest', result', d', hrun, h⟩
        cases hrun
        exact h

end Store

/-! ## RENAME and COPY -/

section Copies

variable {fo : FloatOps} {order : ScanOrder} {clock : Clock} {d : DdbWorld}

variable (fo order clock) in
/-- A key read before a save to another key: the save either fails and leaves the state
alone, or writes the entry. -/
theorem saveDest_run (dst : String) (e : StoredValue) (hd : d.tables.IsKeyspace) :
    (∃ err, runAlone fo order clock
        ((KV.load dst).bind fun dest => KV.save dst e (Storage.destCond dest)) d = (.error err, d)) ∨
    ∃ d₁ answer d₂, runAlone fo order clock
        ((KV.load dst).bind fun dest => KV.save dst e (Storage.destCond dest)) d = (answer, d₂) ∧
      Kept clock d d₁ ∧ d₁.tables.IsKeyspace ∧ (∀ key, key ≠ dst → d.tables.SameAt d₁.tables key) ∧
      ((∃ err, answer = .error err ∧ d₂ = d₁) ∨ answer = .ok () ∧ Written dst e d₁ d₂) := by
  rw [runAlone_bind]
  rcases load_outcome fo order clock hd dst with
    ⟨err, e₀, hrun, -⟩ | ⟨loaded, d₁, hrun, hreads, hcurrent⟩
  · rw [hrun]
    exact .inl ⟨err, rfl⟩
  · rw [hrun]
    have hsave := save_outcome fo order clock
      (fun h => by rw [h] at hreads; exact hreads.missing)
      (fun e₀ token h => (hreads.stored (by rw [h]; rfl)).2.1) hcurrent e
    refine .inr ⟨d₁, _, _, rfl, hreads.kept, hreads.isKeyspace hd, fun _ => hreads.same, ?_⟩
    exact hsave.cases.imp_left fun ⟨err, h⟩ => ⟨err, congrArg Prod.fst h, congrArg Prod.snd h⟩

theorem rename_kept {src dst : String} (hd : d.tables.IsKeyspace) {err : RustyAntError}
    (herr : (runAlone fo order clock (Storage.rename src dst) d).1 = .error err) :
    Kept clock d (runAlone fo order clock (Storage.rename src dst) d).2 := by
  unfold Storage.rename at herr ⊢
  rw [Prog.bind_eq, runAlone_bind] at herr ⊢
  rcases loadEntry_outcome fo order clock hd src with
    ⟨err', e, hrun, -⟩ | ⟨found, d₁, hrun, hreads⟩
  · rw [hrun]
    exact .refl d
  · rw [hrun] at herr ⊢
    cases found with
    | none => exact hreads.kept
    | some e =>
        dsimp only at herr ⊢
        by_cases heq : src = dst
        · rw [if_pos heq]
          exact hreads.kept
        · rw [if_neg heq] at herr ⊢
          have hassoc : (do
              let dest ← KV.load dst
              KV.save dst e (Storage.destCond dest)
              KV.delete src .any) =
              ((KV.load dst).bind fun dest => KV.save dst e (Storage.destCond dest)).bind
                fun _ => KV.delete src .any := by rw [Prog.bind_assoc]; rfl
          rw [hassoc, runAlone_bind] at herr ⊢
          rcases saveDest_run fo order clock dst e
            (hreads.isKeyspace hd) with ⟨err', hsave⟩ |
              ⟨d₂, answer, d₃, hsave, hkept, -, hsame, hanswer⟩
          · rw [hsave]
            exact hreads.kept
          · rw [hsave] at herr ⊢
            rcases hanswer with ⟨err', rfl, rfl⟩ | ⟨rfl, hwritten⟩
            · exact hreads.kept.trans hkept
            · have hthere : StoresAt d₃.tables src e :=
                ((hreads.stored rfl).2.1.of_same (hsame src heq)).of_same (hwritten.2.2 src heq)
              obtain ⟨d₄, hdel, -⟩ := delete_outcome fo order clock
                hthere
              dsimp only at herr
              rw [hdel] at herr
              cases herr

theorem copy_kept {src dst : String} {replace : Bool} (hd : d.tables.IsKeyspace)
    {err : RustyAntError}
    (herr : (runAlone fo order clock (Storage.copy src dst replace) d).1 = .error err) :
    Kept clock d (runAlone fo order clock (Storage.copy src dst replace) d).2 := by
  unfold Storage.copy at herr ⊢
  by_cases heq : src = dst
  · rw [if_pos heq]
    exact .refl d
  · rw [if_neg heq] at herr ⊢
    rw [Prog.bind_eq, runAlone_bind] at herr ⊢
    rcases loadEntry_outcome fo order clock hd src with
      ⟨err', e, hrun, -⟩ | ⟨found, d₁, hrun, hreads⟩
    · rw [hrun]
      exact .refl d
    · rw [hrun] at herr ⊢
      cases found with
      | none => exact hreads.kept
      | some e =>
          dsimp only at herr ⊢
          rw [Prog.bind_eq, runAlone_bind] at herr ⊢
          rcases load_outcome fo order clock (hreads.isKeyspace hd) dst
            with ⟨err', e₀, hload, -⟩ | ⟨loaded, d₂, hload, hreads₂, hcurrent⟩
          · rw [hload]
            exact hreads.kept
          · rw [hload] at herr ⊢
            dsimp only at herr ⊢
            split
            · exact hreads.kept.trans hreads₂.kept
            · rename_i hreplace
              rw [if_neg hreplace, Prog.bind_eq, runAlone_bind, runAlone_attempt] at herr
              rw [Prog.bind_eq, runAlone_bind, runAlone_attempt]
              have hsave := save_outcome fo order clock
                (fun h => by rw [h] at hreads₂; exact hreads₂.missing)
                (fun e₀ token h => (hreads₂.stored (by rw [h]; rfl)).2.1) hcurrent e
              rcases hsave.cases with ⟨err', hrefused⟩ | ⟨hok, -⟩
              · rw [hrefused]
                cases err' <;> exact hreads.kept.trans hreads₂.kept
              · rw [hok] at herr
                cases herr

end Copies

/-! ## Commands that fail alone -/

/-- The commands of several steps. -/
inductive MultiStep where
  | lmove
  | rpoplpush
  | smove
  | store (cmd : StoreCommand)
  | rename
  | copy

namespace MultiStep

/-- The arguments of `SMOVE`. -/
def smoveArgs : List Bytes → Result (String × String × String)
  | [source, destination, member] => do
      let source ← argAsStr source
      let destination ← argAsStr destination
      let member ← argAsStr member
      return (source, destination, member)
  | _ => .error (.wrongArity "SMOVE")

section Float

variable (fo : FloatOps) (lm : Libm) (order : ScanOrder) (clock : Clock)

def handle : MultiStep → List Bytes → KV RespReply
  | lmove => handleLmove
  | rpoplpush => handleRpoplpush
  | smove => handleSmove
  | store cmd => cmd.handle fo lm
  | rename => handleRename
  | copy => handleCopy

/-- The command takes something away that outlives it, and its last write is over the
item limit. -/
def Spills (d final : DdbWorld) : MultiStep → List Bytes → Prop
  | lmove, args => ∃ source dest fromLeft toLeft,
      parseLmove args = .ok (source, dest, fromLeft, toLeft) ∧
        (Transfer.listTransfer source dest fromLeft toLeft).Spills fo clock d final
  | rpoplpush, args => ∃ source dest fromLeft toLeft,
      parseRpoplpush args = .ok (source, dest, fromLeft, toLeft) ∧
        (Transfer.listTransfer source dest fromLeft toLeft).Spills fo clock d final
  | smove, args => ∃ source dest member, smoveArgs args = .ok (source, dest, member) ∧
      (Transfer.setTransfer source dest member).Spills fo clock d final
  | store cmd, args => cmd.Spills fo lm order clock args d final
  | rename, _ => False
  | copy, _ => False

end Float

section Handlers

variable {fo : FloatOps} {order : ScanOrder} {clock : Clock} {d : DdbWorld}

/-- A reply made of what a program returns fails where the program does, in the same state. -/
theorem runAlone_map {α β : Type} (p : KV α) (f : α → β) :
    runAlone fo order clock (p.bind fun a => .done (.ok (f a))) d =
      ((runAlone fo order clock p d).1.map f, (runAlone fo order clock p d).2) := by
  rw [runAlone_bind]
  generalize runAlone fo order clock p d = out
  obtain ⟨answer, d'⟩ := out
  cases answer <;> rfl

variable (fo order clock) in
theorem moveElement_keepsIff (hd : d.tables.IsKeyspace)
    (parsed : Result (String × String × Bool × Bool)) :
    ((∃ err, (runAlone fo order clock (moveElement parsed) d).1 = .error err) →
      Kept clock d (runAlone fo order clock (moveElement parsed) d).2) ↔
    ¬ ∃ source dest fromLeft toLeft, parsed = .ok (source, dest, fromLeft, toLeft) ∧
      (Transfer.listTransfer source dest fromLeft toLeft).Spills fo clock d
        (runAlone fo order clock (moveElement parsed) d).2 := by
  cases parsed with
  | error err =>
      refine iff_of_true (fun _ => .refl d) ?_
      rintro ⟨source, dest, fromLeft, toLeft, hparse, -⟩
      cases hparse
  | ok p =>
      obtain ⟨source, dest, fromLeft, toLeft⟩ := p
      have hmove := (Transfer.listMove_keepsIff fo order clock
        source dest fromLeft toLeft hd).map
          RespReply.bulkOrNil
      refine hmove.trans (not_congr ⟨fun h => ⟨_, _, _, _, rfl, h⟩, ?_⟩)
      rintro ⟨source', dest', fromLeft', toLeft', hparse, h⟩
      cases hparse
      exact h

theorem handleSmove_eq (args : List Bytes) :
    handleSmove args =
      (Prog.ofExcept (smoveArgs args)).bind fun p => Commands.smove p.1 p.2.1 p.2.2 := by
  match args with
  | [] => rfl
  | [_] => rfl
  | [_, _] => rfl
  | [source, destination, member] =>
      unfold handleSmove smoveArgs
      dsimp only
      cases argAsStr source with
      | error e => rfl
      | ok s =>
          cases argAsStr destination with
          | error e => rfl
          | ok t => cases argAsStr member <;> rfl
  | _ :: _ :: _ :: _ :: _ => rfl

theorem handleSmove_keepsIff (hd : d.tables.IsKeyspace) (args : List Bytes) :
    ((∃ err, (runAlone fo order clock (handleSmove args) d).1 = .error err) →
      Kept clock d (runAlone fo order clock (handleSmove args) d).2) ↔
    ¬ ∃ source dest member, smoveArgs args = .ok (source, dest, member) ∧
      (Transfer.setTransfer source dest member).Spills fo clock d
        (runAlone fo order clock (handleSmove args) d).2 := by
  rw [handleSmove_eq]
  cases hparse : smoveArgs args with
  | error err =>
      refine iff_of_true (fun _ => .refl d) ?_
      rintro ⟨source, dest, member, hargs, -⟩
      cases hargs
  | ok p =>
      obtain ⟨source, dest, member⟩ := p
      have hmove := Transfer.smove_keepsIff fo order clock
        source dest member hd
      refine hmove.trans (not_congr ⟨fun h => ⟨_, _, _, rfl, h⟩, ?_⟩)
      rintro ⟨source', dest', member', hargs, h⟩
      cases hargs
      exact h

theorem map_kept {α β : Type} {p : KV α} {f : α → β}
    (h : ∀ err, (runAlone fo order clock p d).1 = .error err →
      Kept clock d (runAlone fo order clock p d).2) {err : RustyAntError}
    (herr : (runAlone fo order clock (p.bind fun a => .done (.ok (f a))) d).1 = .error err) :
    Kept clock d (runAlone fo order clock (p.bind fun a => .done (.ok (f a))) d).2 := by
  rw [runAlone_map] at herr ⊢
  dsimp only at herr ⊢
  cases hrun : (runAlone fo order clock p d).1 with
  | ok a =>
      rw [hrun] at herr
      cases herr
  | error e => exact h e hrun

theorem handleRename_kept (hd : d.tables.IsKeyspace) (args : List Bytes) {err : RustyAntError}
    (herr : (runAlone fo order clock (handleRename args) d).1 = .error err) :
    Kept clock d (runAlone fo order clock (handleRename args) d).2 := by
  unfold handleRename at herr ⊢
  split at herr
  · rename_i source dest
    cases hs : argAsStr source with
    | error e => exact .refl d
    | ok src =>
        cases ht : argAsStr dest with
        | error e => exact .refl d
        | ok dst =>
            rw [hs, ht] at herr
            exact map_kept (f := fun _ => RespReply.ok) (fun _ h => rename_kept hd h) herr
  · exact .refl d

theorem handleCopy_kept (hd : d.tables.IsKeyspace) (args : List Bytes) {err : RustyAntError}
    (herr : (runAlone fo order clock (handleCopy args) d).1 = .error err) :
    Kept clock d (runAlone fo order clock (handleCopy args) d).2 := by
  unfold handleCopy at herr ⊢
  split at herr
  · rename_i source dest opts
    cases hs : argAsStr source with
    | error e => exact .refl d
    | ok src =>
        cases ht : argAsStr dest with
        | error e => exact .refl d
        | ok dst =>
            cases ho : parseCopyOpts opts false with
            | error e => exact .refl d
            | ok replace =>
                rw [hs, ht, ho] at herr
                exact map_kept (f := RespReply.flag) (fun _ h => copy_kept hd h) herr
  · exact .refl d

end Handlers

/-- A command of several steps that fails alone keeps everything in place, unless its
last write spills. -/
theorem fails_alone_keeps_iff (fo : FloatOps) (lm : Libm) (order : ScanOrder) (clock : Clock)
    (cmd : MultiStep) (args : List Bytes) {d : DdbWorld} (hd : d.tables.IsKeyspace) :
    ((∃ err, (runAlone fo order clock (cmd.handle fo lm args) d).1 = .error err) →
      Kept clock d (runAlone fo order clock (cmd.handle fo lm args) d).2) ↔
    ¬ cmd.Spills fo lm order clock d (runAlone fo order clock (cmd.handle fo lm args) d).2 args := by
  cases cmd with
  | lmove => exact moveElement_keepsIff fo order clock hd (parseLmove args)
  | rpoplpush => exact moveElement_keepsIff fo order clock hd (parseRpoplpush args)
  | smove => exact handleSmove_keepsIff hd args
  | store cmd => exact store_keeps_iff cmd args hd
  | rename =>
      refine iff_of_true (fun ⟨err, herr⟩ => ?_) id
      exact handleRename_kept hd args herr
  | copy =>
      refine iff_of_true (fun ⟨err, herr⟩ => ?_) id
      exact handleCopy_kept hd args herr


end MultiStep

namespace BigElements

/-- A list element of `n + 1` zero bytes. -/
def zeros (n : Nat) : Bytes := List.replicate (n + 1) 0

def big : StoredValue := ⟨none, .list [zeros 100000]⟩

/-- A library the list commands do not call. -/
def lm : Libm :=
  ⟨fun _ _ _ => .zero, id, id, id, id, id, fun _ => id, fun _ _ => [], fun _ _ => ""⟩

def order : ScanOrder := ⟨id, List.Perm.refl⟩

def clock : Clock := ⟨fun _ => 0, 0⟩

/-- A backend state with one more entry. -/
def stored (key : String) (e : StoredValue) (d : DdbWorld) : DdbWorld :=
  { d with tables := d.tables.applyAll (saveItems key e (Codec.storedValue.enc e) "v" none none) }

/-- Two lists of one large element each. -/
def world : DdbWorld := stored "dst" big (stored "src" big ⟨Tables.empty, 0⟩)

def args : List Bytes := [Rdb.asBytes "src", Rdb.asBytes "dst"]

theorem lenItems_zeros (n : Nat) :
    Json.lenItems .integral (List.replicate (n + 1) (.int 0)) = 2 * n + 1 := by
  induction n with
  | zero => rfl
  | succ n ih =>
      rw [List.replicate_succ, List.replicate_succ, Json.lenItems, ← List.replicate_succ, ih]
      show 1 + 1 + (2 * n + 1) = _
      omega

theorem len_zeros (n : Nat) : (Codec.bytes.enc (zeros n)).len .integral = 2 * n + 3 := by
  unfold zeros Codec.bytes Codec.vec
  dsimp only
  rw [List.map_replicate, Json.len]
  rw [show Codec.byte.enc 0 = .int 0 from rfl, lenItems_zeros]
  omega

theorem strLen_tags :
    Json.strLen "type" = 6 ∧ Json.strLen "data" = 6 ∧ Json.strLen "List" = 6 := by
  decide +kernel

theorem len_list (l : List Bytes) : (Codec.storedValue.enc ⟨none, .list l⟩).len .integral =
    Json.lenItems .integral (l.map Codec.bytes.enc) + 25 := by
  obtain ⟨htype, hdata, hlist⟩ := strLen_tags
  simp only [Codec.storedValue, Codec.valueTag, Codec.valueData, Codec.vec, List.nil_append,
    Json.len, Json.lenFields, htype, hdata, hlist]
  omega

theorem fits_big : FitsItem .integral big := by
  unfold FitsItem maxItemBytes big
  rw [len_list, List.map_singleton, Json.lenItems, len_zeros]
  omega

theorem over_two : ¬ FitsItem .integral ⟨none, .list [zeros 100000, zeros 100000]⟩ := by
  unfold FitsItem maxItemBytes
  rw [len_list, List.map_cons, List.map_singleton, Json.lenItems, Json.lenItems, len_zeros]
  omega

theorem written_stored {d : DdbWorld} (key : String) (e : StoredValue) :
    Written key e d (stored key e d) := written_saveItems d key e "v" none none

theorem world_isKeyspace : world.tables.IsKeyspace := by
  have hempty : Tables.empty.IsKeyspace := fun key => .inl (by simp [Tables.empty])
  exact (written_stored "dst" big).isKeyspace ((written_stored "src" big).isKeyspace hempty)

theorem src_stored : StoresAt world.tables "src" big :=
  (written_stored (d := ⟨Tables.empty, 0⟩) "src" big).2.1.of_same
    ((written_stored "dst" big).2.2 "src" (by decide))

theorem dst_stored : StoresAt world.tables "dst" big := (written_stored "dst" big).2.1

theorem never_expires (now : Int) : big.isExpired now = false := rfl

theorem secondLook_stored {d : DdbWorld} {m : Transfer} {e : StoredValue}
    (h : StoresAt d.tables m.dest e) (hfinite : e.value.scoresFinite = true)
    (hlive : ∀ now, e.isExpired now = false) (hkind : e.kind = m.kind) :
    m.secondLook clock d = some (some e) := by
  unfold Transfer.secondLook
  rw [lookup_stored h hfinite, hlive, if_neg Bool.false_ne_true]
  dsimp only
  rw [if_pos hkind, hlive, if_neg Bool.false_ne_true]

theorem spills (final : DdbWorld) :
    (Transfer.listTransfer "src" "dst" false true).Spills .integral clock world final :=
  ⟨by decide, big, none, _, some big, src_stored, fun _ _ _ => never_expires _, rfl, by simp,
    secondLook_stored dst_stored rfl never_expires rfl, over_two⟩

theorem parse_args : parseRpoplpush args = .ok ("src", "dst", false, true) := by
  unfold parseRpoplpush args
  dsimp only
  rw [argAsStr_asBytes, argAsStr_asBytes]
  rfl

/-- An element is popped, and lost when the push of it is refused. -/
theorem rpoplpush_loses_element :
    world.tables.IsKeyspace ∧ FitsItem .integral big ∧
      StoresAt world.tables "src" big ∧ StoresAt world.tables "dst" big ∧
      (∃ err, (runAlone .integral order clock (handleRpoplpush args) world).1 = .error err) ∧
      ¬ Kept clock world (runAlone .integral order clock (handleRpoplpush args) world).2 := by
  have hiff := MultiStep.moveElement_keepsIff .integral order clock
    world_isKeyspace (parseRpoplpush args)
  have hloses := (not_congr hiff).mpr (not_not.mpr ⟨_, _, _, _, parse_args, spills _⟩)
  rw [Classical.not_imp] at hloses
  exact ⟨world_isKeyspace, fits_big, src_stored, dst_stored, hloses⟩

theorem fails_alone_keeps_iff_on_bigElements :
    world.tables.IsKeyspace ∧
      (((∃ err, (runAlone .integral order clock
          (MultiStep.rpoplpush.handle .integral lm args) world).1 = .error err) →
        Kept clock world (runAlone .integral order clock
          (MultiStep.rpoplpush.handle .integral lm args) world).2) ↔
      ¬ MultiStep.rpoplpush.Spills .integral lm order clock world
        (runAlone .integral order clock (MultiStep.rpoplpush.handle .integral lm args) world).2
        args) :=
  ⟨world_isKeyspace, MultiStep.fails_alone_keeps_iff .integral lm order clock .rpoplpush args
    world_isKeyspace⟩

end BigElements

end Commands

end RustyAnt
