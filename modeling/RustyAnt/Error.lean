/-!
# Errors

`RustyAntError` of `src/error.rs`, with the texts that `thiserror` derives for
its `Display`.  The payloads of `Io` and `Serde` are foreign error values of
which only the rendered message is observable.
-/

namespace RustyAnt

inductive RustyAntError where
  | config (msg : String)
  | respParse (msg : String)
  | unknownCommand (name : String)
  | wrongArity (command : String)
  | wrongType (key : String)
  | parse (msg : String)
  | s3 (msg : String)
  | contention
  | io (msg : String)
  | serde (msg : String)
  deriving DecidableEq, Repr

namespace RustyAntError

/-- The `#[error(...)]` texts. -/
def display : RustyAntError → String
  | config m => "config: " ++ m
  | respParse m => "resp parse: " ++ m
  | unknownCommand n => "unknown command: " ++ n
  | wrongArity c => "wrong number of arguments for '" ++ c ++ "'"
  | wrongType k => "wrong type for key '" ++ k ++ "'"
  | parse m => "parse: " ++ m
  | s3 m => "s3: " ++ m
  | contention => "too much contention on key — retries exhausted"
  | io m => "io: " ++ m
  | serde m => "serde: " ++ m

end RustyAntError

/-- `Result<T, RustyAntError>`. -/
abbrev Result (α : Type) := Except RustyAntError α

namespace Result

variable {α β : Type}

@[simp] theorem ok_bind (a : α) (f : α → Result β) :
    ((.ok a : Result α) >>= f) = f a := rfl

@[simp] theorem error_bind (e : RustyAntError) (f : α → Result β) :
    ((.error e : Result α) >>= f) = .error e := rfl

@[simp] theorem map_ok (f : α → β) (a : α) : f <$> (.ok a : Result α) = .ok (f a) := rfl

@[simp] theorem map_error (f : α → β) (e : RustyAntError) :
    f <$> (.error e : Result α) = .error e := rfl

@[simp] theorem pure_eq_ok (a : α) : (pure a : Result α) = .ok a := rfl

theorem bind_eq_ok {x : Result α} {f : α → Result β} {b : β} :
    (x >>= f) = .ok b ↔ ∃ a, x = .ok a ∧ f a = .ok b := by
  cases x with
  | error e => simp
  | ok a => simp

theorem map_eq_ok {x : Result α} {f : α → β} {b : β} :
    f <$> x = .ok b ↔ ∃ a, x = .ok a ∧ f a = b := by
  cases x with
  | error e => simp
  | ok a => simp

theorem mapM_map_ok {γ : Type} {f : α → β} {g : β → Result γ} {h : α → γ} {xs : List α}
    (hfg : ∀ x ∈ xs, g (f x) = .ok (h x)) : (xs.map f).mapM g = .ok (xs.map h) := by
  induction xs with
  | nil => rfl
  | cons x xs ih =>
      rw [List.map_cons, List.mapM_cons, hfg x List.mem_cons_self,
        ih fun y hy => hfg y (List.mem_cons_of_mem x hy)]
      rfl

/-- A sequence of fallible steps succeeds only if each of them does. -/
theorem mapM_ok_mem {f : α → Result β} {xs : List α} {ys : List β}
    (h : xs.mapM f = .ok ys) : ∀ x ∈ xs, ∃ y, f x = .ok y := by
  induction xs generalizing ys with
  | nil => simp
  | cons x xs ih =>
      rw [List.mapM_cons] at h
      cases hx : f x with
      | error e =>
          rw [hx] at h
          cases h
      | ok y =>
          rw [hx, ok_bind] at h
          cases hxs : xs.mapM f with
          | error e =>
              rw [hxs] at h
              cases h
          | ok zs =>
              intro z hz
              rcases List.mem_cons.mp hz with rfl | hz
              · exact ⟨y, hx⟩
              · exact ih hxs z hz

theorem mapM_ok_length {f : α → Result β} {xs : List α} {ys : List β}
    (h : xs.mapM f = .ok ys) : ys.length = xs.length := by
  induction xs generalizing ys with
  | nil =>
      cases h
      rfl
  | cons x xs ih =>
      rw [List.mapM_cons] at h
      obtain ⟨y, -, h⟩ := bind_eq_ok.mp h
      obtain ⟨rest, hrest, h⟩ := bind_eq_ok.mp h
      cases h
      rw [List.length_cons, List.length_cons, ih hrest]

end Result

end RustyAnt
