/-! Computations that leave a trace of what happened, also when they fail. -/
namespace SheetLint

/-- What happened, in order, and what came of it. -/
structure Traced (τ ε α : Type) where
  trace : List τ
  result : Except ε α

namespace Traced

variable {τ ε σ α β : Type}

/-- Without a trace. -/
def ofExcept (result : Except ε α) : Traced τ ε α := ⟨[], result⟩

def fail (error : ε) : Traced τ ε α := ⟨[], .error error⟩

/-- One thing that happened. -/
def note (event : τ) : Traced τ ε Unit := ⟨[event], .ok ()⟩

def bind (first : Traced τ ε α) (next : α → Traced τ ε β) : Traced τ ε β :=
  match first.result with
  | .ok value => ⟨first.trace ++ (next value).trace, (next value).result⟩
  | .error error => ⟨first.trace, .error error⟩

/-- The same outcome with every event seen as another. -/
def mapTrace (f : τ → σ) (computation : Traced τ ε α) : Traced σ ε α :=
  ⟨computation.trace.map f, computation.result⟩

/-- The same course with the error, if there is one, seen as another. -/
def mapError {δ : Type} (f : ε → δ) (computation : Traced τ ε α) : Traced τ δ α :=
  ⟨computation.trace, computation.result.mapError f⟩

instance : Monad (Traced τ ε) where
  pure value := ⟨[], .ok value⟩
  bind := bind

instance : LawfulMonad (Traced τ ε) := LawfulMonad.mk' (Traced τ ε)
  (by
    intro α ⟨trace, result⟩
    cases result <;> simp [Functor.map, bind])
  (by
    intro α β value next
    simp [Bind.bind, Pure.pure, bind])
  (by
    intro α β γ ⟨trace, result⟩ next after
    cases result with
    | error error => rfl
    | ok value =>
      simp only [Bind.bind, bind]
      cases (next value).result <;> simp [List.append_assoc])

@[simp] theorem result_pure (value : α) : (pure value : Traced τ ε α).result = .ok value := rfl

@[simp] theorem result_ofExcept (result : Except ε α) :
    (ofExcept result : Traced τ ε α).result = result := rfl

@[simp] theorem result_fail (error : ε) : (fail error : Traced τ ε α).result = .error error := rfl

@[simp] theorem result_note (event : τ) : (note event : Traced τ ε Unit).result = .ok () := rfl

/-- The outcome is worked out without regard to the trace. -/
@[simp] theorem result_bind (first : Traced τ ε α) (next : α → Traced τ ε β) :
    (first >>= next).result = first.result >>= fun value => (next value).result := by
  obtain ⟨trace, result⟩ := first
  cases result <;> rfl

@[simp] theorem trace_map (f : α → β) (computation : Traced τ ε α) :
    (f <$> computation).trace = computation.trace := by
  obtain ⟨trace, result⟩ := computation
  cases result with
  | error error => rfl
  | ok value => exact List.append_nil trace

@[simp] theorem result_map (f : α → β) (computation : Traced τ ε α) :
    (f <$> computation).result = f <$> computation.result := by
  obtain ⟨trace, result⟩ := computation
  cases result <;> rfl

/-- A course of two steps succeeds where both of them do. -/
theorem result_bind_eq_ok {first : Traced τ ε α} {next : α → Traced τ ε β} {value : β} :
    (first >>= next).result = .ok value ↔
      ∃ given, first.result = .ok given ∧ (next given).result = .ok value := by
  rw [result_bind]
  constructor
  · intro succeeds
    cases result : first.result with
    | error error =>
      rw [result] at succeeds
      cases succeeds
    | ok given =>
      rw [result] at succeeds
      exact ⟨given, rfl, succeeds⟩
  · rintro ⟨given, result, succeeds⟩
    rw [result]
    exact succeeds

@[simp] theorem result_mapError {δ : Type} (f : ε → δ) (computation : Traced τ ε α) :
    (computation.mapError f).result = computation.result.mapError f := rfl

/-- To see the error as another after two steps is to do so after each of them. -/
theorem mapError_bind {δ : Type} (f : ε → δ) (first : Traced τ ε α) (next : α → Traced τ ε β) :
    (first >>= next).mapError f = first.mapError f >>= fun value => (next value).mapError f := by
  obtain ⟨trace, result⟩ := first
  cases result <;> rfl

@[simp] theorem result_mapTrace (f : τ → σ) (computation : Traced τ ε α) :
    (computation.mapTrace f).result = computation.result := rfl

end Traced
end SheetLint
