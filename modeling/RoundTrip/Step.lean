/-! # Steps

    A step changes a state and ends with a result or with an error.  What it
    changed before the error stays changed: it is core's `EStateM` with nothing
    to go back to.

    `ensuring` attaches a clean-up that runs whichever way a step ends, and
    `within` runs a step on a part of a larger state.  The equations below say
    what each way to build a step does on a state, so that no proof has to open
    the monad. -/

namespace RoundTrip

/-- A computation on a state that ends with a result or with an error. -/
abbrev Step (ε σ α : Type) := EStateM ε σ α

namespace Step

variable {ε δ σ τ α β : Type}

/-- The state in which a step ended. -/
def endState : EStateM.Result ε σ α → σ
  | .ok _ s => s
  | .error _ s => s

/-- The way in which a step ended. -/
def outcome : EStateM.Result ε σ α → Except ε α
  | .ok a _ => .ok a
  | .error e _ => .error e

/-- The value of something that may fail, as a step that changes nothing. -/
def ofExcept (error : δ → ε) : Except δ α → Step ε σ α
  | .ok a => pure a
  | .error e => throw (error e)

/-- A change that either happens or is refused. -/
def attempt (error : δ → ε) (f : σ → Except δ σ) : Step ε σ Unit := fun s =>
  match f s with
  | .ok t => .ok () t
  | .error e => .error (error e) s

/-- Runs a clean-up after a step, whichever way that step ends.  An error of the
    clean-up takes the place of the result or of the earlier error. -/
def ensuring (x : Step ε σ α) (cleanUp : Step ε σ Unit) : Step ε σ α := fun s =>
  match x s with
  | .ok a t =>
      match cleanUp t with
      | .ok () u => .ok a u
      | .error e u => .error e u
  | .error e t =>
      match cleanUp t with
      | .ok () u => .error e u
      | .error e u => .error e u

/-- Runs a step on a part of the state. -/
def within (error : δ → ε) (part : σ → τ) (update : σ → τ → σ) (x : Step δ τ α) : Step ε σ α :=
  fun s =>
    match x (part s) with
    | .ok a t => .ok a (update s t)
    | .error e t => .error (error e) (update s t)

/-- Goes on with `handler` where a step ends in an error. -/
def catching (x : Step ε σ α) (handler : ε → Step ε σ α) : Step ε σ α := fun s =>
  match x s with
  | .ok a t => .ok a t
  | .error e t => handler e t

/-! ## Equations -/

theorem pure_apply (a : α) (s : σ) : (pure a : Step ε σ α) s = .ok a s := rfl

theorem throw_apply (e : ε) (s : σ) : (throw e : Step ε σ α) s = .error e s := rfl

theorem get_apply (s : σ) : (get : Step ε σ σ) s = .ok s s := rfl

theorem set_apply (t s : σ) : (set t : Step ε σ PUnit) s = .ok ⟨⟩ t := rfl

theorem modify_apply (f : σ → σ) (s : σ) : (modify f : Step ε σ PUnit) s = .ok ⟨⟩ (f s) := rfl

/-- Two steps one after the other, from one state. -/
theorem bind_apply (x : Step ε σ α) (f : α → Step ε σ β) (s : σ) :
    (x >>= f) s = match x s with
      | .ok a t => f a t
      | .error e t => .error e t := by
  cases h : x s <;> simp [bind, EStateM.bind, h]

/-- A function of the result leaves the state and the errors alone. -/
theorem map_apply (f : α → β) (x : Step ε σ α) (s : σ) :
    (f <$> x) s = match x s with
      | .ok a t => .ok (f a) t
      | .error e t => .error e t := by
  cases h : x s <;> simp [Functor.map, EStateM.map, h]

/-- After a good end the next step starts from its result and its state. -/
theorem bind_ok {x : Step ε σ α} {f : α → Step ε σ β} {s t : σ} {a : α} (h : x s = .ok a t) :
    (x >>= f) s = f a t := by rw [bind_apply, h]

/-- After an error no next step is taken. -/
theorem bind_error {x : Step ε σ α} {f : α → Step ε σ β} {s t : σ} {e : ε}
    (h : x s = .error e t) : (x >>= f) s = .error e t := by rw [bind_apply, h]

/-- A sequence of two steps succeeds exactly if both do. -/
theorem bind_eq_ok_iff {x : Step ε σ α} {f : α → Step ε σ β} {s u : σ} {b : β} :
    (x >>= f) s = .ok b u ↔ ∃ a t, x s = .ok a t ∧ f a t = .ok b u := by
  rw [bind_apply]
  cases x s with
  | ok a t =>
      constructor
      · exact fun h => ⟨a, t, rfl, h⟩
      · rintro ⟨a, t, ha, hf⟩
        cases ha
        exact hf
  | error e t =>
      constructor
      · exact fun h => nomatch h
      · rintro ⟨a, t, ha, -⟩
        cases ha

/-- A sequence of two steps ends in an error exactly if the first does, or the
    second does after the first succeeded. -/
theorem bind_eq_error_iff {x : Step ε σ α} {f : α → Step ε σ β} {s u : σ} {e : ε} :
    (x >>= f) s = .error e u
      ↔ x s = .error e u ∨ ∃ a t, x s = .ok a t ∧ f a t = .error e u := by
  rw [bind_apply]
  cases x s with
  | ok a t =>
      constructor
      · exact fun h => Or.inr ⟨a, t, rfl, h⟩
      · rintro (h | ⟨a, t, ha, hf⟩)
        · cases h
        · cases ha
          exact hf
  | error e t =>
      constructor
      · exact fun h => Or.inl (by cases h; rfl)
      · rintro (h | ⟨a, t, ha, -⟩)
        · cases h
          rfl
        · cases ha

end Step

end RoundTrip
