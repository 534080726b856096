import RoundTrip.Step

/-! # Invariants of steps

    `Keeps P x` says that the step `x` keeps the property `P` of the state,
    whichever way it ends: what was changed before an error stays changed, so an
    invariant has to survive errors too.

    There is one lemma for each way to build a step.  The property may mention a
    state from before, so it also serves for what a step leaves alone.

    `Delivers P x` says the same of the result, where there is one, and `Fails E x` of
    the error.  Where the errors depend on the state, `Meets P Q E x` says all of it at
    once: from where the step starts to what it delivers or ends in. -/

namespace RoundTrip.Step

variable {ε δ σ τ α β : Type} {P : σ → Prop}

/-- The step keeps a property of the state, whichever way it ends. -/
def Keeps (P : σ → Prop) (x : Step ε σ α) : Prop := ∀ s, P s → P (endState (x s))

/-- What a step keeps holds where the step has come to a good end. -/
theorem Keeps.of_eq_ok {x : Step ε σ α} {s t : σ} {a : α} (hx : Keeps P x) (hs : P s)
    (h : x s = .ok a t) : P t := by
  have ht := hx s hs
  rwa [h] at ht

/-- The state in which two steps end: where the second one ends, or where the first one failed.
    -/
theorem endState_bind (x : Step ε σ α) (f : α → Step ε σ β) (s : σ) :
    endState ((x >>= f) s) = match x s with
      | .ok a t => endState (f a t)
      | .error _ t => t := by
  rw [bind_apply]
  cases x s with
  | ok a t => rfl
  | error e t => rfl

theorem keeps_pure (a : α) : Keeps P (pure a : Step ε σ α) := fun _ h => h

theorem keeps_throw (e : ε) : Keeps P (throw e : Step ε σ α) := fun _ h => h

theorem keeps_get : Keeps P (get : Step ε σ σ) := fun _ h => h

/-- A result that was found elsewhere is taken over without a change of state. -/
theorem keeps_ofExcept (error : δ → ε) (r : Except δ α) :
    Keeps P (ofExcept error r : Step ε σ α) := by
  cases r with
  | ok a => exact keeps_pure a
  | error e => exact keeps_throw _

/-- What holds after the first of two steps and is kept by the second holds after
    both. -/
theorem endState_bind_of {x : Step ε σ α} {f : α → Step ε σ β} {s : σ} (hx : P (endState (x s)))
    (hf : ∀ a, Keeps P (f a)) : P (endState ((x >>= f) s)) := by
  rw [endState_bind]
  cases h : x s with
  | ok a t =>
      rw [h] at hx
      exact hf a t hx
  | error e t =>
      rw [h] at hx
      exact hx

/-- One step after another keeps what each of them keeps. -/
theorem keeps_bind {x : Step ε σ α} {f : α → Step ε σ β} (hx : Keeps P x)
    (hf : ∀ a, Keeps P (f a)) : Keeps P (x >>= f) :=
  fun s hs => endState_bind_of (hx s hs) hf

/-- A change of the state keeps what the function keeps. -/
theorem keeps_modify {f : σ → σ} (hf : ∀ s, P s → P (f s)) :
    Keeps P (modify f : Step ε σ PUnit) := fun s hs => hf s hs

/-- A change that may be refused has to keep the property only where it is not. -/
theorem keeps_attempt {error : δ → ε} {f : σ → Except δ σ}
    (hf : ∀ s t, P s → f s = .ok t → P t) : Keeps P (attempt error f) := by
  intro s hs
  unfold attempt
  cases h : f s with
  | ok t => exact hf s t hs h
  | error e => exact hs

/-- A loop keeps what each of its rounds keeps. -/
theorem keeps_forM {xs : List α} {f : α → Step ε σ PUnit} (hf : ∀ a ∈ xs, Keeps P (f a)) :
    Keeps P (xs.forM f) := by
  induction xs with
  | nil => exact keeps_pure _
  | cons a rest ih =>
      -- the rounds that are left are another such loop
      refine keeps_bind (hf a List.mem_cons_self) fun _ => ?_
      exact ih fun b hb => hf b (List.mem_cons_of_mem _ hb)

/-- A step on a part of the state keeps a property of the whole if putting the part back does.
    -/
theorem keeps_within {error : δ → ε} {part : σ → τ} {update : σ → τ → σ} {x : Step δ τ α}
    (hx : ∀ s, P s → P (update s (endState (x (part s))))) :
    Keeps P (within error part update x) := by
  intro s hs
  have h := hx s hs
  unfold within
  cases hr : x (part s) with
  | ok a t => rwa [hr] at h
  | error e t => rwa [hr] at h

/-- Whichever way a step ends, its clean-up starts there and has the last word on the
    state. -/
theorem endState_ensuring (x : Step ε σ α) (cleanUp : Step ε σ Unit) (s : σ) :
    endState (ensuring x cleanUp s) = endState (cleanUp (endState (x s))) := by
  unfold ensuring
  cases x s with
  | ok a t => cases h : cleanUp t <;> simp only [endState, h]
  | error e t => cases h : cleanUp t <;> simp only [endState, h]

/-- A clean-up that comes to a good end lets the step end as it did. -/
theorem outcome_ensuring_of_ok {x : Step ε σ α} {cleanUp : Step ε σ Unit} {s t : σ}
    (h : cleanUp (endState (x s)) = .ok () t) : outcome (ensuring x cleanUp s) = outcome (x s) := by
  unfold ensuring
  cases hx : x s with
  | ok a u =>
      rw [hx] at h
      simp only [show cleanUp u = .ok () t from h, outcome]
  | error e u =>
      rw [hx] at h
      simp only [show cleanUp u = .ok () t from h, outcome]

/-- A clean-up that ends in an error has the last word. -/
theorem ensuring_of_error {x : Step ε σ α} {cleanUp : Step ε σ Unit} {s t : σ} {e : ε}
    (h : cleanUp (endState (x s)) = .error e t) : ensuring x cleanUp s = .error e t := by
  unfold ensuring
  cases hx : x s with
  | ok a u =>
      rw [hx] at h
      simp only [show cleanUp u = .error e t from h]
  | error e' u =>
      rw [hx] at h
      simp only [show cleanUp u = .error e t from h]

/-- A step with a clean-up keeps what both of them keep. -/
theorem keeps_ensuring {x : Step ε σ α} {cleanUp : Step ε σ Unit} (hx : Keeps P x)
    (hc : Keeps P cleanUp) : Keeps P (ensuring x cleanUp) := by
  intro s hs
  rw [endState_ensuring]
  exact hc _ (hx s hs)

/-- To give an error another form changes no state. -/
theorem endState_rethrow (x : Step ε σ α) (f : ε → ε) (s : σ) :
    endState (catching x (fun e => throw (f e)) s) = endState (x s) := by
  unfold catching
  cases x s with
  | ok a t => rfl
  | error e t => rfl

/-! ## Results -/

/-- A result that was taken over without an error was none. -/
theorem of_ofExcept_eq_ok {error : δ → ε} {r : Except δ α} {s t : σ} {a : α}
    (h : ofExcept error r s = .ok a t) : r = .ok a ∧ t = s := by
  cases r with
  | ok b =>
      cases h
      exact ⟨rfl, rfl⟩
  | error e => cases h

/-- An error that was taken over is the one that was found, in its new form. -/
theorem of_ofExcept_eq_error {error : δ → ε} {r : Except δ α} {s t : σ} {e : ε}
    (h : ofExcept error r s = .error e t) : ∃ d, r = .error d ∧ e = error d ∧ t = s := by
  cases r with
  | ok b => cases h
  | error d =>
      cases h
      exact ⟨d, rfl, rfl, rfl⟩

/-- A change that came to a good end was not refused. -/
theorem of_attempt_eq_ok {error : δ → ε} {f : σ → Except δ σ} {s t : σ} {u : Unit}
    (h : attempt error f s = .ok u t) : f s = .ok t := by
  unfold attempt at h
  cases hf : f s with
  | ok t' =>
      rw [hf] at h
      cases h
      rfl
  | error e =>
      rw [hf] at h
      cases h

/-- What a step delivered. -/
def result? : EStateM.Result ε σ α → Option α
  | .ok a _ => some a
  | .error _ _ => none

theorem exists_eq_ok {r : EStateM.Result ε σ α} {a : α} (h : result? r = some a) :
    ∃ s, r = .ok a s := by
  cases r with
  | ok b s =>
      cases h
      exact ⟨s, rfl⟩
  | error e s => cases h

/-- Whether a result is no error, and something can be read off it. -/
def checks (r : EStateM.Result ε σ α) (P : α → σ → Prop) [∀ a s, Decidable (P a s)] : Bool :=
  match r with
  | .ok a s => P a s
  | .error _ _ => false

/-- A test that succeeds gives the result and what it was tested for. -/
theorem exists_of_checks {r : EStateM.Result ε σ α} {P : α → σ → Prop} [∀ a s, Decidable (P a s)]
    (h : checks r P = true) : ∃ a s, r = .ok a s ∧ P a s := by
  cases r with
  | ok a s => exact ⟨a, s, rfl, of_decide_eq_true h⟩
  | error e s => cases h

/-- Whatever the step delivers has a property. -/
def Delivers (Q : α → Prop) (x : Step ε σ α) : Prop := ∀ s a t, x s = .ok a t → Q a

variable {Q : α → Prop}

/-- A value is delivered as it is. -/
theorem delivers_pure {a : α} (ha : Q a) : Delivers Q (pure a : Step ε σ α) := by
  intro s b t h
  cases h
  exact ha

/-- What two steps deliver is what the second one does. -/
theorem delivers_bind {x : Step ε σ β} {f : β → Step ε σ α} (hf : ∀ b, Delivers Q (f b)) :
    Delivers Q (x >>= f) := by
  intro s a u h
  obtain ⟨b, t, -, hb⟩ := bind_eq_ok_iff.mp h
  exact hf b t a u hb

/-- If the step and its clean-up come to a good end, the step has delivered its result and the
    clean-up has left the state. -/
theorem ensuring_of_ok {x : Step ε σ α} {cleanUp : Step ε σ Unit} {s t u : σ} {a : α}
    (hx : x s = .ok a t) (hc : cleanUp t = .ok () u) : ensuring x cleanUp s = .ok a u := by
  unfold ensuring
  rw [hx]
  simp only [hc]

/-- Where a step with a clean-up delivers something, the step did, and the clean-up
    came to a good end. -/
theorem of_ensuring_eq_ok {x : Step ε σ α} {cleanUp : Step ε σ Unit} {s u : σ} {a : α}
    (h : ensuring x cleanUp s = .ok a u) : ∃ t, x s = .ok a t ∧ cleanUp t = .ok () u := by
  unfold ensuring at h
  cases hx : x s with
  | ok b t =>
      rw [hx] at h
      cases hc : cleanUp t with
      | ok _ v =>
          simp only [hc] at h
          cases h
          exact ⟨t, rfl, hc⟩
      | error e v =>
          simp only [hc] at h
          cases h
  | error e t =>
      rw [hx] at h
      -- after an error of the step the clean-up delivers nothing, however it ends
      cases hc : cleanUp t <;> simp only [hc] at h <;> cases h

/-- A clean-up delivers nothing of its own. -/
theorem delivers_ensuring {x : Step ε σ α} {cleanUp : Step ε σ Unit} (hx : Delivers Q x) :
    Delivers Q (ensuring x cleanUp) := by
  intro s a u h
  obtain ⟨t, ha, -⟩ := of_ensuring_eq_ok h
  exact hx s a t ha

/-! ## Errors -/

/-- Whatever error the step ends in has a property. -/
def Fails (E : ε → Prop) (x : Step ε σ α) : Prop := ∀ s e t, x s = .error e t → E e

variable {E : ε → Prop}

/-- The same of an outcome, where the state is no longer known. -/
theorem Fails.of_outcome {x : Step ε σ α} {s : σ} {e : ε} (hx : Fails E x)
    (h : outcome (x s) = .error e) : E e := by
  cases hs : x s with
  | ok a t =>
      rw [hs] at h
      cases h
  | error e' t =>
      rw [hs] at h
      cases h
      exact hx s e t hs

/-- The error in which a step ended. -/
def error? : EStateM.Result ε σ α → Option ε
  | .ok _ _ => none
  | .error e _ => some e

theorem exists_eq_error {r : EStateM.Result ε σ α} {e : ε} (h : error? r = some e) :
    ∃ s, r = .error e s := by
  cases r with
  | ok a s => cases h
  | error e' s =>
      cases h
      exact ⟨s, rfl⟩

theorem fails_pure (a : α) : Fails E (pure a : Step ε σ α) := by
  intro s e t h
  cases h

/-- To fail is to end in just this error. -/
theorem fails_throw {e : ε} (he : E e) : Fails E (throw e : Step ε σ α) := by
  intro s e' t h
  cases h
  exact he

theorem fails_get : Fails E (get : Step ε σ σ) := by
  intro s e t h
  cases h

theorem fails_set (t : σ) : Fails E (set t : Step ε σ PUnit) := by
  intro s e u h
  cases h

/-- To change the state never fails. -/
theorem fails_modify (f : σ → σ) : Fails E (modify f : Step ε σ PUnit) := by
  intro s e t h
  cases h

/-- An error that was found elsewhere is the only one. -/
theorem fails_ofExcept {error : δ → ε} {r : Except δ α} (h : ∀ e, r = .error e → E (error e)) :
    Fails E (ofExcept error r : Step ε σ α) := by
  cases r with
  | ok a => exact fails_pure a
  | error e => exact fails_throw (h e rfl)

/-- Two steps end in an error of the first or in one of the second. -/
theorem fails_bind {x : Step ε σ β} {f : β → Step ε σ α} (hx : Fails E x)
    (hf : ∀ b, Fails E (f b)) : Fails E (x >>= f) := by
  intro s e u h
  -- the error is one of the first step, or the first came to a good end and handed on its
  -- result
  obtain h | ⟨b, t, -, h⟩ := bind_eq_error_iff.mp h
  · exact hx s e u h
  · exact hf b t e u h

/-- A change fails only in the form of its refusal. -/
theorem fails_attempt {error : δ → ε} {f : σ → Except δ σ}
    (hf : ∀ s e, f s = .error e → E (error e)) : Fails E (attempt error f) := by
  intro s e t h
  unfold attempt at h
  cases hs : f s with
  | ok u =>
      rw [hs] at h
      cases h
  | error e' =>
      rw [hs] at h
      cases h
      exact hf s e' hs

/-- An error on a part of the state is one of the whole, in its new form. -/
theorem fails_within {error : δ → ε} {part : σ → τ} {update : σ → τ → σ} {x : Step δ τ α}
    {D : δ → Prop} (hx : Fails D x) (hD : ∀ e, D e → E (error e)) :
    Fails E (within error part update x) := by
  intro s e t h
  unfold within at h
  cases hr : x (part s) with
  | ok a u =>
      rw [hr] at h
      cases h
  | error e' u =>
      rw [hr] at h
      cases h
      exact hD e' (hx _ _ _ hr)

/-! ## Contracts -/

/-- The way in which a step may end: it delivers something with `Q`, or ends in an error
    with `E`. -/
inductive Ends (Q : α → σ → Prop) (E : ε → Prop) : EStateM.Result ε σ α → Prop where
  | ok {a : α} {t : σ} (h : Q a t) : Ends Q E (.ok a t)
  | error {e : ε} {t : σ} (h : E e) : Ends Q E (.error e t)

/-- Started where `P` holds, the step ends like this. -/
def Meets (P : σ → Prop) (Q : α → σ → Prop) (E : ε → Prop) (x : Step ε σ α) : Prop :=
  ∀ s, P s → Ends Q E (x s)

namespace Meets

variable {P' : σ → Prop} {Q Q' : α → σ → Prop} {E' : ε → Prop} {x : Step ε σ α} {s t : σ}

/-- What a contract says of a good end. -/
theorem of_eq_ok {a : α} (hx : Meets P Q E x) (hs : P s) (h : x s = .ok a t) : Q a t := by
  have hends := hx s hs
  rw [h] at hends
  cases hends with
  | ok hq => exact hq

/-- What a contract says of an error. -/
theorem of_eq_error {e : ε} (hx : Meets P Q E x) (hs : P s) (h : x s = .error e t) : E e := by
  have hends := hx s hs
  rw [h] at hends
  cases hends with
  | error he => exact he

/-- A contract may ask for more and promise less. -/
theorem mono (hx : Meets P Q E x) (hP : ∀ s, P' s → P s) (hQ : ∀ a s, Q a s → Q' a s)
    (hE : ∀ e, E e → E' e) : Meets P' Q' E' x := by
  intro s hs
  cases h : x s with
  | ok a t => exact .ok (hQ a t (hx.of_eq_ok (hP s hs) h))
  | error e t => exact .error (hE e (hx.of_eq_error (hP s hs) h))

theorem mono_error (hx : Meets P Q E x) (hE : ∀ e, E e → E' e) : Meets P Q E' x :=
  hx.mono (fun _ hs => hs) (fun _ _ hq => hq) hE

/-- A contract that asks for nothing bounds the errors from every state. -/
theorem fails (hx : Meets (fun _ => True) Q E x) : Fails E x :=
  fun _ _ _ h => hx.of_eq_error trivial h

end Meets

section Contracts

variable {Q : α → σ → Prop} {R : β → σ → Prop} {x : Step ε σ α}

/-- To bound the errors is a contract that promises nothing of the state. -/
theorem Fails.meets (hx : Fails E x) : Meets P (fun _ _ => True) E x := by
  intro s _
  cases h : x s with
  | ok a t => exact .ok trivial
  | error e t => exact .error (hx s e t h)

/-- What is kept at every end is kept at a good one. -/
theorem Keeps.meets (hx : Keeps P x) (hE : Fails E x) : Meets P (fun _ => P) E x := by
  intro s hs
  have ht := hx s hs
  cases h : x s with
  | ok a t =>
      rw [h] at ht
      exact .ok ht
  | error e t => exact .error (hE s e t h)

/-- A value is delivered in the state in which the step started. -/
theorem meets_pure {a : α} (h : ∀ s, P s → Q a s) : Meets P Q E (pure a : Step ε σ α) :=
  fun s hs => .ok (h s hs)

theorem meets_throw {e : ε} (he : E e) : Meets P Q E (throw e : Step ε σ α) := fun _ _ => .error he

/-- The state that is delivered is the one that is left. -/
theorem meets_get {Q : σ → σ → Prop} (h : ∀ s, P s → Q s s) :
    Meets P Q E (get : Step ε σ σ) := fun s hs => .ok (h s hs)

/-- A change of the state leaves the changed state. -/
theorem meets_modify {f : σ → σ} {Q : PUnit → σ → Prop} (h : ∀ s, P s → Q ⟨⟩ (f s)) :
    Meets P Q E (modify f : Step ε σ PUnit) := fun s hs => .ok (h s hs)

/-- A contract for a result that was found elsewhere has a clause for each form of it. -/
theorem meets_ofExcept {error : δ → ε} {r : Except δ α} (hok : ∀ a, r = .ok a → ∀ s, P s → Q a s)
    (herror : ∀ e, r = .error e → E (error e)) : Meets P Q E (ofExcept error r : Step ε σ α) := by
  cases r with
  | ok a => exact meets_pure (hok a rfl)
  | error e => exact meets_throw (herror e rfl)

/-- The first step leaves what the second one asks for. -/
theorem meets_bind {f : α → Step ε σ β} (hx : Meets P Q E x) (hf : ∀ a, Meets (Q a) R E (f a)) :
    Meets P R E (x >>= f) := by
  intro s hs
  rw [bind_apply]
  cases hr : x s with
  | ok a t => exact hf a t (hx.of_eq_ok hs hr)
  | error e t => exact .error (hx.of_eq_error hs hr)

/-- A loop leaves what each round takes up and leaves. -/
theorem meets_forM {xs : List α} {f : α → Step ε σ PUnit}
    (hf : ∀ a ∈ xs, Meets P (fun _ => P) E (f a)) : Meets P (fun _ => P) E (xs.forM f) := by
  induction xs with
  | nil => exact meets_pure fun _ hs => hs
  | cons a rest ih =>
      refine meets_bind (hf a List.mem_cons_self) fun _ => ?_
      exact ih fun b hb => hf b (List.mem_cons_of_mem _ hb)

/-- A clean-up takes up a result where the step left it, but may meet any state after an
    error. -/
theorem meets_ensuring {cleanUp : Step ε σ Unit} (hx : Meets P Q E x)
    (hc : ∀ a, Meets (Q a) (fun _ => Q a) E cleanUp) (he : Fails E cleanUp) :
    Meets P Q E (ensuring x cleanUp) := by
  intro s hs
  unfold ensuring
  cases hr : x s with
  | ok a t =>
      have ha := hx.of_eq_ok hs hr
      dsimp only
      cases h : cleanUp t with
      | ok u v => exact .ok ((hc a).of_eq_ok ha h)
      | error e v => exact .error ((hc a).of_eq_error ha h)
  | error e t =>
      dsimp only
      cases h : cleanUp t with
      | ok u v => exact .error (hx.of_eq_error hs hr)
      -- an error of the clean-up replaces the one of the step; nothing is known of the state
      | error e' v => exact .error (he t e' v h)

/-- An error may be given another form. -/
theorem meets_rethrow {D : ε → Prop} {f : ε → ε} (hx : Meets P Q D x) (hf : ∀ e, D e → E (f e)) :
    Meets P Q E (catching x fun e => throw (f e)) := by
  intro s hs
  unfold catching
  cases hr : x s with
  | ok a t => exact .ok (hx.of_eq_ok hs hr)
  | error e t => exact .error (hf e (hx.of_eq_error hs hr))

end Contracts

end RoundTrip.Step
