import RoundTrip.Proofs.Invariant

/-! # Two runs of a step

    What two runs have in common is a relation between the states they are in.  `EndAlike`
    says that they come to the same kind of end, with related results or with related
    errors; there is one rule for each way to build a step.  A step is `Blind` to what a
    relation leaves open if it gives the same result from related states, or the same
    error, and leaves related states behind. -/

namespace RoundTrip.Step

variable {ε δ σ α β : Type}

/-- Two runs end alike: both deliver something, or both end in an error. -/
inductive EndAlike (Q : α → σ → α → σ → Prop) (E : ε → σ → ε → σ → Prop) :
    EStateM.Result ε σ α → EStateM.Result ε σ α → Prop where
  | ok {a a' : α} {t t' : σ} (h : Q a t a' t') : EndAlike Q E (.ok a t) (.ok a' t')
  | error {e e' : ε} {t t' : σ} (h : E e t e' t') : EndAlike Q E (.error e t) (.error e' t')

namespace EndAlike

variable {Q Q' : α → σ → α → σ → Prop} {E E' : ε → σ → ε → σ → Prop} {s s' : σ}

/-- Two ends that are alike are so in a weaker sense. -/
theorem mono {r r' : EStateM.Result ε σ α} (h : EndAlike Q E r r')
    (hQ : ∀ a t a' t', Q a t a' t' → Q' a t a' t')
    (hE : ∀ e t e' t', E e t e' t' → E' e t e' t') : EndAlike Q' E' r r' := by
  cases h with
  | ok h => exact .ok (hQ _ _ _ _ h)
  | error h => exact .error (hE _ _ _ _ h)

/-- Where one run delivers something, so does the other. -/
theorem of_ok {r r' : EStateM.Result ε σ α} {a : α} {t : σ} (h : EndAlike Q E r r')
    (hr : r = .ok a t) : ∃ a' t', r' = .ok a' t' ∧ Q a t a' t' := by
  subst hr
  cases h with
  | ok h => exact ⟨_, _, rfl, h⟩

/-- The result of something that may fail and is the same in both runs. -/
theorem ofExcept {error : δ → ε} {r : Except δ α} (hok : ∀ a, r = .ok a → Q a s a s')
    (herror : ∀ e, r = .error e → E (error e) s (error e) s') :
    EndAlike Q E (Step.ofExcept error r s) (Step.ofExcept error r s') := by
  cases r with
  | ok a => exact .ok (hok a rfl)
  | error e => exact .error (herror e rfl)

/-- The second step is looked at where the first one left the two runs. -/
theorem bind {R : β → σ → β → σ → Prop} {x x' : Step ε σ β} {f f' : β → Step ε σ α}
    (hx : EndAlike R E (x s) (x' s'))
    (hf : ∀ b t b' t', x s = .ok b t → R b t b' t' → EndAlike Q E (f b t) (f' b' t')) :
    EndAlike Q E ((x >>= f) s) ((x' >>= f') s') := by
  rw [bind_apply, bind_apply]
  generalize hr : x s = r at hx
  generalize x' s' = r' at hx
  cases hx with
  | ok h => exact hf _ _ _ _ hr h
  | error h => exact .error h

/-- A clean-up follows either end of the step before it. -/
theorem ensuring {R : α → σ → α → σ → Prop} {F : ε → σ → ε → σ → Prop} {x x' : Step ε σ α}
    {c c' : Step ε σ Unit} (hx : EndAlike R F (x s) (x' s'))
    (hok : ∀ a t a' t', x s = .ok a t → R a t a' t' →
      EndAlike (fun _ u _ u' => Q a u a' u') E (c t) (c' t'))
    (herror : ∀ e t e' t', x s = .error e t → F e t e' t' →
      EndAlike (fun _ u _ u' => E e u e' u') E (c t) (c' t')) :
    EndAlike Q E (Step.ensuring x c s) (Step.ensuring x' c' s') := by
  unfold Step.ensuring
  generalize hr : x s = r at hx
  generalize x' s' = r' at hx
  cases hx with
  | @ok a a' t t' h =>
      have hc := hok a t a' t' hr h
      dsimp only
      generalize c t = v at hc
      generalize c' t' = v' at hc
      cases hc with
      | ok h => exact .ok h
      | error h => exact .error h
  | @error e e' t t' h =>
      have hc := herror e t e' t' hr h
      dsimp only
      generalize c t = v at hc
      generalize c' t' = v' at hc
      cases hc with
      | ok h => exact .error h
      | error h => exact .error h

/-- An error may be given another form. -/
theorem rethrow {F : ε → σ → ε → σ → Prop} {x x' : Step ε σ α} {f : ε → ε}
    (hx : EndAlike Q F (x s) (x' s')) (hf : ∀ e t e' t', F e t e' t' → E (f e) t (f e') t') :
    EndAlike Q E (catching x (fun e => throw (f e)) s)
      (catching x' (fun e => throw (f e)) s') := by
  unfold catching
  generalize x s = r at hx
  generalize x' s' = r' at hx
  cases hx with
  | ok h => exact .ok h
  | error h => exact .error (hf _ _ _ _ h)

end EndAlike

/-! ## Blind steps -/

variable {R : σ → σ → Prop}

/-- From related states the step does the same, and it leaves related states behind. -/
def Blind (R : σ → σ → Prop) (x : Step ε σ α) : Prop :=
  ∀ s s', R s s' → EndAlike (fun a t a' t' => a' = a ∧ R t t') (fun e t e' t' => e' = e ∧ R t t')
    (x s) (x s')

theorem blind_pure (a : α) : Blind R (pure a : Step ε σ α) := fun _ _ h => .ok ⟨rfl, h⟩

theorem blind_throw (e : ε) : Blind R (throw e : Step ε σ α) := fun _ _ h => .error ⟨rfl, h⟩

theorem blind_ofExcept (error : δ → ε) (r : Except δ α) :
    Blind R (ofExcept error r : Step ε σ α) :=
  fun _ _ h => EndAlike.ofExcept (fun _ _ => ⟨rfl, h⟩) fun _ _ => ⟨rfl, h⟩

/-- Two blind steps are blind one after the other. -/
theorem blind_bind {x : Step ε σ β} {f : β → Step ε σ α} (hx : Blind R x)
    (hf : ∀ b, Blind R (f b)) : Blind R (x >>= f) := by
  intro s s' h
  refine (hx s s' h).bind fun b t b' t' _ hb => ?_
  obtain ⟨rfl, ht⟩ := hb
  exact hf _ t t' ht

/-- A clean-up is blind to what the step before it is blind to. -/
theorem blind_ensuring {x : Step ε σ α} {c : Step ε σ Unit} (hx : Blind R x) (hc : Blind R c) :
    Blind R (Step.ensuring x c) := by
  intro s s' h
  refine (hx s s' h).ensuring (fun a t a' t' _ ha => ?_) fun e t e' t' _ he => ?_
  · obtain ⟨rfl, ht⟩ := ha
    exact (hc t t' ht).mono (fun _ _ _ _ hu => ⟨rfl, hu.2⟩) fun _ _ _ _ he => he
  · obtain ⟨rfl, ht⟩ := he
    exact (hc t t' ht).mono (fun _ _ _ _ hu => ⟨rfl, hu.2⟩) fun _ _ _ _ he => he

/-- Nothing is hidden from a step by equality. -/
theorem blind_eq (x : Step ε σ α) : Blind Eq x := by
  rintro s _ rfl
  cases x s with
  | ok a t => exact .ok ⟨rfl, rfl⟩
  | error e t => exact .error ⟨rfl, rfl⟩

/-! ## Changes that are refused -/

/-- Two refusals are the same, and two changes lead to related states. -/
inductive SameChange (R : σ → σ → Prop) : Except δ σ → Except δ σ → Prop where
  | ok {t t' : σ} (h : R t t') : SameChange R (.ok t) (.ok t')
  | error (e : δ) : SameChange R (.error e) (.error e)

/-- A change that both states take or refuse is attempted alike. -/
theorem SameChange.attempt {error : δ → ε} {f f' : σ → Except δ σ} {s s' : σ}
    (hf : SameChange R (f s) (f' s')) (h : R s s') :
    EndAlike (fun _ t _ t' => R t t') (fun e t e' t' => e' = e ∧ R t t')
      (attempt error f s) (attempt error f' s') := by
  unfold Step.attempt
  generalize f s = r at hf
  generalize f' s' = r' at hf
  cases hf with
  | ok ht => exact .ok ht
  | error e => exact .error ⟨rfl, h⟩

/-- So a change that respects the relation is blind. -/
theorem blind_attempt {error : δ → ε} {f : σ → Except δ σ}
    (hf : ∀ s s', R s s' → SameChange R (f s) (f s')) : Blind R (attempt error f) :=
  fun s s' h => ((hf s s' h).attempt h).mono (fun _ _ _ _ ht => ⟨rfl, ht⟩) fun _ _ _ _ he => he

end RoundTrip.Step
