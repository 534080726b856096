import RoundTrip.Proofs.Journal

/-! # Stopping at the first failure

    A plan can go on after a failure or stop there.  Both plans do the same up to
    the first failing result: after it the one that stops writes at most a log
    line, and its session is the one that the other goes on from.  If no result
    fails, the two runs are the same, whatever ends them. -/

namespace RoundTrip

open Step (Keeps endState)

/-- A longer journal has more results. -/
theorem Session.findings_of_prefix {s s' : Session} (h : s.journal <+: s'.journal) :
    s.findings <+: s'.findings := h.filterMap _

namespace Plan

variable {p : Plan} {number : Nat} {source : Path} {sources : List Path} {s s' s₁ : Session}
  {earlier : List Finding} {r : Finding}

/-- The plan that goes on after a failure. -/
def goingOn (p : Plan) : Plan := { p with stopOnFailure := false }

/-- The plan that stops at the first failure. -/
def stopping (p : Plan) : Plan := { p with stopOnFailure := true }

/-- A run that goes on takes its cases one after the other. -/
theorem runFrom_goingOn (p : Plan) (number : Nat) (source : Path) (rest : List Path) :
    p.goingOn.runFrom number (source :: rest)
      = (p.step number source >>= fun _ => p.goingOn.runFrom (number + 1) rest) := rfl

/-- A run that stops looks at each result before it goes on. -/
theorem runFrom_stopping (p : Plan) (number : Nat) (source : Path) (rest : List Path) :
    p.stopping.runFrom number (source :: rest) = (p.step number source >>= fun r =>
      if r.failed then
        Session.inWorld (World.log .run ("stopping after first failure: " ++ source.text))
      else p.stopping.runFrom (number + 1) rest) := rfl

/-- A run that goes on over some sources and then over more. -/
theorem runFrom_append (p : Plan) (number : Nat) (xs ys : List Path) (s : Session) :
    p.goingOn.runFrom number (xs ++ ys) s
      = (p.goingOn.runFrom number xs >>= fun _ =>
        p.goingOn.runFrom (number + xs.length) ys) s := by
  induction xs generalizing number s with
  | nil => rfl
  | cons source rest ih =>
      rw [List.cons_append, runFrom_goingOn, runFrom_goingOn]
      cases hstep : p.step number source s with
      | ok r s₁ =>
          rw [Step.bind_ok hstep, ih, Step.bind_apply, Step.bind_apply, Step.bind_ok hstep]
          rw [List.length_cons, Nat.add_assoc, Nat.add_comm rest.length 1]
      | error e s₁ => rw [Step.bind_error hstep, Step.bind_error (Step.bind_error hstep)]

/-! ## The journal only grows -/

/-- What is done in the world is not in the journal. -/
theorem journal_inWorld {α : Type} (x : Action World α) (s : Session) :
    (endState (Session.inWorld x s)).journal = s.journal := by
  unfold Session.inWorld Step.within
  cases x s.world with
  | ok a w => rfl
  | error e w => rfl

theorem keeps_journal {α : Type} (j : List Event) (x : Action World α) :
    Keeps (fun s : Session => j <+: s.journal) (Session.inWorld x) := by
  intro s hs
  rw [journal_inWorld]
  exact hs

theorem journal_tryCase (p : Plan) (number : Nat) (source : Path) (s : Session) :
    s.journal <+: (endState (p.tryCase number source s)).journal := by
  have hend := p.caseEnd number source s
  generalize p.tryCase number source s = x at hend
  cases hend with
  | noWorkspace => exact List.prefix_refl _
  | unopened | unverified | verified => exact List.prefix_append _ _

/-- A case adds to the journal and takes nothing back. -/
theorem journal_step (p : Plan) (number : Nat) (source : Path) (s : Session) :
    s.journal <+: (endState (p.step number source s)).journal := by
  have hcases : ∀ w, s.journal
      <+: (endState
        (p.tryCase number source ⟨w, s.tally, s.journal ++ [.started source]⟩)).journal := by
    intro w
    refine List.IsPrefix.trans ?_ (p.journal_tryCase number source _)
    exact List.prefix_append _ _
  have hend := p.stepEnd number source s
  generalize p.step number source s = x at hend
  cases hend with
  | unstarted => exact List.prefix_append _ _
  | @brokenOff _ w _ hstart hcase =>
      have hgrown := hcases w
      rw [hcase] at hgrown
      exact hgrown
  | @unannounced _ w _ _ _ hstart hcase | @finished w _ _ _ hstart hcase =>
      have hgrown := hcases w
      rw [hcase] at hgrown
      exact hgrown.trans (List.prefix_append _ _)

theorem keeps_journal_runFrom (j : List Event) (number : Nat) (sources : List Path) :
    Keeps (fun s : Session => j <+: s.journal) (p.runFrom number sources) := by
  induction sources generalizing number with
  | nil => exact Step.keeps_pure ()
  | cons source rest ih =>
      rw [runFrom]
      refine Step.keeps_bind (fun s hs => hs.trans (p.journal_step number source s)) fun r => ?_
      split
      · exact keeps_journal j _
      · exact ih (number + 1)

/-- The last entry of a case that comes to its end is the one for its result. -/
theorem getLast?_journal_step (h : p.step number source s = .ok r s') :
    s'.journal.getLast? = some (.finished r s'.tally) := by
  have hend := p.stepEnd number source s
  rw [h] at hend
  cases hend with
  | finished => exact List.getLast?_concat

/-! ## The two runs -/

/-- What happens after a failing result does not end the run in a fault. -/
def FailureHookReturns (p : Plan) : Prop :=
  ∀ r w, r.failed = true → ∃ w', p.onResult r w = .ok () w'

/-- The run that stops is cut off after the result `r`, which follows the results `earlier`
    in the run that goes on. -/
structure StopsAt (p : Plan) (number : Nat) (sources : List Path) (s : Session)
    (earlier : List Finding) (r : Finding) (s₁ : Session) : Prop where
  /-- The run that goes on comes to this session, right after the result. -/
  reached : p.goingOn.runFrom number (sources.take (earlier.length + 1)) s = .ok () s₁
  findings_eq : s₁.findings = s.findings ++ (earlier ++ [r])
  last : s₁.journal.getLast? = some (.finished r s₁.tally)
  first : ∀ r' ∈ earlier, r'.failed = false
  failed : r.failed = true
  /-- The run that stops comes to its end there, apart from a log line. -/
  stopped : ∃ stderr, p.stopping.runFrom number sources s
    = .ok () { s₁ with world := { s₁.world with stderr := stderr } }

/-- No result fails, and the two runs are the same. -/
structure Coincides (p : Plan) (number : Nat) (sources : List Path) (s : Session) : Prop where
  findings : ∃ rs, (endState (p.goingOn.runFrom number sources s)).findings = s.findings ++ rs
    ∧ ∀ r ∈ rs, r.failed = false
  same : p.stopping.runFrom number sources s = p.goingOn.runFrom number sources s

/-- A case that is broken off delivers no failing result. -/
theorem findings_of_step_error {e : Fault} (hooks : p.FailureHookReturns)
    (h : p.step number source s = .error e s') :
    ∃ rs, s'.findings = s.findings ++ rs ∧ ∀ r ∈ rs, r.failed = false := by
  obtain ⟨growth, -, hmilestones, -⟩ | ⟨r, w, hresult, -, hmilestones, -⟩ := step_eq_error h
  · exact ⟨[], by rw [Session.findings_of_started hmilestones, List.append_nil], by simp⟩
  · refine ⟨[r], Session.findings_of_milestones hmilestones, ?_⟩
    rintro r' hr'
    obtain rfl := List.mem_singleton.mp hr'
    cases hfailed : r'.failed with
    | false => rfl
    | true =>
        obtain ⟨w', hok⟩ := hooks r' w hfailed
        rw [hok] at hresult
        cases hresult

/-- A case that did not fail may go before the one that the run stops at. -/
theorem StopsAt.cons (h : p.step number source s = .ok r s₁) (hr : r.failed = false)
    {r' : Finding} {s₂ : Session} (hrest : p.StopsAt (number + 1) sources s₁ earlier r' s₂) :
    p.StopsAt number (source :: sources) s (r :: earlier) r' s₂ where
  reached := by
    rw [List.length_cons, List.take_succ_cons, runFrom_goingOn, Step.bind_ok h]
    exact hrest.reached
  findings_eq := by
    rw [hrest.findings_eq, findings_step h, List.append_assoc]
    rfl
  last := hrest.last
  first := List.forall_mem_cons.mpr ⟨hr, hrest.first⟩
  failed := hrest.failed
  stopped := by
    obtain ⟨stderr, hstopped⟩ := hrest.stopped
    refine ⟨stderr, ?_⟩
    rw [runFrom_stopping, Step.bind_ok h, if_neg (by simp [hr])]
    exact hstopped

theorem Coincides.cons (h : p.step number source s = .ok r s₁) (hr : r.failed = false)
    (hrest : p.Coincides (number + 1) sources s₁) :
    p.Coincides number (source :: sources) s where
  findings := by
    obtain ⟨rs, hfindings, hrs⟩ := hrest.findings
    refine ⟨r :: rs, ?_, List.forall_mem_cons.mpr ⟨hr, hrs⟩⟩
    rw [runFrom_goingOn, Step.bind_ok h, hfindings, findings_step h, List.append_assoc]
    rfl
  same := by
    rw [runFrom_stopping, runFrom_goingOn, Step.bind_ok h, Step.bind_ok h, if_neg (by simp [hr])]
    exact hrest.same

/-- The run that stops either is cut off after a result, or is the same as the one that goes
    on. -/
theorem stopsAt_or_coincides (hooks : p.FailureHookReturns) (number : Nat) (sources : List Path)
    (s : Session) :
    (∃ earlier r s₁, p.StopsAt number sources s earlier r s₁) ∨ p.Coincides number sources s := by
  induction sources generalizing number s with
  | nil => exact Or.inr ⟨⟨[], by simp [runFrom, Step.pure_apply, endState], by simp⟩, rfl⟩
  | cons source rest ih =>
      cases hstep : p.step number source s with
      | error e s₁ =>
          refine Or.inr ⟨?_, ?_⟩
          · rw [runFrom_goingOn, Step.bind_error hstep]
            exact findings_of_step_error hooks hstep
          · rw [runFrom_stopping, runFrom_goingOn, Step.bind_error hstep, Step.bind_error hstep]
      | ok r s₁ =>
          cases hr : r.failed with
          | false =>
              obtain ⟨earlier, r', s₂, hstops⟩ | hsame := ih (number + 1) s₁
              · exact Or.inl ⟨_, _, _, hstops.cons hstep hr⟩
              · exact Or.inr (hsame.cons hstep hr)
          | true =>
              -- the first failure is right here
              refine Or.inl ⟨[], r, s₁, ?_, findings_step hstep, getLast?_journal_step hstep,
                by simp, hr, ?_⟩
              · rw [List.length_nil, List.take_succ_cons, List.take_zero, runFrom_goingOn,
                  Step.bind_ok hstep]
                rfl
              · obtain ⟨stderr, hlog⟩ := World.log_apply .run
                  ("stopping after first failure: " ++ source.text) s₁.world
                refine ⟨stderr, ?_⟩
                rw [runFrom_stopping, Step.bind_ok hstep, if_pos hr, Session.inWorld_of_ok hlog]

/-- The run that goes on comes through the session at which the other is cut off. -/
theorem StopsAt.goes_on (h : p.StopsAt number sources s earlier r s₁) :
    p.goingOn.runFrom number sources s
      = p.goingOn.runFrom (number + (sources.take (earlier.length + 1)).length)
        (sources.drop (earlier.length + 1)) s₁ := by
  have happend := p.runFrom_append number (sources.take (earlier.length + 1))
    (sources.drop (earlier.length + 1)) s
  rw [List.take_append_drop, Step.bind_ok h.reached] at happend
  exact happend

/-- **Stopping at a failure cuts the run off after the first failing result.**  If the run
    that goes on delivers a failing result, the one that stops ends normally with the first
    of them: its journal, its processes and its tally are those of the other at that point,
    whatever becomes of the other later.  If no result fails, the two runs are the same, and
    so is the fault that ends them. -/
theorem stops_at_first_failure (hooks : p.FailureHookReturns) (sources : List Path) (w : World)
    (t : Tally) :
    ((∃ r ∈ (endState (p.goingOn.run sources (Session.start w t))).findings, r.failed = true) →
      ∃ earlier r s₁, p.StopsAt 0 sources (Session.start w t) earlier r s₁
        ∧ s₁.journal <+: (endState (p.goingOn.run sources (Session.start w t))).journal
        ∧ p.goingOn.run sources (Session.start w t)
          = p.goingOn.runFrom (sources.take (earlier.length + 1)).length
            (sources.drop (earlier.length + 1)) s₁)
      ∧ ((∀ r ∈ (endState (p.goingOn.run sources (Session.start w t))).findings,
          r.failed = false) →
        p.stopping.run sources (Session.start w t)
          = p.goingOn.run sources (Session.start w t)) := by
  obtain ⟨earlier, r, s₁, hstops⟩ | hsame :=
    stopsAt_or_coincides hooks 0 sources (Session.start w t)
  · have hon := hstops.goes_on
    rw [Nat.zero_add] at hon
    have hprefix : s₁.journal
        <+: (endState (p.goingOn.run sources (Session.start w t))).journal := by
      rw [run, hon]
      exact keeps_journal_runFrom _ _ _ _ (List.prefix_refl _)
    refine ⟨fun _ => ⟨earlier, r, s₁, hstops, hprefix, hon⟩, fun hnone => ?_⟩
    -- the failing result is among those of the longer journal
    have hr : r ∈ s₁.findings := by simp [hstops.findings_eq]
    have := hnone r ((Session.findings_of_prefix hprefix).subset hr)
    rw [hstops.failed] at this
    cases this
  · obtain ⟨rs, hfindings, hrs⟩ := hsame.findings
    refine ⟨?_, fun _ => hsame.same⟩
    rintro ⟨r, hr, hfailed⟩
    rw [run, hfindings] at hr
    have := hrs r hr
    rw [hfailed] at this
    cases this

/-- The first of two cases fails, and no process can be started for the second. -/
def Trial.mismatchThenFault : World :=
  { Harness.Trial.world with
    script :=
      [{ Process.idle with exitCode := 1 }, .idle,
        { Process.idle with stdout := Text.encode "{}\n" }, .idle,
        { Process.idle with fileUse := some .compare },
        { Process.idle with startError := some "gone" }] }

open Harness in
/-- A run that would have ended in a fault ends normally, as its first case fails. -/
theorem stops_before_a_fault :
    (plan Trial.configuration Trial.options).FailureHookReturns
      ∧ (Step.error? ((plan Trial.configuration Trial.options).goingOn.run
          [⟨.root, ["t", "a.sol"]⟩, ⟨.root, ["t", "b.sol"]⟩]
          (Session.start Plan.Trial.mismatchThenFault (.start 2 true)))).isSome = true
      ∧ ∃ r s₁, (plan Trial.configuration Trial.options).StopsAt 0
        [⟨.root, ["t", "a.sol"]⟩, ⟨.root, ["t", "b.sol"]⟩]
        (Session.start Plan.Trial.mismatchThenFault (.start 2 true)) [] r s₁ := by
  have hooks : (plan Trial.configuration Trial.options).FailureHookReturns := by
    intro r w _
    obtain ⟨_, stdout, stderr, h⟩ := prints_announce r w
    exact ⟨_, h⟩
  refine ⟨hooks, by decide +kernel, ?_⟩
  obtain ⟨earlier, r, s₁, hstops, hprefix, -⟩ :=
    (stops_at_first_failure hooks [⟨.root, ["t", "a.sol"]⟩, ⟨.root, ["t", "b.sol"]⟩]
      Plan.Trial.mismatchThenFault (.start 2 true)).1 (by decide +kernel)
  have hone : (endState ((plan Trial.configuration Trial.options).goingOn.run
      [⟨.root, ["t", "a.sol"]⟩, ⟨.root, ["t", "b.sol"]⟩]
      (Session.start Plan.Trial.mismatchThenFault (.start 2 true)))).findings.length = 1 := by
    decide +kernel
  have hle := (Session.findings_of_prefix hprefix).length_le
  rw [hone, hstops.findings_eq] at hle
  -- the run that goes on has one result before its fault, so the failure is the first
  have hnil : earlier = [] := by
    have : earlier.length + 1 ≤ 1 := by simpa [Session.findings, Session.start] using hle
    exact List.eq_nil_of_length_eq_zero (by omega)
  subst hnil
  exact ⟨r, s₁, hstops⟩

end Plan

end RoundTrip
