import RoundTrip.Proofs.Agreement

/-! # What the journal of a run tells

    A run enters the start and the result of each case in its journal, and with the
    result the tally after it.  Where a run comes to its end it has an account
    (`Plan.exists_account`).  Where a fault ends it, the run over the sources before
    came to its end, and one case ended in the fault (`Plan.runFrom_eq_error`).  So
    starts and results alternate, and every tally in the journal has counted the
    results before it: **`Plan.journal_alternates`**.

    A case changes the tally at two moments: the number of sources once its input files
    are known, and all the rest after its workspace was left.  `Plan.BreaksOff` says
    where a fault can come in between.  A case that breaks off has no result, and only
    the number of sources may have changed: **`Plan.aborted_case_is_not_counted`**. -/

namespace RoundTrip

open Step (endState)

namespace Tally

theorem addSources_zero (t : Tally) : t.addSources 0 = t := by
  unfold addSources
  rw [Int.add_zero]

/-- Each result is of a case that was gone through. -/
theorem Counted.finished_eq {t t' : Tally} {rs : List Finding} (h : t.Counted rs t') :
    t'.finished = t.finished + rs.length := by
  have hsplit := List.length_eq_countP_add_countP Finding.tested (l := rs)
  have htested := h.tested
  have huncompilable := h.uncompilable
  simp only [Bool.not_eq_true] at hsplit
  have hnot : rs.countP (fun r => !r.tested) = rs.countP (fun r => decide (r.tested = false)) := by
    congr 1
    funext r
    cases r.tested <;> rfl
  unfold finished
  omega

end Tally

namespace Plan

variable {p : Plan} {number : Nat} {source : Path} {e : Fault}

/-! ## A case that breaks off -/

/-- The work on a source, begun in a world, is ended by a fault.  The number tells by how
    much the number of sources has grown by then. -/
inductive BreaksOff (p : Plan) (number : Nat) (source : Path) (e : Fault) : World → Int → Prop
  /-- By what happens before the case. -/
  | onStart {w w' : World} (h : p.onStart source w = .error e w') : BreaksOff p number source e w 0
  /-- For want of a workspace. -/
  | workspace {w w₁ w' : World} (hstart : p.onStart source w = .ok () w₁)
      (h : Workspace.enter Workspace.defaultStem w₁ = .error e w') :
      BreaksOff p number source e w 0
  /-- By the splitter, or while the names that it prints are resolved. -/
  | splitting {w w₁ w₂ w' : World} {dir : Path} (hstart : p.onStart source w = .ok () w₁)
      (henter : Workspace.enter Workspace.defaultStem w₁ = .ok dir w₂)
      (h : p.split number source dir w₂ = .error e w') : BreaksOff p number source e w 0
  /-- By an outcome of the splitter that has no input files. -/
  | inputs {w w₁ w₂ w₃ w' : World} {dir : Path} {splitting : Splitting}
      (hstart : p.onStart source w = .ok () w₁)
      (henter : Workspace.enter Workspace.defaultStem w₁ = .ok dir w₂)
      (hsplit : p.split number source dir w₂ = .ok splitting w₃)
      (h : splitting.inputs source p.splitter w₃ = .error e w') : BreaksOff p number source e w 0
  /-- In the course of the verification. -/
  | verification {w w₁ w₂ w₃ w₄ w' : World} {dir : Path} {splitting : Splitting}
      {inputs : List Path} (hstart : p.onStart source w = .ok () w₁)
      (henter : Workspace.enter Workspace.defaultStem w₁ = .ok dir w₂)
      (hsplit : p.split number source dir w₂ = .ok splitting w₃)
      (hinputs : splitting.inputs source p.splitter w₃ = .ok inputs w₄)
      (h : Verification.verify ⟨source, inputs⟩ p.compiler p.comparator dir w₄ = .error e w') :
      BreaksOff p number source e w splitting.growth

variable {s s' : Session} {w w₁ : World} {dir : Path}

/-- A case that ends in a fault breaks off, and what ended it is the fault of the work that
    was done for it. -/
theorem tryCase_eq_error (hstart : p.onStart source w = .ok () s.world)
    (h : p.tryCase number source s = .error e s') :
    ∃ growth, p.BreaksOff number source e w growth ∧ s'.milestones = s.milestones
      ∧ s'.tally = s.tally.addSources growth := by
  have hworkspace : ∀ dir : Path, (s.journal ++ [Event.workspace dir]).filter Event.isMilestone
      = s.milestones := by
    intro dir
    rw [List.filter_append]
    exact List.append_nil _
  have hend := p.caseEnd number source s
  rw [h] at hend
  cases hend with
  | noWorkspace henter =>
      exact ⟨0, .workspace hstart henter, rfl, s.tally.addSources_zero.symm⟩
  | unopened henter hopening hleave =>
      refine ⟨0, ?_, hworkspace _, s.tally.addSources_zero.symm⟩
      obtain hsplit | ⟨splitting, v, hsplit, hinputs⟩ := opening_eq_error hopening
      · exact .splitting hstart henter hsplit
      · exact .inputs hstart henter hsplit hinputs
  | unverified henter hopening hverify hleave =>
      obtain ⟨v, hsplit, hinputs⟩ := opening_eq_ok hopening
      exact ⟨_, .verification hstart henter hsplit hinputs hverify, hworkspace _, rfl⟩

/-- A case that ends in a fault breaks off, without a result; or it has been finished, and
    what happens after it failed. -/
theorem step_eq_error (h : p.step number source s = .error e s') :
    (∃ growth, p.BreaksOff number source e s.world growth
        ∧ s'.milestones = s.milestones ++ [.started source]
        ∧ s'.tally = s.tally.addSources growth)
      ∨ ∃ (r : Finding) (w : World), p.onResult r w = .error e s'.world
        ∧ r.subject.source = source
        ∧ s'.milestones = s.milestones ++ Event.ofCases [(r, s'.tally)]
        ∧ s.tally.Counted [r] s'.tally := by
  have hstarted : ∀ w, Session.milestones ⟨w, s.tally, s.journal ++ [.started source]⟩
      = s.milestones ++ [.started source] := fun _ => List.filter_append ..
  have hend := p.stepEnd number source s
  rw [h] at hend
  cases hend with
  | unstarted hstart =>
      exact Or.inl ⟨0, .onStart hstart, hstarted _, s.tally.addSources_zero.symm⟩
  | brokenOff hstart hcase =>
      obtain ⟨growth, hbreaks, hmilestones, htally⟩ := tryCase_eq_error hstart hcase
      exact Or.inl ⟨growth, hbreaks, hmilestones.trans (hstarted _), htally⟩
  | unannounced hstart hcase hresult =>
      obtain ⟨-, htally, hsource, -⟩ := tryCase_eq_ok hcase
      exact Or.inr ⟨_, _, hresult, hsource, milestones_of_tryCase hcase _, htally⟩

/-- Where a run ends in a fault, the run over the sources before came to its end, and the
    case of the next source ended in that fault. -/
theorem runFrom_eq_error {sources : List Path} (h : p.runFrom number sources s = .error e s') :
    ∃ (k : Nat) (source : Path) (s₁ : Session) (cases : List (Finding × Tally)),
      sources[k]? = some source
        ∧ p.runFrom number (sources.take k) s = .ok () s₁
        ∧ p.Account s s₁ (sources.take k) cases
        ∧ cases.length = k
        ∧ p.step (number + k) source s₁ = .error e s' := by
  induction sources generalizing number s with
  | nil => cases h
  | cons source rest ih =>
      have hend := p.runEnd number source rest s
      generalize p.runFrom number (source :: rest) s = x at hend h
      cases hend with
      | fault hstep =>
          cases h
          exact ⟨0, source, s, [], rfl, rfl, .nil p s, rfl, hstep⟩
      | stopped => cases h
      | @goesOn r s₁ hstep hgo =>
          obtain ⟨k, next, s₂, cases, hnext, hrun, haccount, hlength, hfault⟩ := ih h
          refine ⟨k + 1, next, s₂, (r, s₁.tally) :: cases, hnext, ?_, haccount.cons hstep, ?_, ?_⟩
          · rwa [List.take_succ_cons, runFrom_of_step hstep hgo]
          · rw [List.length_cons, hlength]
          · rwa [Nat.add_assoc, Nat.add_comm 1 k] at hfault

/-- A run that ends in a fault has started a case. -/
theorem exists_started_of_error {sources : List Path}
    (h : p.runFrom number sources s = .error e s') : ∃ source, .started source ∈ s'.journal := by
  obtain ⟨k, source, s₁, cases, -, -, -, -, hstep⟩ := runFrom_eq_error h
  have hmem : .started source ∈ s'.milestones := by
    obtain ⟨growth, -, hmilestones, -⟩ | ⟨r, w, -, hr, hmilestones, -⟩ := step_eq_error hstep
    · rw [hmilestones]
      exact List.mem_append_right _ List.mem_cons_self
    · rw [hmilestones, Event.ofCases_cons, hr]
      exact List.mem_append_right _ List.mem_cons_self
  exact ⟨source, (List.mem_filter.mp hmem).1⟩

/-! ## The milestones of a run -/

/-- Tallies that a run shows with its results: each has counted the results so far. -/
theorem Account.tally_of_case {sources : List Path} {cases : List (Finding × Tally)}
    (h : p.Account s s' sources cases) {i : Nat} {case : Finding × Tally}
    (hcase : cases[i]? = some case) :
    s.tally.Counted ((cases.take (i + 1)).map Prod.fst) case.2
      ∧ case.2.finished = s.tally.finished + (i + 1) := by
  have hcounted := h.counted i case hcase
  obtain ⟨hlength, -⟩ := List.getElem?_eq_some_iff.mp hcase
  refine ⟨hcounted, ?_⟩
  rw [hcounted.finished_eq, List.length_map, List.length_take, Nat.min_eq_left hlength]
  rfl

/-- The same where one more result has been counted after the run. -/
theorem Account.tally_of_case_append {sources : List Path} {cases : List (Finding × Tally)}
    {r : Finding} {t' : Tally} (h : p.Account s s' sources cases) (hr : s'.tally.Counted [r] t')
    {i : Nat} {case : Finding × Tally} (hcase : (cases ++ [(r, t')])[i]? = some case) :
    s.tally.Counted (((cases ++ [(r, t')]).take (i + 1)).map Prod.fst) case.2
      ∧ case.2.finished = s.tally.finished + (i + 1) := by
  obtain hi | hi := Nat.lt_or_ge i cases.length
  · rw [List.getElem?_append_left hi] at hcase
    rw [List.take_append_of_le_length hi]
    exact h.tally_of_case hcase
  · have hlast : i - cases.length = 0 ∧ (r, t') = case := by
      simpa [List.getElem?_append_right hi, List.getElem?_singleton] using hcase
    obtain ⟨hzero, rfl⟩ := hlast
    obtain rfl : i = cases.length := by omega
    have hall : (cases ++ [(r, t')]).take (cases.length + 1) = cases ++ [(r, t')] :=
      List.take_of_length_le (by simp)
    have hcounted : s.tally.Counted ((cases ++ [(r, t')]).map Prod.fst) t' := by
      rw [List.map_append]
      exact h.counted_all.trans hr
    have hfinished := hcounted.finished_eq
    rw [List.length_map, List.length_append] at hfinished
    rw [hall]
    exact ⟨hcounted, hfinished⟩

/-- A run goes through the sources in the order given, and **the journal alternates**: each
    case is started and has its result before the next is started, and only the last may
    be left without one, where a fault ends the run.  Whichever way the run ends, the tally
    that is shown with a result has counted the results so far and no others. -/
theorem journal_alternates (p : Plan) (sources : List Path) (w : World) (t : Tally) :
    ∃ (cases : List (Finding × Tally)) (pending : Option Path),
      (endState (p.run sources (Session.start w t))).milestones
          = Event.ofCases cases ++ pending.toList.map Event.started
        ∧ cases.map (·.1.subject.source) ++ pending.toList <+: sources
        ∧ (∀ i case, cases[i]? = some case →
          t.Counted ((cases.take (i + 1)).map Prod.fst) case.2
            ∧ case.2.finished = t.finished + (i + 1))
        ∧ ∀ s', p.run sources (Session.start w t) = .ok () s' →
          pending = none ∧ t.Counted (cases.map Prod.fst) s'.tally
            ∧ s'.tally.finished = t.finished + cases.length
            ∧ (cases.map (·.1.subject.source) = sources
              ∨ p.stopOnFailure = true ∧ ∃ case, cases.getLast? = some case
                ∧ case.1.failed = true) := by
  cases hrun : p.run sources (Session.start w t) with
  | ok u s' =>
      obtain ⟨cases, haccount⟩ := exists_account hrun
      refine ⟨cases, none, ?_, ?_, fun i case hcase => haccount.tally_of_case hcase, ?_⟩
      · rw [Option.toList_none, List.map_nil, List.append_nil]
        exact haccount.milestones_eq
      · rw [Option.toList_none, List.append_nil]
        exact haccount.inOrder
      · rintro _ ⟨⟩
        have hfinished := haccount.counted_all.finished_eq
        rw [List.length_map] at hfinished
        exact ⟨rfl, haccount.counted_all, hfinished, haccount.complete⟩
  | error e s' =>
      obtain ⟨k, source, s₁, cases, hsource, -, haccount, hlength, hstep⟩ := runFrom_eq_error hrun
      have hsources : cases.map (·.1.subject.source) = sources.take k := by
        refine haccount.inOrder.eq_of_length ?_
        rw [List.length_map, hlength, List.length_take, Nat.min_eq_left]
        exact Nat.le_of_lt (List.getElem?_eq_some_iff.mp hsource).1
      have hprefix : sources.take k ++ [source] <+: sources := by
        have hnext : sources.take (k + 1) = sources.take k ++ [source] := by
          rw [List.take_add_one, hsource]
          rfl
        rw [← hnext]
        exact List.take_prefix _ _
      have hstart : s₁.milestones = Event.ofCases cases := haccount.milestones_eq
      obtain ⟨growth, -, hmilestones, -⟩ | ⟨r, w', -, hr, hmilestones, hcounted⟩ :=
        step_eq_error hstep
      · refine ⟨cases, some source, ?_, ?_, fun i case hcase => haccount.tally_of_case hcase,
          fun _ hok => nomatch hok⟩
        · show s'.milestones = _
          rw [hmilestones, hstart]
          rfl
        · rw [hsources]
          exact hprefix
      -- the result is there already, and what happens after it failed
      · refine ⟨cases ++ [(r, s'.tally)], none, ?_, ?_, ?_, fun _ hok => nomatch hok⟩
        · show s'.milestones = _
          rw [hmilestones, hstart, Option.toList_none, List.map_nil, List.append_nil]
          exact List.flatMap_append.symm
        · rw [List.map_append, hsources, List.map_singleton, hr, Option.toList_none,
            List.append_nil]
          exact hprefix
        · intro i case hcase
          exact haccount.tally_of_case_append hcounted hcase

/-- **A case that is broken off is not counted.**  Where a run ends in a fault, it was at
    some source, after one result for each source before.  The journal ends with the start
    of that source, and the tally is the one after the last result, apart from the number
    of sources.  This has grown only if the fault came with the verification, and then by
    what the splitter found.  Where what happens after a result fails, that result is the
    last entry of the journal, and it is counted. -/
theorem aborted_case_is_not_counted {sources : List Path} {w : World} {t : Tally} {s' : Session}
    (h : p.run sources (Session.start w t) = .error e s') :
    ∃ (k : Nat) (source : Path) (s₁ : Session) (cases : List (Finding × Tally)),
      sources[k]? = some source
        ∧ p.run (sources.take k) (Session.start w t) = .ok () s₁
        ∧ cases.length = k
        ∧ s₁.milestones = Event.ofCases cases
        ∧ s₁.tally = (cases.getLast?.map Prod.snd).getD t
        ∧ ((∃ growth, p.BreaksOff k source e s₁.world growth
            ∧ s'.milestones = Event.ofCases cases ++ [.started source]
            ∧ s'.tally = s₁.tally.addSources growth)
          ∨ ∃ r w₁, p.onResult r w₁ = .error e s'.world
            ∧ r.subject.source = source
            ∧ s'.milestones = Event.ofCases (cases ++ [(r, s'.tally)])
            ∧ s₁.tally.Counted [r] s'.tally) := by
  obtain ⟨k, source, s₁, cases, hsource, hrun, haccount, hlength, hstep⟩ := runFrom_eq_error h
  have hmilestones : s₁.milestones = Event.ofCases cases := haccount.milestones_eq
  rw [Nat.zero_add] at hstep
  refine ⟨k, source, s₁, cases, hsource, hrun, hlength, hmilestones, haccount.tally_eq, ?_⟩
  -- the case broke off, or it was counted and the hook that is told of its result failed
  obtain ⟨growth, hbreaks, hend, htally⟩ | ⟨r, w₁, hresult, hr, hend, htally⟩ :=
    step_eq_error hstep
  · rw [hmilestones] at hend
    exact Or.inl ⟨growth, hbreaks, hend, htally⟩
  · rw [hmilestones] at hend
    exact Or.inr ⟨r, w₁, hresult, hr, hend.trans List.flatMap_append.symm, htally⟩

/-- The world of a run whose first source does not compile, and whose second is split into
    two and then meets a compiler that cannot be started. -/
def Trial.interrupted : World :=
  { Harness.Trial.world with
    script :=
      [{ Process.idle with exitCode := 1 }, { Process.idle with exitCode := 1 },
        { Process.idle with stdout := Text.encode "b1 b2" }, .idle,
        { Process.idle with startError := some "gone" }] }

/-- A run that breaks off at its second source, which has made it three sources. -/
theorem interrupted_case_is_not_counted :
    ∃ (e : Fault) (s s' : Session) (k : Nat) (source : Path) (growth : Int),
      (Harness.plan Harness.Trial.configuration Harness.Trial.options).run
          [⟨.root, ["t", "a.sol"]⟩, ⟨.root, ["t", "b.sol"]⟩]
          (Session.start Trial.interrupted (.start 2 true)) = .error e s'
        ∧ (Harness.plan Harness.Trial.configuration Harness.Trial.options).BreaksOff k source e
          s.world growth
        ∧ s'.tally = s.tally.addSources growth
        ∧ (s'.tally.sources, s'.tally.finished, s'.tally.results.length) = (3, 1, 1) := by
  have hend : (match (Harness.plan Harness.Trial.configuration Harness.Trial.options).run
      [⟨.root, ["t", "a.sol"]⟩, ⟨.root, ["t", "b.sol"]⟩]
      (Session.start Trial.interrupted (.start 2 true)) with
      | .ok _ _ => none
      | .error _ s' => some (s'.milestones.getLast?,
          s'.tally.sources, s'.tally.finished, s'.tally.results.length))
      = some (some (.started ⟨.root, ["t", "b.sol"]⟩), 3, 1, 1) := by decide +kernel
  cases hrun : (Harness.plan Harness.Trial.configuration Harness.Trial.options).run
      [⟨.root, ["t", "a.sol"]⟩, ⟨.root, ["t", "b.sol"]⟩]
      (Session.start Trial.interrupted (.start 2 true)) with
  | ok u s' =>
      rw [hrun] at hend
      cases hend
  | error e s' =>
      rw [hrun] at hend
      obtain ⟨hlast, hcounts⟩ := Prod.mk.inj (Option.some.inj hend)
      obtain ⟨k, source, s, cases, -, -, -, -, -, hcase⟩ := aborted_case_is_not_counted hrun
      obtain ⟨growth, hbreaks, -, htally⟩ | ⟨r, w₁, -, -, hresult, -⟩ := hcase
      · exact ⟨e, s, s', k, source, growth, rfl, hbreaks, htally, hcounts⟩
      · rw [hresult] at hlast
        simp [Event.ofCases, List.flatMap_append] at hlast

end Plan

end RoundTrip
