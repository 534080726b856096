import RoundTrip.Proofs.Counting
import RoundTrip.Proofs.Opening

/-! # What a run makes of its sources

    Of the ways for a step to end, one comes to a result: the case is started and finished in
    the journal, and counts its result and no other (`Plan.step_eq_ok`).  By induction on the
    sources, a run has an *account*: the cases it has gone through, about the first of its
    sources and in order, each with the tally after it (`Plan.exists_account`).  So its
    results are exactly what has been counted: **`Plan.runFrom_eq_ok`**. -/

namespace RoundTrip

open Step (Delivers)

/-! ## What a verification delivers -/

/-- A result is about a case, with one of the verdicts that have a label of their
    own. -/
structure Finding.IsAbout (c : Case) (r : Finding) : Prop where
  subject_eq : r.subject = c
  known : r.verdict ∈ Verdict.known

namespace Verification

variable (c : Case) (compiler : Compiler) (t : Comparator) (dir : Path)

theorem isAbout_timedOut (step : String) (i : Invocation) :
    Finding.IsAbout c (c.timedOut step i) := ⟨rfl, by simp [Case.timedOut, Verdict.known]⟩

/-- What the reimport and the comparison find is about their case, with a known verdict. -/
theorem delivers_reimportAndCompare :
    Delivers (Finding.IsAbout c) (reimportAndCompare c compiler t dir) := by
  refine Step.delivers_bind fun i => ?_
  split
  · exact Step.delivers_pure (isAbout_timedOut c _ i)
  refine Step.delivers_bind fun _ => Step.delivers_bind fun _ => ?_
  split
  · exact Step.delivers_pure ⟨rfl, by simp [Verdict.known]⟩
  refine Step.delivers_bind fun d => ?_
  split
  · exact Step.delivers_pure ⟨rfl, by simp [Verdict.known]⟩
  · exact Step.delivers_pure ⟨rfl, by simp [Verdict.known]⟩

/-- So is what the round trip finds. -/
theorem delivers_roundTrip : Delivers (Finding.IsAbout c) (roundTrip c compiler t dir) := by
  refine Step.delivers_bind fun i => ?_
  split
  · exact Step.delivers_pure (isAbout_timedOut c _ i)
  refine Step.delivers_bind fun _ => ?_
  split
  · exact Step.delivers_pure ⟨rfl, by simp [Verdict.known]⟩
  · exact delivers_reimportAndCompare c compiler t dir

/-- So is what a verification finds. -/
theorem delivers_verify : Delivers (Finding.IsAbout c) (verify c compiler t dir) := by
  refine Step.delivers_bind fun i => ?_
  split
  · exact Step.delivers_pure (isAbout_timedOut c _ i)
  split
  · exact Step.delivers_pure ⟨rfl, by simp [Verdict.known]⟩
  exact Step.delivers_bind fun _ =>
    Step.delivers_ensuring (delivers_roundTrip c compiler t dir)

end Verification

namespace Session

/-! ## Steps of a session -/

variable {α : Type} {s s' : Session} {a : α}

/-- An action that came to a good end in a session did so in its world. -/
theorem inWorld_eq_ok {x : Action World α} (h : inWorld x s = .ok a s') :
    ∃ w, x s.world = .ok a w ∧ s' = { s with world := w } := by
  unfold inWorld Step.within at h
  cases hx : x s.world with
  | ok b w =>
      rw [hx] at h
      cases h
      exact ⟨w, rfl, rfl⟩
  | error e w =>
      rw [hx] at h
      cases h

/-- One that ended in a fault did so in its world. -/
theorem inWorld_eq_error {x : Action World α} {e : Fault} (h : inWorld x s = .error e s') :
    ∃ w, x s.world = .error e w ∧ s' = { s with world := w } := by
  unfold inWorld Step.within at h
  cases hx : x s.world with
  | ok a w =>
      rw [hx] at h
      cases h
  | error e' w =>
      rw [hx] at h
      cases h
      exact ⟨w, rfl, rfl⟩

/-- The results that a session has come to, in order. -/
def findings (s : Session) : List Finding :=
  s.journal.filterMap fun
    | .finished r _ => some r
    | _ => none

end Session

/-! ## The journal of a run -/

namespace Event

/-- Whether an entry tells of the start or of the end of a case. -/
def isMilestone : Event → Bool
  | .started _ | .finished _ _ => true
  | .workspace _ => false

/-- The milestones of cases, each with its result and the tally after it. -/
def ofCases (cases : List (Finding × Tally)) : List Event :=
  cases.flatMap fun c => [.started c.1.subject.source, .finished c.1 c.2]

@[simp] theorem ofCases_nil : ofCases [] = [] := rfl

@[simp] theorem ofCases_cons (c : Finding × Tally) (cases : List (Finding × Tally)) :
    ofCases (c :: cases) = .started c.1.subject.source :: .finished c.1 c.2 :: ofCases cases := rfl

end Event

namespace Session

/-- What happens before and after the cases of a session, in order. -/
def milestones (s : Session) : List Event := s.journal.filter Event.isMilestone

/-- The results are read off the milestones. -/
theorem findings_eq (s : Session) : s.findings = s.milestones.filterMap fun
    | .finished r _ => some r
    | _ => none := by
  unfold findings milestones
  induction s.journal with
  | nil => rfl
  | cons e rest ih => cases e <;> simp [List.filter_cons, Event.isMilestone, ih]

/-- The results of a session are those of its milestones, one for each case. -/
theorem findings_of_milestones {s s' : Session} {cases : List (Finding × Tally)}
    (h : s'.milestones = s.milestones ++ Event.ofCases cases) :
    s'.findings = s.findings ++ cases.map Prod.fst := by
  rw [findings_eq s', h, List.filterMap_append, ← findings_eq s]
  congr 1
  clear h
  induction cases with
  | nil => rfl
  | cons c rest ih => simpa using ih

/-- The start of a case is no result. -/
theorem findings_of_started {s s' : Session} {source : Path}
    (h : s'.milestones = s.milestones ++ [.started source]) : s'.findings = s.findings := by
  rw [findings_eq s', h, List.filterMap_append, ← findings_eq s]
  exact List.append_nil _

end Session

namespace Plan

variable {p : Plan} {number : Nat} {source dir : Path} {s s₁ s' : Session} {r : Finding}

/-- A case that comes to a good end has noted its workspace and counted one result, which is
    about its source. -/
theorem tryCase_eq_ok (h : p.tryCase number source s = .ok r s') :
    (∃ dir, s'.journal = s.journal ++ [.workspace dir]) ∧ s.tally.Counted [r] s'.tally
      ∧ r.subject.source = source ∧ r.verdict ∈ Verdict.known := by
  have hend := p.caseEnd number source s
  rw [h] at hend
  cases hend with
  | @verified dir _ _ _ _ splitting _ _ stderr henter hopening hverify hleave =>
      have habout := Verification.delivers_verify _ _ _ _ _ _ _ hverify
      have hopened : s.tally.Counted [] (s.tally.addSources splitting.growth) := .addSources _ _
      exact ⟨⟨dir, rfl⟩, hopened.trans (.add _ _), by rw [habout.subject_eq], habout.known⟩

/-- A case with a result is started and finished, and there is no milestone in between. -/
theorem milestones_of_tryCase {w : World}
    (hcase : p.tryCase number source ⟨w, s.tally, s.journal ++ [.started source]⟩ = .ok r s₁)
    (w' : World) : Session.milestones ⟨w', s₁.tally, s₁.journal ++ [.finished r s₁.tally]⟩
      = s.milestones ++ Event.ofCases [(r, s₁.tally)] := by
  obtain ⟨⟨dir, hjournal⟩, -, hsource, -⟩ := tryCase_eq_ok hcase
  unfold Session.milestones
  dsimp only
  rw [hjournal, List.filter_append, List.filter_append, List.filter_append, Event.ofCases_cons,
    hsource]
  simp [Event.isMilestone, List.filter_cons]

/-- A case that comes to an end is started and finished, with one result, which is about
    its source and is counted. -/
theorem step_eq_ok (h : p.step number source s = .ok r s') :
    s'.milestones = s.milestones ++ Event.ofCases [(r, s'.tally)]
      ∧ s.tally.Counted [r] s'.tally ∧ r.subject.source = source
      ∧ r.verdict ∈ Verdict.known := by
  have hend := p.stepEnd number source s
  rw [h] at hend
  cases hend with
  | finished hstart hcase hresult =>
      obtain ⟨-, htally, hsource, hverdict⟩ := tryCase_eq_ok hcase
      exact ⟨milestones_of_tryCase hcase _, htally, hsource, hverdict⟩

/-- A case with its hooks adds its result to the journal. -/
theorem findings_step (h : p.step number source s = .ok r s') :
    s'.findings = s.findings ++ [r] :=
  Session.findings_of_milestones (step_eq_ok h).1

/-- What a run over sources has come to: the cases that it has gone through, each with its
    result and the tally after it. -/
structure Account (p : Plan) (s s' : Session) (sources : List Path)
    (cases : List (Finding × Tally)) : Prop where
  milestones_eq : s'.milestones = s.milestones ++ Event.ofCases cases
  counted : ∀ i case, cases[i]? = some case →
    s.tally.Counted ((cases.take (i + 1)).map Prod.fst) case.2
  counted_all : s.tally.Counted (cases.map Prod.fst) s'.tally
  tally_eq : s'.tally = (cases.getLast?.map Prod.snd).getD s.tally
  known : ∀ case ∈ cases, case.1.verdict ∈ Verdict.known
  inOrder : cases.map (·.1.subject.source) <+: sources
  /-- Only a plan that stops at a failure leaves sources out. -/
  complete : cases.map (·.1.subject.source) = sources
    ∨ p.stopOnFailure = true ∧ ∃ case, cases.getLast? = some case ∧ case.1.failed = true

namespace Account

variable {rest : List Path} {cases : List (Finding × Tally)}

/-- Where nothing is left to do there is nothing to account for. -/
theorem nil (p : Plan) (s : Session) : p.Account s s [] [] where
  milestones_eq := by simp
  counted := by simp
  counted_all := .refl _
  tally_eq := rfl
  known := by simp
  inOrder := List.prefix_refl _
  complete := Or.inl rfl

/-- A run that its first case stops. -/
theorem single (h : p.step number source s = .ok r s₁)
    (hstop : p.stopOnFailure = true ∧ r.failed = true) (w : World) :
    p.Account s { s₁ with world := w } (source :: rest) [(r, s₁.tally)] := by
  obtain ⟨hmilestones, htally, hsource, hverdict⟩ := step_eq_ok h
  refine ⟨hmilestones, ?_, htally, rfl, by simpa using hverdict, ?_,
    Or.inr ⟨hstop.1, _, rfl, hstop.2⟩⟩
  · intro i case hcase
    obtain ⟨rfl, rfl⟩ : i = 0 ∧ (r, s₁.tally) = case := by
      simpa [List.getElem?_singleton] using hcase
    exact htally
  · rw [List.map_singleton, hsource]
    exact List.cons_prefix_cons.mpr ⟨rfl, List.nil_prefix⟩

/-- A case, and the account of the run after it. -/
theorem cons (h : p.step number source s = .ok r s₁) (hrest : p.Account s₁ s' rest cases) :
    p.Account s s' (source :: rest) ((r, s₁.tally) :: cases) := by
  obtain ⟨hmilestones, htally, hsource, hverdict⟩ := step_eq_ok h
  refine ⟨?_, ?_, htally.trans hrest.counted_all, ?_,
    List.forall_mem_cons.mpr ⟨hverdict, hrest.known⟩, ?_, ?_⟩
  · rw [hrest.milestones_eq, hmilestones, List.append_assoc]
    rfl
  · intro i case hcase
    cases i with
    | zero =>
        cases hcase
        exact htally
    | succ i => exact htally.trans (hrest.counted i case hcase)
  · rw [hrest.tally_eq, List.getLast?_cons]
    cases cases.getLast? <;> rfl
  · rw [List.map_cons, hsource]
    exact List.cons_prefix_cons.mpr ⟨rfl, hrest.inOrder⟩
  -- if the rest was cut short by a failure, that one is still the last
  · obtain hall | ⟨hs, last, hlast, hfailed⟩ := hrest.complete
    · exact Or.inl (by rw [List.map_cons, hsource, hall])
    · refine Or.inr ⟨hs, last, ?_, hfailed⟩
      rw [List.getLast?_cons, hlast]
      rfl

end Account

/-- **The account of a run** that comes to its end. -/
theorem exists_account {sources : List Path} (h : p.runFrom number sources s = .ok () s') :
    ∃ cases, p.Account s s' sources cases := by
  induction sources generalizing number s with
  | nil =>
      cases h
      exact ⟨[], .nil p _⟩
  | cons source rest ih =>
      -- a run that came to a good end was stopped by its first case or went on after it
      have hend := p.runEnd number source rest s
      generalize p.runFrom number (source :: rest) s = x at hend h
      cases hend with
      | fault => cases h
      | stopped stderr hstep hstop =>
          cases h
          exact ⟨_, .single hstep (Bool.and_eq_true_iff.mp hstop) _⟩
      | goesOn hstep =>
          obtain ⟨cases, hcases⟩ := ih h
          exact ⟨_, hcases.cons hstep⟩

/-- **The results of a run are about its first sources, in order, and are what has
    been counted.**  Only a plan that stops at a failure leaves sources out, and
    then the last result is a failure. -/
theorem runFrom_eq_ok {sources : List Path} (h : p.runFrom number sources s = .ok () s') :
    ∃ rs, s'.findings = s.findings ++ rs ∧ s.tally.Counted rs s'.tally
      ∧ (∀ r ∈ rs, r.verdict ∈ Verdict.known)
      ∧ rs.map (·.subject.source) <+: sources
      ∧ (rs.map (·.subject.source) = sources
        ∨ p.stopOnFailure = true ∧ ∃ r, rs.getLast? = some r ∧ r.failed = true) := by
  obtain ⟨cases, haccount⟩ := exists_account h
  have hsources : (cases.map Prod.fst).map (·.subject.source)
      = cases.map (·.1.subject.source) := List.map_map
  refine ⟨cases.map Prod.fst, Session.findings_of_milestones haccount.milestones_eq,
    haccount.counted_all, ?_, ?_, ?_⟩
  · intro r hr
    obtain ⟨case, hcase, rfl⟩ := List.mem_map.mp hr
    exact haccount.known case hcase
  · rw [hsources]
    exact haccount.inOrder
  · rw [hsources, List.getLast?_map]
    obtain hall | ⟨hs, last, hlast, hfailed⟩ := haccount.complete
    · exact Or.inl hall
    · exact Or.inr ⟨hs, last.1, by rw [hlast]; rfl, hfailed⟩

end Plan

end RoundTrip
