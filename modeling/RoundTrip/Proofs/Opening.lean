import RoundTrip.Proofs.Walk

/-! # The opening of a case, and how it ends

    A case is opened in its workspace: the splitter is run there, and what comes of it is made
    into input files.  Only then is the number of sources counted, and the verification begun
    (`Plan.examine_of_opening`).  An opening that ends in a fault is all that is done for the
    source, and it has changed the world only (`Plan.examine_of_opening_error`).

    So there are four ways for a case to end, and each is told by what was done in the world:
    **`Plan.caseEnd`**.  With what happens before and after the case, these are the ways for a
    step of a run to end: `Plan.stepEnd`.  A run ends with a step, or it goes on after it:
    `Plan.runEnd`. -/

namespace RoundTrip

open Step (endState outcome)

/-- The files to compile for a source. -/
def Splitting.files (source : Path) : Splitting → List Path
  | .into files => files
  | .single file => [file]
  | .undecodable _ => [source]
  | .broken _ _ | .unknown => []

/-- Whether there is anything to compile, and the outcome is no fault. -/
def Splitting.isFatal : Splitting → Bool
  | .broken _ _ | .unknown => true
  | _ => false

/-- Either there are input files, or the outcome is a fault, whatever the world. -/
theorem Splitting.inputs_cases (splitting : Splitting) (source : Path) (splitter : Option Path) :
    (splitting.isFatal = false ∧ ∀ u, ∃ stderr, splitting.inputs source splitter u
        = .ok (splitting.files source) { u with stderr := stderr })
      ∨ splitting.isFatal = true ∧ ∃ e, ∀ u, splitting.inputs source splitter u = .error e u := by
  cases splitting with
  | into files => exact Or.inl ⟨rfl, fun u => ⟨u.stderr, rfl⟩⟩
  | single file => exact Or.inl ⟨rfl, fun u => ⟨u.stderr, rfl⟩⟩
  | undecodable message =>
      refine Or.inl ⟨rfl, fun u => ?_⟩
      have hprint : World.printErrorLine ("\n\n" ++ Text.trimEnd message ++ "\n\n") u = .ok ()
          { u with stderr := u.stderr ++ ("\n\n" ++ Text.trimEnd message ++ "\n\n" ++ "\n") } := rfl
      obtain ⟨stderr, hlog⟩ := World.log_apply .splitting
        ("splitter decode error for " ++ source.text ++ "; falling back to original file")
        { u with stderr := u.stderr ++ ("\n\n" ++ Text.trimEnd message ++ "\n\n" ++ "\n") }
      refine ⟨stderr, ?_⟩
      show (World.printErrorLine _ >>= fun _ => World.log _ _ >>= fun _ => pure [source]) u = _
      rw [Step.bind_ok hprint, Step.bind_ok hlog]
      rfl
  | broken exitCode message => exact Or.inr ⟨rfl, _, fun u => rfl⟩
  | unknown => exact Or.inr ⟨rfl, _, fun u => rfl⟩

/-- A session with one more entry in its journal. -/
def Session.noted (s : Session) (e : Event) : Session := { s with journal := s.journal ++ [e] }

/-- Whichever outcome it is, only the error stream shows it. -/
theorem Splitting.endState_inputs (splitting : Splitting) (source : Path) (splitter : Option Path)
    (w : World) :
    ∃ stderr, endState (splitting.inputs source splitter w) = { w with stderr := stderr } := by
  obtain ⟨-, hinputs⟩ | ⟨-, e, hinputs⟩ := splitting.inputs_cases source splitter
  · obtain ⟨stderr, hinputs⟩ := hinputs w
    exact ⟨stderr, congrArg endState hinputs⟩
  · exact ⟨w.stderr, congrArg endState (hinputs w)⟩

namespace Plan

variable {p : Plan} {number : Nat} {source dir : Path} {s : Session} {w w' : World}
  {splitting : Splitting} {inputs : List Path} {e : Fault}

/-- What is done for a source before its verification: it is split, and the input files are
    taken from what comes of that. -/
def opening (p : Plan) (number : Nat) (source dir : Path) :
    Action World (Splitting × List Path) := do
  let splitting ← p.split number source dir
  let inputs ← splitting.inputs source p.splitter
  pure (splitting, inputs)

theorem opening_eq_ok (h : p.opening number source dir w = .ok (splitting, inputs) w') :
    ∃ v, p.split number source dir w = .ok splitting v
      ∧ splitting.inputs source p.splitter v = .ok inputs w' := by
  unfold opening at h
  obtain ⟨splitting', v, hsplit, h⟩ := Step.bind_eq_ok_iff.mp h
  obtain ⟨inputs', v', hinputs, h⟩ := Step.bind_eq_ok_iff.mp h
  cases h
  exact ⟨v, hsplit, hinputs⟩

theorem opening_eq_error (h : p.opening number source dir w = .error e w') :
    p.split number source dir w = .error e w'
      ∨ ∃ splitting v, p.split number source dir w = .ok splitting v
        ∧ splitting.inputs source p.splitter v = .error e w' := by
  unfold opening at h
  obtain hsplit | ⟨splitting, v, hsplit, h⟩ := Step.bind_eq_error_iff.mp h
  · exact Or.inl hsplit
  obtain hinputs | ⟨inputs, v', -, h⟩ := Step.bind_eq_error_iff.mp h
  · exact Or.inr ⟨splitting, v, hsplit, hinputs⟩
  · cases h

/-- After its opening a case is verified, with the input files counted as sources. -/
theorem examine_of_opening
    (h : p.opening number source dir s.world = .ok (splitting, inputs) w) :
    p.examine number source dir s
      = Session.inWorld (Verification.verify ⟨source, inputs⟩ p.compiler p.comparator dir)
        ⟨w, s.tally.addSources splitting.growth, s.journal ++ [.workspace dir]⟩ := by
  obtain ⟨v, hsplit, hinputs⟩ := opening_eq_ok h
  have hnote : Session.note (.workspace dir) s = .ok () (s.noted (.workspace dir)) := rfl
  have hsplit' : Session.inWorld (p.split number source dir) (s.noted (.workspace dir))
      = .ok splitting { s.noted (.workspace dir) with world := v } := Session.inWorld_of_ok hsplit
  have hinputs' : Session.inWorld (splitting.inputs source p.splitter)
      { s.noted (.workspace dir) with world := v }
      = .ok inputs { s.noted (.workspace dir) with world := w } := Session.inWorld_of_ok hinputs
  unfold examine
  rw [Step.bind_ok hnote, Step.bind_ok hsplit', Step.bind_ok hinputs']
  rfl

/-- An opening that ends in a fault is the end of the work on the source. -/
theorem examine_of_opening_error (h : p.opening number source dir s.world = .error e w) :
    p.examine number source dir s = .error e ⟨w, s.tally, s.journal ++ [.workspace dir]⟩ := by
  have hnote : Session.note (.workspace dir) s = .ok () (s.noted (.workspace dir)) := rfl
  unfold examine
  rw [Step.bind_ok hnote]
  obtain hsplit | ⟨splitting, v, hsplit, hinputs⟩ := opening_eq_error h
  · exact Step.bind_error (Session.inWorld_of_error (s := s.noted (.workspace dir)) hsplit)
  · have hsplit' : Session.inWorld (p.split number source dir) (s.noted (.workspace dir))
        = .ok splitting { s.noted (.workspace dir) with world := v } :=
      Session.inWorld_of_ok hsplit
    rw [Step.bind_ok hsplit']
    exact Step.bind_error (Session.inWorld_of_error
      (s := { s.noted (.workspace dir) with world := v }) hinputs)

/-! ## How a case ends -/

/-- How a case ends that is begun in a session. -/
inductive CaseEnd (p : Plan) (number : Nat) (source : Path) (s : Session) :
    EStateM.Result Fault Session Finding → Prop where
  /-- No workspace could be made; only names for one have been tried. -/
  | noWorkspace {e : Fault} {count : Nat}
      (henter : Workspace.enter Workspace.defaultStem s.world
        = .error e { s.world with workspaceCount := count }) :
      CaseEnd p number source s
        (.error e { s with world := { s.world with workspaceCount := count } })
  | unopened {dir : Path} {w₁ w₂ w₃ : World} {e : Fault}
      (henter : Workspace.enter Workspace.defaultStem s.world = .ok dir w₁)
      (hopening : p.opening number source dir w₁ = .error e w₂)
      (hleave : Workspace.leave dir w₂ = .ok () w₃) :
      CaseEnd p number source s (.error e ⟨w₃, s.tally, s.journal ++ [.workspace dir]⟩)
  | unverified {dir : Path} {w₁ w₂ w₃ w₄ : World} {splitting : Splitting} {inputs : List Path}
      {e : Fault} (henter : Workspace.enter Workspace.defaultStem s.world = .ok dir w₁)
      (hopening : p.opening number source dir w₁ = .ok (splitting, inputs) w₂)
      (hverify : Verification.verify ⟨source, inputs⟩ p.compiler p.comparator dir w₂
        = .error e w₃)
      (hleave : Workspace.leave dir w₃ = .ok () w₄) :
      CaseEnd p number source s
        (.error e ⟨w₄, s.tally.addSources splitting.growth, s.journal ++ [.workspace dir]⟩)
  | verified {dir : Path} {w₁ w₂ w₃ w₄ : World} {splitting : Splitting} {inputs : List Path}
      {r : Finding} (stderr : String)
      (henter : Workspace.enter Workspace.defaultStem s.world = .ok dir w₁)
      (hopening : p.opening number source dir w₁ = .ok (splitting, inputs) w₂)
      (hverify : Verification.verify ⟨source, inputs⟩ p.compiler p.comparator dir w₂ = .ok r w₃)
      (hleave : Workspace.leave dir w₃ = .ok () w₄) :
      CaseEnd p number source s
        (.ok r ⟨{ w₄ with stderr := stderr }, (s.tally.addSources splitting.growth).add r,
          s.journal ++ [.workspace dir]⟩)

/-- What is done within a workspace that can be left is done, and then it is left. -/
theorem tryCase_of_enter (p : Plan) (number : Nat) (source : Path) {w₁ : World}
    (henter : Workspace.enter Workspace.defaultStem s.world = .ok dir w₁) :
    match p.examine number source dir { s with world := w₁ } with
    | .error e u => ∃ v, Workspace.leave dir u.world = .ok () v
        ∧ p.tryCase number source s = .error e { u with world := v }
    | .ok r u => ∃ v stderr, Workspace.leave dir u.world = .ok () v
        ∧ p.tryCase number source s
          = .ok r { u with world := { v with stderr := stderr }, tally := u.tally.add r } := by
  have hnul := holdsNul_of_enter henter
  unfold tryCase
  rw [Step.bind_ok (Session.inWorld_of_ok henter)]
  cases hexamine : p.examine number source dir { s with world := w₁ } with
  | error e u =>
      -- the workspace is left with success at either end, so the end of the examination is the
      -- end of the case
      obtain ⟨v, hleave⟩ := leave_eq_ok hnul u.world
      refine ⟨v, hleave, Step.bind_error ?_⟩
      unfold Step.ensuring
      rw [hexamine]
      simp only [Session.inWorld_of_ok hleave]
  | ok r u =>
      obtain ⟨v, hleave⟩ := leave_eq_ok hnul u.world
      obtain ⟨stderr, hlog⟩ := World.log_apply .run
        ("case " ++ source.text ++ " -> " ++ r.verdict.label) v
      refine ⟨v, stderr, hleave, ?_⟩
      have hcount : Session.count (·.add r) { u with world := v }
          = .ok ⟨⟩ { u with world := v, tally := u.tally.add r } := rfl
      rw [Step.bind_ok (Step.ensuring_of_ok hexamine (Session.inWorld_of_ok hleave)),
        Step.bind_ok hcount, Step.bind_ok (Session.inWorld_of_ok hlog)]
      rfl

/-- What comes of a case that was opened is what comes of its verification. -/
theorem outcome_tryCase_of_opening {w₁ w₂ : World}
    (henter : Workspace.enter Workspace.defaultStem s.world = .ok dir w₁)
    (hopening : p.opening number source dir w₁ = .ok (splitting, inputs) w₂) :
    outcome (p.tryCase number source s)
      = outcome (Verification.verify ⟨source, inputs⟩ p.compiler p.comparator dir w₂) := by
  have hcase := tryCase_of_enter p number source henter
  rw [examine_of_opening (s := { s with world := w₁ }) hopening] at hcase
  cases hverify : Verification.verify ⟨source, inputs⟩ p.compiler p.comparator dir w₂ with
  | error e w₃ =>
      rw [Session.inWorld_of_error (by exact hverify)] at hcase
      obtain ⟨w₄, -, hcase⟩ := hcase
      rw [hcase]
      rfl
  | ok r w₃ =>
      rw [Session.inWorld_of_ok (by exact hverify)] at hcase
      obtain ⟨w₄, stderr, -, hcase⟩ := hcase
      rw [hcase]
      rfl

/-- **A case ends in one of these ways.** -/
theorem caseEnd (p : Plan) (number : Nat) (source : Path) (s : Session) :
    p.CaseEnd number source s (p.tryCase number source s) := by
  obtain ⟨e, count, henter⟩ | ⟨n, count, d, stderr, -, -, henter⟩ := enter_apply s.world
  · have hcase : p.tryCase number source s
        = .error e { s with world := { s.world with workspaceCount := count } } := by
      unfold tryCase
      exact Step.bind_error (Session.inWorld_of_error henter)
    rw [hcase]
    exact .noWorkspace henter
  -- from here on only the path of the workspace and the world after its making matter
  generalize Workspace.numbered s.world.tempDir n = dir at henter
  generalize ({ s.world with disk := d, workspaceCount := count, stderr := stderr } : World) = w₁
    at henter
  have hcase := tryCase_of_enter p number source henter
  cases hopening : p.opening number source dir w₁ with
  | error e w₂ =>
      rw [examine_of_opening_error (s := { s with world := w₁ }) hopening] at hcase
      obtain ⟨w₃, hleave, hcase⟩ := hcase
      rw [hcase]
      exact .unopened henter hopening hleave
  | ok opened w₂ =>
      obtain ⟨splitting, inputs⟩ := opened
      rw [examine_of_opening (s := { s with world := w₁ }) hopening] at hcase
      cases hverify : Verification.verify ⟨source, inputs⟩ p.compiler p.comparator dir w₂ with
      | error e w₃ =>
          rw [Session.inWorld_of_error (by exact hverify)] at hcase
          obtain ⟨w₄, hleave, hcase⟩ := hcase
          rw [hcase]
          exact .unverified henter hopening hverify hleave
      | ok r w₃ =>
          rw [Session.inWorld_of_ok (by exact hverify)] at hcase
          obtain ⟨w₄, stderr, hleave, hcase⟩ := hcase
          rw [hcase]
          exact .verified stderr henter hopening hverify hleave

/-! ## How a step ends -/

/-- How a step ends that is taken in a session. -/
inductive StepEnd (p : Plan) (number : Nat) (source : Path) (s : Session) :
    EStateM.Result Fault Session Finding → Prop where
  /-- What happens before the case failed. -/
  | unstarted {e : Fault} {w : World} (hstart : p.onStart source s.world = .error e w) :
      StepEnd p number source s (.error e ⟨w, s.tally, s.journal ++ [.started source]⟩)
  | brokenOff {e : Fault} {w : World} {s₁ : Session} (hstart : p.onStart source s.world = .ok () w)
      (hcase : p.tryCase number source ⟨w, s.tally, s.journal ++ [.started source]⟩
        = .error e s₁) :
      StepEnd p number source s (.error e s₁)
  /-- What happens after the case failed. -/
  | unannounced {e : Fault} {w w' : World} {r : Finding} {s₁ : Session}
      (hstart : p.onStart source s.world = .ok () w)
      (hcase : p.tryCase number source ⟨w, s.tally, s.journal ++ [.started source]⟩ = .ok r s₁)
      (hresult : p.onResult r s₁.world = .error e w') :
      StepEnd p number source s
        (.error e ⟨w', s₁.tally, s₁.journal ++ [.finished r s₁.tally]⟩)
  | finished {w w' : World} {r : Finding} {s₁ : Session}
      (hstart : p.onStart source s.world = .ok () w)
      (hcase : p.tryCase number source ⟨w, s.tally, s.journal ++ [.started source]⟩ = .ok r s₁)
      (hresult : p.onResult r s₁.world = .ok () w') :
      StepEnd p number source s (.ok r ⟨w', s₁.tally, s₁.journal ++ [.finished r s₁.tally]⟩)

theorem stepEnd (p : Plan) (number : Nat) (source : Path) (s : Session) :
    p.StepEnd number source s (p.step number source s) := by
  have hnote : Session.note (.started source) s = .ok () (s.noted (.started source)) := rfl
  unfold step
  rw [Step.bind_ok hnote]
  cases hstart : p.onStart source s.world with
  | error e w =>
      rw [Step.bind_error (Session.inWorld_of_error (s := s.noted (.started source)) hstart)]
      exact .unstarted hstart
  | ok u w =>
      rw [Step.bind_ok (Session.inWorld_of_ok (s := s.noted (.started source)) hstart)]
      cases hcase : p.tryCase number source ⟨w, s.tally, s.journal ++ [.started source]⟩ with
      | error e s₁ =>
          rw [Step.bind_error (by exact hcase)]
          exact .brokenOff hstart hcase
      | ok r s₁ =>
          have hfinished : Session.note (.finished r s₁.tally) s₁
              = .ok () (s₁.noted (.finished r s₁.tally)) := rfl
          rw [Step.bind_ok (by exact hcase), Step.bind_ok (Step.get_apply s₁),
            Step.bind_ok hfinished]
          -- the result is in the journal before the hook is told of it
          cases hresult : p.onResult r s₁.world with
          | error e w' =>
              rw [Step.bind_error (Session.inWorld_of_error
                (s := s₁.noted (.finished r s₁.tally)) hresult)]
              exact .unannounced hstart hcase hresult
          | ok u w' =>
              rw [Step.bind_ok (Session.inWorld_of_ok
                (s := s₁.noted (.finished r s₁.tally)) hresult)]
              exact .finished hstart hcase hresult

/-! ## How a run goes on -/

/-- How a run ends whose first source is known: with its case, or as the run over the other
    sources does. -/
inductive RunEnd (p : Plan) (number : Nat) (source : Path) (rest : List Path) (s : Session) :
    EStateM.Result Fault Session Unit → Prop where
  | fault {e : Fault} {s₁ : Session} (hstep : p.step number source s = .error e s₁) :
      RunEnd p number source rest s (.error e s₁)
  /-- After a failure there is a log line at most. -/
  | stopped {r : Finding} {s₁ : Session} (stderr : String)
      (hstep : p.step number source s = .ok r s₁) (hstop : (p.stopOnFailure && r.failed) = true) :
      RunEnd p number source rest s (.ok () { s₁ with world := { s₁.world with stderr := stderr } })
  | goesOn {r : Finding} {s₁ : Session} (hstep : p.step number source s = .ok r s₁)
      (hgo : (p.stopOnFailure && r.failed) ≠ true) :
      RunEnd p number source rest s (p.runFrom (number + 1) rest s₁)

theorem runFrom_of_step {r : Finding} {s₁ : Session} (hstep : p.step number source s = .ok r s₁)
    (hgo : (p.stopOnFailure && r.failed) ≠ true) (rest : List Path) :
    p.runFrom number (source :: rest) s = p.runFrom (number + 1) rest s₁ := by
  rw [runFrom, Step.bind_ok hstep, if_neg hgo]

theorem runEnd (p : Plan) (number : Nat) (source : Path) (rest : List Path) (s : Session) :
    p.RunEnd number source rest s (p.runFrom number (source :: rest) s) := by
  cases hstep : p.step number source s with
  | error e s₁ =>
      rw [runFrom, Step.bind_error hstep]
      exact .fault hstep
  | ok r s₁ =>
      by_cases hstop : (p.stopOnFailure && r.failed) = true
      · obtain ⟨stderr, hlog⟩ :=
          World.log_apply .run ("stopping after first failure: " ++ source.text) s₁.world
        rw [runFrom, Step.bind_ok hstep, if_pos hstop, Session.inWorld_of_ok hlog]
        exact .stopped stderr hstep hstop
      · rw [runFrom_of_step hstep hstop]
        exact .goesOn hstep hstop

end Plan

end RoundTrip
