import RoundTrip.Proofs.Opening
import RoundTrip.Proofs.Setup

/-! # What prints nothing

    Most of what a run does is silent: nothing of it shows on the standard output.  Log
    lines, failures and forwarded streams go to the error stream, and a command changes the
    output of a run no more than a file does.  So a case is silent from its workspace being
    made to that being left: **`Plan.keeps_stdout_examine`** -/

namespace RoundTrip

open Step (Keeps endState)

variable {α β : Type} {out : String}

/-- Whichever way the action ends, it has printed nothing to the standard output. -/
def Silent (x : Action World α) : Prop := ∀ out, Keeps (fun w => w.stdout = out) x

/-- The standard output after a silent action is the one before it. -/
theorem Silent.stdout_eq {x : Action World α} (hx : Silent x) (w : World) :
    (endState (x w)).stdout = w.stdout := hx w.stdout w rfl

theorem Silent.of_eq_ok {x : Action World α} {a : α} {w w' : World} (hx : Silent x)
    (h : x w = .ok a w') : w'.stdout = w.stdout := (hx w.stdout).of_eq_ok rfl h

/-- To be silent is to leave the standard output as it was, from every world. -/
theorem silent_of_stdout_eq {x : Action World α} (h : ∀ w, (endState (x w)).stdout = w.stdout) :
    Silent x := fun _ w hw => (h w).trans hw

/-- To look at the world prints nothing. -/
theorem Looks.silent {x : Action World α} (hx : Looks x) : Silent x := fun _ => hx _

theorem silent_pure (a : α) : Silent (pure a : Action World α) := (looks_pure a).silent

theorem silent_throw (e : Fault) : Silent (throw e : Action World α) := (looks_throw e).silent

theorem silent_bind {x : Action World α} {f : α → Action World β} (hx : Silent x)
    (hf : ∀ a, Silent (f a)) : Silent (x >>= f) :=
  fun out => Step.keeps_bind (hx out) fun a => hf a out

/-! ## Single actions -/

theorem silent_printErrorLine (s : String) : Silent (World.printErrorLine s) := fun _ _ h => h

/-- The log is a part of the error stream. -/
theorem silent_log (topic : Topic) (s : String) : Silent (World.log topic s) := by
  refine silent_of_stdout_eq fun w => ?_
  obtain ⟨stderr, hlog⟩ := World.log_apply topic s w
  rw [hlog]
  rfl

/-- A command writes to the error stream at most. -/
theorem Command.silent_run (c : Command) : Silent c.run := by
  refine silent_of_stdout_eq fun w => ?_
  obtain ⟨_, _, _, _, _, hchanged⟩ := (Command.ran_run c w).changed
  rw [hchanged]

/-- A document is written to the disk. -/
theorem silent_store (p : Path) (content : Bytes) : Silent (Workspace.store p content) :=
  silent_of_stdout_eq fun w => by rw [endState_store]

/-- An artifact is removed without a word, or its removal fails with a fault. -/
theorem silent_removeIfPresent (p : Path) : Silent (Workspace.removeIfPresent p) := by
  refine silent_of_stdout_eq fun w => ?_
  obtain hend | ⟨d, -, hend⟩ := endState_removeIfPresent p w <;> rw [hend]

/-- The error of a text that cannot be decoded goes to the error stream. -/
theorem silent_inputs (splitting : Splitting) (source : Path) (splitter : Option Path) :
    Silent (splitting.inputs source splitter) := by
  refine silent_of_stdout_eq fun w => ?_
  obtain ⟨stderr, hend⟩ := splitting.endState_inputs source splitter w
  rw [hend]

/-- A workspace is made and entered with a line of the log. -/
theorem silent_enter : Silent (Workspace.enter Workspace.defaultStem) := by
  refine silent_of_stdout_eq fun w => ?_
  obtain ⟨e, count, henter⟩ | ⟨n, count, d, stderr, -, -, henter⟩ := enter_apply w
  · rw [henter]
    rfl
  · rw [henter]
    rfl

/-- Failures are told on the error stream. -/
theorem silent_announce (r : Finding) : Silent (Report.announce r) := by
  unfold Report.announce
  split
  · unfold Report.announceFailure
    split
    · exact silent_pure _
    refine silent_bind (silent_printErrorLine _) fun _ => ?_
    refine silent_bind (silent_printErrorLine _) fun _ => ?_
    split
    · exact silent_pure _
    · exact silent_bind (silent_printErrorLine _) fun _ => silent_printErrorLine _
  · exact silent_pure _

/-- The version that a compiler tells is collected, not shown. -/
theorem Harness.silent_identify (s : Configuration) (o : Harness.Options) :
    Silent ((Harness.compiler s o).identify) := by
  refine silent_of_stdout_eq fun w => ?_
  obtain hend | hend := Harness.endState_identify s o w
  · rw [hend]
  · rw [hend]
    exact (Command.silent_run _).stdout_eq w

/-! ## A case -/

namespace Verification

variable (c : Case) (compiler : Compiler) (t : Comparator) (dir : Path)

/-- A comparison collects the difference and logs it. -/
theorem silent_compare (expected obtained : Path) : Silent (t.compare expected obtained) := by
  refine silent_bind (looks_ofExcept _ _).silent fun argv => ?_
  refine silent_bind (Command.silent_run _) fun i => ?_
  dsimp only
  split
  · exact silent_bind (silent_log _ _) fun _ => silent_pure _
  · exact silent_throw _

/-- What follows the reimport stores two documents and compares them. -/
theorem silent_afterReimport (i : Invocation) : Silent (afterReimport c t dir i) := by
  unfold afterReimport
  split
  · exact silent_pure _
  refine silent_bind (silent_store _ _) fun _ => silent_bind (silent_store _ _) fun _ => ?_
  split
  · exact silent_pure _
  · exact silent_bind (silent_compare t _ _) fun d => silent_pure _

theorem silent_afterExport (i : Invocation) : Silent (afterExport c compiler t dir i) := by
  unfold afterExport
  split
  · exact silent_pure _
  refine silent_bind (silent_store _ _) fun _ => ?_
  split
  · exact silent_pure _
  · rw [reimportAndCompare_eq]
    exact silent_bind (Command.silent_run _) fun i => silent_afterReimport c t dir i

/-- The whole verification, from its probe to the removal of its artifacts. -/
theorem silent_verify : Silent (verify c compiler t dir) := by
  refine silent_bind (Command.silent_run _) fun i => ?_
  split
  · exact silent_pure _
  split
  · exact silent_pure _
  refine silent_bind (looks_guardArtifacts dir).silent fun _ => ?_
  rw [roundTrip_eq]
  intro out
  -- the artifacts are removed at every end, so the clean-up has to be silent by itself
  refine Step.keeps_ensuring ?_ (Step.keeps_forM fun a _ => silent_removeIfPresent _ out)
  exact silent_bind (Command.silent_run _) (fun i => silent_afterExport c compiler t dir i) out

end Verification

/-- **A case prints nothing while it is examined.** -/
theorem Plan.keeps_stdout_examine (s : Configuration) (o : Harness.Options) (number : Nat)
    (source dir : Path) (out : String) :
    Keeps (fun t : Session => t.world.stdout = out)
      ((Harness.plan s o).examine number source dir) := by
  -- the session carries the world along with a tally and a journal; what is silent in the
  -- world is silent there
  have hsplit : Silent (Splitter.split s.splitter s.limit source dir) :=
    silent_bind (Command.silent_run _) fun i => (Splitter.looks_outcome _ _ _ i).silent
  refine Step.keeps_bind (Session.keeps_note (P := fun w => w.stdout = out) _) fun _ => ?_
  refine Step.keeps_bind (Session.keeps_inWorld (hsplit out)) fun splitting => ?_
  refine Step.keeps_bind (Session.keeps_inWorld (silent_inputs _ _ _ out)) fun inputs => ?_
  refine Step.keeps_bind (Session.keeps_count (P := fun w => w.stdout = out) _) fun _ => ?_
  exact Session.keeps_inWorld (Verification.silent_verify _ _ _ _ out)

end RoundTrip
