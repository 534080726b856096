import RoundTrip.Proofs.Silent

/-! # What is printed before the summary

    A run prints little before its summary: a warning of each root that cannot be searched,
    the number of sources, a dot for each case, and a warning of each workspace that cannot be
    removed.  Whichever way its setup and its cases end, the standard output has grown by such
    pieces only: **`Harness.onlyProgress_goThrough`**.  A summary is none of them, so a run that
    a fault has ended among its cases has printed none. -/

namespace RoundTrip

open Step (Keeps endState)

/-- A piece of what is printed before the summary. -/
inductive Progress (s : Configuration) : String → Prop where
  /-- A root cannot be searched. -/
  | skipped (root : Path) :
      Progress s ("[ast-import] warn: test directory not readable: " ++ root.text ++ "\n")
  /-- The sources are found. -/
  | found (sources : Nat) :
      Progress s ("Looking at " ++ toString sources ++ " " ++ s.sourceSuffix ++ " files..." ++ "\n")
  /-- A case is started. -/
  | started : Progress s "."
  /-- A workspace cannot be removed. -/
  | notRemoved (dir : Path) (e : RemovalError) :
      Progress s (Workspace.removalWarning dir e ++ "\n")

/-- Since the standard output was `out`, nothing but progress has been printed to it. -/
def OnlyProgress (s : Configuration) (out : String) (w : World) : Prop :=
  ∃ pieces : List String, w.stdout = out ++ String.join pieces ∧ ∀ piece ∈ pieces, Progress s piece

variable {s : Configuration} {out : String} {α : Type}

theorem OnlyProgress.start (s : Configuration) (w : World) : OnlyProgress s w.stdout w :=
  ⟨[], String.append_empty.symm, fun _ h => nomatch h⟩

/-- What prints nothing changes nothing about that. -/
theorem Silent.keeps_onlyProgress {x : Action World α} (hx : Silent x) :
    Keeps (OnlyProgress s out) x := by
  rintro w ⟨pieces, hout, hpieces⟩
  exact ⟨pieces, (hx.stdout_eq w).trans hout, hpieces⟩

/-- A piece of progress is added at the end. -/
theorem keeps_onlyProgress_print {piece : String} (h : Progress s piece) :
    Keeps (OnlyProgress s out) (World.print piece) := by
  rintro w ⟨pieces, hout, hpieces⟩
  refine ⟨pieces ++ [piece], ?_, ?_⟩
  · show w.stdout ++ piece = _
    rw [hout, String.join_append, String.join_cons, String.join_nil, String.append_empty,
      String.append_assoc]
  · exact List.forall_mem_append.mpr ⟨hpieces, List.forall_mem_singleton.mpr h⟩

/-! ## The setup -/

namespace Discovery

/-- The choice of the roots prints one warning for each root that it leaves out. -/
theorem keeps_onlyProgress_readableRoots (roots : List Path) :
    Keeps (OnlyProgress s out) (readableRoots roots) := by
  induction roots with
  | nil => exact Step.keeps_pure _
  | cons root rest ih =>
      refine Step.keeps_bind Step.keeps_get fun w => ?_
      refine Step.keeps_bind (Step.keeps_ofExcept _ _) fun readable => ?_
      split
      · exact Step.keeps_bind ih fun others => Step.keeps_pure _
      · exact Step.keeps_bind (keeps_onlyProgress_print (.skipped root)) fun _ => ih

theorem keeps_onlyProgress_findSources (roots : List Path) (c : Criteria) :
    Keeps (OnlyProgress s out) (findSources roots c) := by
  refine Step.keeps_bind (keeps_onlyProgress_readableRoots roots) fun readable => ?_
  split
  · exact Step.keeps_throw _
  refine Step.keeps_bind Step.keeps_get fun w => ?_
  refine Step.keeps_bind (Step.keeps_ofExcept _ _) fun found => ?_
  exact Step.keeps_bind (silent_log _ _).keeps_onlyProgress fun _ => Step.keeps_pure _

end Discovery

/-! ## A case -/

namespace Workspace

/-- To remove a workspace prints a warning if it is refused. -/
theorem keeps_onlyProgress_remove (dir : Path) : Keeps (OnlyProgress s out) (remove dir) := by
  intro w hw
  obtain ⟨stdout, hend, rfl | ⟨e, rfl⟩⟩ := endState_remove dir w
  · rw [hend]
    exact hw
  · rw [hend]
    exact keeps_onlyProgress_print (.notRemoved dir e) w hw

/-- A workspace is left with a line of the log after its removal. -/
theorem keeps_onlyProgress_leave (dir : Path) : Keeps (OnlyProgress s out) (leave dir) :=
  Step.keeps_bind (keeps_onlyProgress_remove dir) fun _ => (silent_log _ _).keeps_onlyProgress

end Workspace

namespace Harness

variable {o : Options}

/-- From its workspace being made to that being removed a case is silent, so the removal is all
    that can be seen of it. -/
theorem keeps_onlyProgress_tryCase (number : Nat) (source : Path) :
    Keeps (fun t : Session => OnlyProgress s out t.world) ((plan s o).tryCase number source) := by
  have hexamine : ∀ dir, Keeps (fun t : Session => OnlyProgress s out t.world)
      ((plan s o).examine number source dir) := by
    rintro dir t ⟨pieces, hout, hpieces⟩
    -- the pieces are the same ones: the output has not grown
    exact ⟨pieces, Plan.keeps_stdout_examine s o number source dir _ t hout, hpieces⟩
  refine Step.keeps_bind (Session.keeps_inWorld silent_enter.keeps_onlyProgress) fun dir => ?_
  refine Step.keeps_bind (Step.keeps_ensuring (hexamine dir)
    (Session.keeps_inWorld (Workspace.keeps_onlyProgress_leave dir))) fun r => ?_
  refine Step.keeps_bind (Session.keeps_count _) fun _ => ?_
  exact Step.keeps_bind (Session.keeps_inWorld (silent_log _ _).keeps_onlyProgress)
    fun _ => Step.keeps_pure r

/-- A case shows its dot, and a warning if its workspace cannot be removed. -/
theorem keeps_onlyProgress_step (number : Nat) (source : Path) :
    Keeps (fun t : Session => OnlyProgress s out t.world) ((plan s o).step number source) := by
  refine Step.keeps_bind (Session.keeps_note _) fun _ => ?_
  refine Step.keeps_bind (Session.keeps_inWorld (keeps_onlyProgress_print .started)) fun _ => ?_
  refine Step.keeps_bind (keeps_onlyProgress_tryCase number source) fun r => ?_
  refine Step.keeps_bind Step.keeps_get fun t => ?_
  refine Step.keeps_bind (Session.keeps_note _) fun _ => ?_
  exact Step.keeps_bind (Session.keeps_inWorld (silent_announce r).keeps_onlyProgress)
    fun _ => Step.keeps_pure r

/-- The cases print what each of them does, by induction on the sources. -/
theorem keeps_onlyProgress_runFrom (number : Nat) (sources : List Path) :
    Keeps (fun t : Session => OnlyProgress s out t.world) ((plan s o).runFrom number sources) := by
  induction sources generalizing number with
  | nil => exact Step.keeps_pure ()
  | cons source rest ih =>
      refine Step.keeps_bind (keeps_onlyProgress_step number source) fun r => ?_
      split
      · exact Session.keeps_inWorld (silent_log _ _).keeps_onlyProgress
      · exact ih (number + 1)

/-! ## The run up to its summary -/

/-- The setup prints the number of its sources, after the warnings of the search. -/
theorem keeps_onlyProgress_prepare : Keeps (OnlyProgress s out) (prepare s o) := by
  refine Step.keeps_bind (silent_identify s o).keeps_onlyProgress fun version => ?_
  refine Step.keeps_bind (silent_log _ _).keeps_onlyProgress fun _ => ?_
  refine Step.keeps_bind Step.keeps_get fun w => ?_
  refine Step.keeps_bind (Step.keeps_ofExcept _ _) fun hasSplitter => ?_
  split
  · refine Step.keeps_bind (Discovery.keeps_onlyProgress_findSources _ _) fun sources => ?_
    exact Step.keeps_bind (keeps_onlyProgress_print (.found sources.length))
      fun _ => Step.keeps_pure sources
  · exact Step.keeps_throw _

/-- **Up to its summary a run prints nothing but progress**, whichever way its setup and its
    cases end. -/
theorem onlyProgress_goThrough (s : Configuration) (o : Options) (t : Session) :
    OnlyProgress s t.world.stdout (endState (goThrough s o t)).world := by
  have hkeeps : Keeps (fun u : Session => OnlyProgress s t.world.stdout u.world)
      (goThrough s o) := by
    refine Step.keeps_bind (Session.keeps_inWorld keeps_onlyProgress_prepare) fun sources => ?_
    refine Step.keeps_bind (Session.keeps_count _) fun _ => ?_
    exact keeps_onlyProgress_runFrom 0 sources
  exact hkeeps t (.start s t.world)

end Harness

end RoundTrip
