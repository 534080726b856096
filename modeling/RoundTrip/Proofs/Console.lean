import RoundTrip.Proofs.Retention
import RoundTrip.Proofs.Rounds
import RoundTrip.Proofs.Silent
import RoundTrip.Proofs.Truncation

/-! # What a run prints

    Four things show on the standard output of a run: a warning of each root that cannot be
    searched, the number of sources, a dot for each case that is started, and the end of
    the summary.  A fifth would be a workspace that cannot be removed.  The worlds in which
    a run leaves its workspaces are read off the run (`Plan.leavings`), so that it can be
    said that this does not happen.

    A case that is started prints its dot and nothing else (`Harness.stdout_step`), and it
    has a result or a fault ends it; by induction a run that comes to its end has as many
    dots as results, and one that a fault ends has one more (`Harness.dotted_runFrom`).
    **`Harness.console_transcript`** -/

namespace RoundTrip

open Step (Keeps endState)

/-! ## Workspaces that are left -/

/-- Whether nothing needs to be said of a removal: the directory goes, or is gone
    already. -/
def Workspace.isRemoved (dir : Path) (w : World) : Bool :=
  match Disk.removeTree w.cwd dir w.disk with
  | .ok _ _ => true
  | .error (.path (.os ⟨.noEntry, _⟩)) _ => true
  | .error _ _ => false

/-- A workspace that is removed is left without a word. -/
theorem Workspace.stdout_leave {dir : Path} {w : World} (h : isRemoved dir w = true) :
    (endState (leave dir w)).stdout = w.stdout := by
  have hremove : (endState (remove dir w)).stdout = w.stdout := by
    unfold isRemoved at h
    unfold remove
    rw [Step.bind_ok (Step.get_apply w)]
    split at h
    · next hok =>
        rw [hok]
        rfl
    · next hgone =>
        rw [hgone]
        rfl
    · exact absurd h Bool.false_ne_true
  exact Step.endState_bind_of (P := fun w' : World => w'.stdout = w.stdout) hremove fun _ =>
    silent_log _ _ _

namespace Plan

/-- The workspace of a case that is started, with the world in which it is left.  There is
    none if the case ends before its workspace is made. -/
def leaving? (p : Plan) (number : Nat) (source : Path) (s : Session) : Option (Path × World) :=
  let begun : Action Session Path := do
    Session.note (.started source)
    Session.inWorld (p.onStart source)
    Session.inWorld (Workspace.enter Workspace.defaultStem)
  match begun s with
  | .ok dir t => some (dir, (endState (p.examine number source dir t)).world)
  | .error _ _ => none

/-- The workspaces of a run over sources, in order, with the worlds in which they are
    left. -/
def leavings (p : Plan) (number : Nat) : List Path → Session → List (Path × World)
  | [], _ => []
  | source :: rest, s =>
      (p.leaving? number source s).toList ++
        match p.step number source s with
        | .ok r t => if p.stopOnFailure && r.failed then [] else p.leavings (number + 1) rest t
        | .error _ _ => []

end Plan

/-! ## Dots and faults -/

/-- So many dots. -/
def dots (n : Nat) : String := String.ofList (List.replicate n '.')

theorem dots_add (m n : Nat) : dots (m + n) = dots m ++ dots n := by
  unfold dots
  rw [List.replicate_add, String.ofList_append]

/-- How many faults have ended a step: one, or none. -/
def Step.faults {ε σ α : Type} : EStateM.Result ε σ α → Nat
  | .ok _ _ => 0
  | .error _ _ => 1

/-! ## Reports -/

namespace Report

/-- Nothing shows of a report that is written, or cannot be. -/
theorem silent_write (path : Path) (t : Tally) (mode : String) (compiler : Path) :
    Silent (write path t mode compiler) := by
  refine silent_of_stdout_eq fun w => ?_
  obtain ⟨d, -, hwrite⟩ | ⟨_, d, -, hwrite⟩ := write_cases path t mode compiler w
  · rw [hwrite]
    rfl
  · rw [hwrite]
    rfl

theorem summary_of_succeeded {t : Tally} (h : t.succeeded = true) :
    ∃ line, summary t = "SUCCESS: " ++ line := by
  unfold summary
  rw [if_pos h]
  simp only [String.append_assoc]
  exact ⟨_, rfl⟩

end Report

/-! ## Before the cases -/

namespace Discovery

/-- The roots that cannot be searched are warned of, in their order. -/
theorem stdout_findSources {roots : List Path} {c : Criteria} {w w' : World}
    {sources : List Path} (h : findSources roots c w = .ok sources w') :
    w'.stdout = w.stdout ++ warnings (roots.filter (skips w)) := by
  unfold findSources at h
  obtain ⟨readable, w₁, hreadable, h⟩ := Step.bind_eq_ok_iff.mp h
  rw [(readableRoots_filter hreadable).2] at h
  show _ = World.stdout { w with stdout := _ }
  refine Silent.of_eq_ok ?_ h
  split
  · exact silent_throw _
  · refine silent_bind looks_get.silent fun _ => ?_
    refine silent_bind (looks_ofExcept _ _).silent fun found => ?_
    exact silent_bind (silent_log _ _) fun _ => silent_pure _

end Discovery

namespace Harness

variable {s : Configuration} {o : Options} {number : Nat} {source : Path} {sources : List Path}
  {t t' : Session} {w w₀ : World} {e : Fault}

/-- What is printed before the first case. -/
def preamble (s : Configuration) (w : World) (sources : List Path) : String :=
  Discovery.warnings (s.testRoots.filter (Discovery.skips w))
    ++ ("Looking at " ++ toString sources.length ++ " " ++ s.sourceSuffix ++ " files..." ++ "\n")

/-- The setup warns of the roots that are skipped, and says how many sources there are. -/
theorem stdout_prepare (h : prepare s o w = .ok sources w₀) :
    w₀.stdout = w.stdout ++ preamble s (endState ((compiler s o).identify w)) sources := by
  have hidentified := (silent_identify s o).stdout_eq w
  obtain ⟨version, w₁, stderr, w₂, hidentify, hfound, hprint⟩ := findSources_of_prepare h
  rw [hidentify] at hidentified ⊢
  cases hprint
  show w₂.stdout ++ _ = _
  rw [Discovery.stdout_findSources hfound, String.append_assoc, ← hidentified]
  rfl

/-! ## The dot of a case -/

/-- A case prints nothing if its workspace is removed. -/
theorem stdout_tryCase
    (hleft : ∀ dir w, Workspace.enter Workspace.defaultStem t.world = .ok dir w →
      Workspace.isRemoved dir
        (endState ((plan s o).examine number source dir { t with world := w })).world = true) :
    (endState ((plan s o).tryCase number source t)).world.stdout = t.world.stdout := by
  have hentered := silent_enter.stdout_eq t.world
  unfold Plan.tryCase
  cases henter : Workspace.enter Workspace.defaultStem t.world with
  | error e w =>
      rw [henter] at hentered
      rw [Step.bind_error (Session.inWorld_of_error henter)]
      exact hentered
  | ok dir w =>
      rw [henter] at hentered
      rw [Step.bind_ok (Session.inWorld_of_ok henter)]
      refine Step.endState_bind_of (P := fun t' : Session => t'.world.stdout = t.world.stdout) ?_
        fun r => ?_
      · rw [Step.endState_ensuring, Session.endState_inWorld,
          Workspace.stdout_leave (hleft dir w henter)]
        exact Plan.keeps_stdout_examine s o number source dir _ { t with world := w } hentered
      · refine Step.keeps_bind (Session.keeps_count (P := fun w => w.stdout = t.world.stdout) _)
          fun _ => ?_
        exact Step.keeps_bind (Session.keeps_inWorld (silent_log _ _ _)) fun _ => Step.keeps_pure r

/-- **A case prints its dot**, and nothing else if its workspace is removed. -/
theorem stdout_step
    (hleft : ∀ l, (plan s o).leaving? number source t = some l →
      Workspace.isRemoved l.1 l.2 = true) :
    (endState ((plan s o).step number source t)).world.stdout = t.world.stdout ++ "." := by
  obtain ⟨w, htick, hprinted⟩ : ∃ w, (plan s o).onStart source t.world = .ok () w
      ∧ w.stdout = t.world.stdout ++ "." := ⟨_, rfl, rfl⟩
  obtain ⟨u, hu⟩ : ∃ u : Session, u = ⟨w, t.tally, t.journal ++ [.started source]⟩ := ⟨_, rfl⟩
  have hcase : (endState ((plan s o).tryCase number source u)).world.stdout
      = t.world.stdout ++ "." := by
    rw [← hprinted, show w = u.world by rw [hu]]
    refine stdout_tryCase fun dir w' henter => hleft (dir, _) ?_
    have hnote : Session.note (.started source) t = .ok () (t.noted (.started source)) := rfl
    have hstart : Session.inWorld ((plan s o).onStart source) (t.noted (.started source))
        = .ok () u := hu ▸ Session.inWorld_of_ok htick
    unfold Plan.leaving?
    dsimp only
    rw [Step.bind_ok hnote, Step.bind_ok hstart, Session.inWorld_of_ok henter]
  -- whichever way the step ends, the case was begun in the world with the dot
  have hend := (plan s o).stepEnd number source t
  generalize (plan s o).step number source t = x at hend
  cases hend with
  | unstarted hstart => cases hstart.symm.trans htick
  | brokenOff hstart hthrown =>
      obtain ⟨-, rfl⟩ := EStateM.Result.ok.inj (hstart.symm.trans htick)
      rw [← hu] at hthrown
      rw [hthrown] at hcase
      exact hcase
  | @unannounced _ _ _ r t₁ _ _ hresult =>
      -- to announce a result is to print, which never fails
      obtain ⟨_, _, _, hprints⟩ := prints_announce r t₁.world
      cases hprints.symm.trans hresult
  | @finished _ _ r t₁ hstart hok hresult =>
      obtain ⟨-, rfl⟩ := EStateM.Result.ok.inj (hstart.symm.trans htick)
      rw [← hu] at hok
      rw [hok] at hcase
      have htold : (endState ((plan s o).onResult r t₁.world)).stdout = t₁.world.stdout :=
        (silent_announce r).stdout_eq t₁.world
      rw [hresult] at htold
      exact htold.trans hcase

/-- Whichever way a case ends, it has been started. -/
theorem startedSources_step (s : Configuration) (o : Options) (number : Nat) (source : Path)
    (t : Session) :
    (endState ((plan s o).step number source t)).startedSources = t.startedSources ++ [source] := by
  obtain ⟨r, hturn⟩ | ⟨e, t', herror, -, -, hstarted⟩ := turn_step s o number source t
  · exact hturn.started_eq
  · rw [herror]
    exact hstarted

/-- A case that a fault ends has no result, and at most the number of sources has changed. -/
theorem findings_of_step_eq_error (h : (plan s o).step number source t = .error e t') :
    t'.findings = t.findings ∧ ∃ growth, t'.tally = t.tally.addSources growth := by
  obtain ⟨growth, -, hmilestones, htally⟩ | ⟨r, w, hresult, -⟩ := Plan.step_eq_error h
  · exact ⟨Session.findings_of_started hmilestones, growth, htally⟩
  · obtain ⟨_, stdout, stderr, hprints⟩ := prints_announce r w
    cases hprints.symm.trans hresult

/-! ## The cases of a run -/

/-- What has been shown of cases that were gone through from a session on, with these
    results: a dot for each of them, and one more if a fault has ended the last. -/
structure Dotted {α : Type} (t : Session) (x : EStateM.Result Fault Session α)
    (rs : List Finding) : Prop where
  stdout_eq : (endState x).world.stdout = t.world.stdout ++ dots (rs.length + Step.faults x)
  started : (endState x).startedSources.length
    = t.startedSources.length + (rs.length + Step.faults x)
  findings_eq : (endState x).findings = t.findings ++ rs
  counted : t.tally.Counted rs (endState x).tally

namespace Dotted

variable {α β : Type} {a : α} {rs rs' : List Finding}

/-- A log line is no case, and shows nothing. -/
theorem silent {stderr : String} (a : α) :
    Dotted t (.ok a { t with world := { t.world with stderr := stderr } }) [] where
  stdout_eq := String.append_empty.symm
  started := rfl
  findings_eq := (List.append_nil _).symm
  counted := .refl t.tally

/-- What a fault has ended is not gone on with. -/
theorem error (h : Dotted t (.error e t' : EStateM.Result Fault Session α) rs) :
    Dotted t (.error e t' : EStateM.Result Fault Session β) rs where
  stdout_eq := h.stdout_eq
  started := h.started
  findings_eq := h.findings_eq
  counted := h.counted

theorem trans {x : EStateM.Result Fault Session β} (h : Dotted t (.ok a t') rs)
    (hx : Dotted t' x rs') : Dotted t x (rs ++ rs') where
  stdout_eq := by
    have hstdout : t'.world.stdout = t.world.stdout ++ dots rs.length := h.stdout_eq
    rw [hx.stdout_eq, hstdout, String.append_assoc, ← dots_add, List.length_append, Nat.add_assoc]
  started := by
    have hstarted : t'.startedSources.length = t.startedSources.length + rs.length := h.started
    rw [hx.started, hstarted, List.length_append, Nat.add_assoc, Nat.add_assoc]
  findings_eq := by
    have hfindings : t'.findings = t.findings ++ rs := h.findings_eq
    rw [hx.findings_eq, hfindings, List.append_assoc]
  counted := h.counted.trans hx.counted

end Dotted

/-- A case shows one dot, whichever way it ends. -/
theorem dotted_step
    (hleft : ∀ l, (plan s o).leaving? number source t = some l →
      Workspace.isRemoved l.1 l.2 = true) :
    Dotted t ((plan s o).step number source t)
      (Step.result? ((plan s o).step number source t)).toList := by
  have hstdout := stdout_step hleft
  have hstarted := congrArg List.length (startedSources_step s o number source t)
  rw [List.length_append] at hstarted
  cases hstep : (plan s o).step number source t with
  | ok r t' =>
      rw [hstep] at hstdout hstarted
      exact ⟨hstdout, hstarted, Plan.findings_step hstep, (Plan.step_eq_ok hstep).2.1⟩
  | error e t' =>
      rw [hstep] at hstdout hstarted
      obtain ⟨hfindings, growth, htally⟩ := findings_of_step_eq_error hstep
      refine ⟨hstdout, hstarted, hfindings.trans (List.append_nil _).symm, ?_⟩
      show t.tally.Counted [] t'.tally
      rw [htally]
      exact .addSources _ _

/-- **The cases of a run show their dots**, one for each that is started. -/
theorem dotted_runFrom
    (hleft : ∀ l ∈ (plan s o).leavings number sources t, Workspace.isRemoved l.1 l.2 = true) :
    ∃ rs, Dotted t ((plan s o).runFrom number sources t) rs := by
  induction sources generalizing number t with
  | nil => exact ⟨[], .silent ()⟩
  | cons source rest ih =>
      have hcase := dotted_step (s := s) (o := o) fun l hl =>
        hleft l (List.mem_append_left _ (by rw [hl]; exact List.mem_singleton_self l))
      have hend := (plan s o).runEnd number source rest t
      generalize (plan s o).runFrom number (source :: rest) t = x at hend
      -- the case itself prints its dot; what is left depends on how the run goes on
      cases hend with
      | fault hstep =>
          rw [hstep] at hcase
          exact ⟨_, hcase.error⟩
      | stopped stderr hstep =>
          rw [hstep] at hcase
          exact ⟨_, hcase.trans (.silent ())⟩
      | @goesOn r t₁ hstep hgo =>
          rw [hstep] at hcase
          obtain ⟨rs, hrest⟩ := @ih (number + 1) t₁ fun l hl => by
            refine hleft l (List.mem_append_right _ ?_)
            rw [hstep]
            dsimp only
            rwa [if_neg hgo]
          exact ⟨_, hcase.trans hrest⟩

/-! ## A run -/

/-- After the cases there is the summary, whether or not a report can be written. -/
theorem stdout_conclude (s : Configuration) (o : Options) (tally : Tally) (w : World) :
    (endState (conclude s o tally w)).stdout = w.stdout ++ Report.printed tally := by
  unfold conclude
  rw [Step.bind_ok (Report.announceSummary_apply tally w)]
  cases o.report with
  | none => rfl
  | some path => exact (Report.silent_write _ _ _ _).stdout_eq _

/-- A run that has gone through its cases prints the summary, and nothing else. -/
theorem stdout_run {s₀ : Session} (h : goThrough s o s₀ = .ok () t') :
    (endState (run s o s₀)).world.stdout = t'.world.stdout ++ Report.printed t'.tally := by
  rw [run_eq, Step.bind_ok h, Step.bind_ok (Step.get_apply t')]
  refine Step.endState_bind_of (P := fun u : Session => u.world.stdout = _) ?_
    fun _ => Step.keeps_pure _
  rw [Session.endState_inWorld]
  exact stdout_conclude s o t'.tally t'.world

/-- What has shown on the standard output when a run ends that has found sources, with the
    end of its cases beside it. -/
inductive Transcript (s : Configuration) (o : Options) (w : World) (t : Tally)
    (sources : List Path) :
    EStateM.Result Fault Session Unit → EStateM.Result Fault Session Int → Prop where
  /-- All cases that were started have a result, and none failed. -/
  | passed {t₁ : Session} {x : EStateM.Result Fault Session Int}
      (hresults : t₁.startedSources.length = t₁.findings.length)
      (hpassed : ∀ r ∈ t₁.findings, r.failed = false)
      (hsummary : ∃ line, Report.summary t₁.tally = "SUCCESS: " ++ line)
      (hstdout : (endState x).world.stdout = w.stdout
        ++ (preamble s (endState ((compiler s o).identify w)) sources
          ++ (dots t₁.startedSources.length ++ ("\n" ++ Report.summary t₁.tally ++ "\n")))) :
      Transcript s o w t sources (.ok () t₁) x
  /-- All cases that were started have a result, and some failed. -/
  | failed {t₁ : Session} {x : EStateM.Result Fault Session Int}
      (hresults : t₁.startedSources.length = t₁.findings.length)
      (hfailed : ∃ r ∈ t₁.findings, r.failed = true)
      (hstdout : (endState x).world.stdout = w.stdout
        ++ (preamble s (endState ((compiler s o).identify w)) sources
          ++ (dots t₁.startedSources.length ++ "\n"))) :
      Transcript s o w t sources (.ok () t₁) x
  /-- A fault has ended the last case that was started, and with it the run.  The world is as
      it is where no report was asked for. -/
  | brokenOff {e : Fault} {t₁ : Session}
      (hcounted : t₁.tally.finished = t₁.findings.length)
      (hstarted : t₁.startedSources.length = t₁.findings.length + 1)
      (hstdout : t₁.world.stdout = w.stdout
        ++ (preamble s (endState ((compiler s o).identify w)) sources
          ++ dots (t₁.findings.length + 1)))
      (hreport : t₁.world = (endState (run s o.withoutReport (Session.start w t))).world) :
      Transcript s o w t sources (.error e t₁) (.error e t₁)

/-- **What a run prints, to the letter.**  Where sources are found, and no workspace is left
    over, there are on the standard output the warnings of the roots that are skipped, the
    number of sources, and a dot for each case that was started.  If each case has a result,
    the line of dots ends and the summary follows where none failed.  If a fault has ended a
    case, nothing follows its dot. -/
theorem console_transcript (hprepare : prepare s o w = .ok sources w₀)
    (hleft : ∀ l ∈ (plan s o).leavings 0 sources
        (Session.start w₀ (.start sources.length o.report.isSome)),
      Workspace.isRemoved l.1 l.2 = true) (t : Tally) :
    Transcript s o w t sources
      ((plan s o).run sources (Session.start w₀ (.start sources.length o.report.isSome)))
      (run s o (Session.start w t)) := by
  have hgo : goThrough s o (Session.start w t)
      = (plan s o).run sources (Session.start w₀ (.start sources.length o.report.isSome)) :=
    Step.bind_ok (Session.inWorld_of_ok hprepare)
  obtain ⟨rs, hdotted⟩ := dotted_runFrom hleft
  rw [← Plan.run, ← hgo] at hdotted
  rw [← hgo]
  have hstdout := hdotted.stdout_eq
  rw [show (Session.start w₀ _).world.stdout = w₀.stdout from rfl, stdout_prepare hprepare,
    String.append_assoc] at hstdout
  have hstarted := hdotted.started
  rw [show (Session.start w₀ _).startedSources.length = 0 from rfl, Nat.zero_add] at hstarted
  cases hcases : goThrough s o (Session.start w t) with
  | error e t₁ =>
      -- the fault ends the run where it ended the case
      rw [hcases] at hdotted hstdout hstarted
      have hfindings : t₁.findings = rs := hdotted.findings_eq
      subst hfindings
      rw [run_eq, Step.bind_error hcases]
      have hfinished : t₁.tally.finished = 0 + t₁.findings.length := hdotted.counted.finished_eq
      exact .brokenOff (hfinished.trans (Int.zero_add _)) hstarted hstdout
        (world_withoutReport hcases).symm
  | ok _ t₁ =>
      rw [hcases] at hdotted hstdout hstarted
      have hfindings : t₁.findings = rs := hdotted.findings_eq
      subst hfindings
      -- the dots are followed by the summary, whatever becomes of the report
      have hend := stdout_run hcases
      rw [← hstarted] at hstdout
      rw [show t₁.world.stdout = _ from hstdout, String.append_assoc, String.append_assoc] at hend
      have hsucceeded : t₁.tally.succeeded = true ↔ ∀ r ∈ t₁.findings, r.failed = false := by
        have hcounted : (Tally.start _ _).Counted t₁.findings t₁.tally := hdotted.counted
        simp only [hcounted.succeeded_iff, Finding.failed_eq, decide_eq_false_iff_not]
      cases hsucceed : t₁.tally.succeeded with
      | true =>
          rw [Report.printed, if_pos hsucceed] at hend
          exact .passed hstarted (hsucceeded.mp hsucceed) (Report.summary_of_succeeded hsucceed)
            hend
      | false =>
          have hnot : ¬t₁.tally.succeeded = true := by rw [hsucceed]; exact Bool.false_ne_true
          rw [Report.printed, if_neg hnot] at hend
          refine .failed hstarted ?_ hend
          simpa only [hsucceeded, not_forall, exists_prop, Bool.not_eq_false] using hnot

/-- Two roots, of which the second is not there. -/
def Trial.rooted : Configuration := { Trial.configuration with testDirs := ["t", "gone"] }

/-- The first of two sources does not compile; for the second, which is split, the compiler
    cannot be started any more. -/
def Trial.cutShort : World :=
  { Trial.world with
    script :=
      [.idle, { Process.idle with exitCode := 1 }, { Process.idle with exitCode := 1 },
        { Process.idle with stdout := Text.encode "b1 b2" }, .idle,
        { Process.idle with startError := some "gone" }] }

/-- A run that breaks off shows a dot for the case that it breaks off at, and no more. -/
theorem transcript_of_cut_short : ∃ (sources : List Path) (w₀ : World),
    prepare Trial.rooted Trial.options Trial.cutShort = .ok sources w₀
      ∧ (∀ l ∈ (plan Trial.rooted Trial.options).leavings 0 sources
          (Session.start w₀ (.start sources.length true)), Workspace.isRemoved l.1 l.2 = true)
      ∧ Transcript Trial.rooted Trial.options Trial.cutShort (.start 0 false) sources
        ((plan Trial.rooted Trial.options).run sources
          (Session.start w₀ (.start sources.length true)))
        (run Trial.rooted Trial.options (Session.start Trial.cutShort (.start 0 false)))
      ∧ (endState (run Trial.rooted Trial.options
          (Session.start Trial.cutShort (.start 0 false)))).world.stdout
        = "[ast-import] warn: test directory not readable: /gone\n"
          ++ "Looking at 2 .sol files...\n" ++ ".." := by
  have hremoved : (match prepare Trial.rooted Trial.options Trial.cutShort with
      | .ok sources w₀ => ((plan Trial.rooted Trial.options).leavings 0 sources
          (Session.start w₀ (.start sources.length true))).all
            fun l => Workspace.isRemoved l.1 l.2
      | .error _ _ => false) = true := by decide +kernel
  cases hprepare : prepare Trial.rooted Trial.options Trial.cutShort with
  | error e w₀ =>
      rw [hprepare] at hremoved
      cases hremoved
  | ok sources w₀ =>
      rw [hprepare] at hremoved
      have hleft := List.all_eq_true.mp hremoved
      exact ⟨sources, w₀, rfl, hleft, console_transcript hprepare hleft (.start 0 false),
        by decide +kernel⟩

end Harness

end RoundTrip
