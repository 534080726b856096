import RoundTrip.Proofs.Agreement
import RoundTrip.Proofs.SideBySide

/-! # What the verdicts do not depend on

    Error output is shown, kept in a file, and carried by the results of failed cases, but
    nothing follows from it; and of a probe only the exit code counts.  So two runs whose
    processes differ in these streams alone, and of which one may forward them and the
    other not, start the same processes, come to the same verdicts and end alike:
    **`Harness.verdicts_ignore_streams`**. -/

namespace RoundTrip

open Step (EndAlike Keeps endState)

variable {S T : Disk → Disk → Prop} {probe : Nat → Prop} {w w' : World}

/-! ## The setup -/

/-- A defect becomes an error of the setup with the same message, quoted output or not. -/
theorem Compiler.setupFault_withoutOutput (e : Fault) :
    (setupFault e).withoutOutput = setupFault e.withoutOutput := by
  cases e with
  | defect e => cases e <;> rfl
  | _ => rfl

/-- Faults that are alike are so as errors of the setup. -/
theorem Fault.Alike.setupFault {e e' : Fault} (h : e.Alike e') :
    (Compiler.setupFault e).Alike (Compiler.setupFault e') := by
  unfold Alike
  rw [Compiler.setupFault_withoutOutput, Compiler.setupFault_withoutOutput, h]

namespace World.Abreast

/-- On the same disk the same roots can be searched. -/
theorem isReadable_eq (h : w.Abreast Eq probe w') (root : Path) :
    Discovery.isReadable w' root = Discovery.isReadable w root := by
  obtain ⟨disk, _, _, _, _, rfl⟩ := h.exists_eq
  obtain rfl : w.disk = disk := h.disk
  rfl

/-- The same sources lie below a root. -/
theorem sourcesBelow_eq (h : w.Abreast Eq probe w') (c : Discovery.Criteria) :
    Discovery.sourcesBelow w' c = Discovery.sourcesBelow w c := by
  obtain ⟨disk, _, _, _, _, rfl⟩ := h.exists_eq
  obtain rfl : w.disk = disk := h.disk
  rfl

/-- Both runs leave out the same roots, with the same warnings or others. -/
theorem readableRoots (h : w.Abreast Eq probe w') (roots : List Path) :
    Concur Eq Eq probe Eq (Discovery.readableRoots roots w)
      (Discovery.readableRoots roots w') := by
  induction roots generalizing w w' with
  | nil => exact .ok ⟨rfl, h⟩
  | cons root rest ih =>
      unfold Discovery.readableRoots
      rw [Step.bind_ok (Step.get_apply w), Step.bind_ok (Step.get_apply w'), h.isReadable_eq]
      refine Concur.bind (Concur.ofExcept h) fun readable _ _ _ _ heq h₁ => ?_
      subst heq
      cases readable with
      | true =>
          refine Concur.bind (ih h₁) fun others _ _ _ _ heq h₂ => ?_
          subst heq
          exact .ok ⟨rfl, h₂⟩
      | false =>
          refine Concur.bind (h₁.prints (prints_printLine _) (prints_printLine _))
            fun _ _ _ _ _ _ h₂ => ?_
          exact ih h₂

/-- Both runs find the same sources, or fail alike. -/
theorem findSources (h : w.Abreast Eq probe w') (roots : List Path) (c : Discovery.Criteria) :
    Concur Eq Eq probe Eq (Discovery.findSources roots c w)
      (Discovery.findSources roots c w') := by
  refine Concur.bind (h.readableRoots roots) fun readable _ _ _ _ heq h₁ => ?_
  subst heq
  by_cases hempty : readable.isEmpty = true
  · rw [if_pos hempty]
    exact .error ⟨rfl, h₁⟩
  rw [if_neg hempty, Step.bind_ok (Step.get_apply _), Step.bind_ok (Step.get_apply _),
    h₁.sourcesBelow_eq]
  refine Concur.bind (Concur.ofExcept h₁) fun found _ _ _ _ heq h₂ => ?_
  subst heq
  refine Concur.bind (h₂.prints (prints_log _ _) (prints_log _ _)) fun _ _ _ _ _ _ h₃ => ?_
  exact .ok ⟨rfl, h₃⟩

/-- The version may be told in other words, as long as its process comes to the same end. -/
theorem identify (h : w.Abreast Eq probe w') (c : Configuration) (o : Harness.Options) (b : Bool) :
    Concur Eq Eq probe (fun _ _ => True) ((Harness.compiler c o).identify w)
      ((Harness.compiler c { o with showErrors := b }).identify w') := by
  unfold Compiler.identify
  rw [Step.bind_ok (Step.get_apply w), Step.bind_ok (Step.get_apply w'), h.cwd_eq, ← h.disk]
  refine Concur.bind (Concur.ofExcept h) fun isThere _ _ _ _ heq h₁ => ?_
  subst heq
  cases isThere with
  | false => exact .error ⟨rfl, h₁⟩
  | true =>
      have hcalls : (Harness.compiler c o).version.Alike
          (Harness.compiler c { o with showErrors := b }).version := ⟨rfl, rfl, rfl⟩
      have hrun := h₁.run_eq hcalls fun hkept : False => hkept.elim
      refine Concur.bind (EndAlike.rethrow hrun fun e t e' t' he => ⟨he.1.setupFault, he.2⟩)
        fun i _ i' _ _ hi h₂ => ?_
      have hok : i'.ok = i.ok := by
        unfold Invocation.ok
        rw [hi.exitCode_eq, hi.timedOut_eq]
      rw [hok, hi.exitCode_eq]
      cases i.ok with
      | true => exact .ok ⟨trivial, h₂⟩
      | false => exact .error ⟨rfl, h₂⟩

/-- The setup takes the same course, version aside. -/
theorem prepare (h : w.Abreast Eq probe w') (c : Configuration) (o : Harness.Options) (b : Bool) :
    Concur Eq Eq probe Eq (Harness.prepare c o w)
      (Harness.prepare c { o with showErrors := b } w') := by
  refine Concur.bind (h.identify c o b) fun _ _ _ _ _ _ h₁ => ?_
  refine Concur.bind (h₁.prints (prints_log _ _) (prints_log _ _)) fun _ w₂ _ w₂' _ _ h₂ => ?_
  rw [Step.bind_ok (Step.get_apply _), Step.bind_ok (Step.get_apply _), h₂.cwd_eq, ← h₂.disk]
  refine Concur.bind (Concur.ofExcept h₂) fun hasSplitter _ _ _ _ heq h₃ => ?_
  subst heq
  cases hasSplitter with
  | false => exact .error ⟨rfl, h₃⟩
  | true =>
      refine Concur.bind (h₃.findSources _ _) fun sources _ _ _ _ heq h₄ => ?_
      subst heq
      refine Concur.bind (h₄.prints (prints_printLine _) (prints_printLine _))
        fun _ _ _ _ _ _ h₅ => ?_
      exact .ok ⟨rfl, h₅⟩

/-! ## The end -/

/-- Reports may differ, but both can be written or neither. -/
theorem storeDocument (h : w.Abreast Eq probe w') (path : Path) (document document' : Json) :
    Concur (fun _ _ => True) (fun _ _ => True) probe Eq (Workspace.storeDocument path document w)
      (Workspace.storeDocument path document' w') := by
  have hwrite := Disk.endAlike_writeWithParents w.cwd path (Text.encode (document.print ++ "\n"))
    (Text.encode (document'.print ++ "\n")) w.disk
  unfold Workspace.storeDocument World.edit Step.within
  rw [h.cwd_eq, ← h.disk]
  dsimp only
  generalize Disk.writeWithParents w.cwd path (Text.encode (document.print ++ "\n")) w.disk = r
    at hwrite
  generalize Disk.writeWithParents w.cwd path (Text.encode (document'.print ++ "\n")) w.disk = r'
    at hwrite
  cases hwrite with
  | ok _ => exact .ok ⟨rfl, h.withDisk trivial⟩
  | error he =>
      subst he
      exact .error ⟨rfl, h.withDisk trivial⟩

/-- The summary and the report are the last that is done.  What they say may differ, and so may
    the disks then. -/
theorem conclude (h : w.Abreast Eq probe w') (c : Configuration) (o : Harness.Options) (b : Bool)
    (t t' : Tally) :
    Concur (fun _ _ => True) (fun _ _ => True) probe Eq (Harness.conclude c o t w)
      (Harness.conclude c { o with showErrors := b } t' w') := by
  refine Concur.bind (h.prints (prints_announceSummary t) (prints_announceSummary t'))
    fun _ _ _ _ _ _ h₁ => ?_
  cases o.report with
  | none => exact .ok ⟨rfl, h₁.mono fun _ _ _ => trivial⟩
  | some path => exact h₁.storeDocument path _ _

end World.Abreast

/-! ## A run -/

namespace Harness

variable {c : Configuration} {o : Options} {s s' : Session}

/-- The numbers of the processes that a run starts as probes. -/
def probes (c : Configuration) (o : Options) (w : World) : List Nat :=
  match prepare c o w with
  | .ok sources t =>
      (plan c o).probesFrom 0 sources (Session.start t (.start sources.length o.report.isSome))
  | .error _ _ => []

/-- What a run starts with the number of a probe is called as a probe. -/
theorem called_as_probe {n : Nat} (hn : n ∈ probes c o w) (t : Tally) :
    Plan.ProbeIfAny c o n (endState (run c o (Session.start w t))).world.spawns := by
  unfold probes at hn
  cases hprepare : prepare c o w with
  | error e w₁ =>
      rw [hprepare] at hn
      exact absurd hn List.not_mem_nil
  | ok sources w₁ =>
      rw [hprepare] at hn
      have hin : Session.inWorld (prepare c o) (Session.start w t)
          = .ok sources (Session.start w₁ t) := Session.inWorld_of_ok hprepare
      have hcount : Session.count (fun _ => Tally.start sources.length o.report.isSome)
          (Session.start w₁ t)
          = .ok () (Session.start w₁ (.start sources.length o.report.isSome)) := rfl
      unfold run
      rw [Step.bind_ok hin, Step.bind_ok hcount]
      refine Step.endState_bind_of (P := fun s : Session => Plan.ProbeIfAny c o n s.world.spawns)
        (Plan.called_as_probe hn) fun _ => ?_
      refine Step.keeps_bind Step.keeps_get fun s => ?_
      refine Step.keeps_bind (Session.keeps_inWorld
        (P := fun w => Plan.ProbeIfAny c o n w.spawns) ?_) fun _ => Step.keeps_pure _
      exact (startsNothing_conclude c o _).keeps fun w w' hrecord h => by
        rwa [World.spawns_of_record hrecord]

/-- The setup leaves a plain world plain. -/
theorem keeps_plain_prepare (c : Configuration) (o : Options) :
    Keeps World.Plain (prepare c o) := by
  intro w h
  have hlasts := World.Plain.lasts c.splitter
  refine endState_prepare c o hlasts.quiet ?_
  obtain ⟨e, heq⟩ | ⟨-, heq⟩ := identify_cases c o w
  · rw [heq]
    exact h
  · rw [heq]
    exact hlasts.run _ trivial w h

/-- What two runs agree on that differ in streams that nothing follows from. -/
structure Agrees (s s' : Session) : Prop where
  calls_eq : s'.world.spawns.map Spawn.call = s.world.spawns.map Spawn.call
  findings : List.Forall₂ Finding.Alike s.findings s'.findings
  tested_eq : s'.tally.tested = s.tally.tested
  failed_eq : s'.tally.failed = s.tally.failed
  uncompilable_eq : s'.tally.uncompilable = s.tally.uncompilable
  sources_eq : s'.tally.sources = s.tally.sources
  firstFailure_eq : s'.tally.firstFailure.map (·.subject.source)
    = s.tally.firstFailure.map (·.subject.source)

/-- Sessions abreast agree in what a reader is told: the calls, the verdicts, the counts and the
    first failure. -/
theorem agrees_of_abreast (h : s.Abreast S probe s') : Agrees s s' where
  calls_eq := h.world.spawns
  findings := by
    have hjournal := h.journal
    unfold Session.findings
    -- the journals agree entry by entry
    generalize s.journal = journal at hjournal
    generalize s'.journal = journal' at hjournal
    induction hjournal with
    | nil => exact .nil
    | cons he _ ih =>
        cases he with
        | started source => exact ih
        | workspace dir => exact ih
        | finished hr _ => exact .cons hr ih
  tested_eq := h.tally.tested_eq
  failed_eq := h.tally.failed_eq
  uncompilable_eq := h.tally.uncompilable_eq
  sources_eq := h.tally.sources_eq
  firstFailure_eq := by
    have hfirst := h.tally.firstFailure
    generalize s.tally.firstFailure = first at hfirst
    generalize s'.tally.firstFailure = first' at hfirst
    cases hfirst with
    | none => rfl
    | some hr => exact congrArg (fun c => some c.source) hr.subject_eq

/-- A run comes to the same kind of end in two worlds abreast. -/
theorem concur_run (hw : w.Plain) (t : Tally) (b : Bool)
    (h : w.Abreast Eq (· ∈ probes c o w) w') :
    Session.Concur (fun _ _ => True) (fun _ _ => True) (· ∈ probes c o w) Eq
      (run c o (Session.start w t))
      (run c { o with showErrors := b } (Session.start w' t)) := by
  have hstart : (Session.start w t).Abreast Eq (· ∈ probes c o w) (Session.start w' t) :=
    ⟨h, .refl t, .nil⟩
  refine Session.Concur.bind (hstart.inWorld ((h.prepare c o b).weaken fun _ _ _ => trivial))
    fun sources s₁ _ s₁' heq₁ hsources h₁ => ?_
  subst hsources
  obtain ⟨w₁, hprepare, rfl⟩ := Session.inWorld_eq_ok heq₁
  refine Session.Concur.bind (h₁.count (.refl _)) fun _ s₂ _ s₂' heq₂ _ h₂ => ?_
  cases heq₂
  -- the probes are numbered from the first run; both have the same sources
  have hprobes : probes c o w = (plan c o).probesFrom 0 sources
      (Session.start w₁ (.start sources.length o.report.isSome)) := by
    unfold probes
    rw [show prepare c o w = _ from hprepare]
  refine Session.Concur.bind (h₂.runFrom ((keeps_plain_prepare c o).of_eq_ok hw hprepare) b
    fun n _ _ hn => hprobes ▸ hn) fun _ s₃ _ s₃' _ _ h₃ => ?_
  rw [Step.bind_ok (Step.get_apply _), Step.bind_ok (Step.get_apply _)]
  refine Session.Concur.bind (h₃.inWorld (h₃.world.conclude c o b _ _)) fun _ _ _ _ _ _ h₄ => ?_
  refine .ok ⟨?_, h₄⟩
  unfold exitCode Tally.succeeded
  rw [h₃.tally.failed_eq]

/-- Two runs in worlds abreast end alike, and agree. -/
theorem endAlike_of_abreast (hw : w.Plain) (t : Tally) (b : Bool)
    (h : w.Abreast Eq (· ∈ probes c o w) w') :
    EndAlike (fun code s code' s' => code' = code ∧ Agrees s s')
      (fun e s e' s' => e.Alike e' ∧ e'.message = e.message ∧ e'.exitCode? = e.exitCode?
        ∧ Agrees s s')
      (run c o (Session.start w t)) (run c { o with showErrors := b } (Session.start w' t)) := by
  refine (concur_run hw t b h).mono (fun code s code' s' h => ?_) fun e s e' s' h => ?_
  · exact ⟨h.1.symm, agrees_of_abreast h.2⟩
  · exact ⟨h.1, h.1.message_eq.1, h.1.message_eq.2, agrees_of_abreast h.2⟩

/-- **The verdicts do not depend on streams that nothing follows from.**  Two runs of which
    one may show errors and the other not, and whose processes are the same but for their
    error output and for the standard output of the probes, start the same processes, come
    to the same results and counts, and end alike, with the same exit code or with faults
    that are the same but for the output they carry.

    The world is plain: its directory of workspaces has an absolute path without `..` and
    without a link on the way, and no process is going to make a link.  The worlds of scenarios
    without such processes are (`Scenario.plain_world`). -/
theorem verdicts_ignore_streams (c : Configuration) (o : Options) (b : Bool) (t : Tally)
    {script' : List Process} (hw : w.Plain)
    (hscript : ∀ n, Process.Alike (w.spawns.length + n ∈ probes c o w) (w.script.getD n .idle)
      (script'.getD n .idle)) :
    EndAlike (fun code s code' s' => code' = code ∧ Agrees s s')
      (fun e s e' s' => e.Alike e' ∧ e'.message = e.message ∧ e'.exitCode? = e.exitCode?
        ∧ Agrees s s')
      (run c o (Session.start w t))
      (run c { o with showErrors := b } (Session.start { w with script := script' } t)) := by
  have habreast : w.Abreast Eq (· ∈ probes c o w) { w with script := script' } :=
    ⟨rfl, rfl, hscript, rfl⟩
  exact endAlike_of_abreast hw t b habreast

/-- The processes of the trial run, each with an error output, and its probe with a standard
    output as well. -/
def Trial.noisy : List Process :=
  (Trial.world.script.map fun p => { p with stderr := Text.encode "warning" }).modify 2
    fun p => { p with stdout := Text.encode "bin" }

/-- A run that shows errors of processes that have some, and one that does not. -/
theorem noisy_run_agrees : Trial.world.Plain ∧ ∃ s s',
    run Trial.configuration Trial.options (Session.start Trial.world (.start 0 false)) = .ok 1 s
      ∧ run Trial.configuration { Trial.options with showErrors := true }
        (Session.start { Trial.world with script := Trial.noisy } (.start 0 false)) = .ok 1 s'
      ∧ Agrees s s' := by
  have hplain : Trial.world.Plain := by
    refine ⟨⟨⟨Disk.Closed.of_places (by decide), fun q hq target h => ?_⟩, by decide⟩, rfl,
      by decide +kernel⟩
    have hnames : (Path.ofString Trial.world.tempDir.text).names = [] := by decide +kernel
    rw [hnames] at hq
    obtain rfl := List.prefix_nil.mp hq
    cases h
  have hprobe : 2 ∈ probes Trial.configuration Trial.options Trial.world := by decide +kernel
  have hscript : ∀ n, Process.Alike
      (Trial.world.spawns.length + n ∈ probes Trial.configuration Trial.options Trial.world)
      (Trial.world.script.getD n .idle) (Trial.noisy.getD n .idle) := by
    rintro (_ | _ | _ | _ | _ | _ | n)
    case succ.succ.zero => exact ⟨rfl, rfl, rfl, rfl, fun h => absurd hprobe h, rfl, rfl⟩
    all_goals exact ⟨rfl, rfl, rfl, rfl, fun _ => rfl, rfl, rfl⟩
  have hcode : (match run Trial.configuration Trial.options
      (Session.start Trial.world (.start 0 false)) with
      | .ok code _ => decide (code = 1)
      | .error _ _ => false) = true := by decide +kernel
  obtain ⟨s, hrun⟩ : ∃ s, run Trial.configuration Trial.options
      (Session.start Trial.world (.start 0 false)) = .ok 1 s := by
    cases hrun : run Trial.configuration Trial.options
        (Session.start Trial.world (.start 0 false)) with
    | error e s =>
        rw [hrun] at hcode
        cases hcode
    | ok code s =>
        rw [hrun] at hcode
        obtain rfl := of_decide_eq_true hcode
        exact ⟨s, rfl⟩
  obtain ⟨code', s', hrun', rfl, hagrees⟩ := (verdicts_ignore_streams Trial.configuration
    Trial.options true (.start 0 false) hplain hscript).of_ok hrun
  exact ⟨hplain, s, s', hrun, hrun', hagrees⟩

end Harness

end RoundTrip
