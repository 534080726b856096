import RoundTrip.Proofs.Document
import RoundTrip.Proofs.Journal
import RoundTrip.Proofs.TwoRuns
import RoundTrip.Proofs.Written

/-! # Results that are kept change nothing else

    A tally keeps its results only if a report will need them.  Two sessions that differ
    in nothing but kept results (`Session.SameButResults`) are alike to every step of a
    run: the world is the same, the tally is written and never asked, and the journal
    shows of it what it has counted.  So the cases of a run go the same way with a report
    and without one (`Harness.goThrough_alike`), and the summary and the exit code are
    read off what has been counted.

    What is left is the report itself, and the directories that it brings with it:
    **`Harness.report_only_adds_report`** -/

namespace RoundTrip

open Step (Blind EndAlike)

/-! ## Sessions without their results -/

/-- The tally that keeps no results. -/
def Tally.withoutResults (t : Tally) : Tally := { t with keepsResults := false, results := [] }

/-- To keep results or not does not change how sources are counted. -/
theorem Tally.withoutResults_addSources (t : Tally) (n : Int) :
    (t.addSources n).withoutResults = t.withoutResults.addSources n := rfl

/-- Nor does it change how a result is counted. -/
theorem Tally.withoutResults_add (t : Tally) (r : Finding) :
    (t.add r).withoutResults = t.withoutResults.add r := rfl

/-- The entry with a tally that keeps no results. -/
def Event.withoutResults : Event → Event
  | .finished r t => .finished r t.withoutResults
  | e => e

theorem Event.withoutResults_finished (r : Finding) (t : Tally) :
    (Event.finished r t).withoutResults = .finished r t.withoutResults := rfl

namespace Session

/-- Two sessions differ in nothing but the results that their tallies have kept. -/
structure SameButResults (s s' : Session) : Prop where
  world_eq : s'.world = s.world
  tally_eq : s'.tally.withoutResults = s.tally.withoutResults
  journal_eq : s'.journal.map Event.withoutResults = s.journal.map Event.withoutResults

variable {α : Type} {s s' : Session}

/-- The same may be noted in both journals. -/
theorem SameButResults.noted (h : SameButResults s s') {e e' : Event}
    (he : e'.withoutResults = e.withoutResults) : SameButResults (s.noted e) (s'.noted e') where
  world_eq := h.world_eq
  tally_eq := h.tally_eq
  journal_eq := by
    show (s'.journal ++ [e']).map _ = (s.journal ++ [e]).map _
    rw [List.map_append, List.map_append, h.journal_eq, List.map_singleton, List.map_singleton, he]

/-- The result that is noted is the same, and so is what the tally has counted. -/
theorem SameButResults.finished (h : SameButResults s s') (r : Finding) :
    SameButResults (s.noted (.finished r s.tally)) (s'.noted (.finished r s'.tally)) :=
  h.noted (by rw [Event.withoutResults_finished, Event.withoutResults_finished, h.tally_eq])

/-- An action on the world is the same in both sessions. -/
theorem blind_inWorld (x : Action World α) : Blind SameButResults (inWorld x) := by
  intro s s' h
  unfold inWorld Step.within
  rw [h.world_eq]
  cases x s.world with
  | ok a w => exact .ok ⟨rfl, rfl, h.tally_eq, h.journal_eq⟩
  | error e w => exact .error ⟨rfl, rfl, h.tally_eq, h.journal_eq⟩

theorem blind_note (e : Event) : Blind SameButResults (note e) :=
  fun _ _ h => .ok ⟨rfl, h.noted rfl⟩

/-- What is counted does not depend on the results. -/
theorem blind_count {f : Tally → Tally}
    (hf : ∀ t, (f t).withoutResults = f t.withoutResults) :
    Blind SameButResults (count f) :=
  fun s s' h => .ok ⟨rfl, h.world_eq, by
    show (f s'.tally).withoutResults = (f s.tally).withoutResults
    rw [hf, hf, h.tally_eq], h.journal_eq⟩

end Session

/-! ## Runs -/

namespace Plan

open Session (SameButResults blind_inWorld blind_note blind_count)

variable (p : Plan) (number : Nat)

/-- An examination does not look at the results that were kept. -/
theorem blind_examine (source dir : Path) :
    Blind SameButResults (p.examine number source dir) :=
  Step.blind_bind (blind_note _) fun _ =>
    Step.blind_bind (blind_inWorld _) fun splitting =>
      Step.blind_bind (blind_inWorld _) fun _ =>
        Step.blind_bind (blind_count fun t => t.withoutResults_addSources splitting.growth) fun _ =>
          blind_inWorld _

/-- A case does not either. -/
theorem blind_tryCase (source : Path) : Blind SameButResults (p.tryCase number source) := by
  refine Step.blind_bind (blind_inWorld _) fun dir => ?_
  refine Step.blind_bind
    (Step.blind_ensuring (p.blind_examine number source dir) (blind_inWorld _)) fun r => ?_
  refine Step.blind_bind (blind_count fun t => t.withoutResults_add r) fun _ => ?_
  exact Step.blind_bind (blind_inWorld _) fun _ => Step.blind_pure r

/-- **A case is blind to the results that were kept before it.** -/
theorem blind_step (source : Path) : Blind SameButResults (p.step number source) := by
  refine Step.blind_bind (blind_note _) fun _ => Step.blind_bind (blind_inWorld _) fun _ => ?_
  refine Step.blind_bind (p.blind_tryCase number source) fun r => ?_
  -- the tally is read here, but only to be shown in the journal
  intro s s' h
  rw [Step.bind_ok (Step.get_apply s), Step.bind_ok (Step.get_apply s')]
  refine EndAlike.bind (R := fun _ t _ t' => SameButResults t t') (.ok (h.finished r))
    fun _ t _ t' _ ht => ?_
  exact Step.blind_bind (blind_inWorld _) (fun _ => Step.blind_pure r) t t' ht

/-- A run does not either, by induction on its sources. -/
theorem blind_runFrom (sources : List Path) :
    Blind SameButResults (p.runFrom number sources) := by
  induction sources generalizing number with
  | nil => exact Step.blind_pure ()
  | cons source rest ih =>
      rw [runFrom]
      refine Step.blind_bind (p.blind_step number source) fun r => ?_
      split
      · exact blind_inWorld _
      · exact ih (number + 1)

end Plan

namespace Harness

open Session (SameButResults)

/-- What is asked for without a report. -/
def Options.withoutReport (o : Options) : Options := { o with report := none }

/-- What is asked for with a report. -/
def Options.withReport (o : Options) (path : Path) : Options := { o with report := some path }

variable {s : Configuration} {o : Options} {path : Path} {e : Fault} {w w' : World} {t : Tally}

/-- The cases go the same way with a report and without one. -/
theorem goThrough_alike (s : Configuration) (o : Options) (path : Path) (s₀ : Session) :
    EndAlike (fun _ t _ t' => SameButResults t t') (fun e t e' t' => e' = e ∧ SameButResults t t')
      (goThrough s o.withoutReport s₀) (goThrough s (o.withReport path) s₀) := by
  unfold goThrough
  refine EndAlike.bind (Step.blind_eq (Session.inWorld (prepare s o)) s₀ s₀ rfl |>.mono
    (fun _ _ _ _ h => h) fun _ _ _ _ h => ⟨h.1, ?_⟩) fun sources u sources' u' _ h => ?_
  · rw [h.2]
    exact ⟨rfl, rfl, rfl⟩
  · obtain ⟨rfl, rfl⟩ := h
    refine EndAlike.bind (R := fun _ t _ t' => SameButResults t t') (.ok ⟨rfl, rfl, rfl⟩)
      fun _ t _ t' _ ht => ?_
    exact ((plan s o).blind_runFrom 0 _ t t' ht).mono (fun _ _ _ _ h => h.2) fun _ _ _ _ h => h

/-- A run whose cases are ended by a fault has done what it does without a report. -/
theorem world_withoutReport {s₀ s' : Session} (h : goThrough s o s₀ = .error e s') :
    (Step.endState (run s o.withoutReport s₀)).world = s'.world := by
  rw [run_eq]
  cases hreport : o.report with
  | none =>
      have ho : o.withoutReport = o := by
        unfold Options.withoutReport
        rw [← hreport]
      rw [ho, Step.bind_error h]
      rfl
  | some path =>
      have ho : o.withReport path = o := by
        unfold Options.withReport
        rw [← hreport]
      have halike := goThrough_alike s o path s₀
      rw [ho, h] at halike
      generalize hx : goThrough s o.withoutReport s₀ = x at halike
      cases halike with
      | error hsame =>
          obtain ⟨rfl, hsame⟩ := hsame
          rw [Step.bind_error hx]
          exact hsame.world_eq.symm

/-- How a run ends that is to write a report, beside the same run without one.  Apart from
    kept results, the second session is the first with the report written in its world. -/
inductive Beside (s : Configuration) (o : Options) (path : Path) :
    EStateM.Result Fault Session Int → EStateM.Result Fault Session Int → Prop where
  /-- A fault ends both before there is a report. -/
  | broken {e : Fault} {t t' : Session} (hsame : t.SameButResults t') :
      Beside s o path (.error e t) (.error e t')
  /-- The report is written.  It stands where its path leads, and all that changed besides
      are directories that were made on the way to it. -/
  | written {code : Int} {t t' : Session} {d : Disk} {place : Place}
      (hsame : t.SameButResults { t' with world := t.world })
      (hworld : t'.world = { t.world with disk := d })
      (hfind : d.find t.world.cwd .target path = .ok place)
      (hreport : d.get? place = some (.file (Report.octets t'.tally o.mode s.compilerPath)))
      (hdisk : ∀ q, q ≠ place → d.get? q = t.world.disk.get? q
        ∨ Disk.MadeOnWay t.world.cwd path.parent t.world.disk d q) :
      Beside s o path (.ok code t) (.ok code t')
  /-- The report cannot be written.  Directories may have been made on the way to it. -/
  | refused {code : Int} {e : PathError} {t t' : Session} {d : Disk}
      (hsame : t.SameButResults { t' with world := t.world })
      (hworld : t'.world = { t.world with disk := d })
      (hwrite : Report.write path t'.tally o.mode s.compilerPath t.world
        = .error (.path e) t'.world)
      (hdisk : Disk.WayMade t.world.cwd path.parent t.world.disk d) :
      Beside s o path (.ok code t) (.error (.path e) t')

/-- **A report is all that is added where one is asked for.**  A run that is to write a report
    goes the way of the same run without one: it meets the same fault before there is a
    report, in the same world, or comes to the same exit code.  It has printed the same to
    both streams and started the same processes; the disk differs by the report and by the
    directories made on the way to it, and by no more than these where the report cannot be
    written. -/
theorem report_only_adds_report (s : Configuration) (o : Options) (path : Path) (s₀ : Session) :
    Beside s o path (run s o.withoutReport s₀) (run s (o.withReport path) s₀) := by
  have halike := goThrough_alike s o path s₀
  rw [run_eq, run_eq, Step.bind_apply, Step.bind_apply]
  generalize goThrough s o.withoutReport s₀ = r at halike
  generalize goThrough s (o.withReport path) s₀ = r' at halike
  cases halike with
  | error h =>
      obtain ⟨rfl, hsame⟩ := h
      exact .broken hsame
  | @ok _ _ t t' hsame =>
      obtain ⟨hworld, htally, hjournal⟩ := hsame
      obtain ⟨v, hv⟩ : ∃ v, v = ({ t.world with
          stdout := t.world.stdout ++ Report.printed t.tally
          stderr := t.world.stderr ++ Report.complained t.tally } : World) := ⟨_, rfl⟩
      have hsummary : Report.announceSummary t.tally t.world = .ok () v :=
        hv ▸ Report.announceSummary_apply t.tally t.world
      -- neither the summary nor the exit code asks for results
      have hsummary' : Report.announceSummary t'.tally t'.world = .ok () v := by
        rw [hworld, ← hsummary]
        show Report.announceSummary t'.tally.withoutResults t.world
          = Report.announceSummary t.tally.withoutResults t.world
        rw [htally]
      have hcode : exitCode t'.tally = exitCode t.tally := by
        show exitCode t'.tally.withoutResults = exitCode t.tally.withoutResults
        rw [htally]
      have hplain : conclude s o.withoutReport t.tally t.world = .ok () v := Step.bind_ok hsummary
      have hreport : conclude s (o.withReport path) t'.tally t'.world
          = Report.write path t'.tally o.mode s.compilerPath v := Step.bind_ok hsummary'
      dsimp only
      rw [Step.bind_ok (Step.get_apply t), Step.bind_ok (Session.inWorld_of_ok hplain),
        Step.bind_ok (Step.get_apply t')]
      -- what is left of the second run is the report
      obtain ⟨d, hfile, hwrite⟩ | ⟨e, d, hfile, hwrite⟩ :=
        Report.write_cases path t'.tally o.mode s.compilerPath v
      · obtain ⟨place, hfind, hcontent, hdisk⟩ := Disk.writeWithParents_eq_ok hfile
        rw [Step.bind_ok (Session.inWorld_of_ok (hreport.trans hwrite)), Step.pure_apply,
          Step.pure_apply, hcode]
        exact .written ⟨rfl, htally, hjournal⟩ rfl hfind hcontent hdisk
      · rw [Step.bind_error (Session.inWorld_of_error (hreport.trans hwrite)), Step.pure_apply]
        exact .refused ⟨rfl, htally, hjournal⟩ rfl hwrite (Disk.writeWithParents_eq_error hfile)

end Harness

end RoundTrip
