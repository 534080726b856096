import RoundTrip.Proofs.Calm
import RoundTrip.Proofs.Utf8
import RoundTrip.Proofs.Verdict

/-! # What a diagnostic shows

    Where a verification ends because the compiler refused to export or to import, a process of
    that call was started and came to a bad end in time (`Process.Fails`), and the diagnostic is
    made of its two streams: `Verification.refusal_of_verify`.

    Streams are octets.  Reading them back gives the text that was written, up to the first octet
    that belongs to no text, and what comes after changes nothing before it
    (`Text.decode_encode_append`).  So what the compiler said is shown as it stands:
    **`Verification.output_is_shown_verbatim`**. -/

namespace RoundTrip

/-! ## The process that failed -/

/-- The process of a command that is started in a world comes to a bad end in time. -/
structure Process.Fails (p : Process) (c : Command) (w : World) : Prop where
  started : ∃ u, c.start w = .ok p u
  inTime : p.timesOut c.limit = false
  failed : p.exitCode ≠ 0

/-- A finding shows both streams of a process that failed, as its command reports them. -/
def Finding.ShowsFailure (r : Finding) (c : Command) (w : World) : Prop :=
  ∃ p milliseconds, p.Fails c w ∧ r.diagnostic = (c.report p milliseconds).streams

/-- A report of a bad end in time is on a process that failed. -/
theorem Command.showsFailure_of_run {c : Command} {i : Invocation} {r : Finding} {w u : World}
    (hrun : c.run w = .ok i u) (htime : i.timedOut = false) (hexit : i.exitCode ≠ 0)
    (hr : r.diagnostic = i.streams) : r.ShowsFailure c w := by
  obtain ⟨stderr, p, v, milliseconds, hstart, rfl⟩ := exists_start_of_run hrun
  -- the line that is logged before the start has no part in it
  obtain ⟨stderr', hstart'⟩ := start_of_stderr hstart w.stderr
  have htime' : p.timesOut c.limit = false := htime
  have hexit' : p.exitCode ≠ 0 := by
    have hcode : (if p.timesOut c.limit then p.killedCode else p.exitCode) ≠ 0 := hexit
    rwa [htime', if_neg Bool.false_ne_true] at hcode
  exact ⟨p, milliseconds, ⟨⟨_, hstart'⟩, htime', hexit'⟩, hr⟩

/-- A text shows two streams as they were written.  Octets at the end of a stream that belong
    to no text are shown after the text before them, which stays as it is. -/
def Process.ShownIn (p : Process) (diagnostic : String) : Prop :=
  (∀ e o : String, p.stderr = Text.encode e → p.stdout = Text.encode o →
    diagnostic = "Compiler stderr:\n" ++ e ++ "\nCompiler stdout:\n" ++ o)
  ∧ ∀ (e o : String) (b b' : Bytes),
    p.stderr = Text.encode e ++ b → p.stdout = Text.encode o ++ b' →
    diagnostic = "Compiler stderr:\n" ++ (e ++ Text.decode b) ++ "\nCompiler stdout:\n"
      ++ (o ++ Text.decode b')

/-- Streams that are not forwarded are shown as they were written. -/
theorem Process.shownIn_streams {p : Process} {c : Command} (hout : c.forwardsStdout = false)
    (herr : c.forwardsStderr = false) (milliseconds : Int) :
    p.ShownIn (c.report p milliseconds).streams := by
  have hstreams : (c.report p milliseconds).streams
      = "Compiler stderr:\n" ++ Text.decode p.stderr ++ "\nCompiler stdout:\n"
        ++ Text.decode p.stdout := by
    unfold Invocation.streams Command.report
    rw [hout, herr]
    rfl
  rw [hstreams]
  constructor
  · intro e o he ho
    rw [he, ho, Text.decode_encode, Text.decode_encode]
  · intro e o b b' he ho
    rw [he, ho, Text.decode_encode_append, Text.decode_encode_append]

namespace Verification

variable {c : Case} {compiler : Compiler} {t : Comparator} {dir : Path} {i : Invocation}
  {r : Finding} {w w' : World}

/-! ## Before the calls that may be refused -/

/-- The call that imports the exported document. -/
def reimport (compiler : Compiler) (dir : Path) : Command :=
  compiler.importDocument (Path.ofString Artifact.expected.name) dir

/-- What a verification does before the export, if the probe comes to a good end. -/
def untilExport (c : Case) (compiler : Compiler) (dir : Path) : Action World Unit := do
  let _ ← (compiler.probe c.inputs dir).run
  guardArtifacts dir

/-- What it does before the reimport, if the export comes to a good end as well. -/
def untilReimport (c : Case) (compiler : Compiler) (dir : Path) : Action World Unit := do
  untilExport c compiler dir
  let exported ← (compiler.exportDocument c.inputs dir).run
  Workspace.store (Artifact.expected.path dir) exported.stdout

/-! ## The refusal, from the last stage to the first -/

/-- A finding with another verdict is no refusal. -/
theorem no_refusal {v : Verdict} {P Q : Prop} (hr : r.verdict = v) (hexport : v ≠ .exportFailed)
    (himport : v ≠ .importFailed) :
    (r.verdict = .exportFailed → P) ∧ (r.verdict = .importFailed → Q) := by
  rw [hr]
  exact ⟨fun h => absurd h hexport, fun h => absurd h himport⟩

/-- A call that ran out of time is the verdict.  Otherwise the verification goes on. -/
theorem timedOut_or_goes_on {step : String} {x : Action World Finding}
    (h : (if i.timedOut = true then pure (c.timedOut step i) else x) w = .ok r w') :
    r.verdict = .timedOut ∨ i.timedOut = false ∧ x w = .ok r w' := by
  by_cases htime : i.timedOut = true
  · rw [if_pos htime] at h
    cases h
    exact Or.inl rfl
  · rw [if_neg htime] at h
    exact Or.inr ⟨Bool.eq_false_iff.mpr htime, h⟩

/-- After the reimport the verdict is about the reimport or about the comparison. -/
theorem refusal_of_afterReimport (h : afterReimport c t dir i w = .ok r w') :
    r.verdict ≠ .exportFailed
      ∧ (r.verdict = .importFailed →
        i.timedOut = false ∧ i.exitCode ≠ 0 ∧ r.diagnostic = i.streams) := by
  rcases timedOut_or_goes_on h with hout | ⟨htime, h⟩
  · exact no_refusal hout (by decide) (by decide)
  obtain ⟨⟨⟩, w₁, -, h⟩ := Step.bind_eq_ok_iff.mp h
  obtain ⟨⟨⟩, w₂, -, h⟩ := Step.bind_eq_ok_iff.mp h
  by_cases hexit : i.exitCode ≠ 0
  · rw [if_pos hexit] at h
    cases h
    refine ⟨?_, fun _ => ⟨htime, hexit, rfl⟩⟩
    intro hr
    cases hr
  · rw [if_neg hexit] at h
    obtain ⟨difference, w₃, -, h⟩ := Step.bind_eq_ok_iff.mp h
    cases h
    rw [Difference.finding]
    by_cases hequal : difference.equal = true
    · rw [if_pos hequal]
      exact no_refusal (v := .passed) rfl (by decide) (by decide)
    · rw [if_neg hequal]
      exact no_refusal (v := .mismatched) rfl (by decide) (by decide)

theorem refusal_of_reimportAndCompare (h : reimportAndCompare c compiler t dir w = .ok r w') :
    r.verdict ≠ .exportFailed
      ∧ (r.verdict = .importFailed → r.ShowsFailure (reimport compiler dir) w) := by
  rw [reimportAndCompare_eq] at h
  obtain ⟨i, u, hrun, h⟩ := Step.bind_eq_ok_iff.mp h
  obtain ⟨hexport, himport⟩ := refusal_of_afterReimport h
  refine ⟨hexport, ?_⟩
  intro hr
  obtain ⟨htime, hexit, hdiagnostic⟩ := himport hr
  exact Command.showsFailure_of_run hrun htime hexit hdiagnostic

theorem refusal_of_roundTrip (h : roundTrip c compiler t dir w = .ok r w') :
    (r.verdict = .exportFailed → r.ShowsFailure (compiler.exportDocument c.inputs dir) w)
      ∧ (r.verdict = .importFailed → ∃ i u v,
        (compiler.exportDocument c.inputs dir).run w = .ok i u
          ∧ Workspace.store (Artifact.expected.path dir) i.stdout u = .ok () v
          ∧ r.ShowsFailure (reimport compiler dir) v) := by
  rw [roundTrip_eq] at h
  obtain ⟨i, u, hrun, h⟩ := Step.bind_eq_ok_iff.mp h
  rcases timedOut_or_goes_on h with hout | ⟨htime, h⟩
  · exact no_refusal hout (by decide) (by decide)
  obtain ⟨⟨⟩, v, hstore, h⟩ := Step.bind_eq_ok_iff.mp h
  -- a bad export is the refusal; after a good one only the reimport can be it
  by_cases hexit : i.exitCode ≠ 0
  · rw [if_pos hexit] at h
    cases h
    constructor
    · intro hr
      exact Command.showsFailure_of_run hrun htime hexit rfl
    · intro hr
      cases hr
  · rw [if_neg hexit] at h
    obtain ⟨hexport, himport⟩ := refusal_of_reimportAndCompare h
    constructor
    · intro hr
      exact absurd hr hexport
    · intro hr
      exact ⟨i, u, v, hrun, hstore, himport hr⟩

/-- **A refusal is a failed process**: that of the export, started after the probe, or that of
    the reimport, started after the export. -/
theorem refusal_of_verify (h : verify c compiler t dir w = .ok r w') :
    (r.verdict = .exportFailed → ∃ u, untilExport c compiler dir w = .ok () u
        ∧ r.ShowsFailure (compiler.exportDocument c.inputs dir) u)
      ∧ (r.verdict = .importFailed → ∃ u, untilReimport c compiler dir w = .ok () u
        ∧ r.ShowsFailure (reimport compiler dir) u) := by
  rw [verify] at h
  obtain ⟨i, u, hrun, h⟩ := Step.bind_eq_ok_iff.mp h
  rcases timedOut_or_goes_on h with hout | ⟨-, h⟩
  · exact no_refusal hout (by decide) (by decide)
  by_cases hexit : i.exitCode ≠ 0
  · rw [if_pos hexit] at h
    cases h
    exact no_refusal (v := .uncompilable) rfl (by decide) (by decide)
  rw [if_neg hexit] at h
  obtain ⟨⟨⟩, v, hguard, h⟩ := Step.bind_eq_ok_iff.mp h
  -- whether the artifacts can be taken away has no part in the finding
  obtain ⟨v', hround, -⟩ := Step.of_ensuring_eq_ok h
  obtain ⟨hexport, himport⟩ := refusal_of_roundTrip hround
  have huntil : untilExport c compiler dir w = .ok () v := by
    rw [untilExport, Step.bind_ok hrun, hguard]
  constructor
  · intro hr
    exact ⟨v, huntil, hexport hr⟩
  · intro hr
    obtain ⟨i', v₁, v₂, hrun', hstore, hshows⟩ := himport hr
    refine ⟨v₂, ?_, hshows⟩
    rw [untilReimport, Step.bind_ok huntil, Step.bind_ok hrun', hstore]

/-- **The output of the compiler is shown verbatim.**  A text that was encoded is read back
    whatever octets follow it, and they are read as they would be without it.  So where the
    verdict is that the document could not be imported, or that it could not be exported and the
    error stream was not forwarded, the call has failed and the diagnostic holds both texts that
    its process has written, each as it stands; octets after it that belong to no text leave it
    alone. -/
theorem output_is_shown_verbatim :
    (∀ (s : String) (b : Bytes), Text.decode (Text.encode s ++ b) = s ++ Text.decode b)
      ∧ Text.decode [] = ""
      ∧ ∀ (c : Case) (compiler : Compiler) (t : Comparator) (dir : Path) (r : Finding)
        (w w' : World), verify c compiler t dir w = .ok r w' →
          (r.verdict = .importFailed →
            ∃ (u : World) (p : Process), untilReimport c compiler dir w = .ok () u
              ∧ p.Fails (reimport compiler dir) u ∧ p.ShownIn r.diagnostic)
          ∧ (r.verdict = .exportFailed → compiler.showErrors = false →
            ∃ (u : World) (p : Process), untilExport c compiler dir w = .ok () u
              ∧ p.Fails (compiler.exportDocument c.inputs dir) u ∧ p.ShownIn r.diagnostic) := by
  refine ⟨Text.decode_encode_append, rfl, ?_⟩
  intro c compiler t dir r w w' h
  obtain ⟨hexport, himport⟩ := refusal_of_verify h
  constructor
  · intro hr
    obtain ⟨u, huntil, p, milliseconds, hfails, hdiagnostic⟩ := himport hr
    refine ⟨u, p, huntil, hfails, ?_⟩
    rw [hdiagnostic]
    exact Process.shownIn_streams rfl rfl milliseconds
  · intro hr hkept
    obtain ⟨u, huntil, p, milliseconds, hfails, hdiagnostic⟩ := hexport hr
    refine ⟨u, p, huntil, hfails, ?_⟩
    rw [hdiagnostic]
    exact Process.shownIn_streams rfl hkept milliseconds

/-- A compiler that refuses to import, and breaks off within a character. -/
def Trial.breakingOff : Process :=
  { Process.idle with
    exitCode := 3
    stdout := Text.encode "{}\n"
    stderr := Text.encode "café " ++ [0xE2, 0x82] }

def Trial.brokenOff : World := Trial.world [.idle, Trial.printing "{}\n", Trial.breakingOff]

/-- The octets of a character that was broken off leave the text before them alone. -/
theorem broken_off_output_is_shown :
    ∃ r w', verify Trial.subject Trial.compiler Trial.diff Trial.dir Trial.brokenOff = .ok r w'
      ∧ r.verdict = .importFailed
      ∧ r.diagnostic = "Compiler stderr:\ncafé \ufffd\nCompiler stdout:\n{}\n" := by
  obtain ⟨r, w', hverify, hverdict⟩ := Step.exists_of_checks
    (r := verify Trial.subject Trial.compiler Trial.diff Trial.dir Trial.brokenOff)
    (P := fun r _ => r.verdict = .importFailed) (by decide +kernel)
  have hplayed : Step.checks ((untilReimport Trial.subject Trial.compiler Trial.dir
        >>= fun _ => (reimport Trial.compiler Trial.dir).start) Trial.brokenOff)
      (fun p _ => p.stderr = Text.encode "café " ++ [0xE2, 0x82]
        ∧ p.stdout = Text.encode "{}\n" ++ []) = true := by decide +kernel
  obtain ⟨-, -, hverbatim⟩ := output_is_shown_verbatim
  obtain ⟨u, p, huntil, ⟨⟨v, hstart⟩, -, -⟩, -, hshown⟩ :=
    (hverbatim _ _ _ _ r _ w' hverify).1 hverdict
  rw [Step.bind_ok huntil, hstart] at hplayed
  obtain ⟨herr, hout⟩ := of_decide_eq_true hplayed
  refine ⟨r, w', hverify, hverdict, ?_⟩
  rw [hshown "café " "{}\n" [0xE2, 0x82] [] herr hout]
  rfl

end Verification

end RoundTrip
