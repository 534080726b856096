import RoundTrip.Tool.Compiler
import RoundTrip.Tool.Comparator
import RoundTrip.Case.Basic
import RoundTrip.World.Workspace

/-! # Verifying the round trip

    The verification of a case runs in a directory of its own and takes up to
    four processes: the probe, the export, the reimport and the comparison.
    Each is started only if the one before it came to a good end; otherwise the
    verdict is settled.

    The artifacts are written between the steps.  None of them may be there
    before, and none is left afterwards, whichever way the verification ends. -/

namespace RoundTrip.Verification

/-- The last two steps: imports the exported document, exports it again and
    compares the two. -/
def reimportAndCompare (c : Case) (compiler : Compiler) (comparator : Comparator) (dir : Path) :
    Action World Finding := do
  let reimported ← (compiler.importDocument (Path.ofString Artifact.expected.name) dir).run
  if reimported.timedOut then pure (c.timedOut "reimport" reimported)
  else
    Workspace.store (Artifact.obtained.path dir) reimported.stdout
    Workspace.store (Artifact.messages.path dir) reimported.stderr
    -- both streams are kept as files before the exit code is looked at
    if reimported.exitCode ≠ 0 then
      pure
        { subject := c
          verdict := .importFailed
          message := "AST reimport failed (exit=" ++ toString reimported.exitCode ++ ")"
          diagnostic := reimported.streams }
    else
      let difference ← comparator.compare (Artifact.expected.path dir) (Artifact.obtained.path dir)
      if difference.equal then
        pure { subject := c, verdict := .passed, message := "", diagnostic := "" }
      else
        pure
          { subject := c
            verdict := .mismatched
            message := "AST reimport produced different JSON"
            diagnostic := difference.output }

/-- The steps after the probe. -/
def roundTrip (c : Case) (compiler : Compiler) (comparator : Comparator) (dir : Path) :
    Action World Finding := do
  let exported ← (compiler.exportDocument c.inputs dir).run
  if exported.timedOut then pure (c.timedOut "export" exported)
  else
    Workspace.store (Artifact.expected.path dir) exported.stdout
    if exported.exitCode ≠ 0 then
      pure
        { subject := c
          verdict := .exportFailed
          message :=
            "AST export failed after successful compilation (exit="
              ++ toString exported.exitCode ++ ")"
          diagnostic := exported.streams }
    else reimportAndCompare c compiler comparator dir

/-- Makes sure that no artifact is there yet. -/
def guardArtifacts (dir : Path) : Action World Unit :=
  Artifact.all.forM fun a => Workspace.refuseExisting (a.path dir)

/-- Verifies a case in a directory. -/
def verify (c : Case) (compiler : Compiler) (comparator : Comparator) (dir : Path) :
    Action World Finding := do
  let probe ← (compiler.probe c.inputs dir).run
  if probe.timedOut then pure (c.timedOut "probe" probe)
  else if probe.exitCode ≠ 0 then
    pure
      { subject := c
        verdict := .uncompilable
        message := "probe exit=" ++ toString probe.exitCode
        diagnostic := "" }
  else
    guardArtifacts dir
    Step.ensuring (roundTrip c compiler comparator dir) (Workspace.clearArtifacts dir)

end RoundTrip.Verification
