import RoundTrip.Proofs.Artifact
import RoundTrip.Proofs.Command

/-! # The course of a verification

    A verification is written as steps on the world: it looks paths up, guards
    names, writes and removes files, and unwinds at a fault.  Its *course* says
    the same without any of that.  There are four stages, each with a command and
    with what is kept of its output; a stage is entered exactly if the one before
    came to a good end, and the reply to the last call alone settles the verdict.

    The commands of a course are the first ones of its stages (`course_prefix`), it
    goes on after a call exactly if that came to a good end (`course_goes_on`), and
    each reply is a report on the process that the script has there
    (`course_reply`). -/

namespace RoundTrip

/-- What a start shows: the words, the directory, and what stood under the names
    of the artifacts. -/
def Spawn.seen (s : Spawn) : List String × Path × List (Artifact × Node) :=
  (s.argv, s.cwd, s.artifacts)

namespace Verification

/-! ## Stages and calls -/

/-- A step of a verification: a command, and which parts of its report are kept as
    artifacts. -/
structure Stage where
  command : Command
  keeps : List (Artifact × (Invocation → Bytes))

/-- A command that was run, with what was kept when it started and what came of
    it. -/
structure Call where
  command : Command
  kept : Kept
  reply : Except Fault Invocation

namespace Call

/-- What the start of a call shows. -/
def seen (k : Call) : List String × Path × List (Artifact × Node) :=
  (k.command.argv, k.command.cwd, k.kept.shown)

/-- A call came to a good end: its process was not killed, and it exited with 0. -/
def Succeeded (k : Call) : Prop :=
  ∃ i, k.reply = .ok i ∧ i.timedOut = false ∧ i.exitCode = 0

instance : DecidablePred Succeeded := fun k =>
  match h : k.reply with
  | .ok i => decidable_of_iff (i.timedOut = false ∧ i.exitCode = 0) <| by simp [Succeeded, h]
  | .error _ => isFalse <| by simp [Succeeded, h]

end Call

namespace Stage

/-- What is kept after a stage. -/
def keep (s : Stage) (i : Invocation) (k : Kept) : Kept :=
  s.keeps.foldl (fun k part => k.set part.1 (some (part.2 i))) k

/-- The world with what a stage keeps, when the directory is at `place`. -/
def store (s : Stage) (place : Place) (i : Invocation) (w : World) : World :=
  s.keeps.foldl
    (fun w part => { w with disk := w.disk.put (place ++ [part.1.name]) (.file (part.2 i)) }) w

end Stage

/-- The calls that stages come to. -/
def course (place : Place) : List Stage → Kept → World → List Call
  | [], _, _ => []
  | s :: rest, k, w =>
      match s.command.run w with
      | .error e _ => [⟨s.command, k, .error e⟩]
      | .ok i w' =>
          ⟨s.command, k, .ok i⟩
            :: if i.ok then course place rest (s.keep i k) (s.store place i w') else []

/-- The comparison of the two documents. -/
def comparison (t : Comparator) (words : List String) (dir : Path) : Command where
  argv := words ++ [(Artifact.expected.path dir).text, (Artifact.obtained.path dir).text]
  cwd := dir
  limit := t.limit
  forwardsStdout := false
  forwardsStderr := false

/-- The four stages: probe, export, reimport and comparison. -/
def stages (c : Case) (compiler : Compiler) (t : Comparator) (words : List String) (dir : Path) :
    List Stage :=
  [⟨compiler.probe c.inputs dir, []⟩,
    ⟨compiler.exportDocument c.inputs dir, [(.expected, Invocation.stdout)]⟩,
    ⟨compiler.importDocument (Path.ofString Artifact.expected.name) dir,
      [(.obtained, Invocation.stdout), (.messages, Invocation.stderr)]⟩,
    ⟨comparison t words dir, []⟩]

/-- All stages run in the directory of the case. -/
theorem cwd_stages {c : Case} {compiler : Compiler} {t : Comparator} {words : List String}
    {dir : Path} (s : Stage) (hs : s ∈ stages c compiler t words dir) : s.command.cwd = dir := by
  simp only [stages, List.mem_cons, List.not_mem_nil, or_false] at hs
  rcases hs with rfl | rfl | rfl | rfl <;> rfl

/-- How a verification ends whose last call came after `ended` calls with a good
    end.  A process that was killed is a matter of time, whatever its exit code. -/
def settle (c : Case) (t : Comparator) : (ended : Nat) → Except Fault Invocation →
    Except Fault Finding
  | _, .error e => .error e
  | 0, .ok i => .ok <|
      if i.timedOut then c.timedOut "probe" i
      else
        { subject := c
          verdict := .uncompilable
          message := "probe exit=" ++ toString i.exitCode
          diagnostic := "" }
  | 1, .ok i => .ok <|
      if i.timedOut then c.timedOut "export" i
      else
        { subject := c
          verdict := .exportFailed
          message :=
            "AST export failed after successful compilation (exit=" ++ toString i.exitCode ++ ")"
          diagnostic := i.streams }
  | 2, .ok i => .ok <|
      if i.timedOut then c.timedOut "reimport" i
      else
        { subject := c
          verdict := .importFailed
          message := "AST reimport failed (exit=" ++ toString i.exitCode ++ ")"
          diagnostic := i.streams }
  | _, .ok i =>
      if i.timedOut = false ∧ i.exitCode = 0 then
        .ok { subject := c, verdict := .passed, message := "", diagnostic := "" }
      else if i.timedOut = false ∧ i.exitCode = 1 then
        .ok
          { subject := c
            verdict := .mismatched
            message := "AST reimport produced different JSON"
            diagnostic := Text.decode i.stdout }
      else
        .error (.defect
          (.diffFailed t.words i.exitCode (Text.decode i.stdout ++ Text.decode i.stderr)))

/-! ## The shape of a course -/

theorem Invocation.ok_iff {i : Invocation} : i.ok = true ↔ i.timedOut = false ∧ i.exitCode = 0 := by
  simp [Invocation.ok, and_comm]

theorem Invocation.not_ok_iff {i : Invocation} :
    i.ok = false ↔ i.timedOut = true ∨ i.timedOut = false ∧ i.exitCode ≠ 0 := by
  cases ht : i.timedOut <;> simp [Invocation.ok, ht]

/-- The commands of a course are the first ones of its stages. -/
theorem course_prefix (place : Place) (ss : List Stage) (k : Kept) (w : World) :
    (course place ss k w).map Call.command <+: ss.map Stage.command := by
  induction ss generalizing k w with
  | nil => exact List.prefix_refl _
  | cons s rest ih =>
      rw [course]
      cases s.command.run w with
      | error e w' => simp
      | ok i w' =>
          by_cases hi : i.ok = true
          · simpa [hi] using ih _ _
          · simp [hi]

/-- All calls of a course but the last came to a good end, and if the last did too,
    it was the last stage. -/
theorem course_shape (place : Place) (ss : List Stage) (hs : ss ≠ []) (k : Kept) (w : World) :
    ∃ earlier last, course place ss k w = earlier ++ [last]
      ∧ (∀ call ∈ earlier, call.Succeeded)
      ∧ (last.Succeeded → earlier.length + 1 = ss.length) := by
  induction ss generalizing k w with
  | nil => exact absurd rfl hs
  | cons s rest ih =>
      rw [course]
      cases s.command.run w with
      | error e w' =>
          refine ⟨[], _, rfl, by simp, ?_⟩
          rintro ⟨i, hi, -⟩
          cases hi
      | ok i w' =>
          -- a bad end is the last call of the course; a good one is so only if no stage is
          -- left
          by_cases hi : i.ok = true
          · have hgood : (Call.mk s.command k (.ok i)).Succeeded :=
              ⟨i, rfl, Invocation.ok_iff.mp hi⟩
            cases rest with
            | nil =>
                exact ⟨[], ⟨s.command, k, .ok i⟩, by simp [hi, course], by simp, fun _ => rfl⟩
            | cons s' rest =>
                obtain ⟨earlier, last, heq, hearlier, hlast⟩ :=
                  ih (List.cons_ne_nil _ _) (s.keep i k) (s.store place i w')
                refine ⟨⟨s.command, k, .ok i⟩ :: earlier, last, ?_, ?_, fun h => ?_⟩
                · simp only [if_pos hi, heq, List.cons_append]
                · exact List.forall_mem_cons.mpr ⟨hgood, hearlier⟩
                · simp [hlast h]
          · refine ⟨[], ⟨s.command, k, .ok i⟩, by simp [hi], by simp, ?_⟩
            rintro ⟨i', hi', hok⟩
            cases hi'
            exact absurd (Invocation.ok_iff.mpr hok) hi

/-- After a call with a good end, a course goes on with what has been kept. -/
theorem course_cons (place : Place) {s : Stage} {rest : List Stage} {k : Kept} {w : World}
    (h : ∀ call, (course place (s :: rest) k w).head? = some call → call.Succeeded) :
    ∃ i w', course place (s :: rest) k w
      = ⟨s.command, k, .ok i⟩ :: course place rest (s.keep i k) (s.store place i w') := by
  rw [course] at h ⊢
  cases hr : s.command.run w with
  | error e w' =>
      rw [hr] at h
      obtain ⟨i, hi, -⟩ := h _ rfl
      cases hi
  | ok i w' =>
      rw [hr] at h
      obtain ⟨i', hi', hgood⟩ := h _ rfl
      cases hi'
      refine ⟨i, w', ?_⟩
      simp only [if_pos (Invocation.ok_iff.mpr hgood)]

/-- A course of one stage is one call. -/
theorem course_singleton (place : Place) (s : Stage) (k : Kept) (w : World) :
    ∃ reply, course place [s] k w = [⟨s.command, k, reply⟩] := by
  rw [course]
  cases s.command.run w with
  | error e w' => exact ⟨_, rfl⟩
  | ok i w' => exact ⟨.ok i, by simp [course]⟩

/-- A course goes on after a call exactly if that came to a good end. -/
theorem course_goes_on (place : Place) {ss : List Stage} {k : Kept} {w : World} {m : Nat}
    {call : Call} (hm : (course place ss k w)[m]? = some call) (hlt : m + 1 < ss.length) :
    m + 1 < (course place ss k w).length ↔ call.Succeeded := by
  have hs : ss ≠ [] := by
    rintro rfl
    exact absurd hlt (Nat.not_lt_zero _)
  obtain ⟨earlier, last, heq, hearlier, hlast⟩ := course_shape place ss hs k w
  rw [heq] at hm ⊢
  rw [List.length_append, List.length_singleton, Nat.add_lt_add_iff_right]
  constructor
  · intro hlen
    rw [List.getElem?_append_left hlen] at hm
    exact hearlier call (List.mem_of_getElem? hm)
  · intro hgood
    refine Nat.lt_of_not_le fun hlen => ?_
    rw [List.getElem?_append_right hlen] at hm
    obtain ⟨hsub, rfl⟩ := List.getElem?_eq_some_iff.mp hm
    have hend := hlast (by simpa using hgood)
    simp only [List.length_singleton] at hsub
    omega

theorem Stage.script_store (s : Stage) (place : Place) (i : Invocation) (w : World) :
    (s.store place i w).script = w.script := by
  unfold Stage.store
  induction s.keeps generalizing w with
  | nil => rfl
  | cons part parts ih => exact ih _

/-- The m-th reply is a report on the process that the m-th entry of the script
    plays. -/
theorem course_reply (place : Place) (ss : List Stage) (k : Kept) (w : World) {m : Nat}
    {call : Call} {i : Invocation} (hm : (course place ss k w)[m]? = some call)
    (hi : call.reply = .ok i) :
    ∃ contents p milliseconds,
      ((w.script.drop m).headD .idle).withContents? contents = some p
        ∧ i = call.command.report p milliseconds := by
  -- by induction on the stages; each one that is reached takes an entry of the script
  induction ss generalizing k w m with
  | nil => simp [course] at hm
  | cons s rest ih =>
      rw [course] at hm
      cases hr : s.command.run w with
      | error e w' =>
          rw [hr] at hm
          cases m with
          | zero => cases hm; cases hi
          | succ m => simp at hm
      | ok j w' =>
          rw [hr] at hm
          cases m with
          | zero =>
              cases hm
              cases hi
              exact Command.run_eq_ok hr
          | succ m =>
              by_cases hj : j.ok = true
              · have htail :
                    (course place rest (s.keep j k) (s.store place j w'))[m]? = some call := by
                  simpa [hj] using hm
                obtain ⟨contents, p, ms, hp, hcall⟩ := ih _ _ htail
                refine ⟨contents, p, ms, ?_, hcall⟩
                have hscript : w'.script = w.script.tail := by
                  have := (Command.ran_run s.command w).script_eq
                  rwa [hr] at this
                rwa [Stage.script_store, hscript, List.drop_tail] at hp
              · simp [hj] at hm

end Verification

end RoundTrip
