import RoundTrip.Proofs.Course

/-! # The verification follows its course

    A world is `InCase` while a case is verified in a vacant directory: what its
    processes may still do stays in the directory and off the artifacts, and the
    disk holds what has been kept.  Commands and stores keep that up, so each
    stage of the verification meets the world that its course expects.

    `Follows` compares the end of a step with calls.  It is proved from the last
    stage to the first: a stage either settles the verdict (`Settles`) or hands
    over to the next one (`follows_stage`).

    **`follows_verify`**: the verification starts the processes of its course, with
    what has been kept under the names of the artifacts, and ends as `settle` says
    of the last reply.  It leaves no artifact, whichever way it ends
    (`keeps_inCase_verify`). -/

namespace RoundTrip.Verification

open Step (outcome endState)

/-- A case is being verified in a directory. -/
structure InCase (d₀ : Disk) (cwd dir : Path) (place : Place) (k : Kept) (w : World) : Prop where
  cwd_eq : w.cwd = cwd
  scripted : ∀ p ∈ w.script, ∀ e ∈ p.effects, e.StaysIn d₀ (cwd / dir) place
  holds : Holds d₀ place k w.disk

namespace InCase

variable {d₀ : Disk} {cwd dir : Path} {place : Place} {k : Kept} {w : World}

theorem effects_head (h : InCase d₀ cwd dir place k w) :
    ∀ e ∈ (w.script.headD .idle).effects, e.StaysIn d₀ (cwd / dir) place := by
  cases hs : w.script with
  | nil => exact fun e he => nomatch he
  | cons p rest => exact h.scripted p (by rw [hs]; exact List.mem_cons_self)

/-- Whatever comes of a command in the directory, the case goes on, and the start
    shows what is kept. -/
theorem run (hv : Vacant d₀ cwd dir place) (h : InCase d₀ cwd dir place k w) {c : Command}
    (hc : c.cwd = dir) :
    InCase d₀ cwd dir place k (endState (c.run w))
      ∧ ∃ s : Spawn, (endState (c.run w)).spawns = w.spawns ++ [s]
        ∧ s.seen = (c.argv, c.cwd, k.shown) := by
  have hran := Command.ran_run c w
  refine ⟨⟨hran.cwd_eq.trans h.cwd_eq, fun p hp => ?_, ?_⟩, ?_⟩
  · rw [hran.script_eq] at hp
    exact h.scripted p (List.mem_of_mem_tail hp)
  · obtain hdisk | hdisk := hran.disk
    · rw [hdisk]
      exact h.holds
    · rw [hdisk, h.cwd_eq, hc]
      exact Holds.effects hv h.effects_head w.disk h.holds
  · obtain ⟨limit, killed, hspawns⟩ := hran.spawns_eq
    refine ⟨_, hspawns, ?_⟩
    show (c.argv, c.cwd, Artifact.present w.disk w.cwd c.cwd) = _
    rw [h.cwd_eq, hc, Holds.present_eq hv h.holds]

theorem put (h : InCase d₀ cwd dir place k w) (a : Artifact) (content : Bytes) :
    InCase d₀ cwd dir place (k.set a (some content))
      { w with disk := w.disk.put (place ++ [a.name]) (.file content) } :=
  ⟨h.cwd_eq, h.scripted, h.holds.put a content⟩

end InCase

section Following

variable {d₀ : Disk} {cwd dir : Path} {place : Place} {k : Kept} {w : World}
variable {c : Case} {t : Comparator}

/-- A step without a process ended as the reply to the last call has it. -/
structure Settles (d₀ : Disk) (cwd dir : Path) (place : Place) (c : Case) (t : Comparator)
    (ended : Nat) (reply : Except Fault Invocation) (w : World)
    (r : EStateM.Result Fault World Finding) : Prop where
  spawns_eq : (endState r).spawns = w.spawns
  settled : outcome r = settle c t ended reply
  inCase : ∃ k, InCase d₀ cwd dir place k (endState r)

/-- A step ended as the last of its calls has it, after `ended` calls before
    them. -/
structure Follows (d₀ : Disk) (cwd dir : Path) (place : Place) (c : Case) (t : Comparator)
    (ended : Nat) (calls : List Call) (w : World)
    (r : EStateM.Result Fault World Finding) : Prop where
  started : ∃ started, (endState r).spawns = w.spawns ++ started
    ∧ started.map Spawn.seen = calls.map Call.seen
  settled : ∃ earlier last, calls = earlier ++ [last]
    ∧ outcome r = settle c t (ended + earlier.length) last.reply
  inCase : ∃ k, InCase d₀ cwd dir place k (endState r)

theorem settle_error (c : Case) (t : Comparator) (ended : Nat) (e : Fault) :
    settle c t ended (.error e) = .error e := by
  rcases ended with _ | _ | _ | _ <;> rfl

/-- A last call settles the verdict. -/
theorem Settles.follows {ended : Nat} {call : Call} {s : Spawn} {w' : World}
    {r : EStateM.Result Fault World Finding}
    (h : Settles d₀ cwd dir place c t ended call.reply w' r)
    (hspawns : w'.spawns = w.spawns ++ [s]) (hs : s.seen = call.seen) :
    Follows d₀ cwd dir place c t ended [call] w r := by
  refine ⟨⟨[s], ?_, ?_⟩, ⟨[], call, rfl, h.settled⟩, h.inCase⟩
  · rw [h.spawns_eq, hspawns]
  · rw [List.map_singleton, List.map_singleton, hs]

/-- Calls may follow a call. -/
theorem Follows.cons {ended : Nat} {call : Call} {calls : List Call} {s : Spawn} {w' : World}
    {r : EStateM.Result Fault World Finding}
    (h : Follows d₀ cwd dir place c t (ended + 1) calls w' r)
    (hspawns : w'.spawns = w.spawns ++ [s]) (hs : s.seen = call.seen) :
    Follows d₀ cwd dir place c t ended (call :: calls) w r := by
  obtain ⟨⟨started, hstarted, hseen⟩, ⟨earlier, last, rfl, hsettled⟩, hin⟩ := h
  refine ⟨⟨s :: started, ?_, ?_⟩, ⟨call :: earlier, last, rfl, ?_⟩, hin⟩
  · rw [hstarted, hspawns, List.append_assoc, List.singleton_append]
  · rw [List.map_cons, List.map_cons, hs, hseen]
  · rw [hsettled, List.length_cons, Nat.add_assoc, Nat.add_comm 1]

/-- A stage of a verification.  It settles the verdict after a bad end and where
    it is the last one; otherwise it goes on with the other stages, in the world
    with what it keeps. -/
theorem follows_stage (hv : Vacant d₀ cwd dir place) (h : InCase d₀ cwd dir place k w)
    {s : Stage} {rest : List Stage} {ended : Nat} {f : Invocation → Action World Finding}
    (hs : s.command.cwd = dir)
    (hsettles : ∀ i w', InCase d₀ cwd dir place k w' → i.ok = false ∨ rest = [] →
      Settles d₀ cwd dir place c t ended (.ok i) w' (f i w'))
    (hgoes : ∀ i w', InCase d₀ cwd dir place k w' → i.ok = true → rest ≠ [] →
      Follows d₀ cwd dir place c t (ended + 1)
        (course place rest (s.keep i k) (s.store place i w')) w' (f i w')) :
    Follows d₀ cwd dir place c t ended (course place (s :: rest) k w) w
      ((s.command.run >>= f) w) := by
  obtain ⟨hin, start, hspawns, hseen⟩ := h.run hv hs
  rw [course]
  cases hr : s.command.run w with
  | error e w' =>
      rw [hr] at hin hspawns
      rw [Step.bind_error hr]
      exact Settles.follows ⟨rfl, (settle_error c t ended e).symm, k, hin⟩ hspawns hseen
  | ok i w' =>
      rw [hr] at hin hspawns
      rw [Step.bind_ok hr]
      -- a bad end settles the case at this stage; after a good one the next stage follows, if
      -- there is one
      by_cases hi : i.ok = true
      · by_cases hrest : rest = []
        · subst hrest
          simp only [if_pos hi, course]
          exact (hsettles i w' hin (Or.inr rfl)).follows hspawns hseen
        · simp only [if_pos hi]
          exact (hgoes i w' hin hi hrest).cons hspawns hseen
      · simp only [if_neg hi]
        exact (hsettles i w' hin (Or.inl (by simpa using hi))).follows hspawns hseen

/-- A result that is there without another process settles the verdict. -/
theorem Settles.pure (h : InCase d₀ cwd dir place k w) {ended : Nat} {i : Invocation}
    {r : Finding} (hr : settle c t ended (.ok i) = .ok r) :
    Settles d₀ cwd dir place c t ended (.ok i) w (.ok r w) :=
  ⟨rfl, hr.symm, k, h⟩

/-- What is stored does not show in what settles the verdict. -/
theorem Settles.of_put {ended : Nat} {reply : Except Fault Invocation} {d : Disk}
    {r : EStateM.Result Fault World Finding}
    (h : Settles d₀ cwd dir place c t ended reply { w with disk := d } r) :
    Settles d₀ cwd dir place c t ended reply w r :=
  ⟨h.spawns_eq, h.settled, h.inCase⟩

/-- What is stored does not show in what has been started. -/
theorem Follows.of_put {ended : Nat} {calls : List Call} {d : Disk}
    {r : EStateM.Result Fault World Finding}
    (h : Follows d₀ cwd dir place c t ended calls { w with disk := d } r) :
    Follows d₀ cwd dir place c t ended calls w r :=
  ⟨h.started, h.settled, h.inCase⟩

/-! ## The stages, from the last to the first -/

variable {compiler : Compiler} {words : List String}

/-- What the exit of the comparison tool says. -/
def judge (t : Comparator) (dir : Path) (i : Invocation) : Action World Difference :=
  if !i.timedOut && (i.exitCode == 0 || i.exitCode == 1) then do
    World.log .comparison
      ("diff " ++ (Artifact.expected.path dir).name ++ " " ++ (Artifact.obtained.path dir).name
        ++ " -> " ++ toString i.exitCode)
    pure ⟨i.exitCode == 0, Text.decode i.stdout⟩
  else
    throw (.defect
      (.diffFailed t.words i.exitCode (Text.decode i.stdout ++ Text.decode i.stderr)))

/-- The comparison of the two documents is one command. -/
theorem compare_eq (hw : Text.ShellWords.split t.words = .ok words) (dir : Path) :
    t.compare (Artifact.expected.path dir) (Artifact.obtained.path dir)
      = (comparison t words dir).run >>= judge t dir := by
  unfold Comparator.compare Comparator.argv
  rw [hw, Artifact.parent_path]
  exact pure_bind _ _

/-- The verdict of a comparison. -/
def Difference.finding (c : Case) (d : Difference) : Finding :=
  if d.equal then { subject := c, verdict := .passed, message := "", diagnostic := "" }
  else
    { subject := c
      verdict := .mismatched
      message := "AST reimport produced different JSON"
      diagnostic := d.output }

theorem settles_judge (h : InCase d₀ cwd dir place k w) (i : Invocation) :
    Settles d₀ cwd dir place c t 3 (.ok i) w
      ((judge t dir i >>= fun d => pure (Difference.finding c d)) w) := by
  obtain ⟨stderr, hlog⟩ := World.log_apply .comparison
    ("diff " ++ (Artifact.expected.path dir).name ++ " " ++ (Artifact.obtained.path dir).name
      ++ " -> " ++ toString i.exitCode) w
  have hin : InCase d₀ cwd dir place k { w with stderr := stderr } :=
    ⟨h.cwd_eq, h.scripted, h.holds⟩
  unfold judge
  by_cases hgood : i.timedOut = false ∧ (i.exitCode = 0 ∨ i.exitCode = 1)
  · obtain ⟨ht, he⟩ := hgood
    rw [if_pos (by simpa [ht] using he), bind_assoc, Step.bind_ok hlog, pure_bind]
    refine ⟨rfl, ?_, k, hin⟩
    show Except.ok (Difference.finding c ⟨i.exitCode == 0, _⟩) = _
    rcases he with he | he <;> simp [settle, Difference.finding, ht, he]
  · rw [if_neg (by simpa using hgood), Step.bind_error (Step.throw_apply _ w)]
    refine ⟨rfl, ?_, k, h⟩
    have h0 : ¬(i.timedOut = false ∧ i.exitCode = 0) := fun h => hgood ⟨h.1, Or.inl h.2⟩
    have h1 : ¬(i.timedOut = false ∧ i.exitCode = 1) := fun h => hgood ⟨h.1, Or.inr h.2⟩
    show Except.error _ = settle c t 3 (.ok i)
    rw [settle, if_neg h0, if_neg h1] <;> simp

/-- What the verification does after the call of the reimport. -/
def afterReimport (c : Case) (t : Comparator) (dir : Path) (i : Invocation) :
    Action World Finding :=
  if i.timedOut then pure (c.timedOut "reimport" i)
  else do
    Workspace.store (Artifact.obtained.path dir) i.stdout
    Workspace.store (Artifact.messages.path dir) i.stderr
    if i.exitCode ≠ 0 then
      pure
        { subject := c
          verdict := .importFailed
          message := "AST reimport failed (exit=" ++ toString i.exitCode ++ ")"
          diagnostic := i.streams }
    else
      t.compare (Artifact.expected.path dir) (Artifact.obtained.path dir) >>= fun d =>
        pure (Difference.finding c d)

theorem reimportAndCompare_eq (c : Case) (compiler : Compiler) (t : Comparator) (dir : Path) :
    reimportAndCompare c compiler t dir
      = (compiler.importDocument (Path.ofString Artifact.expected.name) dir).run
        >>= afterReimport c t dir := by
  unfold reimportAndCompare afterReimport Difference.finding
  congr
  funext i
  split
  · rfl
  · congr
    funext _
    congr
    funext _
    split
    · rfl
    · congr
      funext d
      split <;> rfl

/-- The last two stages. -/
theorem follows_reimport (hv : Vacant d₀ cwd dir place) (h : InCase d₀ cwd dir place k w)
    (hw : Text.ShellWords.split t.words = .ok words) :
    Follows d₀ cwd dir place c t 2
      (course place ((stages c compiler t words dir).drop 2) k w) w
      (reimportAndCompare c compiler t dir w) := by
  rw [reimportAndCompare_eq]
  refine follows_stage hv h
    (s := ⟨compiler.importDocument (Path.ofString Artifact.expected.name) dir,
      [(.obtained, Invocation.stdout), (.messages, Invocation.stderr)]⟩)
    rfl (fun i w' hin hi => ?_) (fun i w' hin hi _ => ?_)
  all_goals
    have hin₁ := hin.put .obtained i.stdout
    have hin₂ := hin₁.put .messages i.stderr
    have h₁ := Holds.store_eq hv hin.cwd_eq hin.holds .obtained i.stdout
    have h₂ := Holds.store_eq hv hin₁.cwd_eq hin₁.holds .messages i.stderr
    unfold afterReimport
  · obtain ht | ⟨ht, he⟩ := Invocation.not_ok_iff.mp (hi.resolve_right (List.cons_ne_nil _ _))
    · rw [if_pos ht]
      exact Settles.pure hin (by simp [settle, ht])
    · rw [if_neg (by simp [ht]), Step.bind_ok h₁, Step.bind_ok h₂, if_pos he]
      exact (Settles.pure hin₂ (by simp [settle, ht])).of_put.of_put
  · obtain ⟨ht, he⟩ := Invocation.ok_iff.mp hi
    rw [if_neg (by simp [ht]), Step.bind_ok h₁, Step.bind_ok h₂, if_neg (by simp [he]),
      compare_eq hw, bind_assoc]
    refine (follows_stage hv hin₂ (s := ⟨comparison t words dir, []⟩) rfl
      (fun i w' hin _ => settles_judge hin i) (fun _ _ _ _ hrest => absurd rfl hrest)).of_put.of_put

/-- What the verification does after the call of the export. -/
def afterExport (c : Case) (compiler : Compiler) (t : Comparator) (dir : Path) (i : Invocation) :
    Action World Finding :=
  if i.timedOut then pure (c.timedOut "export" i)
  else do
    Workspace.store (Artifact.expected.path dir) i.stdout
    if i.exitCode ≠ 0 then
      pure
        { subject := c
          verdict := .exportFailed
          message :=
            "AST export failed after successful compilation (exit="
              ++ toString i.exitCode ++ ")"
          diagnostic := i.streams }
    else reimportAndCompare c compiler t dir

theorem roundTrip_eq (c : Case) (compiler : Compiler) (t : Comparator) (dir : Path) :
    roundTrip c compiler t dir
      = (compiler.exportDocument c.inputs dir).run >>= afterExport c compiler t dir := rfl

/-- The last three stages. -/
theorem follows_export (c : Case) (compiler : Compiler) (hv : Vacant d₀ cwd dir place)
    (h : InCase d₀ cwd dir place k w)
    (hw : Text.ShellWords.split t.words = .ok words) :
    Follows d₀ cwd dir place c t 1
      (course place ((stages c compiler t words dir).drop 1) k w) w
      (roundTrip c compiler t dir w) := by
  show Follows d₀ cwd dir place c t 1 _ w
    (((compiler.exportDocument c.inputs dir).run >>= afterExport c compiler t dir) w)
  refine follows_stage hv h
    (s := ⟨compiler.exportDocument c.inputs dir, [(.expected, Invocation.stdout)]⟩)
    rfl (fun i w' hin hi => ?_) (fun i w' hin hi _ => ?_)
  all_goals
    have hin₁ := hin.put .expected i.stdout
    have h₁ := Holds.store_eq hv hin.cwd_eq hin.holds .expected i.stdout
    unfold afterExport
  · obtain ht | ⟨ht, he⟩ := Invocation.not_ok_iff.mp (hi.resolve_right (List.cons_ne_nil _ _))
    · rw [if_pos ht]
      exact Settles.pure hin (by simp [settle, ht])
    · rw [if_neg (by simp [ht]), Step.bind_ok h₁, if_pos he]
      exact (Settles.pure hin₁ (by simp [settle, ht])).of_put
  · obtain ⟨ht, he⟩ := Invocation.ok_iff.mp hi
    rw [if_neg (by simp [ht]), Step.bind_ok h₁, if_neg (by simp [he])]
    exact (follows_reimport hv hin₁ hw).of_put

/-- Where the case goes on whichever way a step ends, the clean-up after it takes
    the artifacts away and nothing else. -/
theorem ensuring_clearArtifacts (hv : Vacant d₀ cwd dir place) {x : Action World Finding}
    (hx : ∃ k, InCase d₀ cwd dir place k (endState (x w))) :
    let r := Step.ensuring x (Workspace.clearArtifacts dir) w
    outcome r = outcome (x w) ∧ (endState r).spawns = (endState (x w)).spawns
      ∧ InCase d₀ cwd dir place .nothing (endState r) := by
  obtain ⟨k, h⟩ := hx
  obtain ⟨d', hclear, hholds⟩ := Holds.clearArtifacts_eq hv h.cwd_eq h.holds
  show outcome (Step.ensuring x (Workspace.clearArtifacts dir) w) = _ ∧ _
  unfold Step.ensuring
  cases hr : x w with
  | ok r w' =>
      rw [hr] at h hclear
      simp only [show Workspace.clearArtifacts dir w' = .ok () { w' with disk := d' } from hclear]
      exact ⟨rfl, rfl, h.cwd_eq, h.scripted, hholds⟩
  | error e w' =>
      rw [hr] at h hclear
      simp only [show Workspace.clearArtifacts dir w' = .ok () { w' with disk := d' } from hclear]
      exact ⟨rfl, rfl, h.cwd_eq, h.scripted, hholds⟩

/-- What the verification does after the probe. -/
def afterProbe (c : Case) (compiler : Compiler) (t : Comparator) (dir : Path) (i : Invocation) :
    Action World Finding :=
  if i.timedOut then pure (c.timedOut "probe" i)
  else if i.exitCode ≠ 0 then
    pure
      { subject := c
        verdict := .uncompilable
        message := "probe exit=" ++ toString i.exitCode
        diagnostic := "" }
  else do
    guardArtifacts dir
    Step.ensuring (roundTrip c compiler t dir) (Workspace.clearArtifacts dir)

/-- All four stages. -/
theorem follows_verify (c : Case) (compiler : Compiler) (hv : Vacant d₀ cwd dir place)
    (h : InCase d₀ cwd dir place .nothing w)
    (hw : Text.ShellWords.split t.words = .ok words) :
    Follows d₀ cwd dir place c t 0
      (course place (stages c compiler t words dir) .nothing w) w
      (verify c compiler t dir w) := by
  show Follows d₀ cwd dir place c t 0 _ w
    (((compiler.probe c.inputs dir).run >>= afterProbe c compiler t dir) w)
  refine follows_stage hv h (s := ⟨compiler.probe c.inputs dir, []⟩)
    rfl (fun i w' hin hi => ?_) (fun i w' hin hi _ => ?_)
  all_goals unfold afterProbe
  · obtain ht | ⟨ht, he⟩ := Invocation.not_ok_iff.mp (hi.resolve_right (List.cons_ne_nil _ _))
    · rw [if_pos ht]
      exact Settles.pure hin (by simp [settle, ht])
    · rw [if_neg (by simp [ht]), if_pos he]
      exact Settles.pure hin (by simp [settle, ht])
  · obtain ⟨ht, he⟩ := Invocation.ok_iff.mp hi
    rw [if_neg (by simp [ht]), if_neg (by simp [he]),
      Step.bind_ok (Holds.guardArtifacts_eq hv hin.cwd_eq hin.holds)]
    have hfollows := follows_export c compiler hv hin hw
    obtain ⟨hout, hspawns, hclear⟩ := ensuring_clearArtifacts hv hfollows.inCase
    exact ⟨by rw [hspawns]; exact hfollows.started, by rw [hout]; exact hfollows.settled, _, hclear⟩

/-- No artifact is left, whichever way the verification ends. -/
theorem keeps_inCase_verify (hv : Vacant d₀ cwd dir place)
    (hw : Text.ShellWords.split t.words = .ok words) :
    Step.Keeps (InCase d₀ cwd dir place .nothing) (verify c compiler t dir) := by
  intro w h
  show InCase d₀ cwd dir place .nothing
    (endState (((compiler.probe c.inputs dir).run >>= afterProbe c compiler t dir) w))
  refine Step.endState_bind_of (h.run hv rfl).1 fun i => ?_
  unfold afterProbe
  split
  · exact Step.keeps_pure _
  split
  · exact Step.keeps_pure _
  intro w' h'
  rw [Step.bind_ok (Holds.guardArtifacts_eq hv h'.cwd_eq h'.holds)]
  exact (ensuring_clearArtifacts hv (follows_export c compiler hv h' hw).inCase).2.2

end Following

end RoundTrip.Verification
