import RoundTrip.Proofs.Calm
import RoundTrip.Proofs.Rooms
import RoundTrip.Proofs.Walk

/-! # One verification in two rooms

    Two worlds are `Alongside` each other while the same case is verified in a room of
    each: the rooms hold the same artifacts, and the second world's script goes on after
    the first's.  A command that comes to its end in the first world does so in the second,
    with a report that says the same (`Twins.Alongside.run`), provided that the processes
    are calm, that the clock is steady and that what is looked for is found alike.

    So a verification that uses up the processes of the first world, and comes to a verdict
    there, comes to the same verdict in the second and leaves the others for what follows:
    **`Twins.Alongside.mirrors_verify`**. -/

namespace RoundTrip

open Step (endState)

variable {k : Kept}

/-- Two rooms for one case: in the first it has no more processes than its own, in the
    second others follow. -/
structure Twins where
  base : World
  dir : Path
  place : Place
  room : Room base dir place
  dir' : Path
  place' : Place
  room' : Room base dir' place'
  /-- How many processes have been started in the first world when its own are used up. -/
  total : Nat
  /-- The processes that follow in the second world. -/
  rest : List Process
  /-- How long those are waited for. -/
  waits : List Number
  /-- How many names for workspaces have been tried in the second world. -/
  count : Nat

namespace Twins

variable {T : Twins} {limits : List (Option Number)} {calls : List (List String)} {w w' : World}

/-- Two worlds in which the verification has come to the same point.  The limits and the
    calls are those of the commands ahead; calls that need not be listed look for nothing
    but artifacts. -/
structure Alongside (T : Twins) (limits : List (Option Number)) (calls : List (List String))
    (k : Kept) (w w' : World) : Prop where
  cwd_eq : w.cwd = T.base.cwd
  cwd_eq' : w'.cwd = T.base.cwd
  tempDir_eq' : w'.tempDir = T.base.tempDir
  count_eq' : w'.workspaceCount = T.count
  tidy : Tidy T.base.disk T.place k w.disk
  tidy' : Tidy T.base.disk T.place' k w'.disk
  calm : ∀ p ∈ w.script, p.Calm
  script_eq' : w'.script = w.script ++ T.rest
  found : ∀ call ∈ w.script.zip calls, ∀ word ∈ call.1.lookups call.2, FoundAlike T.base word
  steady' : Clock.Steady w'.clock (List.zipWith Process.waiting w.script limits ++ T.waits)
  total_eq : w.spawns.length + w.script.length = T.total

/-- The second world when the verification has come to its end. -/
structure Left (T : Twins) (w' : World) : Prop where
  cwd_eq : w'.cwd = T.base.cwd
  tempDir_eq : w'.tempDir = T.base.tempDir
  count_eq : w'.workspaceCount = T.count
  holds : ∃ k, Holds (T.base.disk.put T.place' .dir) T.place' k w'.disk
  script_eq : w'.script = T.rest
  steady : Clock.Steady w'.clock T.waits

/-- What comes to a verdict in the first world, and has used up its processes then, comes to
    the same verdict in the second. -/
def Mirrors (T : Twins) (x x' : Action World Finding) (w w' : World) : Prop :=
  ∀ r v, x w = .ok r v → v.spawns.length = T.total →
    ∃ r' v', x' w' = .ok r' v' ∧ r'.verdict = r.verdict ∧ T.Left v'

/-- When all processes of the case were started, the other run is left with its own. -/
theorem Alongside.left (h : T.Alongside limits calls k w w') (htotal : w.spawns.length = T.total) :
    T.Left w' := by
  have hscript : w.script = [] := by
    have := h.total_eq
    rw [htotal] at this
    exact List.length_eq_zero_iff.mp (by omega)
  refine ⟨h.cwd_eq', h.tempDir_eq', h.count_eq', ⟨k, h.tidy'.holds⟩, ?_, ?_⟩
  · rw [h.script_eq', hscript, List.nil_append]
  · have hsteady := h.steady'
    rw [hscript] at hsteady
    exact hsteady

theorem Alongside.mirrors_pure {r r' : Finding} (h : T.Alongside limits calls k w w')
    (hr : r'.verdict = r.verdict) : T.Mirrors (pure r) (pure r') w w' := by
  intro s v hs htotal
  cases hs
  exact ⟨r', w', rfl, hr, h.left htotal⟩

/-- The same content under the same name of an artifact, in both rooms. -/
theorem Alongside.put (h : T.Alongside limits calls k w w') (a : Artifact) (content : Bytes) :
    T.Alongside limits calls (k.set a (some content))
      { w with disk := w.disk.put (T.place ++ [a.name]) (.file content) }
      { w' with disk := w'.disk.put (T.place' ++ [a.name]) (.file content) } :=
  { h with tidy := h.tidy.put a content, tidy' := h.tidy'.put a content }

/-- Both worlds store the same content under the name of an artifact. -/
theorem Alongside.mirrors_store (h : T.Alongside limits calls k w w') {x x' : Action World Finding}
    (a : Artifact) (content : Bytes)
    (hx : ∀ w w', T.Alongside limits calls (k.set a (some content)) w w' → T.Mirrors x x' w w') :
    T.Mirrors (Workspace.store (a.path T.dir) content >>= fun _ => x)
      (Workspace.store (a.path T.dir') content >>= fun _ => x') w w' := by
  intro r v hr htotal
  rw [Step.bind_ok (Holds.store_eq T.room.vacant h.cwd_eq h.tidy.holds a content)] at hr
  rw [Step.bind_ok (Holds.store_eq T.room'.vacant h.cwd_eq' h.tidy'.holds a content)]
  exact hx _ _ (h.put a content) r v hr htotal

/-! ## A command in both rooms -/

/-- Two commands that ask for the same, each in a room of its own. -/
structure Pair (T : Twins) (c c' : Command) : Prop where
  cwd_eq : c.cwd = T.dir
  cwd_eq' : c'.cwd = T.dir'
  limit_eq : c'.limit = c.limit
  stdout_eq : c'.forwardsStdout = c.forwardsStdout
  stderr_eq : c'.forwardsStderr = c.forwardsStderr
  argv : 2 ≤ c.argv.length
  argv' : 2 ≤ c'.argv.length

/-- The next process sees the same in both rooms. -/
def SeesAlike (w w' : World) (c c' : Command) : Prop :=
  ∀ p, w.script.head? = some p →
    (c.contents w.disk w.cwd).reverse.take p.looksAt
      = (c'.contents w'.disk w'.cwd).reverse.take p.looksAt

variable {c c' : Command}

/-- Words under which the same is found in every room. -/
theorem Alongside.seesAlike (h : T.Alongside limits (c.argv :: calls) k w w') (hc : T.Pair c c')
    (hargv : c'.argv = c.argv) : SeesAlike w w' c c' := by
  intro p hp
  obtain ⟨tail, hscript⟩ := List.head?_eq_some_iff.mp hp
  have hfound := h.found (p, c.argv) (by rw [hscript]; exact List.mem_cons_self)
  unfold Command.contents
  rw [hargv, ← List.map_reverse, ← List.map_reverse, ← List.map_take, ← List.map_take, h.cwd_eq,
    h.cwd_eq', hc.cwd_eq, hc.cwd_eq']
  exact List.map_congr_left fun word hword =>
    hfound word hword k T.dir T.place w.disk T.dir' T.place' w'.disk T.room h.tidy T.room' h.tidy'

/-- A process has been played in both worlds. -/
theorem Alongside.next {limit : Option Number} {x : Float} {v v' : World} {p : Process}
    {tail : List Process} (h : T.Alongside (limit :: limits) calls k w w')
    (hscript : w.script = p :: tail) (hv : Command.Played w x v) (hv' : Command.Played w' x v')
    (hsteady : Clock.Steady v'.clock (List.zipWith Process.waiting tail limits ++ T.waits)) :
    T.Alongside limits calls.tail k v v' := by
  have htail : v.script = tail := by rw [hv.script_eq, hscript]; rfl
  refine ⟨hv.cwd_eq.trans h.cwd_eq, hv'.cwd_eq.trans h.cwd_eq', hv'.tempDir_eq.trans h.tempDir_eq',
    hv'.count_eq.trans h.count_eq', hv.disk_eq ▸ h.tidy, hv'.disk_eq ▸ h.tidy', ?_, ?_, ?_,
    htail ▸ hsteady, ?_⟩
  · rw [htail]
    exact fun q hq => h.calm q (hscript ▸ List.mem_cons_of_mem p hq)
  · rw [hv'.script_eq, h.script_eq', hscript, htail]
    rfl
  · intro call hcall
    refine h.found call ?_
    rw [htail] at hcall
    rw [hscript]
    cases calls with
    | nil => simp at hcall
    | cons argv calls => exact List.mem_cons_of_mem _ hcall
  · have htotal := h.total_eq
    rw [hscript, List.length_cons] at htotal
    rw [htail, hv.spawned]
    omega

/-- **A command in both rooms.**  It comes to its end in the second as well, and then the
    verification has come to the same point again. -/
theorem Alongside.run {i : Invocation} {v : World}
    (h : T.Alongside (c.limit :: limits) calls k w w') (hc : T.Pair c c')
    (hsees : SeesAlike w w' c c') (hne : w.script ≠ []) (hrun : c.run w = .ok i v) :
    ∃ i' v', c'.run w' = .ok i' v' ∧ i.Alike i' ∧ T.Alongside limits calls.tail k v v' := by
  obtain ⟨p, tail, hscript⟩ := List.exists_cons_of_ne_nil hne
  have hhead : w.script.headD .idle = p := by rw [hscript]; rfl
  have hscript' : w'.script = p :: (tail ++ T.rest) := by rw [h.script_eq', hscript]; rfl
  have hhead' : w'.script.headD .idle = p := by rw [hscript']; rfl
  have hcalm : p.Calm := h.calm p (by rw [hscript]; exact List.mem_cons_self)
  have hsteady : Clock.Steady w'.clock (p.waiting c.limit
      :: (List.zipWith Process.waiting tail limits ++ T.waits)) := by
    have := h.steady'
    rwa [hscript] at this
  have htimed := Command.timed_of_run hc.argv hrun
  -- a calm process is started in both worlds and takes the same time there; what it finds in
  -- its files is the same by assumption
  obtain ⟨q, x, n, u, hq, hx, hok, hplayed⟩ := Command.run_calm hc.argv (hhead ▸ hcalm) htimed
  rw [hhead] at htimed hq hx
  obtain ⟨q', x', n', u', hq', hx', hok', hplayed'⟩ :=
    Command.run_calm (c := c') (w := w') hc.argv' (hhead'.symm ▸ hcalm)
      (by rw [hhead', hc.limit_eq]; exact hsteady.timed htimed)
  rw [hhead'] at hq' hx'
  rw [hc.limit_eq, hx] at hx'
  cases hx'
  have hlength : ∀ (c : Command) (d : Disk) (cwd : Path), 2 ≤ c.argv.length →
      2 ≤ (c.contents d cwd).length := by
    intro c d cwd hargv
    rwa [Command.contents, List.length_map]
  rw [Process.withContents?_congr (hlength _ _ _ hc.argv) (hlength _ _ _ hc.argv')
    (hsees p (by rw [hscript]; rfl)), hq'] at hq
  cases hq
  rw [hok] at hrun
  cases hrun
  refine ⟨_, u', hok', Command.report_alike hc.limit_eq hc.stdout_eq hc.stderr_eq _ _ _,
    h.next hscript hplayed hplayed' ?_⟩
  rw [hplayed'.clock_eq]
  exact hsteady.2 x hx

/-- A command in both rooms, and what is done after it. -/
theorem Alongside.mirrors_bind {f f' : Invocation → Action World Finding}
    (h : T.Alongside (c.limit :: limits) calls k w w') (hc : T.Pair c c')
    (hsees : SeesAlike w w' c c') (hgrows : ∀ i, Grows (f i))
    (hf : ∀ i i' v v', i.Alike i' → T.Alongside limits calls.tail k v v' →
      T.Mirrors (f i) (f' i') v v') :
    T.Mirrors (c.run >>= f) (c'.run >>= f') w w' := by
  intro r u hr htotal
  obtain ⟨i, v, hrun, hrest⟩ := Step.bind_eq_ok_iff.mp hr
  have hne : w.script ≠ [] := by
    -- otherwise one process too many would have been started
    intro hscript
    have hran := Command.ran_run c w
    rw [hrun] at hran
    obtain ⟨_, _, hspawns⟩ := hran.spawns_eq
    have hv : T.total + 1 ≤ v.spawns.length := by
      rw [show v.spawns = _ from hspawns, ← h.total_eq, hscript]
      simp
    have hu := hgrows i (T.total + 1) v hv
    rw [hrest] at hu
    have : T.total + 1 ≤ u.spawns.length := hu
    omega
  obtain ⟨i', v', hrun', halike, halong⟩ := h.run hc hsees hne hrun
  rw [Step.bind_ok hrun']
  exact hf i i' v v' halike halong r u hrest htotal

/-! ## The verification in both rooms -/

section Verification

open Verification

variable {case : Case} {compiler : Compiler} {t : Comparator} {words : List String}
  {i i' : Invocation}

theorem grows_judge (dir : Path) (i : Invocation) :
    Grows (judge t dir i >>= fun d => pure (Difference.finding case d)) :=
  fun n => (lasts_grows n dir).quiet (quiet_bind (quiet_judge t dir i) fun _ => quiet_pure _)

/-- A call of the compiler in both rooms. -/
theorem pair_command (args : List String) (hargs : args ≠ []) (stdout stderr : Bool) :
    T.Pair (compiler.command args T.dir stdout stderr)
      (compiler.command args T.dir' stdout stderr) :=
  have hlength : 2 ≤ (compiler.path.text :: args).length :=
    Nat.succ_le_succ (List.length_pos_of_ne_nil hargs)
  ⟨rfl, rfl, rfl, rfl, rfl, hlength, hlength⟩

theorem pair_comparison : T.Pair (comparison t words T.dir) (comparison t words T.dir') :=
  have hlength : ∀ dir, 2 ≤ (comparison t words dir).argv.length := fun dir => by simp [comparison]
  ⟨rfl, rfl, rfl, rfl, rfl, hlength _, hlength _⟩

/-- The comparison looks for the two documents, which are the same in both rooms although
    their paths are not. -/
theorem Alongside.seesAlike_comparison (h : T.Alongside limits calls k w w') :
    SeesAlike w w' (comparison t words T.dir) (comparison t words T.dir') := by
  have hcontents : ∀ {w : World} {dir : Path} {place : Place}, Room T.base dir place →
      w.cwd = T.base.cwd → Tidy T.base.disk place k w.disk →
      ((comparison t words dir).contents w.disk w.cwd).reverse
        = k .obtained :: k .expected :: (words.map fun (word : String) =>
          (w.disk.contentOf w.cwd (dir / word)).toOption).reverse := by
    intro w dir place hroom hcwd htidy
    rw [← hroom.contentOf_artifact htidy.holds .obtained,
      ← hroom.contentOf_artifact htidy.holds .expected, ← hcwd]
    simp [Command.contents, comparison]
  have htwo : ∀ (n : Nat) (a b : Option Bytes) (xs ys : List (Option Bytes)), n ≤ 2 →
      (a :: b :: xs).take n = (a :: b :: ys).take n := by
    intro n a b xs ys hn
    obtain rfl | rfl | rfl : n = 0 ∨ n = 1 ∨ n = 2 := by omega
    · rfl
    · rfl
    · rfl
  intro p _
  rw [hcontents T.room h.cwd_eq h.tidy, hcontents T.room' h.cwd_eq' h.tidy']
  refine htwo p.looksAt _ _ _ _ ?_
  unfold Process.looksAt
  split <;> decide

/-- The comparison is judged alike in both workspaces. -/
theorem Alongside.mirrors_judge (h : T.Alongside limits calls k w w') (hi : i.Alike i') :
    T.Mirrors (judge t T.dir i >>= fun d => pure (Difference.finding case d))
      (judge t T.dir' i' >>= fun d => pure (Difference.finding case d)) w w' := by
  intro r v hr htotal
  unfold judge at hr ⊢
  rw [hi.timedOut_eq, hi.exitCode_eq, hi.stdout_eq]
  by_cases hgood : (!i.timedOut && (i.exitCode == 0 || i.exitCode == 1)) = true
  · obtain ⟨stderr, hlog⟩ := World.log_apply .comparison
      ("diff " ++ (Artifact.expected.path T.dir).name ++ " " ++ (Artifact.obtained.path T.dir).name
        ++ " -> " ++ toString i.exitCode) w
    obtain ⟨stderr', hlog'⟩ := World.log_apply .comparison
      ("diff " ++ (Artifact.expected.path T.dir').name ++ " "
        ++ (Artifact.obtained.path T.dir').name ++ " -> " ++ toString i.exitCode) w'
    rw [if_pos hgood, bind_assoc, Step.bind_ok hlog, pure_bind] at hr
    rw [if_pos hgood, bind_assoc, Step.bind_ok hlog', pure_bind]
    cases hr
    have hleft := h.left htotal
    exact ⟨_, _, rfl, rfl, { hleft with }⟩
  · rw [if_neg hgood, Step.bind_error (Step.throw_apply _ w)] at hr
    cases hr

/-- What is done after the reimport is mirrored, the comparison included. -/
theorem Alongside.mirrors_afterReimport (h : T.Alongside [t.limit] calls k w w')
    (hi : i.Alike i') :
    T.Mirrors (afterReimport case t T.dir i) (afterReimport case t T.dir' i') w w' := by
  unfold afterReimport
  rw [hi.timedOut_eq, hi.exitCode_eq, hi.stdout_eq, hi.stderr_eq]
  by_cases ht : i.timedOut = true
  · rw [if_pos ht, if_pos ht]
    exact h.mirrors_pure rfl
  rw [if_neg ht, if_neg ht]
  refine h.mirrors_store .obtained _ fun w w' h => h.mirrors_store .messages _ fun w w' h => ?_
  by_cases he : i.exitCode ≠ 0
  · rw [if_pos he, if_pos he]
    exact h.mirrors_pure rfl
  rw [if_neg he, if_neg he]
  cases hw : Text.ShellWords.split t.words with
  | error e =>
      intro r v hr
      unfold Comparator.compare Comparator.argv at hr
      rw [hw] at hr
      cases hr
  | ok words =>
      rw [compare_eq hw, compare_eq hw, bind_assoc, bind_assoc]
      exact Alongside.mirrors_bind (c := comparison t words T.dir) h pair_comparison
        h.seesAlike_comparison (grows_judge T.dir) fun i i' v v' hi h => h.mirrors_judge hi

/-- So is what is done after the export. -/
theorem Alongside.mirrors_afterExport
    (h : T.Alongside [compiler.limit, t.limit]
      [(compiler.importDocument (Path.ofString Artifact.expected.name) T.dir).argv] k w w')
    (hi : i.Alike i') :
    T.Mirrors (afterExport case compiler t T.dir i) (afterExport case compiler t T.dir' i') w
      w' := by
  unfold afterExport
  rw [hi.timedOut_eq, hi.exitCode_eq, hi.stdout_eq]
  by_cases ht : i.timedOut = true
  · rw [if_pos ht, if_pos ht]
    exact h.mirrors_pure rfl
  rw [if_neg ht, if_neg ht]
  refine h.mirrors_store .expected _ fun w w' h => ?_
  by_cases he : i.exitCode ≠ 0
  · rw [if_pos he, if_pos he]
    exact h.mirrors_pure rfl
  rw [if_neg he, if_neg he, reimportAndCompare_eq, reimportAndCompare_eq]
  have hpair : T.Pair (compiler.importDocument (Path.ofString Artifact.expected.name) T.dir)
      (compiler.importDocument (Path.ofString Artifact.expected.name) T.dir') :=
    pair_command _ (List.cons_ne_nil _ _) false false
  exact h.mirrors_bind hpair (h.seesAlike hpair rfl)
    (fun i n => (lasts_grows n T.dir).keeps_afterReimport
      (allCommands_true case compiler t T.dir) i)
    fun i i' v v' hi h => h.mirrors_afterReimport hi

/-- The artifacts are taken away at the end. -/
theorem Mirrors.ensuring_clear {x x' : Action World Finding} (h : T.Mirrors x x' w w') :
    T.Mirrors (Step.ensuring x (Workspace.clearArtifacts T.dir))
      (Step.ensuring x' (Workspace.clearArtifacts T.dir')) w w' := by
  intro r u hr htotal
  obtain ⟨v, hx, hclear⟩ := Step.of_ensuring_eq_ok hr
  have hspawns : u.spawns = v.spawns := by
    have hlasts : Lasts (fun w => w.spawns = v.spawns) (fun _ => False) T.dir :=
      .of_record (fun _ w' hrecord h => (congrArg (·.2.2.2) hrecord).trans h) fun _ h => h.elim
    have := hlasts.keeps_clearArtifacts v rfl
    rwa [hclear] at this
  obtain ⟨r', v', hx', hverdict, hleft⟩ := h r v hx (hspawns ▸ htotal)
  obtain ⟨k, hk⟩ := hleft.holds
  obtain ⟨d, hclear', hd⟩ := Holds.clearArtifacts_eq T.room'.vacant hleft.cwd_eq hk
  exact ⟨r', { v' with disk := d }, Step.ensuring_of_ok hx' hclear', hverdict,
    { hleft with holds := ⟨_, hd⟩ }⟩

/-- The words of the three calls of the compiler. -/
def callWords (compiler : Compiler) (inputs : List Path) : List (List String) :=
  [compiler.path.text :: "--bin" :: inputs.map Path.text,
    compiler.path.text :: (compiler.formatArgs ++ inputs.map Path.text),
    compiler.path.text :: "--import-ast" :: (compiler.formatArgs ++ [Artifact.expected.name])]

/-- The limits of the four commands. -/
def commandLimits (compiler : Compiler) (t : Comparator) : List (Option Number) :=
  [compiler.limit, compiler.limit, compiler.limit, t.limit]

/-- **A verification that comes to a verdict in one room comes to the same in the other.** -/
theorem Alongside.mirrors_verify
    (h : T.Alongside (commandLimits compiler t) (callWords compiler case.inputs) .nothing w w') :
    T.Mirrors (verify case compiler t T.dir) (verify case compiler t T.dir') w w' := by
  have hprobe : T.Pair (compiler.probe case.inputs T.dir) (compiler.probe case.inputs T.dir') :=
    pair_command _ (List.cons_ne_nil _ _) _ _
  have hexport : T.Pair (compiler.exportDocument case.inputs T.dir)
      (compiler.exportDocument case.inputs T.dir') :=
    pair_command _ (List.cons_ne_nil _ _) _ _
  show T.Mirrors ((compiler.probe case.inputs T.dir).run >>= afterProbe case compiler t T.dir)
    ((compiler.probe case.inputs T.dir').run >>= afterProbe case compiler t T.dir') w w'
  refine Alongside.mirrors_bind h hprobe (Alongside.seesAlike h hprobe rfl)
    (fun i n => (lasts_grows n T.dir).keeps_afterProbe (allCommands_true case compiler t T.dir) i)
    fun i i' v v' hi h => ?_
  unfold afterProbe
  rw [hi.timedOut_eq, hi.exitCode_eq]
  by_cases ht : i.timedOut = true
  · rw [if_pos ht, if_pos ht]
    exact h.mirrors_pure rfl
  rw [if_neg ht, if_neg ht]
  by_cases he : i.exitCode ≠ 0
  · rw [if_pos he, if_pos he]
    exact h.mirrors_pure rfl
  rw [if_neg he, if_neg he]
  -- neither guard finds an artifact, so both go on to the round trip
  intro r u hr htotal
  rw [Step.bind_ok (Holds.guardArtifacts_eq T.room.vacant h.cwd_eq h.tidy.holds)] at hr
  rw [Step.bind_ok (Holds.guardArtifacts_eq T.room'.vacant h.cwd_eq' h.tidy'.holds)]
  refine Mirrors.ensuring_clear ?_ r u hr htotal
  show T.Mirrors ((compiler.exportDocument case.inputs T.dir).run
      >>= afterExport case compiler t T.dir)
    ((compiler.exportDocument case.inputs T.dir').run >>= afterExport case compiler t T.dir') v v'
  exact Alongside.mirrors_bind h hexport (Alongside.seesAlike h hexport rfl)
    (fun i n => (lasts_grows n T.dir).keeps_afterExport (allCommands_true case compiler t T.dir) i)
    fun i i' u u' hi h => Alongside.mirrors_afterExport h hi

end Verification

end Twins

end RoundTrip
