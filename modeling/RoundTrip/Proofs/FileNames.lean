import RoundTrip.Proofs.Rooms
import RoundTrip.Proofs.Rounds

/-! # The names of files that are handed to tools

    A tool takes a word that starts with a dash for an option.  The files that a run hands to
    its tools come from four places: a source from the search, an input file from the words of
    the splitter, or from the source again, and the two documents from the workspace.  The
    first two have been resolved, and a workspace is made below the directory of workspaces, so
    all of them are absolute, and their texts start with a slash, whatever they are called.

    This is said of one round first (`Harness.IsRound.handsOut`), and then of the processes of
    a run: **`Harness.files_are_named_from_the_root`**. -/

namespace RoundTrip

open Step (Keeps endState)

/-! ## Input files -/

namespace Splitter

variable {source dir : Path} {limit : Option Number} {i : Invocation} {splitting : Splitting}
  {w w' : World}

/-- The files that come of a split are the source itself, or what names were resolved to. -/
theorem files_of_outcome (h : outcome limit source dir i w = .ok splitting w') :
    ∀ p ∈ splitting.files source,
      p = source ∨ ∃ name : String, w.disk.resolve w.cwd (dir / name) = .ok p := by
  intro p hp
  unfold outcome at h
  dsimp only at h
  -- one case for each answer of the splitter, in the order in which they are told apart
  by_cases htime : i.timedOut = true
  · rw [if_pos htime] at h
    cases h
    cases hp
  rw [if_neg htime] at h
  by_cases hzero : i.exitCode = 0
  · rw [if_pos hzero] at h
    by_cases hwords : (Text.wordsOf (Text.decode i.stdout)).isEmpty = true
    · rw [if_pos hwords] at h
      cases h
      cases hp
    · rw [if_neg hwords, Step.bind_ok (Step.get_apply w)] at h
      obtain ⟨files, u, hfiles, h⟩ := Step.bind_eq_ok_iff.mp h
      cases h
      obtain ⟨-, hback⟩ := collected_of_mapM_eq_ok (Step.of_ofExcept_eq_ok hfiles).1
      obtain ⟨name, -, hresolve⟩ := hback p hp
      exact Or.inr ⟨name, hresolve⟩
  rw [if_neg hzero] at h
  by_cases hone : i.exitCode = 1
  · rw [if_pos hone] at h
    cases h
    exact Or.inl (List.mem_singleton.mp hp)
  rw [if_neg hone] at h
  by_cases htwo : i.exitCode = 2
  · rw [if_pos htwo] at h
    cases h
    exact Or.inl (List.mem_singleton.mp hp)
  · rw [if_neg htwo] at h
    cases h
    cases hp

end Splitter

/-- The input files of a case are absolute if its source is. -/
theorem Plan.isAbsolute_inputs {p : Plan} {number : Nat} {source splitter dir : Path}
    {limit : Option Number} {w w' : World} {splitting : Splitting} {inputs : List Path}
    (hsplit : p.split number = Splitter.split splitter limit) (hcwd : w.cwd.isAbsolute = true)
    (hsource : source.isAbsolute = true)
    (h : p.opening number source dir w = .ok (splitting, inputs) w') :
    ∀ q ∈ inputs, q.isAbsolute = true := by
  intro q hq
  obtain ⟨v, hsplitting, hinputs⟩ := opening_eq_ok h
  rw [hsplit, Splitter.split_eq] at hsplitting
  obtain ⟨i, u, hrun, houtcome⟩ := Step.bind_eq_ok_iff.mp hsplitting
  -- the splitter does not change the directory in which names are resolved
  have hran := Command.ran_run (Splitter.command splitter source dir limit) w
  rw [hrun] at hran
  obtain ⟨-, hfiles⟩ | ⟨-, e, hfault⟩ := splitting.inputs_cases source p.splitter
  · obtain ⟨stderr, hfiles⟩ := hfiles v
    rw [hfiles] at hinputs
    cases hinputs
    obtain rfl | ⟨name, hresolve⟩ := Splitter.files_of_outcome houtcome q hq
    · exact hsource
    · exact Disk.isAbsolute_resolve (hran.cwd_eq ▸ hcwd) hresolve
  · rw [hfault v] at hinputs
    cases hinputs

namespace Harness

variable {s : Configuration} {o : Options} {w : World} {source : Path}

/-! ## Sources -/

/-- The sources of a run are absolute. -/
theorem isAbsolute_of_mem_foundSources (hcwd : w.cwd.isAbsolute = true)
    (h : source ∈ foundSources s o w) : source.isAbsolute = true := by
  unfold foundSources at h
  cases hprepare : prepare s o w with
  | error e w₁ =>
      rw [hprepare] at h
      cases h
  | ok sources w₁ =>
      rw [hprepare] at h
      obtain ⟨version, w₂, stderr, w₃, hidentify, hfound, -⟩ := findSources_of_prepare hprepare
      have hcwd₂ : w₂.cwd = w.cwd := by
        have hend := endState_identify s o w
        rw [hidentify] at hend
        rcases hend with rfl | rfl
        · rfl
        · exact (Command.ran_run _ w).cwd_eq
      obtain ⟨root, -, -, names, hname⟩ := (Discovery.mem_findSources hfound).mp h
      exact Disk.isAbsolute_resolve (hcwd₂ ▸ hcwd) hname.resolved

/-! ## The words of a case -/

/-- The words of the processes of a case: splitter, probe, export, reimport, and comparison if
    its command can be cut into words. -/
def caseLines (s : Configuration) (o : Options) (c : Case) (dir : Path) : List (List String) :=
  [Splitter.argv s.splitter c.source,
    s.compilerPath.text :: "--bin" :: c.inputs.map Path.text,
    s.compilerPath.text :: ((compiler s o).formatArgs ++ c.inputs.map Path.text),
    s.compilerPath.text :: "--import-ast" :: ((compiler s o).formatArgs ++ ["expected.json"])]
  ++ match Text.ShellWords.split s.diffCommand with
    | .ok words => [words ++ [(dir / "expected.json").text, (dir / "obtained.json").text]]
    | .error _ => []

/-- The files that are named in them. -/
def caseFiles (c : Case) (dir : Path) : List Path :=
  c.source :: c.inputs ++ [dir / "expected.json", dir / "obtained.json"]

/-- These are the words of the first processes of a case, and every file that is named in the
    words of its processes is named from the root on. -/
def HandsOut (s : Configuration) (o : Options) (lines : List (List String)) : Prop :=
  ∃ (c : Case) (dir : Path), lines <+: caseLines s o c dir
    ∧ ∀ p ∈ caseFiles c dir, p.text.toList.head? = some '/'

theorem argv_commands (c : Case) (dir : Path) :
    (Splitter.command s.splitter c.source dir s.limit
        :: Verification.commands c (compiler s o) (comparator s) dir).map Command.argv
      = caseLines s o c dir := by
  have hcomparison : (Verification.comparisons (comparator s) dir).map Command.argv
      = match Text.ShellWords.split s.diffCommand with
        | .ok words => [words ++ [(dir / "expected.json").text, (dir / "obtained.json").text]]
        | .error _ => [] := by
    show (match Text.ShellWords.split s.diffCommand with
      | .ok words => [Verification.comparison (comparator s) words dir]
      | .error _ => []).map Command.argv = _
    cases Text.ShellWords.split s.diffCommand with
    | ok words => rfl
    | error e => rfl
  -- the words of the splitter stay folded: they depend on the suffix of its name
  unfold caseLines
  rw [← hcomparison, List.map_cons, Splitter.argv_command]
  rfl

/-- **A round names its files from the root on.** -/
theorem IsRound.handsOut {number : Nat} {r : Round} (h : IsRound s o number r)
    (hcwd : r.before.world.cwd.isAbsolute = true) (hsource : r.source.isAbsolute = true)
    (hdir : r.dir.isAbsolute = true) : HandsOut s o (r.commands.map Command.argv) := by
  have hhead : ∀ inputs : List Path, (∀ q ∈ inputs, q.isAbsolute = true) →
      ∀ p ∈ caseFiles ⟨r.source, inputs⟩ r.dir, p.text.toList.head? = some '/' := by
    intro inputs hinputs p hp
    refine Path.head?_text ?_
    simp only [caseFiles, List.cons_append, List.mem_cons, List.mem_append, List.not_mem_nil,
      or_false] at hp
    obtain rfl | hp | rfl | rfl := hp
    · exact hsource
    · exact hinputs p hp
    · exact Path.isAbsolute_div hdir _
    · exact Path.isAbsolute_div hdir _
  obtain ⟨w, w', hstart, henter, hbegun⟩ := h.begun
  obtain ⟨source, before, dir, commands⟩ := r
  dsimp only at hbegun
  cases hbegun with
  | unopened hopening =>
      refine ⟨⟨source, []⟩, dir, ?_, hhead [] (fun _ hq => nomatch hq)⟩
      rw [← argv_commands]
      exact List.IsPrefix.map _ (List.cons_prefix_cons.mpr ⟨rfl, List.nil_prefix⟩)
  | @opened splitting inputs _ cs hopening hcommands =>
      -- what happens before the case only prints, and only the disk is changed by its workspace
      have hcwd' : w'.cwd.isAbsolute = true := by
        obtain ⟨⟨⟩, stdout, stderr, htick⟩ := prints_tick source before.world
        cases htick.symm.trans hstart
        obtain ⟨_, _, d, _, -, -, -, rfl⟩ := enter_eq_ok henter
        exact hcwd
      refine ⟨⟨source, inputs⟩, dir, ?_,
        hhead inputs (Plan.isAbsolute_inputs rfl hcwd' hsource hopening)⟩
      rw [← argv_commands]
      exact List.IsPrefix.map _ (List.cons_prefix_cons.mpr ⟨rfl, hcommands⟩)

/-! ## The words of a run -/

/-- What was started has the words of the commands, in order. -/
theorem argv_of_performed {script : List Process} {cs : List Command} {ks : List Spawn}
    (h : Performed script cs ks) : ks.map Spawn.argv = cs.map Command.argv := by
  induction h with
  | nil script => rfl
  | cons hk hks ih => rw [List.map_cons, List.map_cons, hk.of.argv_eq, ih]

/-- Before the cases the current directory and that of workspaces are what they were. -/
theorem calls_outset (s : Configuration) (o : Options) (s₀ : Session) :
    Calls (fun _ => True) s₀.world (outset s o s₀).world :=
  (calls_prepare s o s₀.world).mono fun _ _ => trivial

/-- So they are before each case. -/
theorem calls_before {s₀ t : Session} {sources : List Path}
    (h : (plan s o).run sources (outset s o s₀) = .ok () t) :
    Calls (fun _ => True) s₀.world t.world := by
  have hkeeps : Keeps (fun u : Session => Calls (fun _ => True) s₀.world u.world)
      ((plan s o).run sources) :=
    Calls.keeps_run (quietHooks_plan s o) (fun _ => rfl) (fun _ _ => trivial)
      (fun _ _ => Verification.allCommands_true _ _ _ _) sources
  exact hkeeps.of_eq_ok (calls_outset s o s₀) h

/-- **No file can be taken for an option.**  Whatever the configuration and the world are, and
    whatever the splitter prints, a run starts the compiler for its version, and then the
    processes of its cases, in order.  A case gives its splitter the source, probe and export
    the same input files in the same order, and the comparison two documents; and the words
    for all these files start with a slash.

    The current directory and the directory of workspaces are given from the root on, as they
    are in every scenario (`Scenario.settled_world`). -/
theorem files_are_named_from_the_root (s : Configuration) (o : Options) (s₀ : Session)
    (hcwd : s₀.world.cwd.isAbsolute = true) (htemp : s₀.world.tempDir.isAbsolute = true) :
    ∃ (starts : List Spawn) (version : List (List String)) (cases : List (List (List String))),
      (endState (run s o s₀)).world.spawns = s₀.world.spawns ++ starts
        ∧ starts.map Spawn.argv = version ++ cases.flatten
        ∧ version <+: [[s.compilerPath.text, "--version"]]
        ∧ ∀ lines ∈ cases, HandsOut s o lines := by
  obtain ⟨rounds, pending, hrounds⟩ := rounds_run s o s₀
  obtain ⟨later, hlater, hend⟩ := hrounds.goes.started
  have hargv : later.map Spawn.argv
      = (rounds.map fun r => r.commands.map Command.argv).flatten := by
    rw [argv_of_performed hlater, List.map_flatMap, List.flatMap_def]
  have hcases : ∀ lines ∈ rounds.map (fun r => r.commands.map Command.argv),
      HandsOut s o lines := by
    intro lines hlines
    obtain ⟨r, hr, rfl⟩ := List.mem_map.mp hlines
    obtain ⟨i, hi⟩ := List.getElem?_of_mem hr
    obtain ⟨hbefore, hround⟩ := hrounds.reached i r hi
    obtain ⟨n, -, hdir⟩ := hrounds.numbered r hr
    -- what a round relies on is as the setup has found it
    refine hround.handsOut ?_ ?_ ?_
    · rw [(calls_before hbefore).cwd_eq]
      exact hcwd
    · have hsource : r.source ∈ foundSources s o s₀.world :=
        hrounds.inOrder.subset (List.mem_append_left _ (List.mem_map_of_mem hr))
      exact isAbsolute_of_mem_foundSources hcwd hsource
    · rw [hdir, (calls_outset s o s₀).tempDir_eq]
      exact Workspace.isAbsolute_numbered htemp n
  obtain ⟨e, hprepare⟩ | ⟨k, hk, hspawns, -⟩ := starts_prepare s o s₀.world
  · refine ⟨later, [], _, ?_, hargv, List.nil_prefix, hcases⟩
    rw [hend, outset, hprepare]
    rfl
  · refine ⟨k :: later, [k.argv], _, ?_, ?_, ?_, hcases⟩
    · rw [hend, show (outset s o s₀).world.spawns = _ from hspawns, List.append_assoc]
      rfl
    · rw [List.map_cons, hargv]
      rfl
    · rw [hk.of.argv_eq]
      exact List.prefix_refl _

/-- A splitter that prints a name with a dash in front, an absolute one, one that leads out of
    the workspace, and one that is no text. -/
def Trial.awkward : World :=
  { Trial.world with
    tempDir := ⟨.root, ["build"]⟩
    script := [.idle, { Process.idle with stdout := Text.encode "-o /etc/x ../y " ++ [0xFF] }] }

/-- What the splitter has named is handed to the compiler by names from the root on. -/
theorem awkward_names_are_handed_on :
    ∃ (starts : List Spawn) (version : List (List String)) (cases : List (List (List String))),
      (endState (run Trial.configuration Trial.options
          (Session.start Trial.awkward (.start 0 false)))).world.spawns = starts
        ∧ starts.map Spawn.argv = version ++ cases.flatten
        ∧ (∀ lines ∈ cases, HandsOut Trial.configuration Trial.options lines)
        ∧ ["build/solc", "--bin", "/build/ast-import-0/-o", "/etc/x", "/build/y",
            "/build/ast-import-0/\ufffd"] ∈ starts.map Spawn.argv := by
  have hprobe : ["build/solc", "--bin", "/build/ast-import-0/-o", "/etc/x", "/build/y",
        "/build/ast-import-0/\ufffd"]
      ∈ (endState (run Trial.configuration Trial.options
          (Session.start Trial.awkward (.start 0 false)))).world.spawns.map Spawn.argv := by
    decide +kernel
  obtain ⟨starts, version, cases, hspawns, hargv, -, hcases⟩ :=
    files_are_named_from_the_root Trial.configuration Trial.options
      (Session.start Trial.awkward (.start 0 false)) rfl rfl
  have hstarts : (endState (run Trial.configuration Trial.options
      (Session.start Trial.awkward (.start 0 false)))).world.spawns = starts := hspawns
  rw [hstarts] at hprobe
  exact ⟨starts, version, cases, hstarts, hargv, hcases, hprobe⟩

end Harness

end RoundTrip
