import RoundTrip.Proofs.Calls
import RoundTrip.Proofs.Discovery
import RoundTrip.Proofs.Journal
import RoundTrip.Proofs.Phases

/-! # Errors of the setup, and defects

    An error of the setup shows before the first case, and a defect after it: the two come
    from different phases of a run (`OnSchedule.meets_prepare`, `OnSchedule.meets_run`),
    and the last phase ends in neither.  What has been done by the time of the first is the
    version check and some warnings (`Harness.OnlyChecked`); what must have been in order
    by the time of the second is all of the setup (`Harness.SetUp`).
    **`Harness.setup_errors_and_defects_apart`** -/

namespace RoundTrip

open Step (endState)

/-! ## The search for sources -/

namespace Discovery

variable {roots : List Path} {c : Criteria} {w w' : World}

/-- What is printed of roots that are skipped. -/
def warnings : List Path → String
  | [] => ""
  | root :: rest =>
      "[ast-import] warn: test directory not readable: " ++ root.text ++ "\n" ++ warnings rest

@[simp] theorem warnings_nil : warnings [] = "" := rfl

@[simp] theorem warnings_cons (root : Path) (rest : List Path) :
    warnings (root :: rest)
      = "[ast-import] warn: test directory not readable: " ++ root.text ++ "\n" ++ warnings rest :=
  rfl

/-- Whether a root is skipped. -/
def skips (w : World) (root : Path) : Bool :=
  match isReadable w root with
  | .ok readable => !readable
  | .error _ => false

/-- The search for roots delivers those that are not skipped and warns of the others, each in
    their order. -/
theorem readableRoots_filter {rs : List Path} (h : readableRoots roots w = .ok rs w') :
    rs = roots.filter (fun root => !skips w root)
      ∧ w' = { w with stdout := w.stdout ++ warnings (roots.filter (skips w)) } := by
  induction roots generalizing w rs with
  | nil =>
      rw [readableRoots, Step.pure_apply] at h
      cases h
      rw [List.filter_nil, List.filter_nil, warnings_nil, String.append_empty]
      exact ⟨rfl, rfl⟩
  | cons root rest ih =>
      rw [List.filter_cons, List.filter_cons]
      obtain ⟨hread, others, hothers, rfl⟩ | ⟨hread, hskipped⟩ := readableRoots_cons_eq_ok h
      · obtain ⟨hrest, hw⟩ := ih hothers
        rw [show skips w root = false by rw [skips, hread]; rfl]
        exact ⟨congrArg (root :: ·) hrest, hw⟩
      · obtain ⟨hrest, hw⟩ := ih hskipped
        have hprinted : w.stdout
            ++ ("[ast-import] warn: test directory not readable: " ++ root.text ++ "\n")
            ++ warnings (rest.filter (skips w))
            = w.stdout ++ warnings (root :: rest.filter (skips w)) := by
          rw [warnings_cons, String.append_assoc]
        rw [show skips w root = true by rw [skips, hread]; rfl]
        exact ⟨hrest, hw.trans (congrArg (fun out => { w with stdout := out }) hprinted)⟩

/-- Where no root can be searched, there is a warning of each. -/
theorem readableRoots_eq_nil (h : readableRoots roots w = .ok [] w') :
    w' = { w with stdout := w.stdout ++ warnings roots } := by
  obtain ⟨hnone, hw⟩ := readableRoots_filter h
  have hall : ∀ root ∈ roots, skips w root = true := by
    simpa using List.filter_eq_nil_iff.mp hnone.symm
  rwa [List.filter_eq_self.mpr hall] at hw

/-- What is wrong with the setup is that no root can be searched. -/
theorem findSources_eq_setup {e : SetupError}
    (h : findSources roots c w = .error (.setup e) w') :
    w' = { w with stdout := w.stdout ++ warnings roots } := by
  unfold findSources at h
  obtain h | ⟨readable, w₁, hreadable, h⟩ := Step.bind_eq_error_iff.mp h
  · cases ((OnSchedule.trivial none).meets_readableRoots roots).fails _ _ _ h
  split at h
  · rename_i hempty
    cases h
    rw [List.isEmpty_iff.mp hempty] at hreadable
    exact readableRoots_eq_nil hreadable
  · obtain h | ⟨_, w₂, hget, h⟩ := Step.bind_eq_error_iff.mp h
    · cases h
    obtain h | ⟨found, w₃, -, h⟩ := Step.bind_eq_error_iff.mp h
    · obtain ⟨e', -, he, -⟩ := Step.of_ofExcept_eq_error h
      cases he
    obtain ⟨_, stdout, stderr, hprints⟩ :=
      (prints_bind (prints_log .discovery _) fun _ => prints_pure _) w₃
    rw [hprints] at h
    cases h

/-- Sources come from a root that can be searched. -/
theorem exists_isReadable {sources : List Path} (h : findSources roots c w = .ok sources w') :
    ∃ root ∈ roots, isReadable w root = .ok true := by
  unfold findSources at h
  obtain ⟨readable, w₁, hreadable, h⟩ := Step.bind_eq_ok_iff.mp h
  obtain ⟨-, hroots⟩ := readableRoots_eq_ok hreadable
  cases readable with
  | nil => cases h
  | cons root rest => exact ⟨root, (hroots root).mp List.mem_cons_self⟩

end Discovery

namespace Harness

variable {s : Configuration} {o : Options} {w w₁ w' : World} {t : Tally} {s' : Session}

/-! ## The checks -/

/-- A compiler that tells its version was called, ended in time and exited with 0. -/
theorem identify_eq_ok {version : String} (h : (compiler s o).identify w = .ok version w₁) :
    ∃ i, (compiler s o).version.run w = .ok i w₁ ∧ i.timedOut = false ∧ i.exitCode = 0 := by
  unfold Compiler.identify at h
  obtain ⟨_, _, hget, h⟩ := Step.bind_eq_ok_iff.mp h
  cases hget
  obtain ⟨isThere, _, hfile, h⟩ := Step.bind_eq_ok_iff.mp h
  obtain ⟨-, rfl⟩ := Step.of_ofExcept_eq_ok hfile
  cases isThere with
  | false => cases h
  | true =>
      rw [if_pos rfl] at h
      obtain ⟨i, w₂, hcatch, h⟩ := Step.bind_eq_ok_iff.mp h
      by_cases hi : i.ok = true
      · rw [if_pos hi] at h
        cases h
        unfold Step.catching at hcatch
        cases hrun : (compiler s o).version.run _ with
        | error e w₃ =>
            rw [hrun] at hcatch
            cases hcatch
        | ok j w₃ =>
            rw [hrun] at hcatch
            cases hcatch
            unfold Invocation.ok at hi
            simp only [Bool.and_eq_true, beq_iff_eq, Bool.not_eq_true'] at hi
            exact ⟨i, rfl, hi.2, hi.1⟩
      · rw [if_neg hi] at h
        cases h

/-- Before the cases a world is as the version check has left it, apart from the console;
    or nothing was called at all. -/
theorem endState_identify (s : Configuration) (o : Options) (w : World) :
    endState ((compiler s o).identify w) = w
      ∨ endState ((compiler s o).identify w) = endState ((compiler s o).version.run w) := by
  obtain ⟨e, hidentify⟩ | ⟨-, hend⟩ := identify_cases s o w
  · rw [hidentify]
    exact Or.inl rfl
  · exact Or.inr hend

/-- Where the setup is wrong, what has been done is to call the compiler for its version,
    and to warn of the roots if none can be searched. -/
theorem prepare_eq_setup {e : SetupError} (h : prepare s o w = .error (.setup e) w') :
    ∃ skipped stderr, (skipped = [] ∨ skipped = s.testRoots)
      ∧ w' = { endState ((compiler s o).identify w) with
        stdout := (endState ((compiler s o).identify w)).stdout ++ Discovery.warnings skipped
        stderr := stderr } := by
  unfold prepare at h
  -- the error is one of the compiler, of the splitter or of the roots; only the last has
  -- printed warnings
  obtain h | ⟨version, w₁, hidentify, h⟩ := Step.bind_eq_error_iff.mp h
  · rw [h]
    refine ⟨[], w'.stderr, Or.inl rfl, ?_⟩
    rw [Discovery.warnings_nil, String.append_empty]
    rfl
  rw [hidentify]
  obtain ⟨stderr, hlog⟩ := World.log_apply .harness
    ("compiler " ++ s.compilerPath.text ++ ": " ++ version) w₁
  rw [Step.bind_ok hlog, Step.bind_ok (Step.get_apply _)] at h
  obtain h | ⟨hasSplitter, w₂, hfile, h⟩ := Step.bind_eq_error_iff.mp h
  · obtain ⟨e', -, he, -⟩ := Step.of_ofExcept_eq_error h
    cases he
  obtain ⟨-, rfl⟩ := Step.of_ofExcept_eq_ok hfile
  cases hasSplitter with
  | false =>
      cases h
      refine ⟨[], stderr, Or.inl rfl, ?_⟩
      rw [Discovery.warnings_nil, String.append_empty]
      rfl
  | true =>
      rw [if_pos rfl] at h
      obtain h | ⟨sources, w₃, -, h⟩ := Step.bind_eq_error_iff.mp h
      · exact ⟨s.testRoots, stderr, Or.inr rfl, Discovery.findSources_eq_setup h⟩
      · cases h

/-! ## The phases of a run -/

/-- A run that ends in a fault was still going through its cases, or the disk has refused
    its report. -/
theorem run_eq_error {s₀ : Session} {e : Fault} (h : run s o s₀ = .error e s') :
    goThrough s o s₀ = .error e s' ∨ ∃ s₁, goThrough s o s₀ = .ok () s₁ ∧ e.OfPath := by
  rw [run_eq] at h
  obtain h | ⟨_, s₁, hcases, h⟩ := Step.bind_eq_error_iff.mp h
  · exact Or.inl h
  obtain h | ⟨_, s₂, hget, h⟩ := Step.bind_eq_error_iff.mp h
  · cases h
  cases hget
  obtain h | ⟨_, s₃, -, h⟩ := Step.bind_eq_error_iff.mp h
  · obtain ⟨w', hconclude, -⟩ := Session.inWorld_eq_error h
    exact Or.inr ⟨s₁, hcases, fails_conclude s o _ _ _ _ hconclude⟩
  · cases h

/-- The fault comes from the checks of the setup, or from a case. -/
theorem goThrough_eq_error {e : Fault} (h : goThrough s o (Session.start w t) = .error e s') :
    (∃ w', prepare s o w = .error e w' ∧ s' = Session.start w' t)
      ∨ ∃ sources w₁, prepare s o w = .ok sources w₁
        ∧ (plan s o).run sources
          (Session.start w₁ (.start sources.length o.report.isSome)) = .error e s' := by
  unfold goThrough at h
  obtain h | ⟨sources, s₁, h₁, h⟩ := Step.bind_eq_error_iff.mp h
  · obtain ⟨w', hprepare, rfl⟩ := Session.inWorld_eq_error h
    exact Or.inl ⟨w', hprepare, rfl⟩
  obtain ⟨w₁, hprepare, rfl⟩ := Session.inWorld_eq_ok h₁
  obtain h | ⟨_, s₂, h₂, h⟩ := Step.bind_eq_error_iff.mp h
  · cases h
  cases h₂
  exact Or.inr ⟨sources, w₁, hprepare, h⟩

/-- What a run has done that has only checked its setup. -/
structure OnlyChecked (s : Configuration) (o : Options) (w : World) (t : Tally) (s' : Session) :
    Prop where
  /-- No case was started, and no workspace was made. -/
  journal_eq : s'.journal = []
  tally_eq : s'.tally = t
  workspaceCount_eq : s'.world.workspaceCount = w.workspaceCount
  /-- No progress was shown, only warnings of the roots if none can be searched. -/
  stdout_eq : ∃ skipped, (skipped = [] ∨ skipped = s.testRoots)
    ∧ s'.world.stdout = w.stdout ++ Discovery.warnings skipped
  /-- The compiler was called for its version, if anything was called at all, and the disk
      is as it was left then. -/
  called : s'.world.spawns = w.spawns ∧ s'.world.disk = w.disk
    ∨ ∃ k : Spawn, k.Of (compiler s o).version ∧ s'.world.spawns = w.spawns ++ [k]
      ∧ s'.world.disk = (endState ((compiler s o).version.run w)).disk

theorem onlyChecked_of_prepare {e : SetupError} (h : prepare s o w = .error (.setup e) w')
    (t : Tally) : OnlyChecked s o w t (Session.start w' t) := by
  obtain ⟨skipped, stderr, hskipped, rfl⟩ := prepare_eq_setup h
  obtain hend | hend := endState_identify s o w
  · rw [hend]
    exact ⟨rfl, rfl, rfl, ⟨skipped, hskipped, rfl⟩, Or.inl ⟨rfl, rfl⟩⟩
  · rw [hend]
    have hran := Command.ran_run (compiler s o).version w
    obtain ⟨limit, killed, hspawns⟩ := hran.spawns_eq
    obtain ⟨disk, clock, stderr', limit', killed', hw⟩ := hran.changed
    refine ⟨rfl, rfl, ?_, ⟨skipped, hskipped, ?_⟩,
      Or.inr ⟨_, ⟨w, limit, killed, rfl⟩, hspawns, rfl⟩⟩
    · show (endState ((compiler s o).version.run w)).workspaceCount = _
      rw [hw]
    · show (endState ((compiler s o).version.run w)).stdout ++ _ = _
      rw [hw]

/-- What is known of a run that has come to its cases. -/
structure SetUp (s : Configuration) (o : Options) (w : World) (s' : Session) : Prop where
  started : ∃ source, .started source ∈ s'.journal
  /-- The first call was the one for the version; it has ended in time, with 0. -/
  version : ∃ i w₁ k rest, (compiler s o).version.run w = .ok i w₁ ∧ i.timedOut = false
    ∧ i.exitCode = 0 ∧ k.Of (compiler s o).version ∧ s'.world.spawns = w.spawns ++ k :: rest
  splitter : Checked s o w .splitter
  readable : ∃ root ∈ s.testRoots,
    Discovery.isReadable (endState ((compiler s o).identify w)) root = .ok true

/-- Where the setup is in order, the compiler has told its version, and then the sources were
    found. -/
theorem findSources_of_prepare {sources : List Path} (h : prepare s o w = .ok sources w₁) :
    ∃ version w₂ stderr w₃, (compiler s o).identify w = .ok version w₂
      ∧ Discovery.findSources s.testRoots (criteria s) { w₂ with stderr := stderr }
        = .ok sources w₃
      ∧ World.printLine ("Looking at " ++ toString sources.length ++ " " ++ s.sourceSuffix
        ++ " files...") w₃ = .ok () w₁ := by
  unfold prepare at h
  obtain ⟨version, w₂, hidentify, h⟩ := Step.bind_eq_ok_iff.mp h
  obtain ⟨stderr, hlog⟩ := World.log_apply .harness
    ("compiler " ++ s.compilerPath.text ++ ": " ++ version) w₂
  rw [Step.bind_ok hlog, Step.bind_ok (Step.get_apply _)] at h
  obtain ⟨hasSplitter, _, hfile, h⟩ := Step.bind_eq_ok_iff.mp h
  obtain ⟨-, rfl⟩ := Step.of_ofExcept_eq_ok hfile
  cases hasSplitter with
  | false => cases h
  | true =>
      rw [if_pos rfl] at h
      obtain ⟨found, w₃, hfound, h⟩ := Step.bind_eq_ok_iff.mp h
      obtain ⟨⟨⟩, w₄, hprint, hpure⟩ := Step.bind_eq_ok_iff.mp h
      cases hpure
      exact ⟨version, w₂, stderr, w₃, hidentify, hfound, hprint⟩

/-- Sources are found where the compiler has told its version and a root can be searched. -/
theorem prepare_eq_ok {sources : List Path} (h : prepare s o w = .ok sources w₁) :
    (∃ i w₂, (compiler s o).version.run w = .ok i w₂ ∧ i.timedOut = false ∧ i.exitCode = 0
        ∧ w₁.spawns = w₂.spawns)
      ∧ ∃ root ∈ s.testRoots,
        Discovery.isReadable (endState ((compiler s o).identify w)) root = .ok true := by
  have hrecord := record_prepare s o w
  obtain ⟨version, w₂, stderr, w₃, hidentify, hfound, -⟩ := findSources_of_prepare h
  rw [h, hidentify] at hrecord
  rw [hidentify]
  simp only [World.record, Prod.mk.injEq, endState] at hrecord
  obtain ⟨i, hrun, htime, hcode⟩ := identify_eq_ok hidentify
  obtain ⟨root, hroot, hread⟩ := Discovery.exists_isReadable hfound
  exact ⟨⟨i, w₂, hrun, htime, hcode, hrecord.2.2.2⟩, root, hroot, hread⟩

theorem setUp_of_error {sources : List Path} {e : Fault} (hprepare : prepare s o w = .ok sources w₁)
    (h : (plan s o).run sources (Session.start w₁ t) = .error e s') : SetUp s o w s' := by
  obtain ⟨⟨i, w₂, hrun, htime, hcode, hspawns⟩, hreadable⟩ := prepare_eq_ok hprepare
  refine ⟨Plan.exists_started_of_error h, ?_, checked_of_prepare_eq_ok hprepare .splitter,
    hreadable⟩
  have hran := Command.ran_run (compiler s o).version w
  rw [hrun] at hran
  obtain ⟨limit, killed, hstart⟩ := hran.spawns_eq
  -- the cases only add to the starts
  have hcalls : Calls (fun _ => True) w₁ s'.world := by
    have hkeeps : Step.Keeps (fun s : Session => Calls (fun _ => True) w₁ s.world)
        ((plan s o).run sources) :=
      Calls.keeps_run (quietHooks_plan s o) (fun _ => rfl) (fun _ _ => trivial)
        (fun _ _ => Verification.allCommands_true _ _ _ _) sources
    have hend := hkeeps (Session.start w₁ t) (Calls.refl _ w₁)
    rwa [h] at hend
  obtain ⟨-, -, rest, hrest, -⟩ := hcalls
  refine ⟨i, w₂, _, rest, hrun, htime, hcode, ⟨w, limit, killed, rfl⟩, ?_⟩
  rw [hrest, hspawns, show w₂.spawns = _ from hstart, List.append_assoc]
  rfl

/-- **Errors of the setup and defects do not mix.**  A run that ends with an error of the
    setup has started no case, and no process but the compiler for its version.  One that
    ends with a defect has started a case: the compiler had told its version, the splitter
    was there, and a root could be searched. -/
theorem setup_errors_and_defects_apart {e : Fault}
    (h : run s o (Session.start w t) = .error e s') :
    (∀ e', e = .setup e' → OnlyChecked s o w t s') ∧ (∀ d, e = .defect d → SetUp s o w s') := by
  have hsetup := ((OnSchedule.trivial s.limit).meets_prepare o).fails
  constructor
  · rintro e' rfl
    obtain h | ⟨s₁, -, hpath⟩ := run_eq_error h
    · obtain ⟨w', hprepare, rfl⟩ | ⟨sources, w₁, -, hcases⟩ := goThrough_eq_error h
      · exact onlyChecked_of_prepare hprepare t
      · have hcase := ((OnSchedule.trivial s.limit).meets_run o sources).of_eq_error trivial hcases
        cases hcase
    · cases hpath
  · rintro d rfl
    obtain h | ⟨s₁, -, hpath⟩ := run_eq_error h
    · obtain ⟨w', hprepare, rfl⟩ | ⟨sources, w₁, hprepare, hcases⟩ := goThrough_eq_error h
      · cases hsetup _ _ _ hprepare
      · exact setUp_of_error hprepare hcases
    · cases hpath

/-- A world without a compiler. -/
def Trial.bare : World := { Trial.world with disk := ⟨[(["t"], .dir)]⟩ }

/-- A world whose compiler cannot be started any more when it is to export the first
    document. -/
def Trial.broken : World :=
  { Trial.world with
    script := [.idle, { Process.idle with exitCode := 1 }, .idle,
      { Process.idle with startError := some "gone" }] }

/-- A run that finds no compiler, and one that loses it. -/
theorem compiler_missing_or_lost :
    (∃ s', run Trial.configuration Trial.options (Session.start Trial.bare (.start 0 false))
        = .error (.setup (.compilerNotFound ⟨.here, ["build", "solc"]⟩)) s'
      ∧ OnlyChecked Trial.configuration Trial.options Trial.bare (.start 0 false) s')
    ∧ ∃ s', run Trial.configuration Trial.options (Session.start Trial.broken (.start 0 false))
        = .error (.defect (.notStarted "build/solc" "gone")) s'
      ∧ SetUp Trial.configuration Trial.options Trial.broken s' := by
  have hbare : Step.error? (run Trial.configuration Trial.options
      (Session.start Trial.bare (.start 0 false)))
        = some (.setup (.compilerNotFound ⟨.here, ["build", "solc"]⟩)) := by decide +kernel
  have hbroken : Step.error? (run Trial.configuration Trial.options
      (Session.start Trial.broken (.start 0 false)))
        = some (.defect (.notStarted "build/solc" "gone")) := by decide +kernel
  obtain ⟨s₁, h₁⟩ := Step.exists_eq_error hbare
  obtain ⟨s₂, h₂⟩ := Step.exists_eq_error hbroken
  exact ⟨⟨s₁, h₁, (setup_errors_and_defects_apart h₁).1 _ rfl⟩,
    s₂, h₂, (setup_errors_and_defects_apart h₂).2 _ rfl⟩

end Harness

end RoundTrip
